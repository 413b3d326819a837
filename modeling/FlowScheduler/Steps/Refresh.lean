import FlowScheduler.Steps.Runs
import FlowScheduler.Steps.Sound

/-! # The silent part of a round

Before it grants anything a round promotes and fails flows, counts deadline
misses and ranks its candidates, without a record. Each flow is changed only at
its own turn.
-/

namespace FlowScheduler

open OrderedMap Relation

namespace Impl

variable {s : Impl} {now : Ticks} {o : ArbitrationOutcome} {id : FlowId} {r : FlowRuntime}

theorem noted_miss (r : FlowRuntime) : r.Noted { r with
    deadlineMissedCounted := true
    accounting.deadlineMisses := r.accounting.deadlineMisses + 1 } :=
  ⟨true, r.starvationCounted, _, rfl, fun _ => rfl, rfl, rfl⟩

theorem countDeadlineMiss_silently : Silently (RoundMove now) s (s.countDeadlineMiss id) := by
  have hcount : RoundMove now s none { s with deadlineMisses := s.deadlineMisses + 1 } :=
    .common .counters
  refine (ReflTransGen.single hcount).tail ?_
  exact .common (.note noted_miss)

theorem handleDeadlineMiss_silently (found : s.flows[id]? = some r)
    (pending : r.lifecycle = .waiting ∨ r.lifecycle = .ready)
    (derived : s.derivedReadiness r now = .error .deadlineMissed) :
    Silently (RoundMove now) s (s.handleDeadlineMiss id r now o).1 := by
  unfold handleDeadlineMiss
  split
  · exact .refl
  · rename_i hcounted
    dsimp only
    split
    · rename_i hstrict
      exact .single (.failDeadline found pending derived hstrict.1 (by simpa using hcounted))
    · exact countDeadlineMiss_silently

theorem deferUnready_silently {reason : DecisionReason} (found : s.flows[id]? = some r)
    (pending : r.lifecycle = .waiting ∨ r.lifecycle = .ready)
    (derived : s.derivedReadiness r now = .error reason) :
    Silently (RoundMove now) s (s.deferUnready id r reason now o).1 := by
  unfold deferUnready
  split
  · rename_i hr
    subst hr
    exact handleDeadlineMiss_silently found pending derived
  · split
    · rename_i hr
      subst hr
      exact .single (.failDependency found pending derived)
    · exact .refl

theorem refreshWaiting_silently
    (waiting : ∀ r, s.flows[id]? = some r → r.lifecycle = .waiting ∨ r.lifecycle = .ambiguous) :
    Silently (RoundMove now) s (refreshWaiting now (s, o) id).1 := by
  unfold refreshWaiting
  dsimp only
  split
  · exact .refl
  · rename_i r hr
    split
    · exact .refl
    · rename_i hamb
      have hl : r.lifecycle = .waiting := (waiting r hr).resolve_right hamb
      split
      · exact .refl
      · split
        · rename_i hd
          exact .single (.common (.ready hr hl hd))
        · rename_i hd
          exact deferUnready_silently hr (.inl hl) hd

theorem sameBut_failFlow {reason : DecisionReason} {detail : String} :
    SameBut id s (s.failFlow id reason detail now) :=
  sameBut_setLifecycle.trans sameBut_modifyFlow

theorem sameBut_countDeadlineMiss : SameBut id s (s.countDeadlineMiss id) := by
  have hcount : SameBut id s { s with deadlineMisses := s.deadlineMisses + 1 } := fun _ _ => rfl
  exact hcount.trans sameBut_modifyFlow

theorem sameBut_deferUnready {reason : DecisionReason} :
    SameBut id s (s.deferUnready id r reason now o).1 := by
  unfold deferUnready
  split
  · unfold handleDeadlineMiss
    split
    · exact .refl
    · dsimp only
      split
      · exact sameBut_countDeadlineMiss.trans sameBut_failFlow
      · exact sameBut_countDeadlineMiss
  · split
    · exact sameBut_failFlow
    · exact .refl

theorem sameBut_refreshWaiting : SameBut id s (refreshWaiting now (s, o) id).1 := by
  unfold refreshWaiting
  dsimp only
  split
  · exact .refl
  · split
    · exact .refl
    · split
      · exact .refl
      · split
        · exact sameBut_setLifecycle.trans sameBut_modifyFlow
        · exact sameBut_deferUnready

theorem foldl_refreshWaiting_silently {ids : List FlowId} (nodup : ids.Nodup)
    {p : Impl × ArbitrationOutcome}
    (waiting : ∀ id ∈ ids, ∀ r, p.1.flows[id]? = some r →
      r.lifecycle = .waiting ∨ r.lifecycle = .ambiguous) :
    Silently (RoundMove now) p.1 (ids.foldl (refreshWaiting now) p).1 := by
  induction ids generalizing p with
  | nil => exact .refl
  | cons id ids ih =>
    obtain ⟨hid, nodup⟩ := List.nodup_cons.mp nodup
    obtain ⟨s, o⟩ := p
    rw [List.foldl_cons]
    refine (refreshWaiting_silently (waiting id List.mem_cons_self)).trans (ih nodup ?_)
    intro k hk r hr
    have hne : k ≠ id := fun h => hid (h ▸ hk)
    rw [sameBut_refreshWaiting k hne] at hr
    exact waiting k (List.mem_cons_of_mem _ hk) r hr

theorem foldl_refreshInflight_silently (ids : List FlowId) (p : Impl × ArbitrationOutcome) :
    Silently (RoundMove now) p.1 (ids.foldl (refreshInflight now) p).1 := by
  induction ids generalizing p with
  | nil => exact .refl
  | cons id ids ih =>
    rw [List.foldl_cons]
    refine ReflTransGen.trans ?_ (ih _)
    unfold refreshInflight
    dsimp only
    split
    · exact .refl
    · split
      · exact countDeadlineMiss_silently
      · exact .refl

theorem nodup_toList (t : KeySet FlowId) : t.toList.Nodup :=
  t.distinct_toList.imp fun h hab => h (by rw [hab]; exact Std.ReflCmp.compare_self)

theorem refreshWaitingSet_silently (keyed : Keyed s) : Silently (RoundMove now) s
    (s.indexes.waiting.toList.foldl (refreshWaiting now) (s, o)).1 := by
  refine foldl_refreshWaiting_silently (p := (s, o)) (nodup_toList _) fun id hid r hr => ?_
  have hmem : id ∈ s.indexes.members .waiting := Std.ExtTreeSet.mem_toList.mp hid
  obtain ⟨r', hr', hslot⟩ := (keyed.index id .waiting (by decide)).mp hmem
  obtain rfl := Option.some.inj (hr.symm.trans hr')
  cases hl : r.lifecycle <;> rw [hl] at hslot <;> first | exact .inl rfl | exact .inr rfl | cases hslot

theorem refreshLifecycles_silently (keyed : Keyed s) :
    Silently (RoundMove now) s (s.refreshLifecycles now o).1 :=
  (refreshWaitingSet_silently keyed).trans (foldl_refreshInflight_silently _ _)

theorem rankFlow_spec (now : Ticks) (p : Impl × List Candidate) (id : FlowId) :
    Silently (RoundMove now) p.1 (rankFlow now p id).1 ∧
      ∃ ranked, (rankFlow now p id).2 = p.2 ++ ranked ∧ (ranked.map Candidate.flow).Sublist [id] := by
  obtain ⟨s, candidates⟩ := p
  unfold rankFlow
  dsimp only
  split
  · exact ⟨.refl, [], by simp, by simp⟩
  · split
    · exact ⟨.refl, [], by simp, by simp⟩
    · dsimp only
      refine ⟨?_, [_], rfl, List.Sublist.refl _⟩
      split
      · refine .single (.common (.note fun r => ?_))
        exact ⟨r.deadlineMissedCounted, true, _, rfl, fun h => h, rfl, rfl⟩
      · exact .refl

theorem foldl_rankFlow_spec (now : Ticks) (ids : List FlowId) (p : Impl × List Candidate) :
    Silently (RoundMove now) p.1 (ids.foldl (rankFlow now) p).1 ∧
      ∃ ranked, (ids.foldl (rankFlow now) p).2 = p.2 ++ ranked ∧
        (ranked.map Candidate.flow).Sublist ids := by
  induction ids generalizing p with
  | nil => exact ⟨.refl, [], by simp, by simp⟩
  | cons id ids ih =>
    rw [List.foldl_cons]
    obtain ⟨hm, ranked, hr, hs⟩ := rankFlow_spec now p id
    obtain ⟨hm', ranked', hr', hs'⟩ := ih (rankFlow now p id)
    refine ⟨hm.trans hm', ranked ++ ranked', ?_, ?_⟩
    · rw [hr', hr, List.append_assoc]
    · rw [List.map_append]
      exact hs.append hs'

theorem rankCandidates_spec :
    Silently (RoundMove now) s (s.rankCandidates now).1 ∧
      ((s.rankCandidates now).2.map Candidate.flow).Nodup := by
  obtain ⟨hm, ranked, hr, hs⟩ := foldl_rankFlow_spec now s.indexes.ready.toList (s, [])
  refine ⟨hm, ?_⟩
  dsimp only [rankCandidates, indexed]
  refine ((List.perm_insertionSort _ _).map _).nodup_iff.mpr ?_
  rw [hr, List.nil_append]
  exact hs.nodup (nodup_toList _)

theorem rollPreemptionWindow_silently :
    Silently (RoundMove now) s (s.rollPreemptionWindow now) := by
  unfold rollPreemptionWindow
  generalize (if s.policy.preemptionIntervalTicks = 0 then 0
    else now / s.policy.preemptionIntervalTicks) = window
  dsimp only
  split
  · exact .single (.common .counters)
  · exact .refl

section Setting

theorem setting_deferUnready {reason : DecisionReason} :
    (s.deferUnready id r reason now o).1.setting = s.setting := keeps_setting.deferUnready

theorem resources_deferUnready {reason : DecisionReason} :
    (s.deferUnready id r reason now o).1.resources = s.resources := by
  unfold deferUnready
  split
  · unfold handleDeadlineMiss
    split
    · rfl
    · dsimp only
      split <;> rfl
  · split <;> rfl

theorem setting_refreshLifecycles : (s.refreshLifecycles now o).1.setting = s.setting :=
  keeps_setting.refreshLifecycles

theorem setting_rankCandidates : (s.rankCandidates now).1.setting = s.setting :=
  keeps_setting.rankCandidates

theorem setting_rollPreemptionWindow : (s.rollPreemptionWindow now).setting = s.setting := by
  unfold rollPreemptionWindow
  dsimp only
  split
  · split <;> rfl
  · split <;> rfl

end Setting

end Impl

end FlowScheduler

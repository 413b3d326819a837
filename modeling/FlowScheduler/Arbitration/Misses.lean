import FlowScheduler.Arbitration.Sparing

/-! # Missed deadlines

Under a strict policy a round fails a flow whose deadline has passed when it
comes to it. The miss is noted on the flow, and a flow that carries the note is
passed over, whoever left it there.
-/

namespace FlowScheduler

open ByteCodec (Bytes)
open Failing SchedOp Impl OrderedMap

section Readiness

variable {s s' : Impl} {now : Ticks} {r : FlowRuntime} {touched : FlowId → Prop}

theorem satisfied_of_missed (h : s.derivedReadiness r now = .error .deadlineMissed) :
    s.dependenciesSatisfied r := by
  by_contra hunsatisfied
  unfold derivedReadiness at h
  rw [if_pos hunsatisfied] at h
  split_ifs at h <;> cases h

theorem released_of_missed (h : s.derivedReadiness r now = .error .deadlineMissed) :
    ¬ now < r.descriptor.releaseTick := by
  intro hearly
  unfold derivedReadiness at h
  rw [if_pos hearly] at h
  split_ifs at h <;> cases h

theorem derivedReadiness_congr (satisfied : s.dependenciesSatisfied r)
    (satisfied' : s'.dependenciesSatisfied r) (reservations : s'.reservations = s.reservations) :
    s'.derivedReadiness r now = s.derivedReadiness r now := by
  unfold derivedReadiness
  rw [reservationUsable_congr reservations, satisfied, satisfied']
  simp only [not_true_eq_false, if_false]

/-- Whether a flow may be arbitrated stays so where the completed flows are spared. -/
theorem Spared.derivedReadiness (h : Spared touched s s')
    (completed : ∀ id r, s.flows[id]? = some r → r.lifecycle = .completed → ¬ touched id)
    (satisfied : s.dependenciesSatisfied r) :
    s'.derivedReadiness r now = s.derivedReadiness r now := by
  refine derivedReadiness_congr satisfied ?_ h.reservations
  refine dependenciesSatisfied_iff.mpr fun dependency hdependency => ?_
  obtain ⟨found, hfound, hcompleted⟩ := dependenciesSatisfied_iff.mp satisfied dependency hdependency
  have hunengaged : found.lifecycle.unengaged := by
    rw [hcompleted]
    exact ⟨⟨by decide, by decide⟩, by decide⟩
  obtain ⟨found', hfound', hstands⟩ :=
    h.stands dependency found (completed _ _ hfound hcompleted) hfound hunengaged
  exact ⟨found', hfound', hstands.lifecycle.trans hcompleted⟩

theorem Spared.missed (h : Spared touched s s')
    (completed : ∀ id r, s.flows[id]? = some r → r.lifecycle = .completed → ¬ touched id)
    (missed : s.derivedReadiness r now = .error .deadlineMissed) :
    s'.derivedReadiness r now = .error .deadlineMissed :=
  (h.derivedReadiness completed (satisfied_of_missed missed)).trans missed

theorem FlowRuntime.Stands.derivedReadiness {r' : FlowRuntime} (h : r.Stands r') :
    s.derivedReadiness r' now = s.derivedReadiness r now := by
  obtain ⟨_, _, rfl⟩ := h
  rfl

end Readiness

/-- The flow has failed, or it carried the note of a miss and stands as it did. -/
def Impl.Settles (i : Impl) (id : FlowId) (r : FlowRuntime) : Prop :=
  ∃ r', i.flows[id]? = some r' ∧
    if r.deadlineMissedCounted then r.Stands r' else r'.lifecycle = .failed

section Settling

variable {s s' : Impl} {now : Ticks} {id : FlowId} {r r₀ : FlowRuntime} {touched : FlowId → Prop}

theorem unengaged_of_pending (pending : r.lifecycle = .waiting ∨ r.lifecycle = .ready) :
    r.lifecycle.unengaged := by
  rcases pending with h | h <;> rw [h] <;> exact ⟨⟨by decide, by decide⟩, by decide⟩

theorem Impl.Settles.lifecycle (h : s.Settles id r) : ∃ r', s.flows[id]? = some r' ∧
    (r'.lifecycle = .failed ∨ r'.lifecycle = r.lifecycle) := by
  obtain ⟨r', hr', hsettled⟩ := h
  refine ⟨r', hr', ?_⟩
  split at hsettled
  · exact .inr hsettled.lifecycle
  · exact .inl hsettled

theorem Impl.Settles.of_stands (h : s.Settles id r) (stands : r₀.Stands r) : s.Settles id r₀ := by
  obtain ⟨r', hr', hsettled⟩ := h
  have hcounted : r.deadlineMissedCounted = r₀.deadlineMissedCounted := by
    obtain ⟨_, _, rfl⟩ := stands
    rfl
  refine ⟨r', hr', ?_⟩
  rw [hcounted] at hsettled
  split at hsettled
  · rw [if_pos ‹_›]
    exact stands.trans hsettled
  · rw [if_neg ‹_›]
    exact hsettled

theorem Spared.settles (h : Spared touched s s') (free : ¬ touched id)
    (pending : r.lifecycle = .waiting ∨ r.lifecycle = .ready) (settled : s.Settles id r) :
    s'.Settles id r := by
  obtain ⟨r', hr', hlifecycle⟩ := settled.lifecycle
  have hunengaged : r'.lifecycle.unengaged := by
    rcases hlifecycle with hl | hl
    · rw [hl]
      exact ⟨⟨by decide, by decide⟩, by decide⟩
    · rw [hl]
      exact unengaged_of_pending pending
  obtain ⟨r'', hr'', hstands⟩ := h.stands id r' free hr' hunengaged
  obtain ⟨x, hx, hsettled⟩ := settled
  obtain rfl := Option.some.inj (hr'.symm.trans hx)
  refine ⟨r'', hr'', ?_⟩
  split at hsettled
  · rw [if_pos ‹_›]
    exact hsettled.trans hstands
  · rw [if_neg ‹_›]
    exact hstands.lifecycle.trans hsettled

theorem settles_deferUnready {o : ArbitrationOutcome} (strict : s.policy.strictDeadlines)
    (found : s.flows[id]? = some r) (pending : r.lifecycle = .waiting ∨ r.lifecycle = .ready) :
    (s.deferUnready id r .deadlineMissed now o).1.Settles id r := by
  unfold deferUnready handleDeadlineMiss
  rw [if_pos rfl]
  split
  · rename_i hcounted
    exact ⟨r, found, by rw [if_pos hcounted]; exact .refl r⟩
  · rename_i hcounted
    have hlive : ¬ r.lifecycle.isTerminal := by
      rcases pending with h | h <;> rw [h] <;> decide
    dsimp only
    rw [if_pos ⟨strict, hlive⟩]
    simp only [Impl.Settles, if_neg hcounted, failFlow, countDeadlineMiss, Impl.recordStep,
      Impl.setLifecycle, Impl.modifyFlow, get_modify, if_true, found, Option.map_some]
    exact ⟨_, rfl, by simp⟩

/-- A waiting flow has its turn when the waiting set is refreshed, as it stood before. -/
theorem refreshWaitingSet_turn (o : ArbitrationOutcome) (keyed : Keyed s)
    (found : s.flows[id]? = some r) (waiting : r.lifecycle = .waiting)
    (satisfied : s.dependenciesSatisfied r) :
    ∃ i o₁ r', i.flows[id]? = some r' ∧ r.Stands r' ∧ i.policy = s.policy ∧
      i.virtualTime = s.virtualTime ∧ i.derivedReadiness r' now = s.derivedReadiness r now ∧
      Spared (· ≠ id) (refreshWaiting now (i, o₁) id).1
        (s.indexes.waiting.toList.foldl (refreshWaiting now) (s, o)).1 := by
  have hlisted : ∀ k x, s.flows[k]? = some x → k ∈ s.indexes.waiting.toList →
      x.lifecycle.slot = .waiting := fun k x hx hk =>
    slot_of_indexed .waiting keyed (by decide) (Std.ExtTreeSet.mem_toList.mp hk) hx
  have hmem : id ∈ s.indexes.waiting.toList :=
    Std.ExtTreeSet.mem_toList.mpr ((keyed.index id .waiting (by decide)).mpr
      ⟨r, found, by rw [waiting]; rfl⟩)
  obtain ⟨before, after, hsplit⟩ := List.append_of_mem hmem
  have hnodup := nodup_toList s.indexes.waiting
  rw [hsplit] at hnodup hlisted ⊢
  obtain ⟨-, hcons, hdisjoint⟩ := List.nodup_append.mp hnodup
  have hbefore : id ∉ before := fun h => hdisjoint id h id List.mem_cons_self rfl
  have hafter := (List.nodup_cons.mp hcons).1
  rw [List.foldl_append, List.foldl_cons]
  have hspares : Spared (· ∈ before) s (before.foldl (refreshWaiting now) (s, o)).1 :=
    Spared.foldl Spared.refreshWaiting before (s, o)
  generalize before.foldl (refreshWaiting now) (s, o) = q at hspares
  obtain ⟨i, o₁⟩ := q
  obtain ⟨r', hr', hstands⟩ :=
    hspares.stands id r hbefore found (unengaged_of_pending (.inl waiting))
  refine ⟨i, o₁, r', hr', hstands, hspares.policy, hspares.clocks, ?_, ?_⟩
  · rw [hstands.derivedReadiness]
    refine hspares.derivedReadiness (fun k x hx hcompleted hk => ?_) satisfied
    have hslot := hlisted k x hx (List.mem_append_left _ hk)
    rw [hcompleted] at hslot
    cases hslot
  · refine (Spared.foldl Spared.refreshWaiting after _).mono ?_
    rintro k hk rfl
    exact hafter hk

theorem settles_refreshWaitingSet {o : ArbitrationOutcome} (keyed : Keyed s)
    (strict : s.policy.strictDeadlines) (found : s.flows[id]? = some r)
    (waiting : r.lifecycle = .waiting) (missed : s.derivedReadiness r now = .error .deadlineMissed) :
    (s.indexes.waiting.toList.foldl (refreshWaiting now) (s, o)).1.Settles id r := by
  obtain ⟨i, o₁, r', hr', hstands, hpolicy, -, hderived, hspares⟩ :=
    refreshWaitingSet_turn o keyed found waiting (satisfied_of_missed missed)
  have hwaiting : r'.lifecycle = .waiting := hstands.lifecycle.trans waiting
  have hmissed := hderived.trans missed
  have hturn : refreshWaiting now (i, o₁) id = i.deferUnready id r' .deadlineMissed now o₁ := by
    unfold refreshWaiting
    dsimp only
    rw [hr']
    dsimp only
    rw [if_neg (by rw [hwaiting]; decide), if_neg (released_of_missed hmissed), hmissed]
  refine hspares.settles (fun h => h rfl) (.inl waiting) ?_
  rw [hturn]
  exact (settles_deferUnready (by rw [hpolicy, strict]) hr' (.inl hwaiting)).of_stands hstands

end Settling

section Turns

variable {s t u : Scheduler} {i i' : Impl} {now : Ticks} {limit : ℕ} {c : Candidate}
  {cs : List Candidate} {round round' : Round} {id : FlowId} {r : FlowRuntime}

theorem Decides.undecided (sound : Sound i) (anchored : i.ledger.Anchored)
    (h : Decides now limit c i round i' round') (found : i.flows[id]? = some r)
    (idle : r.lifecycle.slot ≠ .inflight) (free : id ∉ round.decided) : id ∉ round'.decided := by
  have hstopped : ∀ {flow : FlowRuntime} {victim : Victim},
      (i.rolled flow.descriptor now).chooseVictim c flow.descriptor now = .ok victim →
      id ∉ round.decided.insert victim.record.ticket.flow := by
    intro flow victim chosen hdecided
    rcases Std.ExtTreeSet.mem_insert.mp hdecided with hsame | hdecided
    · obtain ⟨hfound, hbusy, -⟩ := (rolled_serves sound.keyed anchored chosen).incumbent
      rw [Std.LawfulEqCmp.eq_of_compare hsame] at hfound
      obtain rfl := Option.some.inj (found.symm.trans hfound)
      exact idle hbusy
    · exact free hdecided
  cases h with
  | passed | unready | deferred | blocked | windowless | granted => exact free
  | displaced _ _ _ _ _ chosen _ entered | replaced _ _ _ _ _ chosen _ entered =>
    subst entered
    exact hstopped chosen

theorem DecidesAll.undecided (anchored : s.impl.ledger.Anchored)
    (h : DecidesAll now limit cs s round t round') (others : id ∉ cs.map Candidate.flow)
    (found : s.impl.flows[id]? = some r) (ready : r.lifecycle = .ready)
    (free : id ∉ round.decided) : id ∉ round'.decided := by
  have hpending : ∀ x : FlowRuntime, r.Stands x → x.lifecycle = .ready :=
    fun x hx => hx.lifecycle.trans ready
  refine (h.scans (P := fun rest i round => id ∉ rest.map Candidate.flow ∧
    (∃ r', i.flows[id]? = some r' ∧ r.Stands r') ∧ id ∉ round.decided) ?_ anchored
      ⟨others, ⟨r, found, .refl r⟩, free⟩).2.2
  rintro c rest i round i' round' sound anchored step ⟨hothers, ⟨r', hr', hstands⟩, hfree⟩
  have hready := hpending r' hstands
  refine ⟨fun hmem => hothers (List.mem_cons_of_mem _ hmem), ?_,
    step.undecided sound anchored hr' (by rw [hready]; decide) hfree⟩
  obtain ⟨r'', hr'', hstands'⟩ := (step.spares sound).stands id r'
    (fun hid => hothers (hid ▸ List.mem_cons_self)) hr' (unengaged_of_pending (.inr hready))
  exact ⟨r'', hr'', hstands.trans hstands'⟩

theorem Decides.turned_away (h : Decides now limit c i round i' round')
    (found : i.flows[c.flow]? = some r) (ready : r.lifecycle = .ready)
    (free : c.flow ∉ round.decided) (missed : i.derivedReadiness r now = .error .deadlineMissed) :
    i' = (i.deferUnready c.flow r .deadlineMissed now round.outcome).1 ∧
      round'.entries = round.entries := by
  have hunfit : ∀ flow, i.flows[c.flow]? = some flow → i.derivedReadiness flow now ≠ .ok () := by
    intro flow hflow hok
    obtain rfl := Option.some.inj (found.symm.trans hflow)
    rw [missed] at hok
    cases hok
  cases h with
  | passed gone =>
    rcases gone r found with hl | hdecided
    · exact absurd ready hl
    · exact absurd hdecided free
  | unready hfound _ _ derived =>
    obtain rfl := Option.some.inj (found.symm.trans hfound)
    rw [missed] at derived
    cases derived
    exact ⟨rfl, rfl⟩
  | deferred hfound _ derived => exact absurd derived (hunfit _ hfound)
  | blocked eligible | windowless eligible | granted eligible | displaced eligible
  | replaced eligible =>
    exact absurd eligible.derived (hunfit _ eligible.found)

theorem flows_concludeRound {o : ArbitrationOutcome}
    (h : exec (concludeRound now round) s = (.ok o, t))
    (other : ∀ e ∈ round.entries, e.kind = .run → e.flow ≠ id)
    (found : s.impl.flows[id]? = some r) (steady : r.lifecycle.isTransient = false) :
    t.impl.flows[id]? = some r := by
  have hend : ∀ i : Impl, i.flows[id]? = some r →
      ((i.normalizeTransientStates now).maybeRetireSchedules).flows[id]? = some r := by
    intro i hi
    rw [maybeRetireSchedules, flows_retireSchedulesFrom]
    exact steady_normalize hi steady
  by_cases hempty : round.entries = []
  · unfold concludeRound at h
    rw [if_pos hempty] at h
    cases h
    exact hend _ found
  · obtain ⟨hschedule, himpl⟩ := concludeRound_ok hempty h
    rw [himpl, hschedule]
    refine hend _ ?_
    rw [flows_advanceSchedule, applySchedule]
    exact (flows_applyEntries_other other).trans found

/-- A ready flow comes to its turn as it was: the candidates before and after it are other flows, and
none of those before it decides what it depends on. -/
theorem DecidesAll.turn {cs : List Candidate} {round round' : Round}
    (h : DecidesAll now limit cs s round t round') (ranked : ∀ a ∈ cs, s.impl.Ranks now a)
    (nodup : (cs.map Candidate.flow).Nodup) (listed : c ∈ cs)
    (found : s.impl.flows[c.flow]? = some r) (ready : r.lifecycle = .ready)
    (satisfied : s.impl.dependenciesSatisfied r) :
    ∃ before after v mid w next r', c.flow ∉ before.map Candidate.flow ∧
      c.flow ∉ after.map Candidate.flow ∧ DecidesAll now limit before s round v mid ∧
      Sound v.impl ∧ Decides now limit c v.impl mid w.impl next ∧
      DecidesAll now limit after w next t round' ∧ v.impl.flows[c.flow]? = some r' ∧ r.Stands r' ∧
      v.impl.derivedReadiness r' now = s.impl.derivedReadiness r now := by
  obtain ⟨before, after, rfl⟩ := List.append_of_mem listed
  rw [List.map_append, List.map_cons] at nodup
  obtain ⟨-, hcons, hdisjoint⟩ := List.nodup_append.mp nodup
  have hbefore : c.flow ∉ before.map Candidate.flow :=
    fun h => hdisjoint _ h _ List.mem_cons_self rfl
  obtain ⟨v, mid, hfirst, hlater⟩ := h.split
  obtain ⟨r', hr', hstands⟩ :=
    hfirst.spares.stands c.flow r hbefore found (unengaged_of_pending (.inr ready))
  have hderived : v.impl.derivedReadiness r now = s.impl.derivedReadiness r now := by
    refine hfirst.spares.derivedReadiness (fun k x hx hcompleted hk => ?_) satisfied
    obtain ⟨a, ha, rfl⟩ := List.mem_map.mp hk
    obtain ⟨x', hx', hready, -⟩ := ranked a (List.mem_append_left _ ha)
    obtain rfl := Option.some.inj (hx.symm.trans hx')
    rw [hready] at hcompleted
    cases hcompleted
  cases hlater with
  | cons sound step _ rest =>
    exact ⟨before, after, v, mid, _, _, r', hbefore, (List.nodup_cons.mp hcons).1, hfirst, sound, step,
      rest, hr', hstands, hstands.derivedReadiness.trans hderived⟩

end Turns

section Rounds

variable {s t u : Scheduler} {now : Ticks} {p : List Candidate × ArbitrationOutcome} {round : Round}
  {id : FlowId} {r : FlowRuntime}

/-- What a waiting flow comes to before the candidates are considered. -/
theorem openRound_settles (sound : Sound s.impl) (h : exec (openRound now) s = (.ok p, u))
    (strict : s.impl.policy.strictDeadlines) (found : s.impl.flows[id]? = some r)
    (waiting : r.lifecycle = .waiting)
    (missed : s.impl.derivedReadiness r now = .error .deadlineMissed) : u.impl.Settles id r := by
  obtain ⟨i, o, hsound, hreclaimed, hkeyed, hrest⟩ := openRound_spares sound h
  obtain ⟨r', hr', hstands⟩ :=
    hreclaimed.stands id r not_false found (unengaged_of_pending (.inl waiting))
  have hmissed : i.derivedReadiness r' now = .error .deadlineMissed :=
    hstands.derivedReadiness.trans (hreclaimed.missed (fun _ _ _ _ => not_false) missed)
  have hsettled := settles_refreshWaitingSet (o := o) hsound.keyed (by rw [hreclaimed.policy, strict])
    hr' (hstands.lifecycle.trans waiting) hmissed
  refine hrest.settles (fun hindexed => ?_) (.inl waiting) (hsettled.of_stands hstands)
  obtain ⟨x, hx, hlifecycle⟩ := hsettled.lifecycle
  have hslot := slot_of_indexed .inflight hkeyed (by decide) hindexed hx
  rw [hstands.lifecycle, waiting] at hlifecycle
  rcases hlifecycle with hl | hl <;> rw [hl] at hslot <;> cases hslot

theorem decideGrants_settles (sound : Sound s.impl) (anchored : s.impl.ledger.Anchored)
    (h : exec (decideGrants now) s = (.ok round, t)) (strict : s.impl.policy.strictDeadlines)
    (found : s.impl.flows[id]? = some r)
    (pending : r.lifecycle = .waiting ∨ r.lifecycle = .ready)
    (missed : s.impl.derivedReadiness r now = .error .deadlineMissed) :
    t.impl.Settles id r ∧ ∀ e ∈ round.entries, e.kind = .run → e.flow ≠ id := by
  obtain ⟨p, u, hopen, hall⟩ := decideGrants_ok sound h
  obtain ⟨hmakes, -, hranks⟩ := openRound_ok sound hopen
  rcases pending with waiting | ready
  · -- the flow is settled before the candidates are ranked and is none of them
    have hsettled := openRound_settles sound hopen strict found waiting missed
    obtain ⟨x, hx, hlifecycle⟩ := hsettled.lifecycle
    have hnone : id ∉ p.1.map Candidate.flow := by
      intro hmem
      obtain ⟨c, hc, rfl⟩ := List.mem_map.mp hmem
      obtain ⟨x', hx', hready, -⟩ := hranks.ranks c hc
      obtain rfl := Option.some.inj (hx.symm.trans hx')
      rw [hready, waiting] at hlifecycle
      rcases hlifecycle with h | h <;> cases h
    refine ⟨hall.spares.settles hnone (.inl waiting) hsettled, fun e he kind hid => ?_⟩
    obtain ⟨added, hadded, hruns⟩ := hall.enters
    rw [hadded, List.nil_append] at he
    exact hnone (hid ▸ hruns e he kind)
  · have hspares := openRound_spares_ready sound hopen
    have hkept : ¬ ∀ x, s.impl.flows[id]? = some x → x.lifecycle ≠ .ready ∧ x.lifecycle ≠ .completed :=
      fun h => (h r found).1 ready
    obtain ⟨r₁, hr₁, hstands₁⟩ :=
      hspares.stands id r hkept found (unengaged_of_pending (.inr ready))
    have hmissed₁ : u.impl.derivedReadiness r now = .error .deadlineMissed :=
      hspares.missed (fun k x hx hcompleted h => (h x hx).2 hcompleted) missed
    have hready₁ := hstands₁.lifecycle.trans ready
    obtain ⟨c, hc, rfl⟩ := hranks.all id r₁ hr₁ hready₁
    -- the candidates before it leave the flow to its turn, where it is settled
    obtain ⟨before, after, v, mid, w, next, r₂, hbefore, hafter, hfirst, -, step, rest, hr₂, hstands₂,
      hderived⟩ := hall.turn hranks.ranks hranks.nodup hc hr₁ hready₁
        (satisfied_of_missed (hstands₁.derivedReadiness.trans hmissed₁))
    have hstands := hstands₁.trans hstands₂
    have hready₂ := hstands.lifecycle.trans ready
    have hmissed : v.impl.derivedReadiness r₂ now = .error .deadlineMissed :=
      hderived.trans (hstands₁.derivedReadiness.trans hmissed₁)
    have hfree : c.flow ∉ mid.decided :=
      hfirst.undecided (hmakes.anchored anchored) hbefore hr₁ hready₁ (by simp)
    have hstrict : v.impl.policy.strictDeadlines := by
      rw [hfirst.spares.policy, hspares.policy, strict]
    obtain ⟨himpl, hentries⟩ := step.turned_away hr₂ hready₂ hfree hmissed
    have hsettled : w.impl.Settles c.flow r := by
      rw [himpl]
      exact (settles_deferUnready hstrict hr₂ (.inr hready₂)).of_stands hstands
    refine ⟨rest.spares.settles hafter (.inr ready) hsettled, fun e he kind hid => ?_⟩
    obtain ⟨earlier, hearlier, hruns⟩ := hfirst.enters
    obtain ⟨later, hlater, hruns'⟩ := rest.enters
    rw [hlater, hentries, hearlier, List.nil_append] at he
    rcases List.mem_append.mp he with he | he
    · exact hbefore (hid ▸ hruns e he kind)
    · exact hafter (hid ▸ hruns' e he kind)

/-- A strict policy fails a flow whose deadline has passed exactly if the miss was not noted before
the round. -/
theorem missed_fails_iff (s t : Scheduler) (now : Ticks) (o : ArbitrationOutcome) (id : FlowId)
    (r : FlowRuntime) (reachable : Reachable s) (anchored : s.impl.ledger.Anchored)
    (strict : s.impl.policy.strictDeadlines = true)
    (arbitrated : exec (arbitrate now) s = (.ok o, t)) (found : s.impl.flows[id]? = some r)
    (pending : r.lifecycle = .waiting ∨ r.lifecycle = .ready)
    (missed : s.impl.derivedReadiness r now = .error .deadlineMissed) :
    (∃ r', t.impl.flows[id]? = some r' ∧ r'.lifecycle = .failed) ↔
      r.deadlineMissedCounted = false := by
  obtain ⟨round, u, hdecide, hconclude⟩ := arbitrate_ok arbitrated
  obtain ⟨hsettled, hwindowless⟩ :=
    decideGrants_settles reachable.sound anchored hdecide strict found pending missed
  obtain ⟨x, hx, hlifecycle⟩ := hsettled.lifecycle
  have hsteady : x.lifecycle.isTransient = false := by
    rcases hlifecycle with hl | hl
    · rw [hl]
      rfl
    · rcases pending with hp | hp <;> rw [hl, hp] <;> rfl
  have hend := flows_concludeRound hconclude hwindowless hx hsteady
  obtain ⟨x', hx', hsettled⟩ := hsettled
  obtain rfl := Option.some.inj (hx.symm.trans hx')
  constructor
  · rintro ⟨r', hr', hfailed⟩
    obtain rfl := Option.some.inj (hend.symm.trans hr')
    by_contra hcounted
    rw [if_pos (by simpa using hcounted)] at hsettled
    rw [hsettled.lifecycle] at hfailed
    rcases pending with hp | hp <;> rw [hp] at hfailed <;> cases hfailed
  · intro huncounted
    rw [if_neg (by simp [huncounted])] at hsettled
    exact ⟨x, hend, hsettled⟩

end Rounds

namespace Sample

def punctual : SchedulerOptions := { policy := { policy with strictDeadlines := true } }

def timed : List Call :=
  [.registerResource resource, .registerPriorityClass priority, .registerQosClass qos,
    .admitFlow { flow 1 with deadlineTick := 10 }]

set_option maxRecDepth 100000 in
theorem missed_fails_iff_timed : ∃ s t o r r', Reachable s ∧ exec (arbitrate 12) s = (.ok o, t) ∧
    s.impl.flows[(⟨1⟩ : FlowId)]? = some r ∧ r.lifecycle = .waiting ∧
    s.impl.derivedReadiness r 12 = .error .deadlineMissed ∧
    t.impl.flows[(⟨1⟩ : FlowId)]? = some r' ∧ r'.lifecycle = .failed := by
  obtain ⟨s, reachable, howns, hstrict, r, hr, hwaiting, hmissed, huncounted, o, ho⟩ : ∃ s,
      Reachable s ∧ s.impl.HoldsOwn ∧ s.impl.policy.strictDeadlines = true ∧
      ∃ r ∈ s.impl.flows[(⟨1⟩ : FlowId)]?, r.lifecycle = .waiting ∧
        s.impl.derivedReadiness r 12 = .error .deadlineMissed ∧ r.deadlineMissedCounted = false ∧
        ∃ o ∈ (exec (arbitrate 12) s).1.toOption, o.schedule.entries = [] :=
    @exists_reachable punctual timed _ (by decide +kernel)
  obtain ⟨r', hr', hfailed⟩ := (missed_fails_iff s _ 12 o ⟨1⟩ r reachable howns.anchored hstrict
    (exec_eq_of_mem ho.1) hr (.inl hwaiting) hmissed).mpr huncounted
  exact ⟨s, _, o, r, r', reachable, exec_eq_of_mem ho.1, hr, hwaiting, hmissed, hr', hfailed⟩

set_option maxRecDepth 100000 in
/-- The flow is stopped in flight at its deadline. The miss is noted then, and the rounds that find
the flow ready again do not fail it. -/
theorem not_missed_fails : ¬ ∀ (s t : Scheduler) (now : Ticks) (o : ArbitrationOutcome) (id : FlowId)
    (r : FlowRuntime), Reachable s → s.impl.policy.strictDeadlines = true →
    exec (arbitrate now) s = (.ok o, t) → t.refusedAppends = s.refusedAppends →
    s.impl.flows[id]? = some r → r.lifecycle = .waiting ∨ r.lifecycle = .ready →
    s.impl.derivedReadiness r now = .error .deadlineMissed →
    ∃ r', t.impl.flows[id]? = some r' ∧ r'.lifecycle = .failed := by
  intro h
  obtain ⟨s, reachable, hstrict, hrefused, r, hr, hready, hmissed, o, ho, r₁, hr₁, hready₁⟩ : ∃ s,
      Reachable s ∧ s.impl.policy.strictDeadlines = true ∧
      (exec (arbitrate 11) s).2.refusedAppends = s.refusedAppends ∧
      ∃ r ∈ s.impl.flows[(⟨1⟩ : FlowId)]?, r.lifecycle = .ready ∧
        s.impl.derivedReadiness r 11 = .error .deadlineMissed ∧
        ∃ o ∈ (exec (arbitrate 11) s).1.toOption,
          ∃ r₁ ∈ (exec (arbitrate 11) s).2.impl.flows[(⟨1⟩ : FlowId)]?, r₁.lifecycle = .ready :=
    @exists_reachable punctual (timed ++ [.arbitrate 5, dispatch 5, .arbitrate 10]) _
      (by decide +kernel)
  obtain ⟨r', hr', hfailed⟩ :=
    h s _ 11 o ⟨1⟩ r reachable hstrict (exec_eq_of_mem ho) hrefused hr (.inr hready) hmissed
  obtain rfl := Option.some.inj (hr₁.symm.trans hr')
  rw [hready₁] at hfailed
  cases hfailed

end Sample

end FlowScheduler

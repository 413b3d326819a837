import FlowScheduler.Steps.Reachable

/-! # Rounds that scan the flow table

A round reads the flows of a class from an index. The same round can be told to
list a class by scanning the whole table. Both list the same flows in the same
order, so both rounds are one.
-/

namespace FlowScheduler

open Failing SchedOp OrderedMap

namespace Impl

/-- The flows of the whole table whose lifecycle is of the class. -/
def classOf (s : Impl) (slot : IndexSlot) : List FlowId :=
  (s.flows.toList.filter fun entry => entry.2.lifecycle.slot = slot).map Prod.fst

/-- A class is found by a scan of the flow table. -/
def scanned : Lister where
  waiting s := s.classOf .waiting
  ready s := s.classOf .ready
  inflight s := s.classOf .inflight

end Impl

section Keyed

variable {s : Impl} {slot : IndexSlot}

theorem ordered_classOf : (s.classOf slot).Pairwise fun a b => compare a b = .lt :=
  (Std.ExtTreeMap.ordered_keys_toList.filter _).map _ fun _ _ h => h

theorem mem_classOf {id : FlowId} : id ∈ s.classOf slot ↔
    ∃ r : FlowRuntime, s.flows[id]? = some r ∧ r.lifecycle.slot = slot := by
  simp only [Impl.classOf, List.mem_map, List.mem_filter, decide_eq_true_eq]
  constructor
  · rintro ⟨⟨_, r⟩, ⟨hr, hslot⟩, rfl⟩
    exact ⟨r, mem_toList.mp hr, hslot⟩
  · rintro ⟨r, hr, hslot⟩
    exact ⟨(id, r), ⟨mem_toList.mpr hr, hslot⟩, rfl⟩

theorem nodup_of_ordered {ids : List FlowId} (h : ids.Pairwise fun a b => compare a b = .lt) :
    ids.Nodup := by
  refine h.imp fun {a b} hlt hab => ?_
  rw [hab, Std.ReflOrd.compare_self] at hlt
  cases hlt

/-- The index lists what a scan of the table finds, in the order of the table. -/
theorem Keyed.classOf_eq (h : Keyed s) (hslot : slot ≠ .none) :
    s.classOf slot = (s.indexes.members slot).toList := by
  have hindexed : (s.indexes.members slot).toList.Pairwise fun a b => compare a b = .lt :=
    Std.ExtTreeSet.ordered_toList
  refine List.Perm.eq_of_pairwise (fun a b _ _ hab hba => ?_) ordered_classOf hindexed ?_
  · rw [Std.OrientedOrd.eq_swap, hba] at hab
    cases hab
  · refine (List.perm_ext_iff_of_nodup (nodup_of_ordered ordered_classOf)
      (nodup_of_ordered hindexed)).mpr fun id => ?_
    rw [mem_classOf, ← h.index id slot hslot]
    exact Std.ExtTreeSet.mem_toList.symm

end Keyed

section Congruence

variable {list : Lister} {now : Ticks} {limit : ℕ} {round : Round} {candidate : Candidate}

/-- Wherever the indexes are right, the classes are listed as from the indexes. -/
structure Agrees (list : Lister) : Prop where
  waiting : ∀ s, Keyed s → list.waiting s = s.indexes.waiting.toList
  ready : ∀ s, Keyed s → list.ready s = s.indexes.ready.toList
  inflight : ∀ s, Keyed s → list.inflight s = s.indexes.inflight.toList

theorem agrees_scanned : Agrees Impl.scanned where
  waiting _ keyed := keyed.classOf_eq (by decide)
  ready _ keyed := keyed.classOf_eq (by decide)
  inflight _ keyed := keyed.classOf_eq (by decide)

theorem exec_bind_congr {α β : Type} {m m' : SchedOp α} {k k' : α → SchedOp β} {s : Scheduler}
    (first : exec m s = exec m' s)
    (next : ∀ a t, exec m s = (.ok a, t) → exec (k a) t = exec (k' a) t) :
    exec (m >>= k) s = exec (m' >>= k') s := by
  rw [exec_bind, exec_bind, ← first]
  rcases h : exec m s with ⟨_ | a, t⟩
  · rfl
  · exact next a t h

theorem idleInvariant (now : Ticks) : RoundInvariant now (fun _ _ _ => True) fun _ _ _ => True where
  skip _ := trivial
  outcome _ := trivial
  unready _ _ _ _ := trivial
  roll _ _ := trivial
  room _ _ _ := trivial
  displace _ _ _ _ _ _ := ⟨trivial, trivial⟩
  grant _ _ _ _ _ _ _ _ := trivial

variable (agree : Agrees list)

include agree

theorem exec_considerCandidate {s : Scheduler} (keyed : Keyed s.impl) :
    exec (considerCandidate now limit round candidate list) s =
      exec (considerCandidate now limit round candidate) s := by
  have hplace : ∀ flow resource, exec (placeCandidate now candidate flow resource round list) s =
      exec (placeCandidate now candidate flow resource round) s := by
    intro flow resource
    -- rolling an interval leaves the flows and their indexes alone
    have hrolled : Keyed (s.impl.modifyResource flow.descriptor.resource.id (·.rollInterval now)) :=
      keyed.congr rfl rfl
    have hvictim := agree.inflight _ hrolled
    unfold placeCandidate
    rw [exec_modifyImpl_bind, exec_modifyImpl_bind]
    split
    · rw [exec_readImpl_bind, exec_readImpl_bind]
      simp only [Impl.chooseVictim, Impl.worstIncumbent, Impl.indexed, hvictim]
    · rfl
  unfold considerCandidate
  rw [exec_readImpl_bind, exec_readImpl_bind]
  split
  · rfl
  · split
    · rfl
    · split
      · rfl
      · split
        · rfl
        · split
          · rfl
          · split
            · rfl
            · exact hplace _ _

theorem exec_considerCandidates (bounded : limit ≤ Impl.kEntryBound) (candidates : List Candidate)
    {s : Scheduler} (sound : Sound s.impl) (clock : s.impl.lastTick = now) :
    exec (considerCandidates now limit candidates round list) s =
      exec (considerCandidates now limit candidates round) s := by
  induction candidates generalizing s round with
  | nil => rfl
  | cons candidate rest ih =>
    refine exec_bind_congr (exec_considerCandidate agree sound.keyed) fun round' t ht => ?_
    rw [exec_considerCandidate agree sound.keyed] at ht
    have hrun : Runs (DecideMove now) (fun _ _ => True)
        (considerCandidate now limit round candidate) s :=
      runs_considerCandidate bounded (idleInvariant now) sound clock List.not_mem_nil trivial
    have hm := hrun.1
    rw [ht] at hm
    exact ih (hm.round.sound sound) (hm.round.clock clock)

theorem refreshLifecycles_eq {s : Impl} (keyed : Keyed s) (o : ArbitrationOutcome) :
    s.refreshLifecycles now o list = s.refreshLifecycles now o := by
  have hkeyed : Keyed (s.indexes.waiting.toList.foldl (Impl.refreshWaiting now) (s, o)).1 :=
    Impl.Keeps.foldl_fst Keyed.Stays Keyed.keeps.refreshWaiting _ (s, o) keyed
  dsimp only [Impl.refreshLifecycles, Impl.indexed]
  rw [agree.waiting s keyed, agree.inflight _ hkeyed]

theorem overdueAttempts_eq {s : Impl} (keyed : Keyed s) :
    s.overdueAttempts now list = s.overdueAttempts now := by
  dsimp only [Impl.overdueAttempts, Impl.indexed]
  rw [agree.inflight s keyed]

theorem rankCandidates_eq {s : Impl} (keyed : Keyed s) :
    s.rankCandidates now list = s.rankCandidates now := by
  dsimp only [Impl.rankCandidates, Impl.indexed]
  rw [agree.ready s keyed]

/-- However the classes are listed, the round decides what `arbitrate` decides. -/
theorem exec_arbitrate_list {s : Scheduler} (sound : Sound s.impl) :
    exec (arbitrate now list) s = exec (arbitrate now) s := by
  unfold arbitrate
  rw [exec_readImpl_bind, exec_readImpl_bind]
  refine exec_bind_congr rfl fun _ t ht => ?_
  rw [exec_lift] at ht
  obtain ⟨haccepted, rfl⟩ := Prod.mk.inj ht
  have htick : s.impl.lastTick ≤ now := UInt64.not_lt.mp (refuseIf_eq_ok.mp haccepted)
  rw [exec_modifyImpl_bind, exec_modifyImpl_bind, exec_readImpl_bind, exec_readImpl_bind]
  have hstart := makes_opening htick
  have hreclaim : ∀ ids o, Runs (DecideMove now) (fun _ _ => True)
      (reclaimExpiredDeliveries now ids o) { s with impl := { s.impl with
        lastTick := now, arbitrationRounds := s.impl.arbitrationRounds + 1 } } :=
    runs_reclaimExpiredDeliveries rfl
  refine exec_bind_congr rfl fun outcome t ht => ?_
  have hm := (hreclaim s.impl.scheduleOrder {}).1.round
  rw [ht] at hm
  have hsound := hm.sound (hstart.round.sound sound)
  have hclock : t.impl.lastTick = now := hm.clock rfl
  rw [exec_readImpl_bind, exec_readImpl_bind, refreshLifecycles_eq agree hsound.keyed]
  have hrefresh : Silently (RoundMove now) t.impl (t.impl.refreshLifecycles now outcome).1 :=
    Impl.refreshLifecycles_silently hsound.keyed
  generalize t.impl.refreshLifecycles now outcome = p at hrefresh
  obtain ⟨refreshed, outcome⟩ := p
  have hm := Makes.silently hrefresh
  have hsound := hm.sound hsound
  have hclock := hm.clock hclock
  dsimp only at hsound hclock ⊢
  rw [exec_modifyImpl_bind, exec_modifyImpl_bind, exec_readImpl_bind, exec_readImpl_bind]
  dsimp only
  rw [overdueAttempts_eq agree hsound.keyed]
  refine exec_bind_congr rfl fun _ u hu => ?_
  have hstop : Runs (DecideMove now) (fun _ _ => True)
      (stopOverdue now (refreshed.overdueAttempts now)) { t with impl := refreshed } :=
    (runs_stopOverdue hclock _).mono fun _ _ _ => trivial
  have hm := hstop.1.round
  rw [hu] at hm
  have hsound := hm.sound hsound
  have hclock := hm.clock hclock
  rw [exec_readImpl_bind, exec_readImpl_bind, rankCandidates_eq agree hsound.keyed]
  have hrank : Silently (RoundMove now) u.impl (u.impl.rankCandidates now).1 :=
    Impl.rankCandidates_spec.1
  generalize u.impl.rankCandidates now = p at hrank
  obtain ⟨ranked, candidates⟩ := p
  have hm := Makes.silently (hrank.trans Impl.rollPreemptionWindow_silently)
  have hsound := hm.sound hsound
  have hclock := hm.clock hclock
  dsimp only at hsound hclock ⊢
  rw [exec_modifyImpl_bind, exec_modifyImpl_bind, exec_readImpl_bind, exec_readImpl_bind]
  exact exec_bind_congr (exec_considerCandidates agree (min_le_right _ _) candidates hsound hclock)
    fun _ _ _ => rfl

end Congruence

/-- In every reachable state, recovered or not, each index holds exactly the flows of its class, and a
round that scans the flow table ends as the round that reads the indexes. -/
theorem indexes_exact (s : Scheduler) (reachable : Reachable s) :
    (∀ id, id ∈ s.impl.indexes.waiting ↔ ∃ r, s.impl.flows[id]? = some r ∧
      (r.lifecycle = .waiting ∨ r.lifecycle = .ambiguous)) ∧
    (∀ id, id ∈ s.impl.indexes.ready ↔ ∃ r, s.impl.flows[id]? = some r ∧ r.lifecycle = .ready) ∧
    (∀ id, id ∈ s.impl.indexes.inflight ↔ ∃ r, s.impl.flows[id]? = some r ∧
      (r.lifecycle = .dispatched ∨ r.lifecycle = .running ∨ r.lifecycle = .completionReported ∨
        r.lifecycle = .cancelling ∨ r.lifecycle = .preempting)) ∧
    ∀ now, exec (arbitrate now Impl.scanned) s = exec (arbitrate now) s := by
  have sound := reachable.sound
  have hindex := sound.keyed.index
  refine ⟨fun id => (hindex id .waiting (by decide)).trans ?_,
    fun id => (hindex id .ready (by decide)).trans ?_,
    fun id => (hindex id .inflight (by decide)).trans ?_,
    fun now => exec_arbitrate_list agrees_scanned sound⟩
  all_goals
    refine exists_congr fun r => and_congr_right fun _ => ?_
    cases r.lifecycle <;> decide

namespace Sample

set_option maxRecDepth 100000 in
/-- One flow runs while another waits. -/
theorem indexes_exact_dispatched : ∃ s, Reachable s ∧ ⟨1⟩ ∈ s.impl.indexes.inflight ∧
    ⟨2⟩ ∈ s.impl.indexes.waiting ∧
    (∃ r, s.impl.flows[(⟨2⟩ : FlowId)]? = some r ∧
      (r.lifecycle = .waiting ∨ r.lifecycle = .ambiguous)) ∧
    exec (arbitrate 6 Impl.scanned) s = exec (arbitrate 6) s := by
  obtain ⟨s, reachable, hinflight, hwaiting⟩ : ∃ s, Reachable s ∧
      ⟨1⟩ ∈ s.impl.indexes.inflight ∧ ⟨2⟩ ∈ s.impl.indexes.waiting :=
    @exists_reachable transient (setup ++ [.arbitrate 5, dispatch 5, .admitFlow (flow 2)]) _
      (by decide +kernel)
  obtain ⟨waiting, -, -, round⟩ := indexes_exact s reachable
  exact ⟨s, reachable, hinflight, hwaiting, (waiting ⟨2⟩).mp hwaiting, round 6⟩

end Sample

end FlowScheduler

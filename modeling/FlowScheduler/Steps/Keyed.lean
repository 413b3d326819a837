import FlowScheduler.Steps.Moves

/-! # Keyed tables

The flow table is keyed by the identities it holds, and the eligibility indexes
list exactly the flows of their class. Every move keeps it so.
-/

namespace FlowScheduler

open ByteCodec (Bytes)
open OrderedMap Impl

namespace FlowIndexes

def members (x : FlowIndexes) : IndexSlot → KeySet FlowId
  | .none => ∅
  | .waiting => x.waiting
  | .ready => x.ready
  | .inflight => x.inflight

variable {x : FlowIndexes} {flow id : FlowId} {slot target : IndexSlot}

theorem mem_insert : id ∈ (x.insert flow target).members slot ↔
    (id = flow ∧ slot = target ∧ target ≠ .none) ∨ id ∈ x.members slot := by
  have hc : compare flow id = .eq ↔ id = flow := by
    rw [Std.LawfulEqCmp.compare_eq_iff_eq, eq_comm]
  cases target <;> cases slot <;> simp [insert, members, Std.ExtTreeSet.mem_insert, hc]

theorem mem_erase : id ∈ (x.erase flow target).members slot ↔
    id ∈ x.members slot ∧ ¬ (id = flow ∧ slot = target) := by
  have hc : compare flow id = .eq ↔ id = flow := by
    rw [Std.LawfulEqCmp.compare_eq_iff_eq, eq_comm]
  cases target <;> cases slot <;> simp [erase, members, Std.ExtTreeSet.mem_erase, hc, and_comm]

end FlowIndexes

/-- The flow table is keyed by the identities it holds, and each index lists exactly its class. -/
structure Keyed (s : Impl) : Prop where
  key : ∀ (id : FlowId) (r : FlowRuntime), s.flows[id]? = some r → r.descriptor.flow = id
  index : ∀ (id : FlowId) (slot : IndexSlot), slot ≠ .none →
    (id ∈ s.indexes.members slot ↔ ∃ r : FlowRuntime, s.flows[id]? = some r ∧ r.lifecycle.slot = slot)

namespace Keyed

variable {s s' : Impl}

theorem congr (h : Keyed s) (hf : s'.flows = s.flows) (hi : s'.indexes = s.indexes) : Keyed s' := by
  obtain ⟨key, index⟩ := h
  constructor <;> rw [hf] <;> (try rw [hi]) <;> assumption

theorem modifyFlow (h : Keyed s) {id : FlowId} {f : FlowRuntime → FlowRuntime}
    (keep : ∀ r, s.flows[id]? = some r →
      (f r).descriptor.flow = r.descriptor.flow ∧ (f r).lifecycle = r.lifecycle) :
    Keyed (s.modifyFlow id f) where
  key a r hr := by
    simp only [Impl.modifyFlow, get_modify] at hr
    split at hr
    · rename_i ha
      subst ha
      obtain ⟨r₀, hr₀, rfl⟩ := Option.map_eq_some_iff.mp hr
      rw [(keep r₀ hr₀).1]
      exact h.key a r₀ hr₀
    · exact h.key a r hr
  index a slot hslot := by
    rw [show (s.modifyFlow id f).indexes = s.indexes from rfl, h.index a slot hslot]
    simp only [Impl.modifyFlow, get_modify]
    split
    · rename_i ha
      subst ha
      cases hr : s.flows[a]? with
      | none => simp
      | some r => simp [(keep r hr).2]
    · rfl

theorem setLifecycle (h : Keyed s) {id : FlowId} {next : FlowLifecycle} {now : Ticks} :
    Keyed (s.setLifecycle id next now) where
  key a r hr := by
    simp only [Impl.setLifecycle, get_modify] at hr
    split at hr
    · obtain ⟨r₀, hr₀, rfl⟩ := Option.map_eq_some_iff.mp hr
      simpa using h.key a r₀ hr₀
    · exact h.key a r hr
  index a slot hslot := by
    simp only [Impl.setLifecycle, get_modify]
    cases hr : s.flows[id]? with
    | none =>
      rw [h.index a slot hslot]
      split
      · rename_i ha
        subst ha
        simp [hr]
      · rfl
    | some r =>
      dsimp only
      by_cases hl : r.lifecycle = next
      · rw [if_pos hl, h.index a slot hslot]
        split
        · rename_i ha
          subst ha
          simp [hr, hl]
        · rfl
      · rw [if_neg hl, h.key id r hr]
        unfold FlowIndexes.update
        rw [FlowIndexes.mem_insert, FlowIndexes.mem_erase, h.index a slot hslot]
        by_cases ha : a = id
        · subst ha
          simp only [hr, true_and, Option.some.injEq, exists_eq_left', if_true, Option.map_some,
            FlowRuntime.lifecycle_setLifecycle]
          constructor
          · rintro (⟨rfl, -⟩ | ⟨rfl, hne⟩)
            · rfl
            · exact absurd rfl hne
          · rintro rfl
            exact .inl ⟨rfl, hslot⟩
        · simp [ha]

section Flows

theorem applyAdmit (h : Keyed s) {d : FlowDescriptor} (ha : s.applyAdmit d = .ok s') : Keyed s' := by
  unfold Impl.applyAdmit at ha
  split at ha
  · cases ha
  · cases ha
    constructor
    · intro id r hr
      rw [get_insert] at hr
      split at hr
      · rename_i hid
        cases hr
        exact hid.symm
      · exact h.key id r hr
    · intro id slot hslot
      have hc : compare d.flow id = .eq ↔ id = d.flow := by
        rw [Std.LawfulEqCmp.compare_eq_iff_eq, eq_comm]
      have hi := h.index id slot hslot
      rw [get_insert]
      by_cases hid : id = d.flow
      · cases slot <;>
          simp_all [FlowIndexes.members, Std.ExtTreeSet.mem_insert, Std.ExtTreeSet.mem_erase,
            FlowLifecycle.slot]
      · rw [if_neg hid, ← hi]
        cases slot <;>
          simp_all [FlowIndexes.members, Std.ExtTreeSet.mem_insert, Std.ExtTreeSet.mem_erase]

theorem applyUpdate (h : Keyed s) {d : FlowDescriptor} (ha : s.applyUpdate d = .ok s') :
    Keyed s' := by
  unfold Impl.applyUpdate at ha
  split at ha
  · cases ha
  · split at ha
    · cases ha
    · cases ha
      exact h.modifyFlow fun r hr => ⟨(h.key _ r hr).symm, rfl⟩

theorem applyRetireFlow (h : Keyed s) {flow : FlowId} {generation : Generation} :
    Keyed (s.applyRetireFlow flow generation) := by
  unfold Impl.applyRetireFlow
  split
  · exact h
  · constructor
    · intro id r hr
      rw [get_erase] at hr
      split at hr
      · cases hr
      · exact h.key id r hr
    · intro id slot hslot
      have hc : compare flow id = .eq ↔ id = flow := by
        rw [Std.LawfulEqCmp.compare_eq_iff_eq, eq_comm]
      have hi := h.index id slot hslot
      rw [get_erase]
      by_cases hid : id = flow
      · cases slot <;> simp_all [FlowIndexes.members, Std.ExtTreeSet.mem_erase]
      · rw [if_neg hid, ← hi]
        cases slot <;> simp_all [FlowIndexes.members, Std.ExtTreeSet.mem_erase]

end Flows

/-- The tables stay keyed. -/
def Stays (s s' : Impl) : Prop := Keyed s → Keyed s'

instance : IsPreorder Impl Stays where
  refl _ := id
  trans _ _ _ h h' hs := h' (h hs)

theorem alike (h : Keyed s) (same : s.Alike s') : Keyed s' where
  key id r' hr' := by
    obtain ⟨r, hr, htempo⟩ := same.get hr'
    exact (congrArg FlowTempo.flow htempo).trans (h.key id r hr)
  index id slot hslot := by
    have hslots : (s'.flows[id]?).map (·.lifecycle.slot) = (s.flows[id]?).map (·.lifecycle.slot) := by
      have htempo := congrArg (Option.map (·.toFlowPace.lifecycle.slot)) (same.flows id)
      rwa [Option.map_map, Option.map_map] at htempo
    rw [same.indexes, h.index id slot hslot, ← Option.map_eq_some_iff, ← Option.map_eq_some_iff, hslots]

theorem keeps {now : Ticks} : KeepsIssue now True Stays where
  alike same h := h.alike same
  lifecycle _ _ h := h.setLifecycle
  order h := h.congr rfl rfl
  charge h := h.congr rfl rfl
  clock _ h := by
    unfold advanceGroupClock
    split
    · exact h.congr rfl rfl
    · exact h

section Settling

theorem mem_foldl_insert {entries : List (FlowId × FlowRuntime)} {x : FlowIndexes} {id : FlowId}
    {slot : IndexSlot} (hslot : slot ≠ .none) :
    id ∈ (entries.foldl (fun x entry => x.insert entry.1 entry.2.lifecycle.slot) x).members slot ↔
      id ∈ x.members slot ∨ ∃ r, (id, r) ∈ entries ∧ r.lifecycle.slot = slot := by
  induction entries generalizing x with
  | nil => simp
  | cons entry entries ih =>
    obtain ⟨a, r⟩ := entry
    rw [List.foldl_cons, ih, FlowIndexes.mem_insert]
    constructor
    · rintro ((⟨rfl, rfl, -⟩ | hx) | ⟨r', hr', hs⟩)
      · exact .inr ⟨r, List.mem_cons_self, rfl⟩
      · exact .inl hx
      · exact .inr ⟨r', List.mem_cons_of_mem _ hr', hs⟩
    · rintro (hx | ⟨r', hr', rfl⟩)
      · exact .inl (.inr hx)
      · rcases List.mem_cons.mp hr' with he | hr'
        · cases he
          exact .inl (.inl ⟨rfl, rfl, hslot⟩)
        · exact .inr ⟨r', hr', rfl⟩

theorem reindexAll (key : ∀ (id : FlowId) (r : FlowRuntime), s.flows[id]? = some r →
    r.descriptor.flow = id) : Keyed s.reindexAll where
  key := key
  index id slot hslot := by
    unfold Impl.reindexAll
    rw [mem_foldl_insert hslot]
    have hempty : id ∉ ({} : FlowIndexes).members slot := by
      cases slot <;> simp [FlowIndexes.members]
    simp [hempty, Std.ExtTreeMap.mem_toList_iff_getElem?_eq_some]

theorem clearAuthority (h : Keyed s) {next : FabricEpoch} : Keyed (s.clearAuthority next) := by
  unfold Impl.clearAuthority
  dsimp only
  refine congr (reindexAll ?_) rfl rfl
  intro id r hr
  change (s.flows.map fun _ (r : FlowRuntime) =>
    { r.clearScheduled with outstandingReserved := 0 })[id]? = some r at hr
  rw [Std.ExtTreeMap.getElem?_map] at hr
  obtain ⟨r₀, hr₀, rfl⟩ := Option.map_eq_some_iff.mp hr
  exact h.key id r₀ hr₀

theorem applyEpochAdvance (h : Keyed s) {next : FabricEpoch} {now : Ticks} :
    Keyed (s.applyEpochAdvance next now) := (keeps.abandonOpenAttempts h).clearAuthority

theorem advanceAttempt (h : Keyed s) : Keyed s.advanceAttempt := by
  unfold Impl.advanceAttempt
  split
  · exact h.congr rfl rfl
  · exact h

theorem advanceSchedule (h : Keyed s) : Keyed s.advanceSchedule := by
  unfold Impl.advanceSchedule
  split
  · exact h.congr rfl rfl
  · exact h

end Settling

theorem creditFlow {id : FlowId} {credited : UInt64} (h : Keyed s) :
    Keyed (s.creditFlow id credited) := by
  refine modifyFlow ?_ fun _ _ => ⟨rfl, rfl⟩
  exact h.congr rfl rfl

theorem commonMove {r : Option Record} (h : Keyed s) (move : CommonMove s r s') : Keyed s' := by
  cases move with
  | counters => exact h.congr rfl rfl
  | note hf =>
    refine h.modifyFlow fun r _ => ?_
    obtain ⟨_, _, _, hr, -⟩ := hf r
    rw [hr]
    exact ⟨rfl, rfl⟩
  | ready => exact keeps.enters nofun h
  | normalize => exact keeps.normalizeTransientStates h
  | close => exact keeps.applyAttemptClosed (fun _ => trivial) h
  | release => exact keeps.applyReleaseSchedule h

theorem roundMove {now : Ticks} {r : Option Record} (h : Keyed s) (move : RoundMove now s r s') :
    Keyed s' := by
  cases move with
  | common move => exact h.commonMove move
  | failDependency => exact keeps.failFlow h
  | failDeadline => exact keeps.failFlow ((@keeps now).countDeadlineMiss h)
  | tick | roll | forget | retire => exact h.congr rfl rfl
  | issue =>
    refine advanceSchedule ((@keeps now).applySchedule ?_)
    exact h.congr rfl rfl

theorem callMove {c : Call} {r : Option Record} (h : Keyed s) (move : CallMove c s r s') : Keyed s' := by
  cases move with
  | common move => exact h.commonMove move
  | touch | registerResource | registerReservation | registerPriorityClass | registerQosClass
  | installPolicy => exact h.congr rfl rfl
  | retireReservation => exact (@keeps 0).applyRetireReservation h
  | admitFlow _ applied => exact h.applyAdmit applied
  | admitRefused | updateRefused => exact h
  | update _ applied => exact keeps.releaseScheduledEntry (h.applyUpdate applied)
  | cancel => exact keeps.normalizeTransientStates (keeps.applyCancel trivial h)
  | notify => exact keeps.applyReadiness h
  | resolve => exact keeps.applyAmbiguityResolved h
  | retireFlow => exact h.applyRetireFlow
  | advanceEpoch => exact h.applyEpochAdvance
  | dispatch => exact advanceAttempt ((keeps.applyAttemptOpened h).congr rfl rfl)
  | start => exact keeps.applyAttemptStarted h
  | complete => exact keeps.applyCompletion (fun _ => trivial) (fun _ _ _ => creditFlow) h

end Keyed

end FlowScheduler

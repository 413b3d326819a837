import FlowScheduler.Steps.Windows

/-! # Issuing a schedule

When a round issues a schedule, the flow of every window is there and ready, and
no flow is given two windows. So every window is charged, to its own flow and
to its resource.
-/

namespace FlowScheduler

open OrderedMap Impl

/-- What a window costs its resource, while the resource has the generation it was granted for. -/
def ResourceRuntime.charge (r : ResourceRuntime) (e : ScheduleEntry) : ResourceRuntime :=
  if r.descriptor.generation = e.resourceGeneration then
    let r := r.rollInterval e.startTick
    { r with
      reservedThisInterval := saturatingAdd r.reservedThisInterval e.quantum
      inFlight := r.inFlight + 1 }
  else r

/-- The flow now waits for the delivery of its window. -/
structure FlowRuntime.Placed (schedule : Schedule) (e : ScheduleEntry) (r r' : FlowRuntime) :
    Prop where
  lifecycle : r'.lifecycle = .scheduled
  placedIn : r'.scheduledSchedule = schedule.schedule
  generation : r'.scheduledGeneration = schedule.generation
  ordinal : r'.scheduledOrdinal = e.ordinal
  reserved : r'.outstandingReserved = saturatingAdd r.outstandingReserved e.quantum
  openAttempt : r'.openAttempt = r.openAttempt
  descriptor : r'.descriptor = r.descriptor

/-- Every window is accepted, each for a flow of its own. -/
structure Impl.AcceptsAll (s : Impl) (entries : List ScheduleEntry) : Prop where
  distinct : ((entries.filter (·.kind = .run)).map (·.flow)).Nodup
  accepts : ∀ e ∈ entries, e.kind = .run → ∃ r, s.Accepts e r

section Entries

variable {s : Impl} {schedule : Schedule} {e : ScheduleEntry} {entries : List ScheduleEntry}

theorem Impl.Issues.acceptsAll {now : Ticks} (h : s.Issues now entries) : s.AcceptsAll entries where
  distinct := h.distinct
  accepts e he hk := by
    obtain ⟨r, hr⟩ := h.run e he hk
    obtain ⟨candidate, hentry⟩ := hr.entry
    refine ⟨r, hr.found, ?_, ?_⟩
    · rw [hentry]
      rfl
    · rw [hr.ready]
      decide

theorem sameBut_applyRunEntry : SameBut e.flow s (s.applyRunEntry schedule e) := by
  rcases s.applyRunEntry_cases schedule e with ⟨-, hs⟩ | ⟨_, _, _, -, hs, -⟩
  · rw [hs]
    exact .refl
  · rw [hs]
    intro k hk
    simp only [chargeResource, countPending, scheduleFlow, modifyResource, modifySchedule,
      recordStep, setLifecycle, modifyFlow, get_modify, if_neg hk]

theorem flows_of_accepts {r : FlowRuntime} (h : s.Accepts e r) :
    SameBut e.flow s (s.applyRunEntry schedule e) ∧
      ∃ r', (s.applyRunEntry schedule e).flows[e.flow]? = some r' ∧ r.Placed schedule e r' := by
  refine ⟨sameBut_applyRunEntry, ?_⟩
  rcases s.applyRunEntry_cases schedule e with ⟨hnone, -⟩ | ⟨r₀, _, _, ⟨hr₀, -⟩, hs, -⟩
  · exact absurd h (hnone r)
  · obtain rfl : r = r₀ := Option.some.inj (h.1.symm.trans hr₀)
    rw [hs]
    simp only [chargeResource, countPending, scheduleFlow, modifyResource, modifySchedule,
      recordStep, setLifecycle, modifyFlow, get_modify, if_true, hr₀, Option.map_some]
    exact ⟨_, rfl, ⟨by simp, by simp, by simp, by simp, by simp, by simp, by simp⟩⟩

theorem resources_of_accepts {r : FlowRuntime} (h : s.Accepts e r) :
    (s.applyRunEntry schedule e).resources = s.resources.modify e.resource (·.charge e) := by
  rcases s.applyRunEntry_cases schedule e with ⟨hnone, -⟩ | ⟨_, _, _, -, hs, -⟩
  · exact absurd h (hnone r)
  · rw [hs]
    rfl

theorem schedules_of_accepts {r : FlowRuntime} (h : s.Accepts e r) :
    (s.applyRunEntry schedule e).schedules = s.schedules.modify schedule.schedule
      fun t => { t with pendingEntries := t.pendingEntries + 1 } := by
  rcases s.applyRunEntry_cases schedule e with ⟨hnone, -⟩ | ⟨_, _, _, -, hs, -⟩
  · exact absurd h (hnone r)
  · rw [hs]
    rfl

theorem Impl.AcceptsAll.tail (h : s.AcceptsAll (e :: entries)) : s.AcceptsAll entries where
  distinct := by
    refine h.distinct.sublist ?_
    exact ((List.sublist_cons_self e entries).filter _).map _
  accepts e' he' := h.accepts e' (List.mem_cons_of_mem _ he')

theorem Impl.AcceptsAll.step (h : s.AcceptsAll (e :: entries)) (run : e.kind = .run) :
    (s.applyRunEntry schedule e).AcceptsAll entries where
  distinct := h.tail.distinct
  accepts e' he' hk := by
    obtain ⟨r, hr⟩ := h.accepts e List.mem_cons_self run
    obtain ⟨r', hr'⟩ := h.tail.accepts e' he' hk
    have hne : e'.flow ≠ e.flow := by
      have hnodup := h.distinct
      simp only [List.filter_cons, run, decide_true, if_true, List.map_cons] at hnodup
      intro heq
      refine (List.nodup_cons.mp hnodup).1 ?_
      rw [← heq]
      exact List.mem_map.mpr ⟨e', List.mem_filter.mpr ⟨he', decide_eq_true hk⟩, rfl⟩
    obtain ⟨hfound, hrest⟩ := hr'
    exact ⟨r', ((flows_of_accepts hr).1 e'.flow hne).trans hfound, hrest⟩

theorem resources_applyEntries (h : s.AcceptsAll entries) (id : ResourceId) :
    (s.applyEntries schedule entries).resources[id]? =
      s.resources[id]?.map fun r => (entries.filter (·.runsOn id)).foldl ResourceRuntime.charge r := by
  unfold applyEntries
  induction entries generalizing s with
  | nil => simp
  | cons e entries ih =>
    rw [List.foldl_cons]
    by_cases hrun : e.kind = .run
    · obtain ⟨r, hr⟩ := h.accepts e List.mem_cons_self hrun
      rw [if_neg (not_not.mpr hrun), ih (h.step hrun), resources_of_accepts hr, get_modify]
      by_cases hid : id = e.resource
      · subst hid
        have hon : e.runsOn e.resource := by simp [ScheduleEntry.runsOn, hrun]
        simp only [if_true, Option.map_map, List.filter_cons, hon, List.foldl_cons]
        rfl
      · have hon : e.runsOn id = false := by simp [ScheduleEntry.runsOn, Ne.symm hid]
        simp only [if_neg hid, List.filter_cons, hon, Bool.false_eq_true, if_false]
    · have hon : e.runsOn id = false := by simp [ScheduleEntry.runsOn, hrun]
      simp only [ne_eq, hrun, not_false_eq_true, if_true, List.filter_cons, hon,
        Bool.false_eq_true, if_false]
      exact ih h.tail

theorem flows_applyEntries_other {id : FlowId}
    (other : ∀ e ∈ entries, e.kind = .run → e.flow ≠ id) :
    (s.applyEntries schedule entries).flows[id]? = s.flows[id]? := by
  unfold applyEntries
  induction entries generalizing s with
  | nil => rfl
  | cons e entries ih =>
    obtain ⟨hfirst, hrest⟩ := List.forall_mem_cons.mp other
    rw [List.foldl_cons, ih hrest]
    split
    · rfl
    · rename_i hrun
      exact sameBut_applyRunEntry id (hfirst (not_not.mp hrun)).symm

theorem flows_applyEntries_placed (h : s.AcceptsAll entries) (mem : e ∈ entries)
    (run : e.kind = .run) {r : FlowRuntime} (found : s.flows[e.flow]? = some r) :
    ∃ r', (s.applyEntries schedule entries).flows[e.flow]? = some r' ∧ r.Placed schedule e r' := by
  induction entries generalizing s with
  | nil => cases mem
  | cons e' entries ih =>
    have hfold : ∀ t : Impl, t.applyEntries schedule (e' :: entries) =
        (if e'.kind ≠ .run then t else t.applyRunEntry schedule e').applyEntries schedule entries :=
      fun _ => rfl
    rw [hfold]
    by_cases hrun : e'.kind = .run
    · rw [if_neg (not_not.mpr hrun)]
      obtain ⟨r₀, hr₀⟩ := h.accepts e' List.mem_cons_self hrun
      obtain ⟨hsame, r', hr', hplaced⟩ := @flows_of_accepts s schedule e' r₀ hr₀
      have hnodup := h.distinct
      simp only [List.filter_cons, hrun, decide_true, if_true, List.map_cons] at hnodup
      have hlater : ∀ e'' ∈ entries, e''.kind = .run → e''.flow ≠ e'.flow := by
        intro e'' he'' hk heq
        refine (List.nodup_cons.mp hnodup).1 ?_
        rw [← heq]
        exact List.mem_map.mpr ⟨e'', List.mem_filter.mpr ⟨he'', decide_eq_true hk⟩, rfl⟩
      rcases List.mem_cons.mp mem with rfl | hmem
      · obtain rfl : r₀ = r := Option.some.inj (hr₀.1.symm.trans found)
        rw [flows_applyEntries_other hlater]
        exact ⟨r', hr', hplaced⟩
      · refine ih (h.step hrun) hmem ?_
        rw [hsame e.flow (hlater e hmem run)]
        exact found
    · have hmem : e ∈ entries := by
        rcases List.mem_cons.mp mem with rfl | hmem
        · exact absurd run hrun
        · exact hmem
      rw [if_pos hrun]
      exact ih h.tail hmem found

theorem schedules_applyEntries_eq (h : s.AcceptsAll entries) (id : ScheduleId) :
    (s.applyEntries schedule entries).schedules[id]? =
      if id = schedule.schedule then s.schedules[id]?.map fun t =>
        { t with pendingEntries :=
          t.pendingEntries + UInt64.ofNat (entries.countP (·.kind = .run)) }
      else s.schedules[id]? := by
  unfold applyEntries
  induction entries generalizing s with
  | nil => simp
  | cons e entries ih =>
    rw [List.foldl_cons]
    by_cases hrun : e.kind = .run
    · obtain ⟨r, hr⟩ := h.accepts e List.mem_cons_self hrun
      rw [if_neg (not_not.mpr hrun), ih (h.step hrun), schedules_of_accepts hr, get_modify]
      split
      · have hsum : ∀ p : UInt64, p + 1 + UInt64.ofNat (entries.countP (·.kind = .run)) =
            p + UInt64.ofNat (entries.countP (·.kind = .run) + 1) := by
          intro p
          rw [UInt64.ofNat_add, UInt64.add_assoc]
          exact congrArg (p + ·) (UInt64.add_comm _ _)
        simp only [Option.map_map, List.countP_cons, hrun, decide_true, if_true]
        refine congrArg (Option.map · s.schedules[id]?) (funext fun t => ?_)
        simp only [Function.comp, hsum]
      · rfl
    · simp only [ne_eq, hrun, not_false_eq_true, if_true, List.countP_cons, decide_false,
        Bool.false_eq_true, if_false, Nat.add_zero]
      exact ih h.tail

end Entries

end FlowScheduler

import FlowScheduler.Arbitration.Starving
import FlowScheduler.Authority.Offers
import FlowScheduler.Budget.Intervals
import FlowScheduler.Budget.Quanta
import FlowScheduler.Lifecycle.Deliveries

/-! # Releasing a schedule

The flows of a schedule that is released before anything of it was delivered are
ready again, and the slots it took are given back. What its windows were charged
to the intervals of the resources and to the reservations stays charged.
-/

namespace FlowScheduler

open ByteCodec (Bytes)
open Failing SchedOp Impl OrderedMap

/-- The resources are left as they are, but for slots that are given back. -/
def Impl.Frees (s s' : Impl) : Prop :=
  ∀ (id : ResourceId) (r : ResourceRuntime), s.resources[id]? = some r →
    ∃ n : UInt64, n ≤ r.inFlight ∧ s'.resources[id]? = some { r with inFlight := n }

namespace Impl.Frees

variable {s s' s'' : Impl} {now : Ticks}

theorem of_eq (h : s'.resources = s.resources) : s.Frees s' :=
  fun _ r hr => ⟨r.inFlight, UInt64.le_refl _, h ▸ hr⟩

theorem trans (h : s.Frees s') (h' : s'.Frees s'') : s.Frees s'' := by
  intro id r hr
  obtain ⟨n, hn, hr'⟩ := h id r hr
  obtain ⟨m, hm, hr''⟩ := h' id _ hr'
  exact ⟨m, UInt64.le_trans hm hn, hr''⟩

theorem releaseInFlight {id : ResourceId} : s.Frees (s.releaseInFlight id) := by
  intro k r hr
  simp only [Impl.releaseInFlight, modifyResource, get_modify, hr, Option.map_some]
  split
  · refine ⟨countDown r.inFlight, ?_, rfl⟩
    rw [UInt64.le_iff_toNat_le, toNat_countDown]
    omega
  · exact ⟨r.inFlight, UInt64.le_refl _, rfl⟩

theorem releaseRunEntry {k : ScheduleId} {index : ℕ} : s.Frees (s.releaseRunEntry k index now) := by
  unfold Impl.releaseRunEntry
  split
  · exact of_eq rfl
  · split
    · split
      · exact of_eq rfl
      · dsimp only
        split
        · exact of_eq rfl
        · split
          · exact of_eq rfl
          · exact @releaseInFlight s _
    · exact of_eq rfl

theorem applyReleaseSchedule {k : ScheduleId} : s.Frees (s.applyReleaseSchedule k now) := by
  unfold Impl.applyReleaseSchedule
  split
  · exact of_eq rfl
  · exact foldl_keeps (P := s.Frees) (fun t _ h => h.trans releaseRunEntry) _ (of_eq rfl)

theorem closeFlowAttempt {record : AttemptRuntime} {attempt : DispatchAttemptId}
    {state : AttemptState} (same : s'.resources = s.resources) :
    s.Frees (s'.closeFlowAttempt record attempt state now) := by
  have hrelease : s.Frees (s'.releaseInFlight record.ticket.resource) :=
    (of_eq same).trans releaseInFlight
  cases state <;> exact hrelease

theorem applyAttemptClosed {attempt : DispatchAttemptId} {state : AttemptState} {detail : Bytes} :
    s.Frees (s.applyAttemptClosed attempt state detail now) := by
  unfold Impl.applyAttemptClosed
  split
  · exact of_eq rfl
  · split
    · exact of_eq rfl
    · dsimp only
      split
      · exact of_eq rfl
      · split
        · exact of_eq rfl
        · exact closeFlowAttempt rfl

end Impl.Frees

/-- At the tick no capacity is lost or won, no slot is taken and no reservation is charged. -/
structure Impl.Eases (now : Ticks) (s s' : Impl) : Prop where
  resources : ∀ (id : ResourceId) (r : ResourceRuntime), s.resources[id]? = some r →
    ∃ r' : ResourceRuntime, s'.resources[id]? = some r' ∧ r'.inFlight ≤ r.inFlight ∧
      r'.capacityRemaining now = r.capacityRemaining now
  reservations : s'.ledger.reservations = s.ledger.reservations

section Easing

variable {s s' s'' : Impl} {now : Ticks} {r : Option Record}

theorem Impl.Frees.eases (h : s.Frees s') (same : s'.ledger.reservations = s.ledger.reservations) :
    s.Eases now s' := by
  refine ⟨fun id r hr => ?_, same⟩
  obtain ⟨n, hn, hr'⟩ := h id r hr
  exact ⟨_, hr', hn, rfl⟩

theorem Impl.Eases.of_resources (resources : s'.resources = s.resources)
    (same : s'.ledger.reservations = s.ledger.reservations) : s.Eases now s' :=
  (Frees.of_eq resources).eases same

theorem Impl.Eases.trans (h : s.Eases now s') (h' : s'.Eases now s'') : s.Eases now s'' := by
  refine ⟨fun id r hr => ?_, h'.reservations.trans h.reservations⟩
  obtain ⟨r', hr', hslots, hleft⟩ := h.resources id r hr
  obtain ⟨r'', hr'', hslots', hleft'⟩ := h'.resources id r' hr'
  exact ⟨r'', hr'', UInt64.le_trans hslots' hslots, hleft'.trans hleft⟩

theorem resources_normalizeTransientStates (s : Impl) (now : Ticks) :
    (s.normalizeTransientStates now).resources = s.resources :=
  look_normalizeTransientStates (·.resources) rfl s

theorem DecideMove.reservations (move : DecideMove now s r s') :
    s'.ledger.reservations = s.ledger.reservations := by
  obtain ⟨move, unissued⟩ := move
  cases r with
  | none => exact move.quiet.reservations
  | some record =>
    rw [move.ledger]
    refine Ledger.reservations_apply ?_
    cases move with
    | common move => cases move <;> rfl
    | issue => exact (unissued _ rfl).elim

theorem DecideMove.eases (move : DecideMove now s r s') : s.Eases now s' := by
  have hreservations := DecideMove.reservations move
  obtain ⟨move, unissued⟩ := move
  cases move with
  | common move =>
    cases move with
    | counters | note | ready => exact .of_resources rfl hreservations
    | normalize =>
      exact .of_resources (resources_normalizeTransientStates s _) hreservations
    | close => exact Frees.applyAttemptClosed.eases hreservations
    | release => exact Frees.applyReleaseSchedule.eases hreservations
  | tick | failDependency | failDeadline | forget | retire =>
    exact .of_resources rfl hreservations
  | roll =>
    refine ⟨fun k r hr => ?_, hreservations⟩
    simp only [modifyResource, get_modify, hr, Option.map_some]
    split
    · refine ⟨_, rfl, ?_, capacityRemaining_rollInterval r now⟩
      rw [inFlight_rollInterval]
      exact UInt64.le_refl _
    · exact ⟨r, rfl, UInt64.le_refl _, rfl⟩
  | issue => exact (unissued _ rfl).elim

theorem Makes.eases {s t : Scheduler} (h : Makes (DecideMove now) s t) :
    s.impl.Eases now t.impl := by
  obtain ⟨rs, h⟩ := h
  exact h.preserves (P := s.impl.Eases now) (fun _ _ _ move hi => hi.trans (DecideMove.eases move))
    (.of_resources rfl rfl)

end Easing

section Issuing

variable {s : Impl} {now : Ticks} {entries : List ScheduleEntry} {id : ResourceId}
  {r : ResourceRuntime}

end Issuing

section Slots

/-- The slots a round has taken on a resource are counted on top of those in use, and the sum does
not wrap. -/
def Slotted (round : Round) (i : Impl) (id : ResourceId) (more : ℕ) : Prop :=
  round.pendingInFlight.getD id 0 = UInt64.ofNat (round.entries.countP (·.runsOn id)) ∧
    ∀ resource, i.resources[id]? = some resource →
      resource.inFlight.toNat + round.entries.countP (·.runsOn id) + more < 2 ^ 64

variable {i i' : Impl} {round : Round} {id : ResourceId} {n : ℕ} {now : Ticks}

theorem Slotted.congr (h : Slotted round i id n)
    (same : i'.resources[id]?.map (·.inFlight) = i.resources[id]?.map (·.inFlight)) :
    Slotted round i' id n := by
  refine ⟨h.1, fun resource hresource => ?_⟩
  rw [hresource, Option.map_some] at same
  obtain ⟨old, hold, heq⟩ := Option.map_eq_some_iff.mp same.symm
  rw [← heq]
  exact h.2 old hold

theorem Slotted.grant {e : ScheduleEntry} (run : e.kind = .run) (h : ∀ id, Slotted round i id 0)
    (room : Slotted round i e.resource 1) : Slotted (round.grant e) i id 0 := by
  have hcount : (round.grant e).entries.countP (·.runsOn id) =
      round.entries.countP (·.runsOn id) + if id = e.resource then 1 else 0 := by
    have hon : e.runsOn id = decide (id = e.resource) := by
      simp [ScheduleEntry.runsOn, run, eq_comm]
    simp only [Round.grant, List.countP_append, List.countP_singleton, hon, decide_eq_true_eq]
  have hpending : (round.grant e).pendingInFlight.getD id 0 = if id = e.resource then
      round.pendingInFlight.getD e.resource 0 + 1 else round.pendingInFlight.getD id 0 := by
    simp only [Round.grant]
    exact getD_insert _ _
  unfold Slotted
  rw [hcount, hpending]
  by_cases hid : id = e.resource
  · subst hid
    rw [if_pos rfl, if_pos rfl, room.1]
    exact ⟨(UInt64.ofNat_add _ _).symm, fun resource hresource => room.2 resource hresource⟩
  · rw [if_neg hid, if_neg hid]
    exact h id

end Slots

/-- How far the release of a schedule has come: its first windows are given back, the flows of the
others still wait for them. -/
structure Impl.Releasing (base : Impl) (schedule : Schedule) (n : ℕ) (i : Impl) : Prop where
  retained : ∃ t : ScheduleRuntime, i.schedules[schedule.schedule]? = some t ∧
    t.schedule = schedule ∧
    ∀ index, n ≤ index → index < schedule.entries.length → t.consumed[index]? = some 0
  holding : ∀ e ∈ schedule.entries.drop n, ∃ r : FlowRuntime, i.flows[e.flow]? = some r ∧
    r.lifecycle = .scheduled ∧ r.scheduledSchedule = schedule.schedule
  ready : ∀ e ∈ schedule.entries.take n, ∃ r : FlowRuntime, i.flows[e.flow]? = some r ∧
    r.lifecycle = .ready
  slots : ∀ (id : ResourceId) (r : ResourceRuntime), base.resources[id]? = some r →
    ∃ r' : ResourceRuntime, i.resources[id]? = some r' ∧
      r'.inFlight.toNat = r.inFlight.toNat - (schedule.entries.take n).countP (·.runsOn id)

section Releasing

variable {base i : Impl} {schedule : Schedule} {n : ℕ} {now : Ticks} {e : ScheduleEntry}

theorem flows_unscheduleFlow {r : FlowRuntime} (found : i.flows[e.flow]? = some r) :
    SameBut e.flow i (i.unscheduleFlow e now) ∧
      ∃ r' : FlowRuntime, (i.unscheduleFlow e now).flows[e.flow]? = some r' ∧
        r'.lifecycle = .ready := by
  constructor
  · intro k hk
    simp only [unscheduleFlow, recordStep, setLifecycle, releaseInFlight, modifyResource,
      modifyFlow, get_modify, if_neg hk]
  · simp only [unscheduleFlow, recordStep, setLifecycle, releaseInFlight, modifyResource,
      modifyFlow, get_modify, if_true, found, Option.map_some]
    exact ⟨_, rfl, by simp⟩

theorem releaseRunEntry_eq {k : ScheduleId} {t : ScheduleRuntime} {r : FlowRuntime}
    (retained : i.schedules[k]? = some t) (entry : t.schedule.entries[n]? = some e)
    (mark : t.consumed[n]? = some 0) (run : e.kind = .run) (found : i.flows[e.flow]? = some r)
    (scheduled : r.lifecycle = .scheduled) (held : r.scheduledSchedule = t.schedule.schedule) :
    i.releaseRunEntry k n now = (i.modifySchedule k fun r =>
      { r with
        consumed := r.consumed.set n 2
        pendingEntries := countDown r.pendingEntries }).unscheduleFlow e now := by
  unfold Impl.releaseRunEntry
  simp only [retained, entry, mark, run, modifySchedule, found, scheduled, held, ne_eq,
    not_true_eq_false, or_self, if_false]

theorem Impl.Releasing.step (h : Releasing base schedule n i)
    (runs : ∀ e ∈ schedule.entries, e.kind = .run)
    (distinct : (schedule.entries.map (·.flow)).Nodup) (lt : n < schedule.entries.length) :
    Releasing base schedule (n + 1) (i.releaseRunEntry schedule.schedule n now) := by
  obtain ⟨t, hretained, rfl, hmarks⟩ := h.retained
  have hdrop := List.drop_eq_getElem_cons lt
  have htake : t.schedule.entries.take (n + 1) =
      t.schedule.entries.take n ++ [t.schedule.entries[n]] := List.take_succ_eq_append_getElem lt
  obtain ⟨r, hr, hscheduled, hheld⟩ := h.holding _ (hdrop ▸ List.mem_cons_self)
  have hrun := runs _ (List.getElem_mem lt)
  have hothers : ∀ e' ∈ t.schedule.entries.take n ++ t.schedule.entries.drop (n + 1),
      e'.flow ≠ t.schedule.entries[n].flow := by
    intro e' he' hsame
    rw [← List.take_append_drop n t.schedule.entries, hdrop, List.map_append, List.map_cons,
      List.nodup_middle, List.nodup_cons, ← List.map_append] at distinct
    exact distinct.1 (hsame ▸ List.mem_map_of_mem he')
  rw [releaseRunEntry_eq hretained (List.getElem?_eq_getElem lt) (hmarks n (Nat.le_refl n) lt) hrun hr
    hscheduled hheld]
  generalize hj : (i.modifySchedule t.schedule.schedule fun r =>
    { r with
      consumed := r.consumed.set n 2
      pendingEntries := countDown r.pendingEntries }) = j
  have hflows : j.flows = i.flows := by rw [← hj]; rfl
  have hresources : j.resources = i.resources := by rw [← hj]; rfl
  obtain ⟨hsame, hready⟩ := @flows_unscheduleFlow j now _ r (hflows ▸ hr)
  have hkeep : ∀ e' ∈ t.schedule.entries.take n ++ t.schedule.entries.drop (n + 1),
      (j.unscheduleFlow t.schedule.entries[n] now).flows[e'.flow]? = i.flows[e'.flow]? := by
    intro e' he'
    rw [hsame _ (hothers e' he'), hflows]
  refine ⟨?_, fun e' he' => ?_, fun e' he' => ?_, fun id r₀ hr₀ => ?_⟩
  · have hschedules : (j.unscheduleFlow t.schedule.entries[n] now).schedules = j.schedules := rfl
    rw [hschedules, ← hj]
    simp only [modifySchedule, get_modify, if_true, hretained, Option.map_some]
    refine ⟨_, rfl, rfl, fun index hle hlt => ?_⟩
    rw [List.getElem?_set_ne (by omega)]
    exact hmarks index (by omega) hlt
  · rw [hkeep e' (List.mem_append_right _ he')]
    exact h.holding e' (hdrop ▸ List.mem_cons_of_mem _ he')
  · rw [htake] at he'
    rcases List.mem_append.mp he' with hbefore | hlast
    · rw [hkeep e' (List.mem_append_left _ hbefore)]
      exact h.ready e' hbefore
    · obtain rfl := List.mem_singleton.mp hlast
      exact hready
  · obtain ⟨r', hr', hslots⟩ := h.slots id r₀ hr₀
    have hrelease : (j.unscheduleFlow t.schedule.entries[n] now).resources =
        (j.releaseInFlight t.schedule.entries[n].resource).resources := rfl
    rw [hrelease, htake, List.countP_append, List.countP_singleton]
    simp only [releaseInFlight, modifyResource, get_modify, hresources, hr', Option.map_some]
    by_cases hid : id = t.schedule.entries[n].resource
    · refine ⟨_, if_pos hid, ?_⟩
      have hon : t.schedule.entries[n].runsOn id = true := by
        simp [ScheduleEntry.runsOn, hrun, hid]
      rw [if_pos hon]
      dsimp only
      rw [toNat_countDown, hslots]
      omega
    · refine ⟨_, if_neg hid, ?_⟩
      have hon : ¬ t.schedule.entries[n].runsOn id = true := by
        simp [ScheduleEntry.runsOn, Ne.symm hid]
      rw [if_neg hon]
      exact hslots

theorem Impl.Releasing.applyReleaseSchedule (h : Releasing base schedule 0 i)
    (runs : ∀ e ∈ schedule.entries, e.kind = .run)
    (distinct : (schedule.entries.map (·.flow)).Nodup) :
    Releasing base schedule schedule.entries.length
      (i.applyReleaseSchedule schedule.schedule now) := by
  have hloop : ∀ n ≤ schedule.entries.length, Releasing base schedule n
      ((List.range n).foldl (fun s index => s.releaseRunEntry schedule.schedule index now) i) := by
    intro n
    induction n with
    | zero => exact fun _ => h
    | succ n ih =>
      intro hle
      rw [List.range_succ, List.foldl_append]
      exact (ih (Nat.le_of_succ_le hle)).step runs distinct hle
  obtain ⟨t, hretained, hsame, -⟩ := h.retained
  unfold Impl.applyReleaseSchedule
  rw [hretained]
  dsimp only
  rw [hsame]
  exact hloop _ (Nat.le_refl _)

end Releasing

/-- The end of a round once its schedule is written. -/
def Impl.settleIssue (i : Impl) (schedule : Schedule) (now : Ticks) : Impl :=
  ((i.applySchedule schedule).advanceSchedule.normalizeTransientStates now).maybeRetireSchedules

section Rounds

variable {s t v : Scheduler} {now later : Ticks} {o : ArbitrationOutcome}

/-- How a round comes to the state in which it issues its schedule. -/
structure Issued (s u t : Scheduler) (now : Ticks) (schedule : Schedule) : Prop where
  eases : s.impl.Eases now u.impl
  slots : t.accepted = s.accepted ++ [.scheduleIssued schedule] → ∀ id : ResourceId,
    u.impl.resources[id]?.map (·.inFlight) = s.impl.resources[id]?.map (·.inFlight)
  clock : u.impl.lastTick = now
  issues : u.impl.Issues now schedule.entries
  room : (∀ e ∈ schedule.entries, e.kind = .run) → ∀ (id : ResourceId) (r : ResourceRuntime),
    u.impl.resources[id]? = some r →
      r.inFlight.toNat + (schedule.entries.filter (·.runsOn id)).length < 2 ^ 64
  made : schedule = u.impl.makeSchedule schedule.entries now
  impl : t.impl = ({ u.impl with
    provenanceSequence := u.impl.provenanceSequence + 1 } : Impl).settleIssue schedule now

variable {i : Impl} {schedule : Schedule}

end Rounds

namespace Sample

def bound : List Call :=
  [.registerResource resource, .registerPriorityClass priority, .registerQosClass qos,
    .registerReservation reservation, .admitFlow { flow 1 with reservation := ⟨⟨1⟩, ⟨1⟩⟩ }]

end Sample

end FlowScheduler

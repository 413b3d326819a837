import FlowScheduler.Runtime.Recovery

/-! # What an accepted check establishes

Inversion of the request checks: the facts about the tables that hold when a
check lets a request through.
-/

namespace FlowScheduler

open Failing

@[simp] theorem rejectIf_eq_ok {p : Prop} [Decidable p] {charge : Bool} {code : ErrorCode}
    {detail : String} {u : Unit} : rejectIf p charge code detail = .ok u ↔ ¬ p := by
  unfold rejectIf
  split <;> simp_all

namespace Impl

variable {s : Impl}

theorem namedFlow_eq_ok {flow : FlowId} {generation : Generation} {unknown stale : String}
    {r : FlowRuntime} : s.namedFlow flow generation unknown stale = .ok r ↔
      s.flows[flow]? = some r ∧ r.descriptor.generation = generation := by
  unfold namedFlow
  cases s.flows[flow]? with
  | none => simp
  | some found =>
    simp only [bind_eq_ok, refuseIf_eq_ok, not_not, Option.some.injEq]
    constructor
    · rintro ⟨_, h, hr⟩
      cases hr
      exact ⟨rfl, h⟩
    · rintro ⟨rfl, h⟩
      exact ⟨(), h, rfl⟩

theorem resourceGuard_eq_ok {id : ResourceId} {generation : Generation} {unknown stale : String}
    {u : Unit} : s.resourceGuard id generation unknown stale = .ok u ↔
      ∃ r, s.resources[id]? = some r ∧ r.descriptor.generation = generation := by
  unfold resourceGuard
  cases s.resources[id]? <;> simp

theorem priorityGuard_eq_ok {id : PriorityClassId} {generation : Generation}
    {unknown stale : String} {u : Unit} : s.priorityGuard id generation unknown stale = .ok u ↔
      ∃ d, s.priorityClasses[id]? = some d ∧ d.generation = generation := by
  unfold priorityGuard
  cases s.priorityClasses[id]? <;> simp

theorem qosGuard_eq_ok {id : QoSClassId} {generation : Generation} {unknown stale : String}
    {u : Unit} : s.qosGuard id generation unknown stale = .ok u ↔
      ∃ d, s.qosClasses[id]? = some d ∧ d.generation = generation := by
  unfold qosGuard
  cases s.qosClasses[id]? <;> simp

/-- The reservation named is open at the tick, or none is named. -/
def ReservationCurrent (s : Impl) (id : ReservationId) (generation : Generation) (now : Ticks) :
    Prop :=
  (¬ id.valid ∧ ¬ generation.valid) ∨
    (id.valid ∧ ∃ r, s.reservations[id]? = some r ∧ ¬ r.retired ∧
      r.descriptor.generation = generation ∧ r.descriptor.windowContains now)

theorem validateReservation_eq_ok {id : ReservationId} {generation : Generation} {now : Ticks}
    {u : Unit} : s.validateReservation id generation now = .ok u ↔
      s.ReservationCurrent id generation now := by
  unfold validateReservation ReservationCurrent
  by_cases hv : id.valid
  · simp only [hv, not_true_eq_false, if_false, false_and, true_and, false_or]
    cases s.reservations[id]? with
    | none => simp
    | some r => simp [bind_eq_ok]
  · simp [hv]

/-- Every field of the authority is the one currently registered, and the tick is in time. -/
structure AuthorityCurrent (s : Impl) (a : Authority) (now : Ticks) : Prop where
  epochValid : a.epoch.valid
  epoch : a.epoch = s.epoch
  policy : a.policy = s.policyBinding.policy
  policyGeneration : a.policyGeneration = s.policyBinding.generation
  flow : ∃ r, s.flows[a.flow]? = some r ∧ r.descriptor.generation = a.flowGeneration ∧
    r.descriptor.path.id = a.path ∧ r.descriptor.path.generation = a.pathGeneration
  resource : ∃ r, s.resources[a.resource]? = some r ∧
    r.descriptor.generation = a.resourceGeneration
  priority : ∃ d, s.priorityClasses[a.priority]? = some d ∧ d.generation = a.priorityGeneration
  qos : ∃ d, s.qosClasses[a.qos]? = some d ∧ d.generation = a.qosGeneration
  reservation : s.ReservationCurrent a.reservation a.reservationGeneration now
  deadline : ¬ (hasDeadline a.deadline ∧ a.deadline ≤ now)
  window : ¬ (a.reservationEnd ≠ kNoWindowBound ∧ a.reservationEnd ≤ now)

theorem validateTicketFields_eq_ok {a : Authority} {now : Ticks} {u : Unit} :
    s.validateTicketFields a now = .ok u ↔ s.AuthorityCurrent a now := by
  simp only [validateTicketFields, bind_eq_ok, refuseIf_eq_ok, namedFlow_eq_ok,
    resourceGuard_eq_ok, priorityGuard_eq_ok, qosGuard_eq_ok, validateReservation_eq_ok]
  constructor
  · rintro ⟨_, he, _, hp, r, ⟨hr, hg⟩, _, hpath, _, hres, _, hpri, _, hqos, _, hrsv, _, hd, hw⟩
    obtain ⟨hev, he⟩ := not_or.mp he
    obtain ⟨hp, hpg⟩ := not_or.mp hp
    obtain ⟨hpath, hpathg⟩ := not_or.mp hpath
    exact ⟨not_not.mp hev, not_not.mp he, not_not.mp hp, not_not.mp hpg,
      ⟨r, hr, hg, not_not.mp hpath, not_not.mp hpathg⟩, hres, hpri, hqos, hrsv, hd, hw⟩
  · rintro ⟨hev, he, hp, hpg, ⟨r, hr, hg, hpath, hpathg⟩, hres, hpri, hqos, hrsv, hd, hw⟩
    exact ⟨(), not_or.mpr ⟨not_not.mpr hev, not_not.mpr he⟩, (), by simp [hp, hpg], r, ⟨hr, hg⟩, (), by simp [hpath, hpathg],
      (), hres, (), hpri, (), hqos, (), hrsv, (), hd, hw⟩

structure Dispatches (s : Impl) (schedule : ScheduleId) (generation : Generation) (ordinal : UInt32)
    (worker : WorkerId) (boot : BootId) (now : Ticks) (entry : ScheduleEntry) (flow : FlowRuntime) :
    Prop where
  worker : worker.valid
  boot : boot.valid
  retained : ∃ runtime, s.schedules[schedule]? = some runtime ∧
    runtime.schedule.generation = generation ∧ runtime.schedule.epoch = s.epoch ∧
    runtime.schedule.entries[ordinal.toNat]? = some entry ∧
    runtime.consumed[ordinal.toNat]? = some 0
  run : entry.kind = .run
  found : s.flows[entry.flow]? = some flow
  scheduled : flow.lifecycle = .scheduled
  holds : flow.scheduledSchedule = schedule
  generation : flow.descriptor.generation = entry.flowGeneration
  authority : s.AuthorityCurrent (s.entryAuthority entry) now

theorem beginDispatchGuard_eq_ok {schedule : ScheduleId} {generation : Generation} {ordinal : UInt32}
    {worker : WorkerId} {boot : BootId} {now : Ticks} {entry : ScheduleEntry} {flow : FlowRuntime} :
    s.beginDispatchGuard schedule generation ordinal worker boot now = .ok (entry, flow) ↔
      s.Dispatches schedule generation ordinal worker boot now entry flow := by
  unfold beginDispatchGuard
  rw [bind_eq_ok]
  constructor
  · rintro ⟨_, hw, h⟩
    rw [refuseIf_eq_ok, not_or, not_not, not_not] at hw
    cases hs : s.schedules[schedule]? with
    | none => simp [hs] at h
    | some runtime =>
      simp only [hs, bind_eq_ok, refuseIf_eq_ok, not_not] at h
      obtain ⟨_, hgen, _, hepoch, h⟩ := h
      cases he : runtime.schedule.entries[ordinal.toNat]? with
      | none => simp [he] at h
      | some e =>
        simp only [he, bind_eq_ok, refuseIf_eq_ok, not_not] at h
        obtain ⟨_, hkind, _, hconsumed, h⟩ := h
        cases hf : s.flows[e.flow]? with
        | none => simp [hf] at h
        | some r =>
          simp only [hf, bind_eq_ok, refuseIf_eq_ok, not_or, not_not,
            validateTicketFields_eq_ok] at h
          obtain ⟨_, ⟨hl, hsched⟩, _, hg, _, ha, h⟩ := h
          cases h
          exact ⟨hw.1, hw.2, ⟨runtime, hs, hgen, hepoch, he, hconsumed⟩, hkind, hf, hl, hsched, hg, ha⟩
  · rintro ⟨hw, hb, ⟨runtime, hs, hgen, hepoch, he, hconsumed⟩, hkind, hf, hl, hsched, hg, ha⟩
    refine ⟨(), by simp [hw, hb], ?_⟩
    simp only [hs, he, hf, bind_eq_ok, refuseIf_eq_ok, not_or, not_not,
      validateTicketFields_eq_ok]
    exact ⟨(), hgen, (), hepoch, (), hkind, (), hconsumed, (), ⟨hl, hsched⟩, (), hg, (), ha, rfl⟩

theorem generation_lt_of_updateFlowGuard {d : FlowDescriptor} (guard : s.updateFlowGuard d = .ok ()) :
    ∃ r : FlowRuntime, s.flows[d.flow]? = some r ∧
      r.descriptor.generation.value < d.generation.value := by
  unfold updateFlowGuard at guard
  obtain ⟨_, -, guard⟩ := bind_eq_ok.mp guard
  split at guard
  · cases guard
  · rename_i r hr
    obtain ⟨expected, hadvance, guard⟩ := bind_eq_ok.mp guard
    obtain ⟨_, hgeneration, -⟩ := bind_eq_ok.mp guard
    rw [refuseIf_eq_ok, not_not] at hgeneration
    refine ⟨r, hr, ?_⟩
    rw [hgeneration]
    exact Id.lt_of_advance hadvance

structure Commits (s : Impl) (e : CompletionEvidence) (now : Ticks) (r : FlowRuntime)
    (x : AttemptRuntime) : Prop where
  established : e.provenance.established
  bound : e.bound
  served : e.served ≤ kMaxServiceUnits
  epoch : e.epoch = s.epoch
  found : s.flows[e.flow]? = some r
  generation : r.descriptor.generation = e.flowGeneration
  retained : s.attempts[e.attempt]? = some x
  flow : x.ticket.flow = e.flow
  schedule : x.ticket.schedule = e.schedule
  scheduleGeneration : x.ticket.scheduleGeneration = e.scheduleGeneration
  worker : x.ticket.worker = e.worker
  boot : x.ticket.boot = e.boot
  live : ¬ x.state.isTerminal
  holds : r.openAttempt = e.attempt
  quantum : e.served ≤ x.ticket.quantum
  deadline : ¬ (hasDeadline x.ticket.deadlineTick ∧ x.ticket.deadlineTick ≤ now ∧
    e.outcome = .served)

theorem commits_of_verdict {e : CompletionEvidence} {now : Ticks} {flow : FlowRuntime}
    {attempt : AttemptRuntime} (h : s.completionVerdict e now = .ok (.commit flow attempt)) :
    s.Commits e now flow attempt := by
  simp only [completionVerdict, bind_eq_ok, rejectIf_eq_ok] at h
  obtain ⟨_, hprov, _, hbound, _, hserved, _, hepoch, h⟩ := h
  cases hf : s.flows[e.flow]? with
  | none => simp [hf] at h
  | some r =>
    simp only [hf, bind_eq_ok, rejectIf_eq_ok, not_not] at h
    obtain ⟨_, hgen, h⟩ := h
    cases ha : s.attempts[e.attempt]? with
    | none => simp [ha] at h
    | some a =>
      simp only [ha, bind_eq_ok, rejectIf_eq_ok, not_or, not_not] at h
      obtain ⟨_, ⟨hflow, hsched⟩, _, hsg, _, ⟨hworker, hboot⟩, h⟩ := h
      split at h
      · simp only [closedAttemptVerdict] at h
        split at h
        · cases h
        · simp only [bind_eq_ok] at h
          obtain ⟨_, -, h⟩ := h
          cases h
      · rename_i hlive
        simp only [bind_eq_ok, rejectIf_eq_ok, not_not] at h
        obtain ⟨_, hholds, _, hq, _, hd, h⟩ := h
        cases h
        exact ⟨not_not.mp hprov, not_not.mp hbound, UInt64.not_lt.mp hserved, not_not.mp hepoch,
          hf, hgen, ha, hflow, hsched, hsg, hworker, hboot, hlive, hholds, UInt64.not_lt.mp hq, hd⟩

end Impl

end FlowScheduler

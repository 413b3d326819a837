import FlowScheduler.Runtime.Operations

/-! # Dispatch and completion

Opening an attempt revalidates the authority of a schedule entry; completion
evidence is committed at most once and under current authority only.
-/

namespace FlowScheduler

open ByteCodec Failing SchedOp

/-- The authority fields a dispatch is checked against. -/
structure Authority where
  flow : FlowId
  flowGeneration : Generation
  resource : ResourceId
  resourceGeneration : Generation
  path : PathId
  pathGeneration : Generation
  reservation : ReservationId
  reservationGeneration : Generation
  qos : QoSClassId
  qosGeneration : Generation
  priority : PriorityClassId
  priorityGeneration : Generation
  policy : PolicyId
  policyGeneration : Generation
  epoch : FabricEpoch
  deadline : Ticks
  reservationEnd : Ticks
  deriving DecidableEq, Repr

namespace Impl

variable (s : Impl)

def validateReservation (reservation : ReservationId) (generation : Generation) (now : Ticks) :
    Status :=
  if ¬ reservation.valid then
    refuseIf generation.valid .invalidArgument
      "dispatch authority carries a reservation generation without a reservation identity"
  else match s.reservations[reservation]? with
    | none => .error (failure .reservationClosed
        "dispatch names a reservation that is no longer available")
    | some found => do
      refuseIf found.retired .reservationClosed
        "dispatch names a reservation that is no longer available"
      refuseIf (found.descriptor.generation ≠ generation) .staleReservationGeneration
        "dispatch authority names a retired reservation generation"
      refuseIf (¬ found.descriptor.windowContains now) .reservationClosed
        "the reservation window is not open at the dispatch tick"

def validateTicketFields (a : Authority) (now : Ticks) : Status := do
  refuseIf (¬ a.epoch.valid ∨ a.epoch ≠ s.epoch) .staleEpoch
    "dispatch authority was issued under a retired epoch"
  refuseIf (a.policy ≠ s.policyBinding.policy ∨ a.policyGeneration ≠ s.policyBinding.generation)
    .stalePolicyGeneration "dispatch authority was issued under a retired policy"
  let flow ← s.namedFlow a.flow a.flowGeneration "dispatch names an unregistered flow"
    "dispatch authority names a retired flow generation"
  refuseIf (flow.descriptor.path.id ≠ a.path ∨ flow.descriptor.path.generation ≠ a.pathGeneration)
    .stalePathGeneration "dispatch authority names a retired path binding"
  s.resourceGuard a.resource a.resourceGeneration "dispatch names an unregistered resource"
    "dispatch authority names a retired resource generation"
  s.priorityGuard a.priority a.priorityGeneration "dispatch names an unregistered priority class"
    "dispatch authority names a retired priority class generation"
  s.qosGuard a.qos a.qosGeneration "dispatch names an unregistered qos class"
    "dispatch authority names a retired qos class generation"
  s.validateReservation a.reservation a.reservationGeneration now
  refuseIf (hasDeadline a.deadline ∧ a.deadline ≤ now) .deadlinePassed
    "the dispatch tick is at or past the flow deadline"
  refuseIf (a.reservationEnd ≠ kNoWindowBound ∧ a.reservationEnd ≤ now) .reservationClosed
    "the dispatch tick is at or past the reservation window end"

/-- The authority of a schedule entry, under the policy and the epoch of the scheduler. -/
def entryAuthority (e : ScheduleEntry) : Authority where
  flow := e.flow
  flowGeneration := e.flowGeneration
  resource := e.resource
  resourceGeneration := e.resourceGeneration
  path := e.path
  pathGeneration := e.pathGeneration
  reservation := e.reservation
  reservationGeneration := e.reservationGeneration
  qos := e.qos
  qosGeneration := e.qosGeneration
  priority := e.priority
  priorityGeneration := e.priorityGeneration
  policy := s.policy.policy
  policyGeneration := s.policy.generation
  epoch := s.epoch
  deadline := e.deadlineTick
  reservationEnd := e.reservationEnd

/-- The checks of a dispatch request; they yield the entry and the flow it serves. -/
def beginDispatchGuard (schedule : ScheduleId) (generation : Generation) (ordinal : UInt32)
    (worker : WorkerId) (boot : BootId) (now : Ticks) : Result (ScheduleEntry × FlowRuntime) := do
  refuseIf (¬ worker.valid ∨ ¬ boot.valid) .invalidArgument
    "dispatch requires a worker identity and boot id"
  match s.schedules[schedule]? with
  | none => .error (failure .unknownSchedule "schedule is not retained")
  | some runtime =>
    refuseIf (runtime.schedule.generation ≠ generation) .staleScheduleGeneration
      "schedule generation does not match"
    refuseIf (runtime.schedule.epoch ≠ s.epoch) .staleEpoch
      "schedule was issued under a retired epoch"
    match runtime.schedule.entries[ordinal.toNat]? with
    | none => .error (failure .outOfRange "schedule entry ordinal is out of range")
    | some entry =>
      refuseIf (entry.kind ≠ .run) .invalidArgument "only Run entries can be dispatched"
      refuseIf (runtime.consumed[ordinal.toNat]? ≠ some 0) .invalidState
        "schedule entry has already been consumed"
      match s.flows[entry.flow]? with
      | none => .error (failure .unknownFlow "schedule entry names an unregistered flow")
      | some flow =>
        refuseIf (flow.lifecycle ≠ .scheduled ∨ flow.scheduledSchedule ≠ schedule) .invalidState
          "flow is no longer holding the scheduled service window"
        refuseIf (flow.descriptor.generation ≠ entry.flowGeneration) .staleFlowGeneration
          "flow generation advanced after the schedule was issued"
        s.validateTicketFields (s.entryAuthority entry) now
        return (entry, flow)

def issueTicket (schedule : ScheduleId) (generation : Generation) (entry : ScheduleEntry)
    (worker : WorkerId) (boot : BootId) (now : Ticks) : DispatchTicket :=
  let ticket : DispatchTicket :=
    { attempt := s.nextAttempt, epoch := s.epoch, schedule, scheduleGeneration := generation
      flow := entry.flow, flowGeneration := entry.flowGeneration
      path := entry.path, pathGeneration := entry.pathGeneration
      resource := entry.resource, resourceGeneration := entry.resourceGeneration
      reservation := entry.reservation, reservationGeneration := entry.reservationGeneration
      qos := entry.qos, qosGeneration := entry.qosGeneration
      priority := entry.priority, priorityGeneration := entry.priorityGeneration
      policy := s.policy.policy, policyGeneration := s.policy.generation
      worker, boot, startTick := now, deadlineTick := entry.deadlineTick
      reservationEnd := entry.reservationEnd, quantum := entry.quantum }
  { ticket with digest := ticket.computeDigest }

def consumeEntry (schedule : ScheduleId) (ordinal : ℕ) : Impl :=
  s.modifySchedule schedule fun r =>
    { r with consumed := r.consumed.set ordinal 1, pendingEntries := countDown r.pendingEntries }

def revalidate (t : DispatchTicket) (now : Ticks) : Status := do
  refuseIf (t.digest = 0) .invalidArgument "dispatch ticket has no integrity digest"
  refuseIf (t.computeDigest ≠ t.digest) .contradictoryCompletion
    "dispatch ticket digest does not match its fields"
  refuseIf (¬ t.state.isTerminal ∧ t.state ≠ .opened ∧ t.state ≠ .started) .invalidState
    "dispatch ticket carries an unknown state"
  s.validateTicketFields
    { flow := t.flow, flowGeneration := t.flowGeneration, resource := t.resource
      resourceGeneration := t.resourceGeneration, path := t.path
      pathGeneration := t.pathGeneration, reservation := t.reservation
      reservationGeneration := t.reservationGeneration, qos := t.qos
      qosGeneration := t.qosGeneration, priority := t.priority
      priorityGeneration := t.priorityGeneration, policy := t.policy
      policyGeneration := t.policyGeneration, epoch := t.epoch, deadline := t.deadlineTick
      reservationEnd := t.reservationEnd } now

def markStartedGuard (ticket : DispatchTicket) (now : Ticks) : Result Bool :=
  match s.attempts[ticket.attempt]? with
  | none => .error (failure .unknownAttempt "attempt is not retained")
  | some found => do
    refuseIf found.state.isTerminal .completionForClosedAttempt
      "attempt already reached a terminal state"
    s.revalidate ticket now
    return found.state != .started

def retainedAttempt (attempt : DispatchAttemptId) : Result AttemptRuntime :=
  match s.attempts[attempt]? with
  | none => .error (failure .unknownAttempt "attempt is not retained")
  | some found => .ok found

end Impl

def remainingWork (r : FlowRuntime) : UInt64 :=
  if r.servedWork < r.descriptor.estimatedWork then r.descriptor.estimatedWork - r.servedWork
  else 0

/-- The transition is complete before the attempt counter is advanced. -/
def beginDispatch (schedule : ScheduleId) (generation : Generation) (ordinal : UInt32)
    (worker : WorkerId) (boot : BootId) (now : Ticks) : SchedOp DispatchTicket := do
  touch now
  let s ← readImpl
  let (entry, flow) ← s.beginDispatchGuard schedule generation ordinal worker boot now
  let ticket := s.issueTicket schedule generation entry worker boot now
  journal (.attemptOpened ticket (remainingWork flow) now)
  modifyImpl fun s =>
    (s.applyAttemptOpened ticket ticket.quantum now).consumeEntry schedule ordinal.toNat
  let next ← (← readImpl).nextAttempt.advance
  modifyImpl fun s => { s with nextAttempt := next }
  return ticket

def revalidate (ticket : DispatchTicket) (now : Ticks) : SchedOp Unit := do
  (← readImpl).revalidate ticket now

def markStarted (ticket : DispatchTicket) (now : Ticks) : SchedOp Unit := do
  touch now
  if ← (← readImpl).markStartedGuard ticket now then
    journal (.attemptStarted ticket.attempt now)
    modifyImpl (·.applyAttemptStarted ticket.attempt now)

def closeAttempt (attempt : DispatchAttemptId) (state : AttemptState) (detail : Bytes)
    (now : Ticks) : SchedOp Unit := do
  journal (.attemptClosed attempt state now detail)
  modifyImpl (·.applyAttemptClosed attempt state detail now)

def abandonAttempt (attempt : DispatchAttemptId) (reason : Bytes) (now : Ticks) :
    SchedOp Unit := do
  touch now
  let found ← (← readImpl).retainedAttempt attempt
  if ¬ found.state.isTerminal then
    closeAttempt attempt .abandoned reason now
    modifyImpl (·.normalizeTransientStates now)

def preemptAttempt (attempt : DispatchAttemptId) (reason : Bytes) (now : Ticks) :
    SchedOp Unit := do
  touch now
  let found ← (← readImpl).retainedAttempt attempt
  refuseIf found.state.isTerminal .completionForClosedAttempt
    "attempt already reached a terminal state"
  closeAttempt attempt .preempted reason now
  modifyImpl fun s =>
    { s with preemptionsIssued := s.preemptionsIssued + 1 }.normalizeTransientStates now

/-- Why evidence is rejected, and whether the named flow is charged with it. -/
structure Rejection where
  chargeFlow : Bool
  code : ErrorCode
  detail : String
  deriving DecidableEq, Repr

def rejectIf (p : Prop) [Decidable p] (chargeFlow : Bool) (code : ErrorCode) (detail : String) :
    Except Rejection Unit :=
  if p then .error ⟨chargeFlow, code, detail⟩ else .ok ()

/-- What a completion report amounts to once it is not rejected. -/
inductive CompletionVerdict
  | duplicate (flow : FlowRuntime) (attempt : AttemptRuntime)
  | commit (flow : FlowRuntime) (attempt : AttemptRuntime)

namespace Impl

variable (s : Impl)

/-- Evidence for an attempt that has already ended. -/
def closedAttemptVerdict (e : CompletionEvidence) (flow : FlowRuntime) (attempt : AttemptRuntime) :
    Except Rejection CompletionVerdict := do
  if attempt.hasEvidence ∧ attempt.evidenceDigest = e.digest ∧ attempt.state = .committed then
    return .duplicate flow attempt
  rejectIf (attempt.hasEvidence ∧ attempt.evidenceDigest ≠ e.digest) true .contradictoryCompletion
    "a different completion was already committed for this attempt"
  .error ⟨true, .completionForClosedAttempt,
    "attempt was closed as " ++ attempt.state.toText ++ "; completion cannot revive it"⟩

def completionVerdict (e : CompletionEvidence) (now : Ticks) :
    Except Rejection CompletionVerdict := do
  rejectIf (¬ e.provenance.established) false .invalidArgument
    "completion evidence has no established provenance"
  rejectIf (¬ e.bound) false .invalidArgument "completion evidence is missing an authority field"
  rejectIf (kMaxServiceUnits < e.served) false .outOfRange
    "completion evidence served exceeds the bound"
  rejectIf (e.epoch ≠ s.epoch) false .staleEpoch
    "completion evidence was produced under a retired coordinator epoch"
  match s.flows[e.flow]? with
  | none => .error ⟨false, .unknownFlow, "completion evidence names an unregistered flow"⟩
  | some flow =>
    rejectIf (flow.descriptor.generation ≠ e.flowGeneration) true .staleFlowGeneration
      "completion evidence names a retired flow generation"
    match s.attempts[e.attempt]? with
    | none => .error ⟨true, .unknownAttempt, "completion evidence names a retired attempt"⟩
    | some attempt =>
      rejectIf (attempt.ticket.flow ≠ e.flow ∨ attempt.ticket.schedule ≠ e.schedule) true
        .contradictoryCompletion "completion evidence contradicts the attempt it names"
      rejectIf (attempt.ticket.scheduleGeneration ≠ e.scheduleGeneration) true
        .staleScheduleGeneration "completion evidence names a retired schedule generation"
      rejectIf (attempt.ticket.worker ≠ e.worker ∨ attempt.ticket.boot ≠ e.boot) true .fenced
        "completion evidence comes from a worker incarnation that does not own the attempt"
      if attempt.state.isTerminal then closedAttemptVerdict e flow attempt
      else
        rejectIf (flow.openAttempt ≠ e.attempt) true .staleAttempt
          "the flow no longer holds the attempt named by the evidence"
        rejectIf (attempt.ticket.quantum < e.served) true .contradictoryCompletion
          "reported service exceeds the authorized quantum"
        rejectIf (hasDeadline attempt.ticket.deadlineTick ∧ attempt.ticket.deadlineTick ≤ now ∧
            e.outcome = .served) true .deadlinePassed
          "completion was observed after the authorized deadline"
        return .commit flow attempt

def countRejected (e : CompletionEvidence) (r : Rejection) : Impl :=
  let s := { s with completionsRejected := s.completionsRejected + 1 }
  if r.chargeFlow then
    s.modifyFlow e.flow fun f =>
      { f with accounting.rejectedCompletions := f.accounting.rejectedCompletions + 1 }
  else s

def countDuplicate (e : CompletionEvidence) : Impl :=
  { s with completionsDuplicate := s.completionsDuplicate + 1 }.modifyFlow e.flow fun f =>
    { f with accounting.duplicateCompletions := f.accounting.duplicateCompletions + 1 }

def resumeFlow (flow : FlowId) (credited : UInt64) (now : Ticks) : Impl :=
  match s.flows[flow]? with
  | none => s
  | some r =>
    match s.derivedReadiness r now with
    | .ok () =>
      (s.setLifecycle flow .ready now).recordStep flow now .ready .selected {} {}
        (ascii ("eligible again after " ++ decimal credited ++ " units of service"))
    | .error _ => s.setLifecycle flow .waiting now

end Impl

def creditOf (e : CompletionEvidence) : UInt64 := if e.outcome = .served then e.served else 0

def lifecycleAfterCompletion (e : CompletionEvidence) (flow : FlowRuntime) : FlowLifecycle :=
  if e.outcome = .failed then .failed
  else if flow.descriptor.estimatedWork ≤ saturatingAdd flow.servedWork (creditOf e) then .completed
  else .waiting

def complete (e : CompletionEvidence) (now : Ticks) : SchedOp CommitOutcome := do
  touch now
  modifyImpl fun s => { s with completionReports := s.completionReports + 1 }
  match (← readImpl).completionVerdict e now with
  | .error rejection =>
    modifyImpl (·.countRejected e rejection)
    return { disposition := .rejected, code := rejection.code, detail := rejection.detail }
  | .ok (.duplicate flow attempt) =>
    modifyImpl (·.countDuplicate e)
    return { disposition := .idempotentDuplicate, code := .duplicateCompletion
             credited := attempt.credited, lifecycleAfter := flow.lifecycle
             flowCompleted := flow.lifecycle = .completed
             detail := "exact duplicate completion; no state changed" }
  | .ok (.commit flow _) =>
    let credited := creditOf e
    let lifecycleAfter := lifecycleAfterCompletion e flow
    journal (.completionCommitted e credited lifecycleAfter now)
    modifyImpl fun s =>
      let s := s.applyCompletion e credited lifecycleAfter now
      let s := if lifecycleAfter = .waiting then s.resumeFlow e.flow credited now else s
      s.normalizeTransientStates now
    let settled := ((← readImpl).flows.getD e.flow {}).lifecycle
    return { disposition := .applied, code := .ok, credited, lifecycleAfter := settled
             flowCompleted := settled = .completed, detail := "completion committed" }

end FlowScheduler

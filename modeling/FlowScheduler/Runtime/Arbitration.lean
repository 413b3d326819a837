import FlowScheduler.Runtime.Dispatch

/-! # Arbitration

One round: expired deliveries are reclaimed, lifecycles refreshed, overdue work
stopped, the ready flows ranked and given the largest legal service window each,
and the resulting schedule issued.
-/

namespace FlowScheduler

open ByteCodec Failing SchedOp

/-- Record why a flow was passed over, up to the diagnostic bound. -/
def ArbitrationOutcome.defer (o : ArbitrationOutcome) (d : FlowDescriptor) (reason : DecisionReason)
    (detail : String) : ArbitrationOutcome :=
  if kMaxDeferredPerRound ≤ o.deferred.length then { o with deferredTruncated := true }
  else { o with deferred := o.deferred ++
    [{ flow := d.flow, generation := d.generation, reason, detail := boundedDetail (ascii detail) }] }

def ArbitrationOutcome.noteMiss (o : ArbitrationOutcome) (flow : FlowId) : ArbitrationOutcome :=
  if o.deadlineMisses.length < kMaxDeferredPerRound then
    { o with deadlineMisses := o.deadlineMisses ++ [flow] }
  else o

/-- The flows whose undelivered entries a reclaim reports, up to the diagnostic bound. -/
def ArbitrationOutcome.noteReclaims (o : ArbitrationOutcome) (runtime : ScheduleRuntime) :
    ArbitrationOutcome :=
  let pending := (runtime.schedule.entries.zip runtime.consumed).filter fun entry =>
    entry.2 = 0 ∧ entry.1.kind = .run
  let room := kMaxDeferredPerRound - o.deliveryReclaims.length
  { o with deliveryReclaims := o.deliveryReclaims ++ (pending.map (·.1.flow)).take room }

/-- How a round lists the flows of a class. -/
structure Lister where
  waiting : Impl → List FlowId
  ready : Impl → List FlowId
  inflight : Impl → List FlowId

/-- A class is read from its index, in the order of the identities. -/
def Impl.indexed : Lister where
  waiting s := s.indexes.waiting.toList
  ready s := s.indexes.ready.toList
  inflight s := s.indexes.inflight.toList

/-- Run a journal append and report whether it succeeded. -/
def succeeds (m : SchedOp Unit) : SchedOp Bool :=
  tryCatch (do m; return true) fun _ => return false

/-- Release the schedules whose delivery horizon has passed, oldest first. -/
def reclaimExpiredDeliveries (now : Ticks) :
    List ScheduleId → ArbitrationOutcome → SchedOp ArbitrationOutcome
  | [], outcome => return outcome
  | id :: rest, outcome => do
    let s ← readImpl
    match s.schedules[id]? with
    | none => reclaimExpiredDeliveries now rest outcome
    | some runtime =>
      if runtime.pendingEntries = 0 then reclaimExpiredDeliveries now rest outcome
      else if now < saturatingAdd runtime.schedule.atTick s.policy.dispatchDeliveryHorizon then
        return outcome
      else if ← succeeds (journal (.scheduleReleased id now)) then
        modifyImpl (·.applyReleaseSchedule id now)
        reclaimExpiredDeliveries now rest (outcome.noteReclaims runtime)
      else return { outcome with deferredTruncated := true }

namespace Impl

variable (s : Impl)

def countDeadlineMiss (id : FlowId) : Impl :=
  { s with deadlineMisses := s.deadlineMisses + 1 }.modifyFlow id fun r =>
    { r with
      deadlineMissedCounted := true
      accounting.deadlineMisses := r.accounting.deadlineMisses + 1 }

/-- A flow that can make no further progress fails. -/
def failFlow (id : FlowId) (reason : DecisionReason) (detail : String) (now : Ticks) : Impl :=
  (s.setLifecycle id .failed now).recordStep id now .failed reason {} {} (ascii detail)

def handleDeadlineMiss (id : FlowId) (r : FlowRuntime) (now : Ticks) (o : ArbitrationOutcome) :
    Impl × ArbitrationOutcome :=
  if r.deadlineMissedCounted then (s, o)
  else
    let missed := s.countDeadlineMiss id
    let o := o.noteMiss r.descriptor.flow
    if s.policy.strictDeadlines ∧ ¬ r.lifecycle.isTerminal then
      (missed.failFlow id .deadlineMissed "deadline crossed before the flow could be dispatched" now,
        o)
    else (missed, o)

def deferUnready (id : FlowId) (r : FlowRuntime) (reason : DecisionReason) (now : Ticks)
    (o : ArbitrationOutcome) : Impl × ArbitrationOutcome :=
  if reason = .deadlineMissed then s.handleDeadlineMiss id r now o
  else if reason = .dependencyFailed then
    (s.failFlow id .dependencyFailed "a dependency reached a terminal state without completing" now,
      o.defer r.descriptor .dependencyFailed reason.toText)
  else (s, o.defer r.descriptor reason reason.toText)

def refreshWaiting (now : Ticks) (p : Impl × ArbitrationOutcome) (id : FlowId) :
    Impl × ArbitrationOutcome :=
  let (s, o) := p
  match s.flows[id]? with
  | none => (s, o)
  | some r =>
    if r.lifecycle = .ambiguous then
      (s, o.defer r.descriptor .ambiguousRequiresResolution
        "recovered outcome requires explicit resolution")
    else if now < r.descriptor.releaseTick then
      (s, o.defer r.descriptor .awaitingRelease "not released")
    else match s.derivedReadiness r now with
      | .ok () =>
        ((s.setLifecycle id .ready now).recordStep id now .ready .selected {} {} (ascii "ready"), o)
      | .error reason => s.deferUnready id r reason now o

def isOverdue (r : FlowRuntime) (now : Ticks) : Bool :=
  hasDeadline r.descriptor.deadlineTick && decide (r.descriptor.deadlineTick ≤ now)

def refreshInflight (now : Ticks) (p : Impl × ArbitrationOutcome) (id : FlowId) :
    Impl × ArbitrationOutcome :=
  let (s, o) := p
  match s.flows[id]? with
  | none => (s, o)
  | some r =>
    if isOverdue r now ∧ ¬ r.deadlineMissedCounted then
      (s.countDeadlineMiss id, o.noteMiss r.descriptor.flow)
    else (s, o)

def refreshLifecycles (now : Ticks) (o : ArbitrationOutcome) (list : Lister := Impl.indexed) :
    Impl × ArbitrationOutcome :=
  let p := (list.waiting s).foldl (refreshWaiting now) (s, o)
  (list.inflight p.1).foldl (refreshInflight now) p

/-- The attempts whose flow has crossed its deadline while in flight. -/
def overdueAttempts (now : Ticks) (list : Lister := Impl.indexed) : List DispatchAttemptId :=
  (list.inflight s).filterMap fun id =>
    match s.flows[id]? with
    | none => none
    | some r => if isOverdue r now ∧ r.openAttempt.valid then some r.openAttempt else none

end Impl

structure Candidate where
  flow : FlowId
  key : OrderKey
  deriving DecidableEq, Repr

namespace Impl

variable (s : Impl)

/-- Rank one ready flow, noting the first round of a starvation episode. -/
def rankFlow (now : Ticks) (p : Impl × List Candidate) (id : FlowId) : Impl × List Candidate :=
  let (s, candidates) := p
  match s.flows[id]? with
  | none => (s, candidates)
  | some r =>
    if r.lifecycle ≠ .ready then (s, candidates)
    else
      let key := s.computeKey r now
      let s := if key.tier = kTierStarvation ∧ ¬ r.starvationCounted then
          s.modifyFlow id fun r =>
            { r with
              starvationCounted := true
              accounting.starvationBoosts := r.accounting.starvationBoosts + 1 }
        else s
      (s, candidates ++ [⟨id, key⟩])

def rankCandidates (now : Ticks) (list : Lister := Impl.indexed) : Impl × List Candidate :=
  let p := (list.ready s).foldl (rankFlow now) (s, [])
  (p.1, p.2.insertionSort fun a b => ¬ b.key.before a.key)

def entryLimit : ℕ :=
  min s.policy.maxEntriesPerSchedule.toNat (kMaxJournalRecordPayload / kScheduleEntryBudgetBytes)

def rollPreemptionWindow (now : Ticks) : Impl :=
  let window := if s.policy.preemptionIntervalTicks = 0 then 0
    else now / s.policy.preemptionIntervalTicks
  if window ≠ s.preemptionWindowIndex then
    { s with preemptionWindowIndex := window, preemptionsInWindow := 0 }
  else s

/-- The incumbent on the resource that every other one outranks. -/
def worstIncumbent (resource : ResourceId) (now : Ticks) (list : Lister := Impl.indexed) :
    Option DispatchAttemptId :=
  let step (worst : Option (OrderKey × DispatchAttemptId)) (id : FlowId) :=
    match s.flows[id]? with
    | none => worst
    | some r =>
      if ¬ r.openAttempt.valid ∨ r.descriptor.resource.id ≠ resource then worst
      else
        let key := s.computeKey r now
        match worst with
        | none => some (key, r.openAttempt)
        | some w => if w.1.before key then some (key, r.openAttempt) else worst
  ((list.inflight s).foldl step none).map Prod.snd

def preemptionAllowed (candidate : OrderKey) (incumbent : FlowRuntime) (now : Ticks) :
    Except DecisionReason Unit :=
  let qosProtected := match s.qosClasses[incumbent.descriptor.qos.id]? with
    | none => false
    | some qos => qos.generation == incumbent.descriptor.qos.generation && qos.preemptionProtected
  if s.policy.preemption = .none then .error .preemptionDisabled
  else if qosProtected then .error .incumbentNotPreemptible
  else if ¬ incumbent.descriptor.preemptible then .error .incumbentNotPreemptible
  else if incumbent.servedWork < s.policy.minPreemptService then .error .preemptionThrottled
  else if s.policy.maxPreemptionsPerInterval ≤ s.preemptionsInWindow then
    .error .preemptionThrottled
  else
    let key := s.computeKey incumbent now
    let priorityBetter := candidate.priorityRank < key.priorityRank
    let tierBetter := candidate.tier < key.tier
    let deadlineUrgent := candidate.tier = kTierDeadlineUrgent ∧ key.tier ≠ kTierDeadlineUrgent
    let overdue := isOverdue incumbent now = true
    let authorized : Bool := match s.policy.preemption with
      | .none => false
      | .strictPriority => decide (priorityBetter ∨ overdue)
      | .deadline => decide (deadlineUrgent ∨ overdue)
      | .tiered => decide (tierBetter ∨ priorityBetter ∨ overdue)
    if authorized then .ok () else .error .preemptionNotAuthorized

end Impl

structure Round where
  entries : List ScheduleEntry := []
  decided : KeySet FlowId := ∅
  nextOrdinal : UInt32 := 0
  pendingInFlight : Table ResourceId UInt64 := ∅
  pendingCapacity : Table ResourceId UInt64 := ∅
  pendingReservation : Table ReservationId UInt64 := ∅
  outcome : ArbitrationOutcome := {}

def Round.defer (r : Round) (d : FlowDescriptor) (reason : DecisionReason) (detail : String) :
    Round :=
  { r with outcome := r.outcome.defer d reason detail }

structure Victim where
  attempt : DispatchAttemptId
  record : AttemptRuntime
  flow : FlowRuntime

def preemptEntry (v : Victim) (ordinal : UInt32) (candidate : Candidate) (d : FlowDescriptor)
    (now : Ticks) : ScheduleEntry where
  ordinal := ordinal
  kind := .preempt
  flow := v.record.ticket.flow
  flowGeneration := v.flow.descriptor.generation
  attempt := v.attempt
  path := v.record.ticket.path
  pathGeneration := v.record.ticket.pathGeneration
  resource := v.record.ticket.resource
  resourceGeneration := v.record.ticket.resourceGeneration
  reservation := v.record.ticket.reservation
  reservationGeneration := v.record.ticket.reservationGeneration
  qos := v.record.ticket.qos
  qosGeneration := v.record.ticket.qosGeneration
  priority := v.record.ticket.priority
  priorityGeneration := v.record.ticket.priorityGeneration
  quantum := v.record.ticket.quantum
  startTick := now
  deadlineTick := v.record.ticket.deadlineTick
  reservationEnd := v.record.ticket.reservationEnd
  tier := candidate.key.tier
  reason := .displacedByHigherAuthority
  orderingDigest := candidate.key.digest
  detail := boundedDetail (ascii ("displaced by " ++ d.flow.toText))

namespace Impl

variable (s : Impl)

/-- The incumbent that may be displaced for the candidate, or why none may. -/
def chooseVictim (candidate : Candidate) (d : FlowDescriptor) (now : Ticks)
    (list : Lister := Impl.indexed) : Except (DecisionReason × String) Victim :=
  match s.worstIncumbent d.resource.id now list with
  | none => .error (.concurrencyLimitReached,
      "resource concurrency ceiling reached with no displaceable incumbent")
  | some attempt =>
    match s.attempts[attempt]? with
    | none => .error (.concurrencyLimitReached, "resource concurrency ceiling reached")
    | some record =>
      match s.flows[record.ticket.flow]? with
      | none => .error (.concurrencyLimitReached, "resource concurrency ceiling reached")
      | some flow =>
        match s.preemptionAllowed candidate.key flow now with
        | .error refusal => .error (refusal, refusal.toText)
        | .ok () => .ok { attempt, record, flow }

/-- The largest legal service window of the flow, or why there is none. -/
def legalQuantum (round : Round) (flow : FlowRuntime) (resource : ResourceRuntime) (now : Ticks) :
    Except DecisionReason UInt64 :=
  let d := flow.descriptor
  let remaining := remainingWork flow
  let quantum := min (min d.serviceQuantum remaining) s.policy.maxQuantum
  let quantum := match s.qosClasses[d.qos.id]? with
    | none => quantum
    | some qos =>
      if qos.generation = d.qos.generation ∧ 0 < qos.maxServicePerDispatch then
        min quantum qos.maxServicePerDispatch
      else quantum
  let rawCapacity := resource.capacityRemaining now
  let charged := round.pendingCapacity.getD d.resource.id 0
  let capacity := if charged < rawCapacity then rawCapacity - charged else 0
  let rawReservation := s.reservationRemaining flow now
  let reservedHere := round.pendingReservation.getD d.reservation.id 0
  let reservationSlack := if d.reservation.bound then
      (if reservedHere < rawReservation then rawReservation - reservedHere else 0)
    else rawReservation
  let quantum := min (min quantum capacity) reservationSlack
  let slack := if now < d.deadlineTick then d.deadlineTick - now else 0
  let quantum := if hasDeadline d.deadlineTick ∧ s.policy.strictDeadlines then min quantum slack
    else quantum
  if quantum = 0 then
    .error (if remaining = 0 then .noLegalQuantum
      else if capacity = 0 then .resourceCapacityExhausted
      else if reservationSlack = 0 then .reservationExhausted
      else .noLegalQuantum)
  else .ok quantum

def runEntry (candidate : Candidate) (d : FlowDescriptor) (ordinal : UInt32) (quantum : UInt64)
    (now : Ticks) : ScheduleEntry where
  ordinal := ordinal
  kind := .run
  flow := d.flow
  flowGeneration := d.generation
  path := d.path.id
  pathGeneration := d.path.generation
  resource := d.resource.id
  resourceGeneration := d.resource.generation
  reservation := d.reservation.id
  reservationGeneration := d.reservation.generation
  qos := d.qos.id
  qosGeneration := d.qos.generation
  priority := d.priority.id
  priorityGeneration := d.priority.generation
  quantum := quantum
  startTick := now
  deadlineTick := d.deadlineTick
  reservationEnd := if d.reservation.bound then s.reservationWindowEnd d.reservation.id
    else kNoWindowBound
  tier := candidate.key.tier
  reason := .selected
  orderingDigest := candidate.key.digest
  detail := boundedDetail (ascii ("tier " ++ toString candidate.key.tier.toNat ++ " priority " ++
    toString candidate.key.priorityRank.toNat))

end Impl

/-- Charge a granted entry to what the round has committed. -/
def Round.grant (r : Round) (e : ScheduleEntry) : Round :=
  { r with
    entries := r.entries ++ [e]
    nextOrdinal := r.nextOrdinal + 1
    pendingInFlight := r.pendingInFlight.insert e.resource
      (r.pendingInFlight.getD e.resource 0 + 1)
    pendingCapacity := r.pendingCapacity.insert e.resource
      (saturatingAdd (r.pendingCapacity.getD e.resource 0) e.quantum)
    pendingReservation := if e.reservation.valid then
        r.pendingReservation.insert e.reservation
          (saturatingAdd (r.pendingReservation.getD e.reservation 0) e.quantum)
      else r.pendingReservation }

def Round.displace (r : Round) (e : ScheduleEntry) (victim : FlowDescriptor) : Round :=
  { r with
    entries := r.entries ++ [e]
    nextOrdinal := r.nextOrdinal + 1
    decided := r.decided.insert e.flow }.defer victim .displacedByHigherAuthority
      "displaced by higher authority"

/-- Close the victim's attempt and enter the displacement in the round. -/
def displaceVictim (now : Ticks) (candidate : Candidate) (flow : FlowRuntime) (victim : Victim)
    (round : Round) : SchedOp Round := do
  let entry := preemptEntry victim round.nextOrdinal candidate flow.descriptor now
  closeAttempt victim.attempt .preempted (ascii "displaced by higher authority") now
  modifyImpl fun s =>
    { s with
      preemptionsIssued := s.preemptionsIssued + 1
      preemptionsInWindow := s.preemptionsInWindow + 1 }.modifyResource flow.descriptor.resource.id
        (·.rollInterval now)
  return round.displace entry victim.flow.descriptor

/-- Give a candidate that may run its service window, if a legal one is left. -/
def grantWindow (now : Ticks) (candidate : Candidate) (flow : FlowRuntime) (round : Round) :
    SchedOp Round := do
  let s ← readImpl
  match s.resources[flow.descriptor.resource.id]? with
  | none => return round
  | some resource =>
    match s.legalQuantum round flow resource now with
    | .error reason => return round.defer flow.descriptor reason reason.toText
    | .ok quantum =>
      return round.grant (s.runEntry candidate flow.descriptor round.nextOrdinal quantum now)

/-- Place a ready candidate on its resource, displacing an incumbent at the overlap ceiling. -/
def placeCandidate (now : Ticks) (candidate : Candidate) (flow : FlowRuntime)
    (resource : ResourceRuntime) (round : Round) (list : Lister := Impl.indexed) :
    SchedOp Round := do
  let d := flow.descriptor
  modifyImpl (·.modifyResource d.resource.id (·.rollInterval now))
  if resource.descriptor.maxOverlap ≤
      resource.inFlight + round.pendingInFlight.getD d.resource.id 0 then
    match (← readImpl).chooseVictim candidate d now list with
    | .error (reason, detail) => return round.defer d reason detail
    | .ok victim =>
      let round ← displaceVictim now candidate flow victim round
      grantWindow now candidate flow round
  else grantWindow now candidate flow round

def considerCandidate (now : Ticks) (limit : ℕ) (round : Round) (candidate : Candidate)
    (list : Lister := Impl.indexed) : SchedOp Round := do
  let s ← readImpl
  match s.flows[candidate.flow]? with
  | none => return round
  | some flow =>
    if flow.lifecycle ≠ .ready ∨ candidate.flow ∈ round.decided then return round
    else match s.derivedReadiness flow now with
      | .error reason =>
        let (s, outcome) := s.deferUnready candidate.flow flow reason now round.outcome
        modifyImpl fun _ => s
        return { round with outcome := outcome }
      | .ok () =>
        if limit ≤ round.entries.length then
          return round.defer flow.descriptor .scheduleEntryLimitReached "round entry bound reached"
        else match s.resources[flow.descriptor.resource.id]? with
          | none =>
            return round.defer flow.descriptor .resourceUnavailable
              "bound resource is missing or its generation advanced"
          | some resource =>
            if resource.descriptor.generation ≠ flow.descriptor.resource.generation then
              return round.defer flow.descriptor .resourceUnavailable
                "bound resource is missing or its generation advanced"
            else placeCandidate now candidate flow resource round list

def considerCandidates (now : Ticks) (limit : ℕ) (candidates : List Candidate) (round : Round)
    (list : Lister := Impl.indexed) : SchedOp Round :=
  match candidates with
  | [] => return round
  | candidate :: rest => do
    let round ← considerCandidate now limit round candidate list
    considerCandidates now limit rest round list

/-- Stop the running work that has crossed its deadline, whatever the preemption mode. -/
def stopOverdue (now : Ticks) : List DispatchAttemptId → SchedOp Unit
  | [] => return ()
  | attempt :: rest => do
    closeAttempt attempt .preempted (ascii "deadline crossed while running") now
    modifyImpl fun s => { s with preemptionsIssued := s.preemptionsIssued + 1 }
    stopOverdue now rest

def Impl.makeSchedule (s : Impl) (entries : List ScheduleEntry) (now : Ticks) : Schedule :=
  let schedule : Schedule :=
    { schedule := s.nextSchedule, generation := s.nextScheduleGeneration, epoch := s.epoch
      policy := s.policy.policy, policyGeneration := s.policy.generation
      policyBinding := s.policyBinding, atTick := now, entries
      provenance := { origin := .internal, sequence := s.provenanceSequence + 1 } }
  { schedule with digest := computeScheduleDigest schedule }

/-- Make the round's schedule durable and apply it, then advance the schedule counters. -/
def issueSchedule (entries : List ScheduleEntry) (now : Ticks) : SchedOp Schedule := do
  let schedule := (← readImpl).makeSchedule entries now
  modifyImpl fun s => { s with provenanceSequence := s.provenanceSequence + 1 }
  journal (.scheduleIssued schedule)
  modifyImpl (·.applySchedule schedule)
  let nextSchedule ← (← readImpl).nextSchedule.advance
  let nextGeneration ← (← readImpl).nextScheduleGeneration.advance
  modifyImpl fun s =>
    { s with nextSchedule := nextSchedule, nextScheduleGeneration := nextGeneration }
  return schedule

/-- The schedule header reported by a round that issued nothing. -/
def Impl.emptySchedule (s : Impl) (now : Ticks) : Schedule :=
  { atTick := now, epoch := s.epoch, policy := s.policy.policy
    policyGeneration := s.policy.generation, policyBinding := s.policyBinding }

def arbitrate (now : Ticks) (list : Lister := Impl.indexed) : SchedOp ArbitrationOutcome := do
  refuseIf (now < (← readImpl).lastTick) .invalidArgument "arbitration tick moved backwards"
  modifyImpl fun s =>
    { s with lastTick := now, arbitrationRounds := s.arbitrationRounds + 1 }
  let outcome ← reclaimExpiredDeliveries now (← readImpl).scheduleOrder {}
  let (refreshed, outcome) := (← readImpl).refreshLifecycles now outcome list
  modifyImpl fun _ => refreshed
  stopOverdue now ((← readImpl).overdueAttempts now list)
  let (ranked, candidates) := (← readImpl).rankCandidates now list
  modifyImpl fun _ => ranked.rollPreemptionWindow now
  let round ← considerCandidates now (← readImpl).entryLimit candidates { outcome } list
  let schedule ← if round.entries = [] then pure ((← readImpl).emptySchedule now)
    else issueSchedule round.entries now
  modifyImpl fun s => (s.normalizeTransientStates now).maybeRetireSchedules
  return { round.outcome with schedule := schedule }

end FlowScheduler

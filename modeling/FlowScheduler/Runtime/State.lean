import FlowScheduler.Durable.Journal

/-! # Scheduler state

The in-memory tables of a scheduler and the functions that read them:
readiness, reservations, tiers and the strict total order of candidates.
-/

namespace FlowScheduler

open ByteCodec (Bytes)

def kMaxDeferredPerRound : ℕ := 4096
def kMaxExplanationSteps : ℕ := 32
def kScheduleEntryBudgetBytes : ℕ := 320
def kVirtualTimeScale : UInt64 := 0x100000

def kTierDeadlineUrgent : UInt32 := 0
def kTierStarvation : UInt32 := 1
def kTierMinServiceDeficient : UInt32 := 2
def kTierNormal : UInt32 := 3

structure FlowRuntime where
  descriptor : FlowDescriptor := {}
  lifecycle : FlowLifecycle := .waiting
  servedWork : UInt64 := 0
  outstandingReserved : UInt64 := 0
  openAttempt : DispatchAttemptId := {}
  scheduledSchedule : ScheduleId := {}
  scheduledGeneration : Generation := {}
  scheduledOrdinal : UInt32 := 0
  scheduledTick : Ticks := 0
  lastChangeTick : Ticks := 0
  eligibleSinceTick : Ticks := 0
  everReady : Bool := false
  minServiceWindowStart : Ticks := 0
  minServiceDelivered : UInt64 := 0
  virtualFinish : UInt64 := 0
  deadlineMissedCounted : Bool := false
  starvationCounted : Bool := false
  accounting : FlowAccounting := {}
  history : List ExplanationStep := []
  historyTruncated : Bool := false
  deriving DecidableEq, Repr

structure ResourceRuntime where
  descriptor : ResourceDescriptor := {}
  intervalIndex : UInt64 := 0
  intervalInitialized : Bool := false
  reservedThisInterval : UInt64 := 0
  inFlight : UInt64 := 0
  deriving DecidableEq, Repr

structure ReservationRuntime where
  descriptor : ReservationDescriptor := {}
  reservedUnits : UInt64 := 0
  retired : Bool := false
  deriving DecidableEq, Repr

structure ScheduleRuntime where
  schedule : Schedule := {}
  /-- Per entry: 0 is undelivered, 1 is dispatched, 2 is released. -/
  consumed : List UInt8 := []
  openAttempts : UInt64 := 0
  pendingEntries : UInt64 := 0
  deriving DecidableEq, Repr

structure AttemptRuntime where
  ticket : DispatchTicket := {}
  state : AttemptState := .opened
  openedTick : Ticks := 0
  closedTick : Ticks := 0
  hasEvidence : Bool := false
  evidenceDigest : UInt64 := 0
  credited : UInt64 := 0
  closeDetail : Bytes := []
  deriving DecidableEq, Repr

/-- Total ordering key; the comparison is lexicographic and ends in the flow identity. -/
structure OrderKey where
  tier : UInt32 := kTierNormal
  priorityRank : UInt32 := 0
  deadline : Ticks := 0
  virtualFinish : UInt64 := 0
  invertedWeight : UInt64 := 0
  flow : FlowId := {}
  generation : Generation := {}
  deriving DecidableEq, Repr

def OrderKey.before (a b : OrderKey) : Bool :=
  if a.tier ≠ b.tier then a.tier < b.tier
  else if a.priorityRank ≠ b.priorityRank then a.priorityRank < b.priorityRank
  else if a.deadline ≠ b.deadline then a.deadline < b.deadline
  else if a.virtualFinish ≠ b.virtualFinish then a.virtualFinish < b.virtualFinish
  else if a.invertedWeight ≠ b.invertedWeight then a.invertedWeight < b.invertedWeight
  else if a.flow ≠ b.flow then a.flow < b.flow
  else a.generation < b.generation

def OrderKey.digest (k : OrderKey) : UInt64 :=
  let d : Digest64 := {}
  (((d.addU32 k.tier).addU32 k.priorityRank).addU64s [k.deadline, k.virtualFinish,
    k.invertedWeight, k.flow.value, k.generation.value]).state

/-- The flows of each eligibility class, so that a round touches only those that can change. -/
structure FlowIndexes where
  waiting : KeySet FlowId := ∅
  ready : KeySet FlowId := ∅
  inflight : KeySet FlowId := ∅
  deriving DecidableEq

inductive IndexSlot | none | waiting | ready | inflight
  deriving DecidableEq, Repr

/-- Ambiguous flows are reported through the waiting set so that every round surfaces them. -/
def FlowLifecycle.slot : FlowLifecycle → IndexSlot
  | .waiting | .ambiguous => .waiting
  | .ready => .ready
  | .dispatched | .running | .completionReported | .cancelling | .preempting => .inflight
  | .scheduled | .completed | .cancelled | .failed => .none

namespace FlowIndexes

def insert (x : FlowIndexes) (flow : FlowId) : IndexSlot → FlowIndexes
  | .none => x
  | .waiting => { x with waiting := x.waiting.insert flow }
  | .ready => { x with ready := x.ready.insert flow }
  | .inflight => { x with inflight := x.inflight.insert flow }

def erase (x : FlowIndexes) (flow : FlowId) : IndexSlot → FlowIndexes
  | .none => x
  | .waiting => { x with waiting := x.waiting.erase flow }
  | .ready => { x with ready := x.ready.erase flow }
  | .inflight => { x with inflight := x.inflight.erase flow }

def update (x : FlowIndexes) (flow : FlowId) (previous next : FlowLifecycle) : FlowIndexes :=
  (x.erase flow previous.slot).insert flow next.slot

end FlowIndexes

structure RecoveryReport where
  recovered : Bool := false
  epochBefore : FabricEpoch := {}
  epochAfter : FabricEpoch := {}
  flowsRestored : ℕ := 0
  resourcesRestored : ℕ := 0
  reservationsRestored : ℕ := 0
  priorityClassesRestored : ℕ := 0
  qosClassesRestored : ℕ := 0
  attemptsAbandoned : ℕ := 0
  flowsMadeAmbiguous : ℕ := 0
  schedulesRetired : ℕ := 0
  journalRecordsReplayed : ℕ := 0
  journalBytesReplayed : ℕ := 0
  snapshotRecords : ℕ := 0
  tailTruncated : Bool := false
  detail : String := ""
  deriving DecidableEq, Repr

structure Impl where
  policy : SchedulingPolicy
  policyBinding : PolicyBinding
  epoch : FabricEpoch := {}
  flows : Table FlowId FlowRuntime := ∅
  resources : Table ResourceId ResourceRuntime := ∅
  reservations : Table ReservationId ReservationRuntime := ∅
  priorityClasses : Table PriorityClassId PriorityClassDescriptor := ∅
  qosClasses : Table QoSClassId QoSClassDescriptor := ∅
  virtualTime : Table FairnessGroupId UInt64 := ∅
  indexes : FlowIndexes := {}
  attempts : Table DispatchAttemptId AttemptRuntime := ∅
  schedules : Table ScheduleId ScheduleRuntime := ∅
  scheduleAttempts : Table ScheduleId (List DispatchAttemptId) := ∅
  scheduleOrder : List ScheduleId := []
  nextAttempt : DispatchAttemptId := ⟨1⟩
  nextSchedule : ScheduleId := ⟨1⟩
  nextScheduleGeneration : Generation := ⟨1⟩
  lastTick : Ticks := 0
  provenanceSequence : UInt64 := 0
  arbitrationRounds : UInt64 := 0
  schedulesIssued : UInt64 := 0
  scheduleEntriesIssued : UInt64 := 0
  completionReports : UInt64 := 0
  completionsApplied : UInt64 := 0
  completionsDuplicate : UInt64 := 0
  completionsRejected : UInt64 := 0
  deadlineMisses : UInt64 := 0
  preemptionsIssued : UInt64 := 0
  preemptionWindowIndex : UInt64 := 0
  preemptionsInWindow : UInt32 := 0
  reservationsRetired : UInt64 := 0
  recovery : RecoveryReport := {}

namespace Impl

def fresh (policy : SchedulingPolicy) : Impl := { policy, policyBinding := policy.binding }

def dependenciesSatisfied (s : Impl) (r : FlowRuntime) : Bool :=
  r.descriptor.dependencies.all fun dependency =>
    match s.flows[dependency]? with
    | none => false
    | some found => found.lifecycle == .completed

/-- A dependency ended without completing, so the flow can never become ready. -/
def dependencyFailed (s : Impl) (r : FlowRuntime) : Bool :=
  r.descriptor.dependencies.any fun dependency =>
    match s.flows[dependency]? with
    | none => false
    | some found => found.lifecycle.isTerminal && found.lifecycle != .completed

/-- Whether the reservation rules let the flow run now; the refusal reason otherwise. -/
def reservationUsable (s : Impl) (r : FlowRuntime) (now : Ticks) : Except DecisionReason Unit :=
  let binding := r.descriptor.reservation
  if ¬ binding.bound then
    if s.reservations.toList.any fun entry =>
        !entry.2.retired && entry.2.descriptor.resource == r.descriptor.resource.id &&
          entry.2.descriptor.exclusive && entry.2.descriptor.windowContains now then
      .error .awaitingReservationWindow
    else .ok ()
  else match s.reservations[binding.id]? with
    | none => .error .reservationWindowClosed
    | some reservation =>
      if reservation.retired then .error .reservationWindowClosed
      else if reservation.descriptor.generation ≠ binding.generation then
        .error .reservationWindowClosed
      else if reservation.descriptor.resource ≠ r.descriptor.resource.id then
        .error .reservationWindowClosed
      else if now < reservation.descriptor.windowBegin then .error .awaitingReservationWindow
      else if reservation.descriptor.windowEnd ≤ now then .error .reservationWindowClosed
      else if reservation.descriptor.capacity ≤ reservation.reservedUnits then
        .error .reservationExhausted
      else .ok ()

/-- Whether the flow may be arbitrated now; the reason it may not otherwise. -/
def derivedReadiness (s : Impl) (r : FlowRuntime) (now : Ticks) : Except DecisionReason Unit :=
  if r.lifecycle.isTerminal then .error .terminal
  else if r.lifecycle = .ambiguous then .error .ambiguousRequiresResolution
  else if r.descriptor.readinessSignal = 2 then .error .awaitingReadinessSignal
  else if ¬ r.descriptor.autoReady ∧ r.descriptor.readinessSignal ≠ 1 then
    .error .awaitingReadinessSignal
  else if now < r.descriptor.releaseTick then .error .awaitingRelease
  else if ¬ s.dependenciesSatisfied r then
    if s.dependencyFailed r then .error .dependencyFailed else .error .awaitingDependency
  else match s.reservationUsable r now with
    | .error reason => .error reason
    | .ok () =>
      if hasDeadline r.descriptor.deadlineTick ∧ r.descriptor.deadlineTick ≤ now then
        .error .deadlineMissed
      else .ok ()

def tierOf (s : Impl) (r : FlowRuntime) (now : Ticks) : UInt32 :=
  let deadline := r.descriptor.deadlineTick
  let slack := if now < deadline then deadline - now else 0
  let waited := if r.eligibleSinceTick ≤ now then now - r.eligibleSinceTick else 0
  if hasDeadline deadline ∧ s.policy.deadlineOrdering ∧ slack ≤ s.policy.deadlineUrgencyTicks then
    kTierDeadlineUrgent
  else if r.everReady ∧ s.policy.starvationBoundTicks ≤ waited then kTierStarvation
  else if s.policy.minServiceGuarantee ∧ 0 < r.descriptor.minService ∧
      r.minServiceDelivered < r.descriptor.minService then kTierMinServiceDeficient
  else kTierNormal

def effectiveWeight (d : FlowDescriptor) : UInt64 := if d.weight = 0 then 1 else d.weight

def computeKey (s : Impl) (r : FlowRuntime) (now : Ticks) : OrderKey where
  tier := s.tierOf r now
  priorityRank := match s.priorityClasses[r.descriptor.priority.id]? with
    | none => 0
    | some priority => priority.rank
  deadline := if s.policy.deadlineOrdering then r.descriptor.deadlineTick else kNoDeadline
  virtualFinish := if s.policy.weightedFairness then r.virtualFinish else 0
  invertedWeight := u64Max - effectiveWeight r.descriptor
  flow := r.descriptor.flow
  generation := r.descriptor.generation

def reservationRemaining (s : Impl) (r : FlowRuntime) (now : Ticks) : UInt64 :=
  let binding := r.descriptor.reservation
  if ¬ binding.bound then u64Max
  else match s.reservations[binding.id]? with
    | none => 0
    | some reservation =>
      if reservation.retired ∨ ¬ reservation.descriptor.windowContains now then 0
      else if reservation.descriptor.capacity ≤ reservation.reservedUnits then 0
      else reservation.descriptor.capacity - reservation.reservedUnits

def reservationWindowEnd (s : Impl) (reservation : ReservationId) : Ticks :=
  match s.reservations[reservation]? with
  | none => kNoWindowBound
  | some found => found.descriptor.windowEnd

end Impl

def ResourceRuntime.capacityRemaining (r : ResourceRuntime) (now : Ticks) : UInt64 :=
  if ¬ r.intervalInitialized ∨ now / r.descriptor.interval ≠ r.intervalIndex then
    r.descriptor.capacity
  else if r.descriptor.capacity ≤ r.reservedThisInterval then 0
  else r.descriptor.capacity - r.reservedThisInterval

def ResourceRuntime.rollInterval (r : ResourceRuntime) (now : Ticks) : ResourceRuntime :=
  -- The source divides by zero where an unvalidated image holds the interval 0.
  let index := now / r.descriptor.interval
  if ¬ r.intervalInitialized ∨ index ≠ r.intervalIndex then
    { r with intervalIndex := index, intervalInitialized := true, reservedThisInterval := 0 }
  else r

end FlowScheduler

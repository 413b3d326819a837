import FlowScheduler.Runtime.Transitions
import FlowScheduler.Durable.RoundTrip

/-! # Journal records

Every authoritative change is one typed record: what it carries, how it is
encoded, and how recovery applies the bytes it finds.
-/

namespace FlowScheduler

open ByteCodec

inductive Record
  | policyInstalled (policy : SchedulingPolicy)
  | resourceRegistered (d : ResourceDescriptor)
  | reservationRegistered (d : ReservationDescriptor)
  | reservationRetired (reservation : ReservationId) (generation : Generation)
  | priorityClassRegistered (d : PriorityClassDescriptor)
  | qosClassRegistered (d : QoSClassDescriptor)
  | epochAdvanced (previous next : FabricEpoch) (reason : EpochReason) (tick : Ticks)
  | flowAdmitted (d : FlowDescriptor)
  | flowUpdated (d : FlowDescriptor)
  | flowReadinessChanged (flow : FlowId) (generation : Generation) (signal : ReadinessSignal)
      (tick : Ticks)
  | flowCancelled (flow : FlowId) (generation : Generation) (tick : Ticks) (reason : Bytes)
  | flowRetired (flow : FlowId) (generation : Generation)
  | scheduleIssued (schedule : Schedule)
  | scheduleReleased (schedule : ScheduleId) (tick : Ticks)
  | attemptOpened (ticket : DispatchTicket) (nominal : UInt64) (tick : Ticks)
  | attemptStarted (attempt : DispatchAttemptId) (tick : Ticks)
  | attemptClosed (attempt : DispatchAttemptId) (state : AttemptState) (tick : Ticks)
      (detail : Bytes)
  | completionCommitted (evidence : CompletionEvidence) (credited : UInt64)
      (lifecycle : FlowLifecycle) (tick : Ticks)
  | ambiguityResolved (flow : FlowId) (generation : Generation) (resolution : AmbiguityResolution)
      (tick : Ticks)
  deriving DecidableEq

namespace Record

def type : Record → JournalRecordType
  | policyInstalled .. => .policyInstalled
  | resourceRegistered .. => .resourceRegistered
  | reservationRegistered .. => .reservationRegistered
  | reservationRetired .. => .reservationRetired
  | priorityClassRegistered .. => .priorityClassRegistered
  | qosClassRegistered .. => .qosClassRegistered
  | epochAdvanced .. => .epochAdvanced
  | flowAdmitted .. => .flowAdmitted
  | flowUpdated .. => .flowUpdated
  | flowReadinessChanged .. => .flowReadinessChanged
  | flowCancelled .. => .flowCancelled
  | flowRetired .. => .flowRetired
  | scheduleIssued .. => .scheduleIssued
  | scheduleReleased .. => .scheduleReleased
  | attemptOpened .. => .attemptOpened
  | attemptStarted .. => .attemptStarted
  | attemptClosed .. => .attemptClosed
  | completionCommitted .. => .completionCommitted
  | ambiguityResolved .. => .ambiguityResolved

open RecordWriter in
def encoding : Record → Encoding
  | policyInstalled policy => writePolicy policy
  | resourceRegistered d => writeResource d
  | reservationRegistered d => writeReservation d
  | reservationRetired reservation generation => [u64 reservation.value, u64 generation.value]
  | priorityClassRegistered d => writePriorityClass d
  | qosClassRegistered d => writeQosClass d
  | epochAdvanced previous next reason tick =>
    [u64 previous.value, u64 next.value, u8 reason.code, u64 tick]
  | flowAdmitted d => writeFlowDescriptor d
  | flowUpdated d => writeFlowDescriptor d
  | flowReadinessChanged flow generation signal tick =>
    [u64 flow.value, u64 generation.value, u8 signal.code, u64 tick]
  | flowCancelled flow generation tick reason =>
    [u64 flow.value, u64 generation.value, u64 tick, text (boundedDetail reason)]
  | flowRetired flow generation => [u64 flow.value, u64 generation.value]
  | scheduleIssued schedule => writeSchedule schedule
  | scheduleReleased schedule tick => [u64 schedule.value, u64 tick]
  | attemptOpened ticket nominal tick => writeTicket ticket ++ [u64 nominal, u64 tick]
  | attemptStarted attempt tick => [u64 attempt.value, u64 tick]
  | attemptClosed attempt state tick detail =>
    [u64 attempt.value, u8 state.code, u64 tick, text (boundedDetail detail)]
  | completionCommitted evidence credited lifecycle tick =>
    writeEvidence evidence ++ [u64 credited, u8 lifecycle.code, u64 tick]
  | ambiguityResolved flow generation resolution tick =>
    [u64 flow.value, u64 generation.value, u8 resolution.code, u64 tick]

def payload (r : Record) : Bytes := RecordWriter.take r.encoding

end Record

open RecordReader in
def Impl.applyRecord (s : Impl) (type : JournalRecordType) (payload : Bytes) : Result Impl := do
  let reader : Reader Impl := match type with
    | .policyInstalled => do
      let policy ← readPolicy
      policy.validate
      requireExhausted
      return s.applyPolicy policy
    | .resourceRegistered => do
      let d ← readResource
      d.validate
      requireExhausted
      return s.applyResource d
    | .reservationRegistered => do
      let d ← readReservation
      d.validate
      requireExhausted
      return s.applyReservation d
    | .reservationRetired => do
      let reservation ← id
      let generation ← id
      requireExhausted
      return s.applyRetireReservation reservation generation
    | .priorityClassRegistered => do
      let d ← readPriorityClass
      d.validate
      requireExhausted
      return s.applyPriorityClass d
    | .qosClassRegistered => do
      let d ← readQosClass
      d.validate
      requireExhausted
      return s.applyQosClass d
    | .epochAdvanced => do
      let _previous ← (id : Reader FabricEpoch)
      let next ← id
      let _reason ← enum EpochReason.ofCode .corruptData "durable epoch reason is out of range"
      let tick ← u64
      requireExhausted
      return s.applyEpochAdvance next tick
    | .flowAdmitted => do
      let d ← readFlowDescriptor
      d.validate
      let s ← s.applyAdmit d
      requireExhausted
      return s
    | .flowUpdated => do
      let d ← readFlowDescriptor
      d.validate
      let s ← s.applyUpdate d
      requireExhausted
      return s
    | .flowReadinessChanged => do
      let flow ← id
      let generation ← id
      let signal ← enum ReadinessSignal.ofCode .corruptData
        "durable readiness signal is out of range"
      let tick ← u64
      requireExhausted
      return s.applyReadiness flow generation signal tick
    | .flowCancelled => do
      let flow ← id
      let generation ← id
      let tick ← u64
      requireExhausted
      return (s.applyCancel flow generation tick).normalizeTransientStates tick
    | .flowRetired => do
      let flow ← id
      let generation ← id
      requireExhausted
      return s.applyRetireFlow flow generation
    | .scheduleIssued => do
      let schedule ← readSchedule
      requireExhausted
      return s.applySchedule schedule
    | .scheduleReleased => do
      let schedule ← id
      let tick ← u64
      requireExhausted
      return s.applyReleaseSchedule schedule tick
    | .attemptOpened => do
      let ticket ← readTicket
      let nominal ← u64
      let tick ← u64
      requireExhausted
      return s.applyAttemptOpened ticket nominal tick
    | .attemptStarted => do
      let attempt ← id
      let tick ← u64
      requireExhausted
      return s.applyAttemptStarted attempt tick
    | .attemptClosed => do
      let attempt ← id
      let state ← enum AttemptState.ofCode .corruptData "durable attempt state is out of range"
      let tick ← u64
      let detail ← text
      requireExhausted
      return (s.applyAttemptClosed attempt state detail tick).normalizeTransientStates tick
    | .completionCommitted => do
      let evidence ← readEvidence
      let credited ← u64
      let lifecycle ← enum FlowLifecycle.ofCode .corruptData "durable completion lifecycle is invalid"
      let tick ← u64
      requireExhausted
      return s.applyCompletion evidence credited lifecycle tick
    | .ambiguityResolved => do
      let flow ← id
      let generation ← id
      let resolution ← enum AmbiguityResolution.ofCode .corruptData
        "durable ambiguity resolution is invalid"
      let tick ← u64
      requireExhausted
      return s.applyAmbiguityResolved flow generation resolution tick
    | .checkpoint | .unknown => return s
  return (← reader.run payload).1

end FlowScheduler

import FlowScheduler.Base.Dispatch

/-! # Durable record fields

The canonical encoding of every value the journal and the snapshot carry. A
writer refuses everything past its limit; a reader validates the remaining
length before each field and range-checks every enumeration and count.
-/

namespace FlowScheduler

open ByteCodec

namespace RecordWriter

def kDefaultLimit : ℕ := 4194304

def u8 (value : UInt8) : Bytes := [value]
def u16 (value : UInt16) : Bytes := littleEndian 2 value.toNat
def u32 (value : UInt32) : Bytes := littleEndian 4 value.toNat
def u64 (value : UInt64) : Bytes := littleEndian 8 value.toNat
def size (value : ℕ) : Bytes := u64 (UInt64.ofNat value)
def boolean (value : Bool) : Bytes := u8 (if value then 1 else 0)
/-- A length-prefixed byte string, written whole or not at all. -/
def text (value : Bytes) : Bytes := size value.length ++ value

/-- The buffer a record writer hands over, whether or not it overflowed. -/
def take (e : Encoding) : Bytes := (Writer.putAll { limit := kDefaultLimit } e).buffer

end RecordWriter

abbrev Reader := Decoder Error

namespace RecordReader

def raw (count : ℕ) : Reader Bytes := fun data =>
  if data.length < count then
    .error (failure .truncated "record payload ended before the declared field")
  else .ok (data.take count, data.drop count)

def u8 : Reader UInt8 := do return (← raw 1).headD 0
def u16 : Reader UInt16 := do return UInt16.ofNat (fromLittleEndian (← raw 2))
def u32 : Reader UInt32 := do return UInt32.ofNat (fromLittleEndian (← raw 4))
def u64 : Reader UInt64 := do return UInt64.ofNat (fromLittleEndian (← raw 8))

def require (p : Prop) [Decidable p] (code : ErrorCode) (message : String) : Reader Unit :=
  if p then return () else throw (failure code message)

def boolean : Reader Bool := do
  let value ← u8
  require (value ≤ 1) .invalidArgument "boolean field is not 0 or 1"
  return value = 1

def text : Reader Bytes := do
  let length ← u64
  let data ← get
  require (length.toNat ≤ data.length) .truncated
    "declared byte field exceeds the remaining payload"
  raw length.toNat

def id {f : IdFamily} : Reader (Id f) := do return ⟨← u64⟩

/-- Read an enumeration byte, refusing values the format does not know. -/
def enum {α : Type} (ofCode : UInt8 → Option α) (code : ErrorCode) (message : String) :
    Reader α := do
  match ofCode (← u8) with
  | some a => return a
  | none => throw (failure code message)

/-- Every declared field was read and nothing follows. -/
def requireExhausted : Reader Unit := do
  let data ← get
  require (data = []) .corruptData
    "durable record carries trailing bytes after its declared fields"

end RecordReader

open RecordWriter in
def writeProvenance (p : Provenance) : Encoding :=
  [u8 p.origin.code, u64 p.sequence, u64 p.digest]

open RecordReader in
def readProvenance (code : ErrorCode) (message : String) : Reader Provenance := do
  let origin ← enum ProvenanceOrigin.ofCode code message
  let sequence ← u64
  let digest ← u64
  return { origin, sequence, digest }

open RecordWriter in
def writeBinding {f : IdFamily} (b : Binding f) : Encoding :=
  [u64 b.id.value, u64 b.generation.value]

open RecordReader in
def readBinding {f : IdFamily} : Reader (Binding f) := do
  let id ← id
  let generation ← RecordReader.id
  return { id, generation }

open RecordWriter in
def writeFlowDescriptor (d : FlowDescriptor) : Encoding :=
  [u64 d.flow.value, u64 d.generation.value] ++ writeBinding d.path ++ writeBinding d.resource ++
  writeBinding d.reservation ++ writeBinding d.priority ++ writeBinding d.qos ++
  [u64 d.fairnessGroup.value, u64 d.estimatedWork, u64 d.serviceQuantum, u64 d.minService,
    u64 d.minServiceWindow, u64 d.releaseTick, u64 d.deadlineTick, u64 d.weight,
    boolean d.preemptible, boolean d.autoReady, u8 d.readinessSignal,
    size d.dependencies.length] ++
  d.dependencies.flatMap (fun dependency => [u64 dependency.value]) ++
  [u64 d.trace.value] ++ writeProvenance d.provenance

open RecordReader in
def readFlowDescriptor : Reader FlowDescriptor := do
  let flow ← id
  let generation ← id
  let path ← readBinding
  let resource ← readBinding
  let reservation ← readBinding
  let priority ← readBinding
  let qos ← readBinding
  let fairnessGroup ← id
  let estimatedWork ← u64
  let serviceQuantum ← u64
  let minService ← u64
  let minServiceWindow ← u64
  let releaseTick ← u64
  let deadlineTick ← u64
  let weight ← u64
  let preemptible ← boolean
  let autoReady ← boolean
  let readinessSignal ← u8
  require (readinessSignal ≤ 2) .corruptData "durable flow readiness signal is out of range"
  let dependencyCount ← u64
  require (dependencyCount.toNat ≤ kMaxDependenciesPerFlow) .corruptData
    "durable flow dependency count exceeds the bound"
  let dependencies ← replicateDecoder id dependencyCount.toNat
  let trace ← id
  let provenance ← readProvenance .corruptData "durable flow provenance origin is out of range"
  return { flow, generation, path, resource, reservation, priority, qos, fairnessGroup,
           estimatedWork, serviceQuantum, minService, minServiceWindow, releaseTick, deadlineTick,
           weight, preemptible, autoReady, readinessSignal, dependencies, trace, provenance }

open RecordWriter in
def writeScheduleEntry (e : ScheduleEntry) : Encoding :=
  [u32 e.ordinal, u8 e.kind.code, u64 e.flow.value, u64 e.flowGeneration.value,
    u64 e.attempt.value, u64 e.path.value, u64 e.pathGeneration.value, u64 e.resource.value,
    u64 e.resourceGeneration.value, u64 e.reservation.value, u64 e.reservationGeneration.value,
    u64 e.qos.value, u64 e.qosGeneration.value, u64 e.priority.value,
    u64 e.priorityGeneration.value, u64 e.quantum, u64 e.startTick, u64 e.deadlineTick,
    u64 e.reservationEnd, u32 e.tier, u8 e.reason.code, u64 e.orderingDigest, text e.detail]

open RecordReader in
def readScheduleEntry : Reader ScheduleEntry := do
  let ordinal ← u32
  let kind ← enum DecisionKind.ofCode .corruptData "durable schedule decision kind is out of range"
  let flow ← id
  let flowGeneration ← id
  let attempt ← id
  let path ← id
  let pathGeneration ← id
  let resource ← id
  let resourceGeneration ← id
  let reservation ← id
  let reservationGeneration ← id
  let qos ← id
  let qosGeneration ← id
  let priority ← id
  let priorityGeneration ← id
  let quantum ← u64
  let startTick ← u64
  let deadlineTick ← u64
  let reservationEnd ← u64
  let tier ← u32
  let reason ← enum DecisionReason.ofDurableCode .corruptData
    "durable schedule decision reason is out of range"
  let orderingDigest ← u64
  let detail ← text
  require (detail.length ≤ kMaxExplanationBytes) .corruptData
    "durable schedule entry detail exceeds the bound"
  return { ordinal, kind, flow, flowGeneration, attempt, path, pathGeneration, resource,
           resourceGeneration, reservation, reservationGeneration, qos, qosGeneration, priority,
           priorityGeneration, quantum, startTick, deadlineTick, reservationEnd, tier, reason,
           orderingDigest, detail }

open RecordWriter in
def writeSchedule (s : Schedule) : Encoding :=
  [u64 s.schedule.value, u64 s.generation.value, u64 s.epoch.value, u64 s.policy.value,
    u64 s.policyGeneration.value, u64 s.policyBinding.policy.value,
    u64 s.policyBinding.generation.value, u64 s.policyBinding.digest, u64 s.atTick,
    size s.entries.length] ++
  s.entries.flatMap writeScheduleEntry ++ [u64 s.digest] ++ writeProvenance s.provenance

open RecordReader in
def readSchedule : Reader Schedule := do
  let schedule ← id
  let generation ← id
  let epoch ← id
  let policy ← id
  let policyGeneration ← id
  let boundPolicy ← id
  let boundGeneration ← id
  let boundDigest ← u64
  let atTick ← u64
  let entryCount ← u64
  require (entryCount.toNat ≤ kMaxEntriesPerSchedule.toNat) .corruptData
    "durable schedule entry count exceeds the bound"
  let entries ← replicateDecoder readScheduleEntry entryCount.toNat
  let digest ← u64
  let provenance ← readProvenance .corruptData
    "durable schedule provenance origin is out of range"
  return { schedule, generation, epoch, policy, policyGeneration,
           policyBinding := ⟨boundPolicy, boundGeneration, boundDigest⟩, atTick, entries, digest,
           provenance }

open RecordWriter in
def writePolicy (p : SchedulingPolicy) : Encoding :=
  [u64 p.policy.value, u64 p.generation.value, u8 p.preemption.code, boolean p.deadlineOrdering,
    boolean p.weightedFairness, boolean p.minServiceGuarantee, boolean p.strictDeadlines,
    u64 p.starvationBoundTicks, u64 p.deadlineUrgencyTicks, u64 p.minPreemptService,
    u32 p.maxPreemptionsPerInterval, u64 p.preemptionIntervalTicks, u32 p.maxFlows,
    u32 p.maxResources, u32 p.maxReservations, u32 p.maxEntriesPerSchedule, u64 p.maxQuantum,
    u64 p.defaultMaxOverlap, u32 p.retainedScheduleHistory, u64 p.dispatchDeliveryHorizon] ++
  writeProvenance p.provenance

open RecordReader in
def readPolicy : Reader SchedulingPolicy := do
  let policy ← id
  let generation ← id
  let preemption ← enum PreemptionMode.ofCode .corruptData
    "durable policy preemption mode is out of range"
  let deadlineOrdering ← boolean
  let weightedFairness ← boolean
  let minServiceGuarantee ← boolean
  let strictDeadlines ← boolean
  let starvationBoundTicks ← u64
  let deadlineUrgencyTicks ← u64
  let minPreemptService ← u64
  let maxPreemptionsPerInterval ← u32
  let preemptionIntervalTicks ← u64
  let maxFlows ← u32
  let maxResources ← u32
  let maxReservations ← u32
  let maxEntriesPerSchedule ← u32
  let maxQuantum ← u64
  let defaultMaxOverlap ← u64
  let retainedScheduleHistory ← u32
  let dispatchDeliveryHorizon ← u64
  let provenance ← readProvenance .corruptData "durable policy provenance origin is out of range"
  return { policy, generation, preemption, deadlineOrdering, weightedFairness,
           minServiceGuarantee, strictDeadlines, starvationBoundTicks, deadlineUrgencyTicks,
           minPreemptService, maxPreemptionsPerInterval, preemptionIntervalTicks, maxFlows,
           maxResources, maxReservations, maxEntriesPerSchedule, maxQuantum, defaultMaxOverlap,
           retainedScheduleHistory, dispatchDeliveryHorizon, provenance }

open RecordWriter in
def writeResource (d : ResourceDescriptor) : Encoding :=
  [u64 d.resource.value, u64 d.generation.value, u64 d.capacity, u64 d.interval,
    u64 d.maxOverlap] ++ writeProvenance d.provenance

open RecordReader in
def readResource : Reader ResourceDescriptor := do
  let resource ← id
  let generation ← id
  let capacity ← u64
  let interval ← u64
  let maxOverlap ← u64
  let provenance ← readProvenance .corruptData
    "durable resource provenance origin is out of range"
  return { resource, generation, capacity, interval, maxOverlap, provenance }

open RecordWriter in
def writeReservation (d : ReservationDescriptor) : Encoding :=
  [u64 d.reservation.value, u64 d.generation.value, u64 d.resource.value,
    u64 d.resourceGeneration.value, u64 d.windowBegin, u64 d.windowEnd, u64 d.capacity,
    boolean d.exclusive] ++ writeProvenance d.provenance

open RecordReader in
def readReservation : Reader ReservationDescriptor := do
  let reservation ← id
  let generation ← id
  let resource ← id
  let resourceGeneration ← id
  let windowBegin ← u64
  let windowEnd ← u64
  let capacity ← u64
  let exclusive ← boolean
  let provenance ← readProvenance .corruptData
    "durable reservation provenance origin is out of range"
  return { reservation, generation, resource, resourceGeneration, windowBegin, windowEnd,
           capacity, exclusive, provenance }

open RecordWriter in
def writePriorityClass (d : PriorityClassDescriptor) : Encoding :=
  [u64 d.priority.value, u64 d.generation.value, u32 d.rank, u64 d.weight] ++
  writeProvenance d.provenance

open RecordReader in
def readPriorityClass : Reader PriorityClassDescriptor := do
  let priority ← id
  let generation ← id
  let rank ← u32
  let weight ← u64
  let provenance ← readProvenance .corruptData
    "durable priority provenance origin is out of range"
  return { priority, generation, rank, weight, provenance }

open RecordWriter in
def writeQosClass (d : QoSClassDescriptor) : Encoding :=
  [u64 d.qos.value, u64 d.generation.value, boolean d.preemptionProtected,
    u64 d.maxServicePerDispatch] ++ writeProvenance d.provenance

open RecordReader in
def readQosClass : Reader QoSClassDescriptor := do
  let qos ← id
  let generation ← id
  let preemptionProtected ← boolean
  let maxServicePerDispatch ← u64
  let provenance ← readProvenance .corruptData "durable qos provenance origin is out of range"
  return { qos, generation, preemptionProtected, maxServicePerDispatch, provenance }

open RecordWriter in
def writeTicket (t : DispatchTicket) : Encoding :=
  [u64 t.attempt.value, u64 t.epoch.value, u64 t.schedule.value, u64 t.scheduleGeneration.value,
    u64 t.flow.value, u64 t.flowGeneration.value, u64 t.path.value, u64 t.pathGeneration.value,
    u64 t.resource.value, u64 t.resourceGeneration.value, u64 t.reservation.value,
    u64 t.reservationGeneration.value, u64 t.qos.value, u64 t.qosGeneration.value,
    u64 t.priority.value, u64 t.priorityGeneration.value, u64 t.policy.value,
    u64 t.policyGeneration.value, u64 t.worker.value, u64 t.boot.value, u64 t.startTick,
    u64 t.deadlineTick, u64 t.reservationEnd, u64 t.quantum, u8 t.state.code, u64 t.digest]

/-- Every authority field a stored ticket must bind. -/
def DispatchTicket.bound (t : DispatchTicket) : Bool :=
  t.attempt.valid && t.epoch.valid && t.schedule.valid && t.scheduleGeneration.valid &&
  t.flow.valid && t.flowGeneration.valid && t.path.valid && t.pathGeneration.valid &&
  t.resource.valid && t.resourceGeneration.valid && t.policy.valid && t.policyGeneration.valid &&
  t.qos.valid && t.qosGeneration.valid && t.priority.valid && t.priorityGeneration.valid

open RecordReader in
def readTicket : Reader DispatchTicket := do
  let attempt ← id
  let epoch ← id
  let schedule ← id
  let scheduleGeneration ← id
  let flow ← id
  let flowGeneration ← id
  let path ← id
  let pathGeneration ← id
  let resource ← id
  let resourceGeneration ← id
  let reservation ← id
  let reservationGeneration ← id
  let qos ← id
  let qosGeneration ← id
  let priority ← id
  let priorityGeneration ← id
  let policy ← id
  let policyGeneration ← id
  let worker ← id
  let boot ← id
  let startTick ← u64
  let deadlineTick ← u64
  let reservationEnd ← u64
  let quantum ← u64
  let state ← enum AttemptState.ofCode .protocolViolation "attempt state is not a known value"
  let digest ← u64
  let ticket : DispatchTicket :=
    { attempt, epoch, schedule, scheduleGeneration, flow, flowGeneration, path, pathGeneration,
      resource, resourceGeneration, reservation, reservationGeneration, qos, qosGeneration,
      priority, priorityGeneration, policy, policyGeneration, worker, boot, startTick,
      deadlineTick, reservationEnd, quantum, state, digest }
  require ticket.bound .protocolViolation "dispatch ticket has an unbound authority field"
  require (ticket.quantum ≠ 0) .protocolViolation "dispatch ticket authorizes a zero quantum"
  require (ticket.quantum ≤ kMaxQuantum) .protocolViolation
    "dispatch ticket quantum exceeds kMaxQuantum"
  return ticket

open RecordWriter in
def writeEvidence (e : CompletionEvidence) : Encoding :=
  [u64 e.schedule.value, u64 e.scheduleGeneration.value, u64 e.attempt.value, u64 e.epoch.value,
    u64 e.flow.value, u64 e.flowGeneration.value, u64 e.worker.value, u64 e.boot.value,
    u8 e.outcome.code, u64 e.served, u32 e.effectCode, u64 e.effectDigest, u64 e.observedTick] ++
  writeProvenance e.provenance

def CompletionEvidence.bound (e : CompletionEvidence) : Bool :=
  e.attempt.valid && e.epoch.valid && e.schedule.valid && e.scheduleGeneration.valid &&
  e.flow.valid && e.flowGeneration.valid && e.worker.valid && e.boot.valid

open RecordReader in
def readEvidence : Reader CompletionEvidence := do
  let schedule ← id
  let scheduleGeneration ← id
  let attempt ← id
  let epoch ← id
  let flow ← id
  let flowGeneration ← id
  let worker ← id
  let boot ← id
  let outcome ← enum CompletionOutcome.ofCode .protocolViolation
    "completion outcome is not a known value"
  let served ← u64
  let effectCode ← u32
  let effectDigest ← u64
  let observedTick ← u64
  let provenance ← readProvenance .protocolViolation "provenance origin is not a known value"
  let evidence : CompletionEvidence :=
    { schedule, scheduleGeneration, attempt, epoch, flow, flowGeneration, worker, boot, outcome,
      served, effectCode, effectDigest, observedTick, provenance }
  require evidence.bound .protocolViolation "completion evidence has an unbound field"
  require (evidence.served ≤ kMaxServiceUnits) .protocolViolation
    "completion evidence served exceeds the bound"
  return evidence

end FlowScheduler

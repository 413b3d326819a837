import FlowScheduler.Base.Hash

/-! # Descriptors and policies

Resources, reservations, classes, flows and the scheduling policy, each with
the structural validation it must pass before it can influence arbitration.
-/

namespace FlowScheduler

def kMaxFlows : UInt32 := 0x100000
def kMaxResources : UInt32 := 0x10000
def kMaxReservations : UInt32 := 0x40000
def kMaxPriorityClasses : ℕ := 0x1000
def kMaxQoSClasses : ℕ := 0x1000
def kMaxDependenciesPerFlow : ℕ := 4096
def kMaxEntriesPerSchedule : UInt32 := 0x10000
def kMaxServiceUnits : UInt64 := 0x1000000000000
def kMaxQuantum : UInt64 := 0x10000000000
def kMaxTickHorizon : UInt64 := 0x1000000000000000
def kMaxExplanationBytes : ℕ := 2048

/-- An identity bound together with the generation it was bound at. -/
structure Binding (family : IdFamily) where
  id : Id family := {}
  generation : Generation := {}
  deriving DecidableEq, Repr

def Binding.bound {f : IdFamily} (b : Binding f) : Bool := b.id.valid && b.generation.valid

structure ResourceDescriptor where
  resource : ResourceId := {}
  generation : Generation := {}
  capacity : UInt64 := 0
  interval : Ticks := 0
  maxOverlap : UInt64 := 1
  provenance : Provenance := {}
  deriving DecidableEq, Repr

/-- A grant of service units on a resource inside the window `[windowBegin, windowEnd)`. -/
structure ReservationDescriptor where
  reservation : ReservationId := {}
  generation : Generation := {}
  resource : ResourceId := {}
  resourceGeneration : Generation := {}
  windowBegin : Ticks := 0
  windowEnd : Ticks := 0
  capacity : UInt64 := 0
  exclusive : Bool := false
  provenance : Provenance := {}
  deriving DecidableEq, Repr

structure PriorityClassDescriptor where
  priority : PriorityClassId := {}
  generation : Generation := {}
  rank : UInt32 := 0
  weight : UInt64 := 1
  provenance : Provenance := {}
  deriving DecidableEq, Repr

structure QoSClassDescriptor where
  qos : QoSClassId := {}
  generation : Generation := {}
  preemptionProtected : Bool := false
  maxServicePerDispatch : UInt64 := 0
  provenance : Provenance := {}
  deriving DecidableEq, Repr

structure FlowDescriptor where
  flow : FlowId := {}
  generation : Generation := {}
  path : Binding .path := {}
  resource : Binding .resource := {}
  reservation : Binding .reservation := {}
  priority : Binding .priority := {}
  qos : Binding .qos := {}
  fairnessGroup : FairnessGroupId := {}
  estimatedWork : UInt64 := 0
  serviceQuantum : UInt64 := 1
  minService : UInt64 := 0
  minServiceWindow : Ticks := 0
  releaseTick : Ticks := 0
  deadlineTick : Ticks := kNoDeadline
  weight : UInt64 := 1
  preemptible : Bool := true
  autoReady : Bool := true
  /-- 0 is unset, 1 is ready, 2 is not ready. -/
  readinessSignal : UInt8 := 0
  dependencies : List FlowId := []
  trace : TraceId := {}
  provenance : Provenance := {}
  deriving DecidableEq, Repr

inductive FlowLifecycle
  | waiting | ready | scheduled | dispatched | running | completionReported | completed
  | cancelling | cancelled | preempting | failed | ambiguous
  deriving DecidableEq, Repr

namespace FlowLifecycle

def code : FlowLifecycle → UInt8
  | waiting => 0 | ready => 1 | scheduled => 2 | dispatched => 3 | running => 4
  | completionReported => 5 | completed => 6 | cancelling => 7 | cancelled => 8
  | preempting => 9 | failed => 10 | ambiguous => 11

def ofCode : UInt8 → Option FlowLifecycle
  | 0 => some waiting | 1 => some ready | 2 => some scheduled | 3 => some dispatched
  | 4 => some running | 5 => some completionReported | 6 => some completed
  | 7 => some cancelling | 8 => some cancelled | 9 => some preempting | 10 => some failed
  | 11 => some ambiguous | _ => none

@[simp] theorem ofCode_code (l : FlowLifecycle) : ofCode l.code = some l := by cases l <;> rfl

def isTerminal : FlowLifecycle → Bool
  | completed | cancelled | failed => true
  | _ => false

def holdsOpenWork : FlowLifecycle → Bool
  | dispatched | running | completionReported | cancelling | preempting => true
  | _ => false

end FlowLifecycle

structure FlowAccounting where
  serviceCredit : UInt64 := 0
  dispatchesIssued : UInt64 := 0
  dispatchesStarted : UInt64 := 0
  completionsCommitted : UInt64 := 0
  duplicateCompletions : UInt64 := 0
  rejectedCompletions : UInt64 := 0
  preemptions : UInt64 := 0
  deadlineMisses : UInt64 := 0
  waitTicksTotal : UInt64 := 0
  starvationBoosts : UInt64 := 0
  deriving DecidableEq, Repr

def ResourceDescriptor.validate (d : ResourceDescriptor) : Status := do
  refuseIf (¬ d.resource.valid) .invalidArgument "resource identity is unbound"
  refuseIf (¬ d.generation.valid) .invalidArgument "resource generation is unbound"
  refuseIf (d.capacity = 0 ∨ kMaxServiceUnits < d.capacity) .outOfRange
    "resource capacity outside [1, kMaxServiceUnits]"
  refuseIf (d.interval = 0 ∨ kMaxTickHorizon < d.interval) .outOfRange
    "resource interval outside [1, kMaxTickHorizon]"
  refuseIf (d.maxOverlap = 0 ∨ kMaxServiceUnits < d.maxOverlap) .outOfRange
    "resource max_overlap outside [1, kMaxServiceUnits]"
  refuseIf (¬ d.provenance.established) .invalidArgument "resource provenance is not established"

def ReservationDescriptor.validate (d : ReservationDescriptor) : Status := do
  refuseIf (¬ d.reservation.valid) .invalidArgument "reservation identity is unbound"
  refuseIf (¬ d.generation.valid) .invalidArgument "reservation generation is unbound"
  refuseIf (¬ d.resource.valid ∨ ¬ d.resourceGeneration.valid) .invalidArgument
    "reservation resource binding is incomplete"
  refuseIf (d.windowEnd ≤ d.windowBegin) .invalidArgument "reservation window is empty or inverted"
  refuseIf (kMaxTickHorizon < d.windowEnd ∨ kMaxTickHorizon < d.windowBegin) .outOfRange
    "reservation window beyond the tick horizon"
  refuseIf (d.capacity = 0 ∨ kMaxServiceUnits < d.capacity) .outOfRange
    "reservation capacity outside [1, kMaxServiceUnits]"
  refuseIf (¬ d.provenance.established) .invalidArgument "reservation provenance is not established"

def PriorityClassDescriptor.validate (d : PriorityClassDescriptor) : Status := do
  refuseIf (¬ d.priority.valid) .invalidArgument "priority class identity is unbound"
  refuseIf (¬ d.generation.valid) .invalidArgument "priority class generation is unbound"
  refuseIf (d.weight = 0 ∨ kMaxServiceUnits < d.weight) .outOfRange
    "priority class weight outside [1, kMaxServiceUnits]"
  refuseIf (¬ d.provenance.established) .invalidArgument
    "priority class provenance is not established"

def QoSClassDescriptor.validate (d : QoSClassDescriptor) : Status := do
  refuseIf (¬ d.qos.valid) .invalidArgument "qos class identity is unbound"
  refuseIf (¬ d.generation.valid) .invalidArgument "qos class generation is unbound"
  refuseIf (kMaxQuantum < d.maxServicePerDispatch) .outOfRange
    "qos class dispatch bound exceeds kMaxQuantum"
  refuseIf (¬ d.provenance.established) .invalidArgument "qos class provenance is not established"

def FlowDescriptor.validate (d : FlowDescriptor) : Status := do
  refuseIf (¬ d.flow.valid) .invalidArgument "flow identity is unbound"
  refuseIf (¬ d.generation.valid) .invalidArgument "flow generation is unbound"
  refuseIf (¬ d.path.bound) .invalidArgument "flow path binding is incomplete"
  refuseIf (¬ d.resource.bound) .invalidArgument "flow resource binding is incomplete"
  refuseIf (¬ d.priority.bound) .invalidArgument "flow priority binding is incomplete"
  refuseIf (¬ d.qos.bound) .invalidArgument "flow qos binding is incomplete"
  refuseIf (¬ d.fairnessGroup.valid) .invalidArgument "flow fairness group is unbound"
  refuseIf (d.reservation.id.valid ≠ d.reservation.generation.valid) .invalidArgument
    "flow reservation binding is partially specified"
  refuseIf (d.estimatedWork = 0 ∨ kMaxServiceUnits < d.estimatedWork) .outOfRange
    "flow estimated_work outside [1, kMaxServiceUnits]"
  refuseIf (d.serviceQuantum = 0 ∨ kMaxQuantum < d.serviceQuantum) .outOfRange
    "flow service_quantum outside [1, kMaxQuantum]"
  refuseIf (d.estimatedWork < d.minService) .invalidArgument
    "flow min_service exceeds estimated_work"
  refuseIf (0 < d.minService ∧ d.minServiceWindow = 0) .invalidArgument
    "flow min_service requires a non-zero window"
  refuseIf (kMaxTickHorizon < d.minServiceWindow) .outOfRange
    "flow min_service_window beyond the tick horizon"
  refuseIf (kMaxTickHorizon < d.releaseTick) .outOfRange
    "flow release_tick beyond the tick horizon"
  refuseIf (hasDeadline d.deadlineTick ∧ kMaxTickHorizon < d.deadlineTick) .outOfRange
    "flow deadline_tick beyond the tick horizon"
  refuseIf (hasDeadline d.deadlineTick ∧ d.deadlineTick ≤ d.releaseTick) .invalidArgument
    "flow deadline_tick is not after release_tick"
  refuseIf (d.weight = 0 ∨ kMaxServiceUnits < d.weight) .outOfRange
    "flow weight outside [1, kMaxServiceUnits]"
  refuseIf (kMaxDependenciesPerFlow < d.dependencies.length) .bounded
    "flow dependency list exceeds the configured bound"
  refuseIf (2 < d.readinessSignal) .invalidArgument "flow readiness signal is not a known value"
  -- The source sorts a copy: adjacent equals are duplicates, binary search is membership.
  refuseIf (¬ d.dependencies.Nodup) .invalidArgument "flow dependency list contains duplicates"
  refuseIf (d.flow ∈ d.dependencies) .invalidArgument "flow depends on itself"
  refuseIf (∃ dependency ∈ d.dependencies, ¬ dependency.valid) .invalidArgument
    "flow dependency identity is unbound"
  refuseIf (¬ d.provenance.established) .invalidArgument "flow provenance is not established"

/-- True when the reservation window contains the tick. -/
def ReservationDescriptor.windowContains (r : ReservationDescriptor) (tick : Ticks) : Bool :=
  decide (r.windowBegin ≤ tick) && decide (tick < r.windowEnd)

inductive PreemptionMode | none | strictPriority | deadline | tiered
  deriving DecidableEq, Repr

def PreemptionMode.code : PreemptionMode → UInt8
  | .none => 0 | .strictPriority => 1 | .deadline => 2 | .tiered => 3

def PreemptionMode.ofCode : UInt8 → Option PreemptionMode
  | 0 => some .none | 1 => some .strictPriority | 2 => some .deadline | 3 => some .tiered
  | _ => Option.none

@[simp] theorem PreemptionMode.ofCode_code (m : PreemptionMode) : ofCode m.code = some m := by
  cases m <;> rfl

structure SchedulingPolicy where
  policy : PolicyId := {}
  generation : Generation := {}
  preemption : PreemptionMode := .tiered
  deadlineOrdering : Bool := true
  weightedFairness : Bool := true
  minServiceGuarantee : Bool := true
  strictDeadlines : Bool := true
  starvationBoundTicks : Ticks := 1000000
  deadlineUrgencyTicks : Ticks := 1000000
  minPreemptService : UInt64 := 1
  maxPreemptionsPerInterval : UInt32 := 64
  preemptionIntervalTicks : Ticks := 1000000
  maxFlows : UInt32 := kMaxFlows
  maxResources : UInt32 := kMaxResources
  maxReservations : UInt32 := kMaxReservations
  maxEntriesPerSchedule : UInt32 := kMaxEntriesPerSchedule
  maxQuantum : UInt64 := kMaxQuantum
  defaultMaxOverlap : UInt64 := 1
  retainedScheduleHistory : UInt32 := 4096
  dispatchDeliveryHorizon : Ticks := 1000000
  provenance : Provenance := {}
  deriving DecidableEq, Repr

def SchedulingPolicy.validate (p : SchedulingPolicy) : Status := do
  refuseIf (¬ p.policy.valid) .invalidArgument "policy identity is unbound"
  refuseIf (¬ p.generation.valid) .invalidArgument "policy generation is unbound"
  refuseIf (p.maxFlows = 0 ∨ kMaxFlows < p.maxFlows) .outOfRange
    "policy max_flows outside [1, kMaxFlows]"
  refuseIf (p.maxResources = 0 ∨ kMaxResources < p.maxResources) .outOfRange
    "policy max_resources outside [1, kMaxResources]"
  refuseIf (p.maxReservations = 0 ∨ kMaxReservations < p.maxReservations) .outOfRange
    "policy max_reservations outside [1, kMaxReservations]"
  refuseIf (p.maxEntriesPerSchedule = 0 ∨ kMaxEntriesPerSchedule < p.maxEntriesPerSchedule)
    .outOfRange "policy max_entries_per_schedule outside [1, kMaxEntriesPerSchedule]"
  refuseIf (p.maxQuantum = 0 ∨ kMaxQuantum < p.maxQuantum) .outOfRange
    "policy max_quantum outside [1, kMaxQuantum]"
  refuseIf (p.defaultMaxOverlap = 0 ∨ kMaxServiceUnits < p.defaultMaxOverlap) .outOfRange
    "policy default_max_overlap is out of range"
  refuseIf (p.starvationBoundTicks = 0 ∨ kMaxTickHorizon < p.starvationBoundTicks) .outOfRange
    "policy starvation_bound_ticks outside [1, kMaxTickHorizon]"
  refuseIf (kMaxTickHorizon < p.deadlineUrgencyTicks) .outOfRange
    "policy deadline_urgency_ticks beyond the tick horizon"
  refuseIf (kMaxServiceUnits < p.minPreemptService) .outOfRange
    "policy min_preempt_service exceeds the bound"
  refuseIf (p.preemptionIntervalTicks = 0 ∨ kMaxTickHorizon < p.preemptionIntervalTicks)
    .outOfRange "policy preemption_interval_ticks outside [1, kMaxTickHorizon]"
  refuseIf (0x1000000 < p.maxPreemptionsPerInterval) .outOfRange
    "policy preemption throttle exceeds the bound"
  refuseIf (p.dispatchDeliveryHorizon = 0 ∨ kMaxTickHorizon < p.dispatchDeliveryHorizon)
    .outOfRange "policy dispatch_delivery_horizon outside [1, kMaxTickHorizon]"
  refuseIf (p.retainedScheduleHistory < 16 ∨ 0x100000 < p.retainedScheduleHistory) .outOfRange
    "policy retained_schedule_history outside [16, 2^20]"
  refuseIf (¬ p.provenance.established) .invalidArgument "policy provenance is not established"

/-- Digest over the arbitrated content of a policy. -/
def SchedulingPolicy.digest (p : SchedulingPolicy) : UInt64 :=
  let d : Digest64 := {}
  let d := (d.addU64s [p.policy.value, p.generation.value]).addU8 p.preemption.code
  let d := (((d.addBool p.deadlineOrdering).addBool p.weightedFairness).addBool
    p.minServiceGuarantee).addBool p.strictDeadlines
  let d := d.addU64s [p.starvationBoundTicks, p.deadlineUrgencyTicks, p.minPreemptService]
  let d := (d.addU32 p.maxPreemptionsPerInterval).addU64 p.preemptionIntervalTicks
  let d := (((d.addU32 p.maxFlows).addU32 p.maxResources).addU32 p.maxReservations).addU32
    p.maxEntriesPerSchedule
  let d := d.addU64s [p.maxQuantum, p.defaultMaxOverlap]
  ((d.addU32 p.retainedScheduleHistory).addU64 p.dispatchDeliveryHorizon).state

structure PolicyBinding where
  policy : PolicyId := {}
  generation : Generation := {}
  digest : UInt64 := 0
  deriving DecidableEq, Repr

def SchedulingPolicy.binding (p : SchedulingPolicy) : PolicyBinding :=
  ⟨p.policy, p.generation, p.digest⟩

end FlowScheduler

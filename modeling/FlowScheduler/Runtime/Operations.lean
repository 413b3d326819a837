import FlowScheduler.Runtime.Record

/-! # Public operations

Each call checks its request against the current tables, makes the record
durable, and only then applies the transition. A refused call keeps whatever
state it had already reached.
-/

namespace FlowScheduler

open ByteCodec Failing

/-- A scheduler: its memory and, when durable, its store. -/
structure Scheduler where
  impl : Impl
  store : Option DurableStore := none
  /-- Number of appends that returned an error. A history variable, read by no operation. -/
  refusedAppends : ℕ := 0
  /-- The records accepted since the scheduler was opened. A history variable as well. -/
  accepted : List Record := []

abbrev SchedOp (α : Type) := Op Error Scheduler α

namespace SchedOp

def readImpl : SchedOp Impl := do return (← get).impl

def modifyImpl (f : Impl → Impl) : SchedOp Unit := modify fun s => { s with impl := f s.impl }

def journal (record : Record) : SchedOp Unit := do
  let s ← get
  match s.store with
  | none => set { s with accepted := s.accepted ++ [record] }
  | some store =>
    match exec (DurableStore.append record.type record.payload) store with
    | (.ok (), store) => set { s with store := some store, accepted := s.accepted ++ [record] }
    | (.error e, store) =>
      set { s with store := some store, refusedAppends := s.refusedAppends + 1 }
      throw e

/-- The monotone clock follows the largest tick seen. -/
def touch (now : Ticks) : SchedOp Unit :=
  modifyImpl fun s => { s with lastTick := max s.lastTick now }

end SchedOp

open SchedOp

/-- A first registration starts at generation 1; a later one advances it by exactly one. -/
def generationGuard (current : Option Generation) (proposed : Generation) (full : Bool)
    (boundText newText stepText : String) : Status :=
  match current with
  | none => do
    refuseIf full .bounded boundText
    refuseIf (proposed.value ≠ 1) .invalidArgument newText
  | some generation => do
    let expected ← generation.advance
    refuseIf (proposed ≠ expected) .invalidArgument stepText

namespace Impl

variable (s : Impl)

def registerResourceGuard (d : ResourceDescriptor) : Status := do
  d.validate
  generationGuard (s.resources[d.resource]?.map (·.descriptor.generation)) d.generation
    (s.policy.maxResources.toNat ≤ s.resources.size) "resource table bound reached"
    "a newly registered resource must start at generation 1"
    "resource update must advance the generation by exactly one"

/-- The resource is registered at exactly the generation bound. -/
def resourceGuard (resource : ResourceId) (generation : Generation)
    (unknownText staleText : String) : Status :=
  match s.resources[resource]? with
  | none => .error (failure .unknownResource unknownText)
  | some found =>
    refuseIf (found.descriptor.generation ≠ generation) .staleResourceGeneration staleText

def priorityGuard (priority : PriorityClassId) (generation : Generation)
    (unknownText staleText : String) : Status :=
  match s.priorityClasses[priority]? with
  | none => .error (failure .unknownPolicy unknownText)
  | some found => refuseIf (found.generation ≠ generation) .stalePriorityGeneration staleText

def qosGuard (qos : QoSClassId) (generation : Generation) (unknownText staleText : String) :
    Status :=
  match s.qosClasses[qos]? with
  | none => .error (failure .unknownPolicy unknownText)
  | some found => refuseIf (found.generation ≠ generation) .staleQoSGeneration staleText

def registerReservationGuard (d : ReservationDescriptor) : Status := do
  d.validate
  s.resourceGuard d.resource d.resourceGeneration
    "reservation references a resource that is not registered"
    "reservation binds a stale resource generation"
  generationGuard (s.reservations[d.reservation]?.map (·.descriptor.generation)) d.generation
    (s.policy.maxReservations.toNat ≤ s.reservations.size) "reservation table bound reached"
    "a newly registered reservation must start at generation 1"
    "reservation update must advance the generation by exactly one"

/-- Whether a retirement still has to be made durable. -/
def retireReservationGuard (reservation : ReservationId) (generation : Generation) :
    Result Bool :=
  match s.reservations[reservation]? with
  | none => .error (failure .unknownReservation "reservation is not registered")
  | some found => do
    refuseIf (found.descriptor.generation ≠ generation) .staleReservationGeneration
      "reservation generation does not match"
    return !found.retired

def registerPriorityClassGuard (d : PriorityClassDescriptor) : Status := do
  d.validate
  generationGuard (s.priorityClasses[d.priority]?.map (·.generation)) d.generation
    (kMaxPriorityClasses ≤ s.priorityClasses.size) "priority class table bound reached"
    "a newly registered priority class must start at generation 1"
    "priority class update must advance the generation by exactly one"

def registerQosClassGuard (d : QoSClassDescriptor) : Status := do
  d.validate
  generationGuard (s.qosClasses[d.qos]?.map (·.generation)) d.generation
    (kMaxQoSClasses ≤ s.qosClasses.size) "qos class table bound reached"
    "a newly registered qos class must start at generation 1"
    "qos class update must advance the generation by exactly one"

def admitReservationGuard (d : FlowDescriptor) : Status :=
  if ¬ d.reservation.bound then .ok ()
  else match s.reservations[d.reservation.id]? with
    | none => .error (failure .unknownReservation "flow binds a reservation that is not registered")
    | some reservation => do
      refuseIf reservation.retired .unknownReservation
        "flow binds a reservation that is not registered"
      refuseIf (reservation.descriptor.generation ≠ d.reservation.generation)
        .staleReservationGeneration "flow binds a stale reservation generation"
      refuseIf (reservation.descriptor.resource ≠ d.resource.id) .invalidArgument
        "flow reservation and resource bindings disagree"

def admitFlowGuard (d : FlowDescriptor) : Status := do
  d.validate
  refuseIf (d.flow ∈ s.flows) .alreadyExists "flow identity is already registered"
  s.resourceGuard d.resource.id d.resource.generation
    "flow binds a resource that is not registered" "flow binds a stale resource generation"
  s.priorityGuard d.priority.id d.priority.generation
    "flow binds a priority class that is not registered"
    "flow binds a stale priority class generation"
  s.qosGuard d.qos.id d.qos.generation "flow binds a qos class that is not registered"
    "flow binds a stale qos class generation"
  s.admitReservationGuard d

def updateFlowGuard (d : FlowDescriptor) : Status := do
  d.validate
  match s.flows[d.flow]? with
  | none => .error (failure .unknownFlow "cannot update an unregistered flow")
  | some found =>
    let expected ← found.descriptor.generation.advance
    refuseIf (d.generation ≠ expected) .invalidArgument
      "flow update must advance the generation by exactly one"
    refuseIf ((found.descriptor.dependencies ≠ [] ∨ d.dependencies ≠ [] ∨
          found.descriptor.estimatedWork ≠ d.estimatedWork) ∧
        found.lifecycle ≠ .waiting ∧ 0 < found.servedWork) .invalidState
      "cannot change dependencies or estimated work of a flow with progress"
    s.resourceGuard d.resource.id d.resource.generation
      "flow binds a resource that is not registered" "flow binds a stale resource generation"

/-- The flow a request names at the generation it names. -/
def namedFlow (flow : FlowId) (generation : Generation) (unknownText staleText : String) :
    Result FlowRuntime :=
  match s.flows[flow]? with
  | none => .error (failure .unknownFlow unknownText)
  | some found => do
    refuseIf (found.descriptor.generation ≠ generation) .staleFlowGeneration staleText
    return found

/-- Whether a cancellation still has to be made durable. -/
def cancelFlowGuard (flow : FlowId) (generation : Generation) : Result Bool := do
  let found ← s.namedFlow flow generation "cannot cancel an unregistered flow"
    "cancellation names a stale flow generation"
  if found.lifecycle = .cancelled then return false
  refuseIf found.lifecycle.isTerminal .invalidState "flow already reached a terminal state"
  return true

def notifyReadinessGuard (flow : FlowId) (generation : Generation) (signal : ReadinessSignal) :
    Result Bool := do
  let found ← s.namedFlow flow generation "cannot signal an unregistered flow"
    "readiness names a stale generation"
  refuseIf found.lifecycle.isTerminal .invalidState "flow already reached a terminal state"
  return found.descriptor.readinessSignal != signal.code

def resolveAmbiguousGuard (flow : FlowId) (generation : Generation) : Status := do
  let found ← s.namedFlow flow generation "cannot resolve an unregistered flow"
    "resolution names a stale generation"
  refuseIf (found.lifecycle ≠ .ambiguous) .invalidState "flow is not in an ambiguous state"

def retireFlowGuard (flow : FlowId) (generation : Generation) : Status := do
  let found ← s.namedFlow flow generation "cannot retire an unregistered flow"
    "retirement names a stale generation"
  refuseIf (¬ found.lifecycle.isTerminal) .invalidState
    "only a terminal flow can be retired from the table"

def installPolicyGuard (policy : SchedulingPolicy) : Status := do
  policy.validate
  if s.policy.policy.valid ∧ policy.policy = s.policy.policy then
    let expected ← s.policy.generation.advance
    refuseIf (policy.generation ≠ expected) .invalidArgument
      "policy update must advance the generation by exactly one"
  else
    refuseIf (policy.generation.value ≠ 1) .invalidArgument
      "a newly installed policy must start at generation 1"
  refuseIf (policy.maxFlows.toNat < s.flows.size) .bounded
    "new policy flow bound is below the currently registered flow count"

def releaseScheduleGuard (schedule : ScheduleId) (generation : Generation) : Status :=
  match s.schedules[schedule]? with
  | none => .error (failure .unknownSchedule "schedule is not retained")
  | some runtime =>
    refuseIf (runtime.schedule.generation ≠ generation) .staleScheduleGeneration
      "schedule generation does not match"

end Impl

def registerResource (d : ResourceDescriptor) : SchedOp Unit := do
  (← readImpl).registerResourceGuard d
  journal (.resourceRegistered d)
  modifyImpl (·.applyResource d)

def registerReservation (d : ReservationDescriptor) : SchedOp Unit := do
  (← readImpl).registerReservationGuard d
  journal (.reservationRegistered d)
  modifyImpl (·.applyReservation d)

def retireReservation (reservation : ReservationId) (generation : Generation) : SchedOp Unit := do
  if ← (← readImpl).retireReservationGuard reservation generation then
    journal (.reservationRetired reservation generation)
    modifyImpl (·.applyRetireReservation reservation generation)

def registerPriorityClass (d : PriorityClassDescriptor) : SchedOp Unit := do
  (← readImpl).registerPriorityClassGuard d
  journal (.priorityClassRegistered d)
  modifyImpl (·.applyPriorityClass d)

def registerQosClass (d : QoSClassDescriptor) : SchedOp Unit := do
  (← readImpl).registerQosClassGuard d
  journal (.qosClassRegistered d)
  modifyImpl (·.applyQosClass d)

/-- The record is durable before the transition checks the table bound. -/
def admitFlow (d : FlowDescriptor) : SchedOp Unit := do
  (← readImpl).admitFlowGuard d
  journal (.flowAdmitted d)
  let admitted ← (← readImpl).applyAdmit d
  modifyImpl fun _ => admitted

/-- A new generation gives up the schedule entry issued under the old one. -/
def updateFlow (d : FlowDescriptor) : SchedOp Unit := do
  (← readImpl).updateFlowGuard d
  journal (.flowUpdated d)
  let updated ← (← readImpl).applyUpdate d
  modifyImpl fun s => updated.releaseScheduledEntry d.flow s.lastTick

def cancelFlow (flow : FlowId) (generation : Generation) (reason : Bytes) (now : Ticks) :
    SchedOp Unit := do
  touch now
  if ← (← readImpl).cancelFlowGuard flow generation then
    journal (.flowCancelled flow generation now reason)
    modifyImpl fun s => (s.applyCancel flow generation now).normalizeTransientStates now

def notifyReadiness (flow : FlowId) (generation : Generation) (signal : ReadinessSignal)
    (now : Ticks) : SchedOp Unit := do
  touch now
  if ← (← readImpl).notifyReadinessGuard flow generation signal then
    journal (.flowReadinessChanged flow generation signal now)
    modifyImpl (·.applyReadiness flow generation signal now)

def resolveAmbiguous (flow : FlowId) (generation : Generation) (resolution : AmbiguityResolution)
    (now : Ticks) : SchedOp Unit := do
  touch now
  (← readImpl).resolveAmbiguousGuard flow generation
  journal (.ambiguityResolved flow generation resolution now)
  modifyImpl (·.applyAmbiguityResolved flow generation resolution now)

def retireFlow (flow : FlowId) (generation : Generation) : SchedOp Unit := do
  (← readImpl).retireFlowGuard flow generation
  journal (.flowRetired flow generation)
  modifyImpl (·.applyRetireFlow flow generation)

def installPolicy (policy : SchedulingPolicy) : SchedOp Unit := do
  (← readImpl).installPolicyGuard policy
  journal (.policyInstalled policy)
  modifyImpl (·.applyPolicy policy)

/-- Retire every outstanding dispatch authority under a fresh epoch. -/
def advanceEpoch (reason : EpochReason) (now : Ticks) : SchedOp FabricEpoch := do
  touch now
  let previous := (← readImpl).epoch
  let next ← previous.advance
  journal (.epochAdvanced previous next reason now)
  modifyImpl (·.applyEpochAdvance next now)
  return next

def releaseSchedule (schedule : ScheduleId) (generation : Generation) (now : Ticks) :
    SchedOp Unit := do
  touch now
  (← readImpl).releaseScheduleGuard schedule generation
  journal (.scheduleReleased schedule now)
  modifyImpl fun s => (s.applyReleaseSchedule schedule now).normalizeTransientStates now

end FlowScheduler

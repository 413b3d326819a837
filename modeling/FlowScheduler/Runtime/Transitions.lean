import FlowScheduler.Runtime.State

/-! # State transitions

The writers of scheduler state, shared by live operation and by replay. None of
them touches the journal.
-/

namespace FlowScheduler

open ByteCodec (Bytes)

def decimal (n : UInt64) : String := toString n.toNat

@[irreducible] def clampedSub (a b : UInt64) : UInt64 := if b ≤ a then a - b else 0

@[irreducible] def countDown (n : UInt64) : UInt64 := if 0 < n then n - 1 else n

namespace FlowRuntime

def recordStep (r : FlowRuntime) (now : Ticks) (lifecycle : FlowLifecycle)
    (reason : DecisionReason) (schedule : ScheduleId) (attempt : DispatchAttemptId)
    (detail : Bytes) : FlowRuntime :=
  let step : ExplanationStep :=
    { atTick := now, lifecycle, reason, schedule, attempt, detail := boundedDetail detail }
  let history := r.history ++ [step]
  if kMaxExplanationSteps < history.length then
    { r with history := history.tail, historyTruncated := true }
  else { r with history := history }

def restartMinServiceWindow (r : FlowRuntime) (now : Ticks) : FlowRuntime :=
  { r with minServiceWindowStart := now, minServiceDelivered := 0 }

def refreshMinServiceWindow (r : FlowRuntime) (now : Ticks) : FlowRuntime :=
  if r.descriptor.minService = 0 then r
  else if ¬ r.everReady ∨ now < r.minServiceWindowStart ∨
      r.descriptor.minServiceWindow ≤ now - r.minServiceWindowStart then
    r.restartMinServiceWindow now
  else r

def virtualCost (policy : SchedulingPolicy) (d : FlowDescriptor) : UInt64 :=
  let quantum := if policy.maxQuantum < d.serviceQuantum then policy.maxQuantum
    else d.serviceQuantum
  quantum * kVirtualTimeScale / Impl.effectiveWeight d

/-- Becoming backlogged: a new eligibility interval and a new fair-queueing stamp. -/
def enterReady (policy : SchedulingPolicy) (clock : UInt64) (r : FlowRuntime) (now : Ticks) :
    FlowRuntime :=
  let r := { r with eligibleSinceTick := now, everReady := true, starvationCounted := false }
  let start := if r.virtualFinish < clock then clock else r.virtualFinish
  let r := if policy.weightedFairness then
      { r with virtualFinish := saturatingAdd start (virtualCost policy r.descriptor) }
    else r
  r.refreshMinServiceWindow now

def setLifecycle (policy : SchedulingPolicy) (clock : UInt64) (r : FlowRuntime)
    (next : FlowLifecycle) (now : Ticks) : FlowRuntime :=
  if r.lifecycle = next then r
  else
    let r := if r.lifecycle = .ready ∧ r.everReady ∧ r.eligibleSinceTick ≤ now then
        { r with accounting.waitTicksTotal :=
            saturatingAdd r.accounting.waitTicksTotal (now - r.eligibleSinceTick) }
      else r
    let r := { r with lifecycle := next, lastChangeTick := now }
    if next = .ready then enterReady policy clock r now else r

/-- Forget the schedule entry the flow was placed in. -/
def clearScheduled (r : FlowRuntime) : FlowRuntime :=
  { r with scheduledSchedule := {}, scheduledGeneration := {}, scheduledOrdinal := 0 }

end FlowRuntime

namespace Impl

variable (s : Impl)

def modifyFlow (id : FlowId) (f : FlowRuntime → FlowRuntime) : Impl :=
  { s with flows := s.flows.modify id f }

def modifyResource (id : ResourceId) (f : ResourceRuntime → ResourceRuntime) : Impl :=
  { s with resources := s.resources.modify id f }

def modifySchedule (id : ScheduleId) (f : ScheduleRuntime → ScheduleRuntime) : Impl :=
  { s with schedules := s.schedules.modify id f }

def clockOf (r : FlowRuntime) : UInt64 := s.virtualTime.getD r.descriptor.fairnessGroup 0

def setLifecycle (id : FlowId) (next : FlowLifecycle) (now : Ticks) : Impl :=
  { s with
    flows := s.flows.modify id fun r => r.setLifecycle s.policy (s.clockOf r) next now
    indexes := match s.flows[id]? with
      | none => s.indexes
      | some r => if r.lifecycle = next then s.indexes
        else s.indexes.update r.descriptor.flow r.lifecycle next }

def recordStep (id : FlowId) (now : Ticks) (lifecycle : FlowLifecycle) (reason : DecisionReason)
    (schedule : ScheduleId) (attempt : DispatchAttemptId) (detail : Bytes) : Impl :=
  s.modifyFlow id (·.recordStep now lifecycle reason schedule attempt detail)

def reindexAll : Impl :=
  let index (x : FlowIndexes) (entry : FlowId × FlowRuntime) : FlowIndexes :=
    x.insert entry.1 entry.2.lifecycle.slot
  { s with indexes := s.flows.toList.foldl index {} }

def applyPolicy (policy : SchedulingPolicy) : Impl :=
  { s with policy := policy, policyBinding := policy.binding }

/-- A new generation restarts the capacity accounting of the resource. -/
def applyResource (d : ResourceDescriptor) : Impl :=
  let runtime := s.resources.getD d.resource {}
  let runtime := if runtime.descriptor.resource.valid ∧
      runtime.descriptor.generation ≠ d.generation then
      { runtime with intervalInitialized := false, reservedThisInterval := 0 }
    else runtime
  { s with resources := s.resources.insert d.resource { runtime with descriptor := d } }

def applyReservation (d : ReservationDescriptor) : Impl :=
  let runtime := s.reservations.getD d.reservation {}
  { s with reservations :=
      s.reservations.insert d.reservation { runtime with descriptor := d, retired := false } }

def applyRetireReservation (reservation : ReservationId) (generation : Generation) : Impl :=
  match s.reservations[reservation]? with
  | none => s
  | some found =>
    if found.descriptor.generation ≠ generation then s
    else { s with
      reservations := s.reservations.insert reservation { found with retired := true }
      reservationsRetired := s.reservationsRetired + 1 }

def applyPriorityClass (d : PriorityClassDescriptor) : Impl :=
  { s with priorityClasses := s.priorityClasses.insert d.priority d }

def applyQosClass (d : QoSClassDescriptor) : Impl :=
  { s with qosClasses := s.qosClasses.insert d.qos d }

/-- An admission starts the flow over, keeping only the tick of its last change. -/
def applyAdmit (d : FlowDescriptor) : Result Impl :=
  if s.policy.maxFlows.toNat ≤ s.flows.size ∧ d.flow ∉ s.flows then
    .error (failure .bounded "flow table bound reached")
  else
    let previous := s.flows.getD d.flow {}
    let runtime : FlowRuntime := { descriptor := d, lastChangeTick := previous.lastChangeTick }
    .ok { s with
      flows := s.flows.insert d.flow runtime
      indexes := { waiting := s.indexes.waiting.insert d.flow
                   ready := s.indexes.ready.erase d.flow
                   inflight := s.indexes.inflight.erase d.flow } }

def applyUpdate (d : FlowDescriptor) : Result Impl :=
  match s.flows[d.flow]? with
  | none => .error (failure .unknownFlow "cannot update an unregistered flow")
  | some found =>
    if found.lifecycle.holdsOpenWork then
      .error (failure .invalidState "cannot update a flow that holds open dispatch authority")
    else .ok (s.modifyFlow d.flow fun r => { r with descriptor := d })

/-- The flow is registered at exactly this generation. -/
def current (flow : FlowId) (generation : Generation) : Option FlowRuntime :=
  s.flows[flow]?.filter fun r => r.descriptor.generation == generation

def applyReadiness (flow : FlowId) (generation : Generation) (signal : ReadinessSignal)
    (now : Ticks) : Impl :=
  match s.current flow generation with
  | none => s
  | some _ => s.modifyFlow flow fun r =>
      { r with descriptor.readinessSignal := signal.code, lastChangeTick := now }

def applyRetireFlow (flow : FlowId) (generation : Generation) : Impl :=
  match s.current flow generation with
  | none => s
  | some _ =>
    { s with
      flows := s.flows.erase flow
      indexes := { waiting := s.indexes.waiting.erase flow
                   ready := s.indexes.ready.erase flow
                   inflight := s.indexes.inflight.erase flow } }

def applyAmbiguityResolved (flow : FlowId) (generation : Generation)
    (resolution : AmbiguityResolution) (now : Ticks) : Impl :=
  match s.current flow generation with
  | none => s
  | some r =>
    if r.lifecycle ≠ .ambiguous then s
    else match resolution with
      | .abandon =>
        (s.setLifecycle flow .failed now).recordStep flow now .failed .terminal {} {}
          (ascii "recovered outcome abandoned by operator")
      | .retry =>
        ((s.setLifecycle flow .waiting now).modifyFlow flow
          fun r => { r with everReady := false }).recordStep flow now .waiting .awaitingRelease {} {}
          (ascii "recovered outcome retried by operator")

/-- One dispatch slot of the resource is free again. -/
def releaseInFlight (resource : ResourceId) : Impl :=
  s.modifyResource resource fun r => { r with inFlight := countDown r.inFlight }

/-- Return a scheduled flow to the ready set and free what its entry reserved. -/
def unscheduleFlow (entry : ScheduleEntry) (now : Ticks) : Impl :=
  let s := s.modifyFlow entry.flow fun r =>
    { r.clearScheduled with
      outstandingReserved := clampedSub r.outstandingReserved entry.quantum }
  let s := s.releaseInFlight entry.resource
  (s.setLifecycle entry.flow .ready now).recordStep entry.flow now .ready .deliveryHorizonExpired
    {} {} (ascii "undelivered schedule entry reclaimed")

/-- Release one undelivered entry of a retained schedule. -/
def releaseRunEntry (id : ScheduleId) (index : ℕ) (now : Ticks) : Impl :=
  match s.schedules[id]? with
  | none => s
  | some runtime =>
    match runtime.schedule.entries[index]?, runtime.consumed[index]? with
    | some entry, some 0 =>
      if entry.kind ≠ .run then
        s.modifySchedule id fun r => { r with consumed := r.consumed.set index 2 }
      else
        let s := s.modifySchedule id fun r =>
          { r with
            consumed := r.consumed.set index 2
            pendingEntries := countDown r.pendingEntries }
        match s.flows[entry.flow]? with
        | none => s
        | some flow =>
          if flow.lifecycle ≠ .scheduled ∨
              flow.scheduledSchedule ≠ runtime.schedule.schedule then s
          else s.unscheduleFlow entry now
    | _, _ => s

/-- Release the schedule entry a flow currently holds. -/
def releaseScheduledEntry (flow : FlowId) (now : Ticks) : Impl :=
  match s.flows[flow]? with
  | none => s
  | some r =>
    if r.lifecycle ≠ .scheduled then s
    else match s.schedules[r.scheduledSchedule]? with
      | none => s
      | some scheduled =>
        if r.scheduledOrdinal.toNat < scheduled.consumed.length then
          s.releaseRunEntry r.scheduledSchedule r.scheduledOrdinal.toNat now
        else s

def applyReleaseSchedule (id : ScheduleId) (now : Ticks) : Impl :=
  match s.schedules[id]? with
  | none => s
  | some runtime =>
    (List.range runtime.schedule.entries.length).foldl
      (fun s index => s.releaseRunEntry id index now) s

/-- The flow of an issued entry holds the service window. -/
def scheduleFlow (schedule : Schedule) (entry : ScheduleEntry) : Impl :=
  let s := s.modifyFlow entry.flow fun r =>
    { r with
      outstandingReserved := saturatingAdd r.outstandingReserved entry.quantum
      scheduledSchedule := schedule.schedule
      scheduledGeneration := schedule.generation
      scheduledOrdinal := entry.ordinal
      scheduledTick := entry.startTick }
  (s.setLifecycle entry.flow .scheduled entry.startTick).recordStep entry.flow entry.startTick
    .scheduled .selected schedule.schedule {} entry.detail

def countPending (schedule : ScheduleId) : Impl :=
  s.modifySchedule schedule fun r => { r with pendingEntries := r.pendingEntries + 1 }

def chargeResource (entry : ScheduleEntry) : Impl :=
  s.modifyResource entry.resource fun r =>
    if r.descriptor.generation = entry.resourceGeneration then
      let r := r.rollInterval entry.startTick
      { r with
        reservedThisInterval := saturatingAdd r.reservedThisInterval entry.quantum
        inFlight := r.inFlight + 1 }
    else r

def chargeReservation (entry : ScheduleEntry) : Impl :=
  if entry.reservation.valid then
    { s with reservations := s.reservations.modify entry.reservation fun r =>
        if r.descriptor.generation = entry.reservationGeneration then
          { r with reservedUnits := saturatingAdd r.reservedUnits entry.quantum }
        else r }
  else s

/-- The clock of the group follows the finish stamp of the flow just scheduled. -/
def advanceGroupClock (id : FlowId) (flow : FlowRuntime) : Impl :=
  if s.policy.weightedFairness then
    let group := flow.descriptor.fairnessGroup
    let finish := ((s.flows[id]?).getD flow).virtualFinish
    let clock := s.virtualTime.getD group 0
    { s with virtualTime := s.virtualTime.insert group (if clock < finish then finish else clock) }
  else s

/-- An issued entry is charged to its flow, its resource, its reservation and its group clock. -/
def applyRunEntry (schedule : Schedule) (entry : ScheduleEntry) : Impl :=
  match s.flows[entry.flow]? with
  | none => s
  | some flow =>
    if flow.descriptor.generation ≠ entry.flowGeneration then s
    else if flow.lifecycle.isTerminal ∨ flow.lifecycle.holdsOpenWork then s
    else
      let s := (s.scheduleFlow schedule entry).countPending schedule.schedule
      let s := (s.chargeResource entry).chargeReservation entry
      s.advanceGroupClock entry.flow flow

/-- Keep the schedule with every entry undelivered. -/
def retainSchedule (schedule : Schedule) : Impl :=
  { s with
    schedules := s.schedules.insert schedule.schedule
      { schedule, consumed := List.replicate schedule.entries.length 0 }
    scheduleOrder := s.scheduleOrder ++ [schedule.schedule]
    schedulesIssued := s.schedulesIssued + 1
    scheduleEntriesIssued := s.scheduleEntriesIssued + UInt64.ofNat schedule.entries.length }

def applyEntries (schedule : Schedule) (entries : List ScheduleEntry) : Impl :=
  entries.foldl (fun s entry => if entry.kind ≠ .run then s else s.applyRunEntry schedule entry) s

def applySchedule (schedule : Schedule) : Impl :=
  (s.retainSchedule schedule).applyEntries schedule schedule.entries

def fileAttempt (ticket : DispatchTicket) (now : Ticks) : Impl :=
  let s := { s with
    attempts := s.attempts.insert ticket.attempt { ticket, openedTick := now }
    scheduleAttempts := s.scheduleAttempts.insert ticket.schedule
      (s.scheduleAttempts.getD ticket.schedule [] ++ [ticket.attempt]) }
  s.modifySchedule ticket.schedule fun r => { r with openAttempts := r.openAttempts + 1 }

def dispatchFlow (ticket : DispatchTicket) (nominalWork : UInt64) (now : Ticks) : Impl :=
  let s := s.modifyFlow ticket.flow fun r =>
    { r with
      openAttempt := ticket.attempt
      accounting.dispatchesIssued := r.accounting.dispatchesIssued + 1 }
  (s.setLifecycle ticket.flow .dispatched now).recordStep ticket.flow now .dispatched .selected
    ticket.schedule ticket.attempt
    (ascii ("dispatch issued with " ++ decimal ticket.quantum ++ " units of " ++
      decimal nominalWork ++ " nominal work"))

def applyAttemptOpened (ticket : DispatchTicket) (nominalWork : UInt64) (now : Ticks) : Impl :=
  let s := s.fileAttempt ticket now
  match s.current ticket.flow ticket.flowGeneration with
  | none => s
  | some _ => s.dispatchFlow ticket nominalWork now

def applyAttemptStarted (attempt : DispatchAttemptId) (now : Ticks) : Impl :=
  match s.attempts[attempt]? with
  | none => s
  | some record =>
    if record.state ≠ .opened then s
    else
      let s := { s with attempts := s.attempts.insert attempt { record with state := .started } }
      match s.flows[record.ticket.flow]? with
      | none => s
      | some flow =>
        if flow.openAttempt ≠ attempt then s
        else (s.modifyFlow record.ticket.flow fun r =>
          { r with accounting.dispatchesStarted := r.accounting.dispatchesStarted + 1 }).setLifecycle
            record.ticket.flow .running now

/-- File the final record of an attempt; its schedule has one open attempt less. -/
def endAttempt (attempt : DispatchAttemptId) (record : AttemptRuntime) : Impl :=
  { s with attempts := s.attempts.insert attempt record }.modifySchedule record.ticket.schedule
    fun r => { r with openAttempts := countDown r.openAttempts }

/-- The flow gives up its attempt and what the attempt had reserved. -/
def releaseAttempt (id : FlowId) (ticket : DispatchTicket) : Impl :=
  let s := s.modifyFlow id fun r =>
    { r with
      outstandingReserved := clampedSub r.outstandingReserved ticket.quantum
      openAttempt := {} }
  s.releaseInFlight ticket.resource

/-- What closing an attempt does to the flow that held it. -/
def closeFlowAttempt (record : AttemptRuntime) (attempt : DispatchAttemptId) (state : AttemptState)
    (now : Ticks) : Impl :=
  let id := record.ticket.flow
  let s := s.releaseAttempt id record.ticket
  match state with
  | .preempted =>
    let s := s.modifyFlow id fun r =>
      { r with accounting.preemptions := r.accounting.preemptions + 1 }
    (s.setLifecycle id .preempting now).recordStep id now .preempting .displacedByHigherAuthority
      record.ticket.schedule attempt record.closeDetail
  | .cancelled =>
    (s.setLifecycle id .cancelling now).recordStep id now .cancelling .terminal
      record.ticket.schedule attempt record.closeDetail
  | .abandoned =>
    (s.setLifecycle id .ambiguous now).recordStep id now .ambiguous .ambiguousRequiresResolution
      record.ticket.schedule attempt record.closeDetail
  | .rejected =>
    (s.setLifecycle id .ready now).recordStep id now .ready .selected record.ticket.schedule
      attempt record.closeDetail
  | .opened | .started | .committed => s

def applyAttemptClosed (attempt : DispatchAttemptId) (state : AttemptState) (detail : Bytes)
    (now : Ticks) : Impl :=
  match s.attempts[attempt]? with
  | none => s
  | some found =>
    if found.state.isTerminal then s
    else
      let record := { found with state, closedTick := now, closeDetail := boundedDetail detail }
      let s := s.endAttempt attempt record
      match s.flows[record.ticket.flow]? with
      | none => s
      | some flow =>
        if flow.openAttempt ≠ attempt then s else s.closeFlowAttempt record attempt state now

def applyCancel (flow : FlowId) (generation : Generation) (now : Ticks) : Impl :=
  match s.current flow generation with
  | none => s
  | some r =>
    let s := if r.openAttempt.valid then
        s.applyAttemptClosed r.openAttempt .cancelled (ascii "flow cancelled") now
      else s
    let s := s.releaseScheduledEntry flow now
    let s := s.setLifecycle flow .cancelled now
    let s := s.modifyFlow flow fun r => { r.clearScheduled with outstandingReserved := 0 }
    s.recordStep flow now .cancelled .terminal {} {} (ascii "cancelled by caller")

/-- Credit the flow with the service its evidence reports. -/
def creditFlow (id : FlowId) (credited : UInt64) : Impl :=
  { s with completionsApplied := s.completionsApplied + 1 }.modifyFlow id fun r =>
    { r with
      servedWork := saturatingAdd r.servedWork credited
      minServiceDelivered := saturatingAdd r.minServiceDelivered credited
      accounting.serviceCredit := saturatingAdd r.accounting.serviceCredit credited
      accounting.completionsCommitted := r.accounting.completionsCommitted + 1 }

def applyCompletion (evidence : CompletionEvidence) (credited : UInt64)
    (lifecycleAfter : FlowLifecycle) (now : Ticks) : Impl :=
  match s.attempts[evidence.attempt]? with
  | none => s
  | some found =>
    let record := { found with
      state := .committed, closedTick := now, hasEvidence := true
      evidenceDigest := evidence.digest, credited := credited }
    let s := s.endAttempt evidence.attempt record
    match s.flows[evidence.flow]? with
    | none => s
    | some _ =>
      let s := s.modifyFlow evidence.flow (·.clearScheduled)
      let s := (s.releaseAttempt evidence.flow record.ticket).creditFlow evidence.flow credited
      (s.setLifecycle evidence.flow lifecycleAfter now).recordStep evidence.flow now lifecycleAfter
        .selected record.ticket.schedule evidence.attempt
        (ascii ("completion committed with " ++ decimal credited ++ " units credited"))

/-- Preempting and cancelling rest only inside one critical section. -/
def normalizeFlow (id : FlowId) (now : Ticks) : Impl :=
  match s.flows[id]? with
  | none => s
  | some r =>
    if r.lifecycle = .preempting then s.setLifecycle id .ready now
    else if r.lifecycle = .cancelling then s.setLifecycle id .cancelled now
    else s

def normalizeTransientStates (now : Ticks) : Impl :=
  s.flows.keys.foldl (fun s id => s.normalizeFlow id now) s

/-- The attempts that have not reached a terminal state, in identity order. -/
def openAttemptIds : List DispatchAttemptId :=
  (s.attempts.toList.filter fun entry => !entry.2.state.isTerminal).map Prod.fst

def abandonOpenAttempts (now : Ticks) (detail : Bytes) : Impl :=
  let s := s.openAttemptIds.foldl
    (fun s attempt =>
      let s := s.applyAttemptClosed attempt .abandoned detail now
      { s with recovery.attemptsAbandoned := s.recovery.attemptsAbandoned + 1 }) s
  let s := s.scheduleOrder.foldl (fun s id => s.applyReleaseSchedule id now) s
  s.normalizeTransientStates now

/-- Drop every schedule and attempt and enter the next epoch. -/
def clearAuthority (next : FabricEpoch) : Impl :=
  let ambiguous := s.flows.toList.countP fun entry => entry.2.lifecycle == .ambiguous
  let s := { s with
    flows := s.flows.map fun _ (r : FlowRuntime) => { r.clearScheduled with outstandingReserved := 0 }
    resources := s.resources.map fun _ (r : ResourceRuntime) => { r with inFlight := 0 }
    recovery.flowsMadeAmbiguous := s.recovery.flowsMadeAmbiguous + ambiguous
    recovery.schedulesRetired := s.recovery.schedulesRetired + s.schedules.size }
  { s.reindexAll with
    schedules := ∅, scheduleAttempts := ∅, scheduleOrder := [], attempts := ∅
    epoch := next, preemptionsInWindow := 0, preemptionWindowIndex := 0 }

def applyEpochAdvance (next : FabricEpoch) (now : Ticks) : Impl :=
  (s.abandonOpenAttempts now
    (ascii "epoch advanced: prior dispatch authority retired")).clearAuthority next

def dropSchedule (id : ScheduleId) : Impl :=
  { s with
    attempts := (s.scheduleAttempts.getD id []).foldl (fun t attempt => t.erase attempt) s.attempts
    scheduleAttempts := s.scheduleAttempts.erase id
    schedules := s.schedules.erase id }

/-- Retire the oldest schedules past the history bound; one with outstanding authority stops it. -/
def retireSchedulesFrom (s : Impl) : List ScheduleId → Impl
  | [] => { s with scheduleOrder := [] }
  | front :: rest =>
    if (front :: rest).length ≤ s.policy.retainedScheduleHistory.toNat then
      { s with scheduleOrder := front :: rest }
    else match s.schedules[front]? with
      | none => retireSchedulesFrom s rest
      | some runtime =>
        if 0 < runtime.openAttempts ∨ 0 < runtime.pendingEntries then
          { s with scheduleOrder := front :: rest }
        else retireSchedulesFrom (s.dropSchedule front) rest

def maybeRetireSchedules : Impl := retireSchedulesFrom s s.scheduleOrder

end Impl

end FlowScheduler

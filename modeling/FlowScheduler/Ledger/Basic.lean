import FlowScheduler.Runtime.Record

/-! # The durable ledger

What the journal is for: descriptors, progress, held authority and reservations,
as functions of the identities. The ledger forgets queues, clocks, explanations
and everything else a scheduler can rebuild, and gives every record a meaning.
-/

namespace FlowScheduler

/-- A lifecycle up to the moves between records: waiting, ready and scheduled are one phase. -/
inductive Phase | pending | dispatched | running | ambiguous | completed | cancelled | failed
  deriving DecidableEq, Repr

def FlowLifecycle.phase : FlowLifecycle → Phase
  | .waiting | .ready | .scheduled | .preempting => .pending
  | .dispatched => .dispatched
  | .running | .completionReported => .running
  | .ambiguous => .ambiguous
  | .completed => .completed
  | .cancelling | .cancelled => .cancelled
  | .failed => .failed

structure LedgerFlow where
  descriptor : FlowDescriptor
  phase : Phase := .pending
  servedWork : UInt64 := 0
  serviceCredit : UInt64 := 0
  completionsCommitted : UInt64 := 0
  openAttempt : DispatchAttemptId := {}

structure LedgerAttempt where
  ticket : DispatchTicket
  state : AttemptState := .opened

@[ext] structure Ledger where
  policy : SchedulingPolicy
  epoch : FabricEpoch
  resources : ResourceId → Option ResourceDescriptor
  reservations : ReservationId → Option ReservationRuntime
  priorityClasses : PriorityClassId → Option PriorityClassDescriptor
  qosClasses : QoSClassId → Option QoSClassDescriptor
  flows : FlowId → Option LedgerFlow
  attempts : DispatchAttemptId → Option LedgerAttempt
  completionsApplied : UInt64

def FlowRuntime.ledger (r : FlowRuntime) : LedgerFlow where
  descriptor := r.descriptor
  phase := r.lifecycle.phase
  servedWork := r.servedWork
  serviceCredit := r.accounting.serviceCredit
  completionsCommitted := r.accounting.completionsCommitted
  openAttempt := r.openAttempt

def AttemptRuntime.ledger (r : AttemptRuntime) : LedgerAttempt := ⟨r.ticket, r.state⟩

def Impl.ledger (s : Impl) : Ledger where
  policy := s.policy
  epoch := s.epoch
  resources := fun id => s.resources[id]?.map (·.descriptor)
  reservations := fun id => s.reservations[id]?
  priorityClasses := fun id => s.priorityClasses[id]?
  qosClasses := fun id => s.qosClasses[id]?
  flows := fun id => s.flows[id]?.map FlowRuntime.ledger
  attempts := fun id => s.attempts[id]?.map AttemptRuntime.ledger
  completionsApplied := s.completionsApplied

namespace Ledger

variable (l : Ledger)

def modifyFlow (id : FlowId) (f : LedgerFlow → LedgerFlow) : Ledger :=
  { l with flows := Function.update l.flows id ((l.flows id).map f) }

def setPhase (id : FlowId) (phase : Phase) : Ledger := l.modifyFlow id ({ · with phase })

def current (flow : FlowId) (generation : Generation) : Option LedgerFlow :=
  (l.flows flow).filter fun r => r.descriptor.generation == generation

def modifyReservation (id : ReservationId) (f : ReservationRuntime → ReservationRuntime) :
    Ledger :=
  { l with reservations := Function.update l.reservations id ((l.reservations id).map f) }

def retireReservation (id : ReservationId) (generation : Generation) : Ledger :=
  l.modifyReservation id fun r =>
    if r.descriptor.generation = generation then { r with retired := true } else r

def registerReservation (d : ReservationDescriptor) : Ledger :=
  let found := (l.reservations d.reservation).getD {}
  let runtime := { found with descriptor := d, retired := false }
  { l with reservations := Function.update l.reservations d.reservation (some runtime) }

def admitFlow (d : FlowDescriptor) : Ledger :=
  { l with flows := Function.update l.flows d.flow (some { descriptor := d }) }

def update (d : FlowDescriptor) : Ledger := l.modifyFlow d.flow ({ · with descriptor := d })

def notify (flow : FlowId) (generation : Generation) (signal : ReadinessSignal) : Ledger :=
  match l.current flow generation with
  | none => l
  | some _ => l.modifyFlow flow ({ · with descriptor.readinessSignal := signal.code })

def retireFlow (flow : FlowId) (generation : Generation) : Ledger :=
  match l.current flow generation with
  | none => l
  | some _ => { l with flows := Function.update l.flows flow none }

def resolve (flow : FlowId) (generation : Generation) (resolution : AmbiguityResolution) : Ledger :=
  match l.current flow generation with
  | none => l
  | some r =>
    if r.phase ≠ .ambiguous then l
    else l.setPhase flow (match resolution with | .abandon => .failed | .retry => .pending)

/-- Charge a service window to the reservation it is bound to. -/
def charge (reservation : ReservationId) (generation : Generation) (quantum : UInt64) : Ledger :=
  l.modifyReservation reservation fun r =>
    if r.descriptor.generation = generation then
      { r with reservedUnits := saturatingAdd r.reservedUnits quantum }
    else r

def runEntry (e : ScheduleEntry) : Ledger :=
  match l.flows e.flow with
  | none => l
  | some r =>
    if r.descriptor.generation ≠ e.flowGeneration then l
    else if r.phase ≠ .pending ∧ r.phase ≠ .ambiguous then l
    else
      let l := l.setPhase e.flow .pending
      if e.reservation.valid then l.charge e.reservation e.reservationGeneration e.quantum else l

def issue (schedule : Schedule) : Ledger :=
  schedule.entries.foldl (fun l e => if e.kind ≠ .run then l else l.runEntry e) l

def openAttempt (ticket : DispatchTicket) : Ledger :=
  let l := { l with attempts := Function.update l.attempts ticket.attempt (some { ticket }) }
  match l.current ticket.flow ticket.flowGeneration with
  | none => l
  | some _ =>
    l.modifyFlow ticket.flow ({ · with openAttempt := ticket.attempt, phase := .dispatched })

def startAttempt (attempt : DispatchAttemptId) : Ledger :=
  match l.attempts attempt with
  | none => l
  | some record =>
    if record.state ≠ .opened then l
    else
      let l := { l with
        attempts := Function.update l.attempts attempt (some { record with state := .started }) }
      match l.flows record.ticket.flow with
      | none => l
      | some r => if r.openAttempt ≠ attempt then l else l.setPhase record.ticket.flow .running

/-- The phase a flow is left in when its attempt closes. -/
def closedPhase (phase : Phase) : AttemptState → Phase
  | .preempted | .rejected => .pending
  | .cancelled => .cancelled
  | .abandoned => .ambiguous
  | .opened | .started | .committed => phase

def closeAttempt (attempt : DispatchAttemptId) (state : AttemptState) : Ledger :=
  match l.attempts attempt with
  | none => l
  | some record =>
    if record.state.isTerminal then l
    else
      let l := { l with
        attempts := Function.update l.attempts attempt (some { record with state }) }
      match l.flows record.ticket.flow with
      | none => l
      | some r =>
        if r.openAttempt ≠ attempt then l
        else l.modifyFlow record.ticket.flow fun r =>
          { r with openAttempt := {}, phase := closedPhase r.phase state }

def cancel (flow : FlowId) (generation : Generation) : Ledger :=
  match l.current flow generation with
  | none => l
  | some r =>
    let l := if r.openAttempt.valid then l.closeAttempt r.openAttempt .cancelled else l
    l.setPhase flow .cancelled

def complete (e : CompletionEvidence) (credited : UInt64) (lifecycle : FlowLifecycle) : Ledger :=
  match l.attempts e.attempt with
  | none => l
  | some record =>
    let l := { l with
      attempts := Function.update l.attempts e.attempt (some { record with state := .committed }) }
    match l.flows e.flow with
    | none => l
    | some _ =>
      { l with completionsApplied := l.completionsApplied + 1 }.modifyFlow e.flow fun r =>
        { r with
          openAttempt := {}
          servedWork := saturatingAdd r.servedWork credited
          serviceCredit := saturatingAdd r.serviceCredit credited
          completionsCommitted := r.completionsCommitted + 1
          phase := lifecycle.phase }

/-- Whether the flow holds an attempt that has not ended. -/
def holdsAttempt (id : FlowId) (r : LedgerFlow) : Prop :=
  ∃ x, l.attempts r.openAttempt = some x ∧ ¬ x.state.isTerminal ∧ x.ticket.flow = id

open Classical in
/-- The outcome of every held attempt is lost with the epoch it was issued under. -/
noncomputable def advanceEpoch (next : FabricEpoch) : Ledger :=
  { l with
    epoch := next
    attempts := fun _ => none
    flows := fun id => (l.flows id).map fun r =>
      if l.holdsAttempt id r then { r with openAttempt := {}, phase := .ambiguous } else r }

noncomputable def apply : Record → Ledger
  | .policyInstalled policy => { l with policy }
  | .resourceRegistered d => { l with resources := Function.update l.resources d.resource (some d) }
  | .reservationRegistered d => l.registerReservation d
  | .reservationRetired id generation => l.retireReservation id generation
  | .priorityClassRegistered d =>
    { l with priorityClasses := Function.update l.priorityClasses d.priority (some d) }
  | .qosClassRegistered d => { l with qosClasses := Function.update l.qosClasses d.qos (some d) }
  | .epochAdvanced _ next _ _ => l.advanceEpoch next
  | .flowAdmitted d => l.admitFlow d
  | .flowUpdated d => l.update d
  | .flowReadinessChanged flow generation signal _ => l.notify flow generation signal
  | .flowCancelled flow generation _ _ => l.cancel flow generation
  | .flowRetired flow generation => l.retireFlow flow generation
  | .scheduleIssued schedule => l.issue schedule
  | .scheduleReleased _ _ => l
  | .attemptOpened ticket _ _ => l.openAttempt ticket
  | .attemptStarted attempt _ => l.startAttempt attempt
  | .attemptClosed attempt state _ _ => l.closeAttempt attempt state
  | .completionCommitted e credited lifecycle _ => l.complete e credited lifecycle
  | .ambiguityResolved flow generation resolution _ => l.resolve flow generation resolution

end Ledger

end FlowScheduler

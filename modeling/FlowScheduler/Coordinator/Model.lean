import FlowScheduler.Runtime.Recovery
import FlowScheduler.Wire.Protocol

/-! # The coordinator

The process that owns a scheduler and a fixed set of worker connections. It opens
the scheduler, greets the workers, and then runs rounds: arbitrate, hand every
granted entry to a live worker, take what the workers have sent, advance the
clock. What the sockets do is an input of each step.
-/

namespace FlowScheduler

open ByteCodec (Bytes)

def mix64 (value : UInt64) : UInt64 :=
  let value := value + 0x9E3779B97F4A7C15
  let value := (value ^^^ (value >>> 30)) * 0xBF58476D1CE4E5B9
  let value := (value ^^^ (value >>> 27)) * 0x94D049BB133111EB
  value ^^^ (value >>> 31)

/-- The name of an error code, also of one that no version knows. -/
def WireCode.text (code : WireCode) : String :=
  ([(0, "ok"), (1, "invalid-argument"), (2, "out-of-range"), (3, "arithmetic-overflow"),
    (4, "bound-exceeded"), (5, "unsupported"), (6, "internal"), (7, "not-found"),
    (8, "already-exists"), (9, "unknown-flow"), (10, "unknown-schedule"), (11, "unknown-resource"),
    (12, "unknown-reservation"), (13, "unknown-attempt"), (14, "unknown-policy"),
    (15, "unknown-worker"), (20, "stale-flow-generation"), (21, "stale-path-generation"),
    (22, "stale-resource-generation"), (23, "stale-reservation-generation"),
    (24, "stale-policy-generation"), (25, "stale-qos-generation"),
    (26, "stale-priority-generation"), (27, "stale-schedule-generation"), (28, "stale-epoch"),
    (29, "stale-attempt"), (30, "stale-authority"), (31, "fenced"), (40, "invalid-state"),
    (41, "not-ready"), (42, "not-released"), (43, "dependency-unsatisfied"),
    (44, "capacity-unavailable"), (45, "reservation-closed"), (46, "reservation-exhausted"),
    (47, "deadline-passed"), (48, "cancelled"), (49, "zero-quantum"), (50, "concurrency-limit"),
    (51, "not-preemptible"), (52, "preemption-throttled"), (60, "duplicate-completion"),
    (61, "contradictory-completion"), (62, "completion-for-closed-attempt"),
    (63, "ambiguous-outcome"), (70, "corrupt-data"), (71, "truncated"), (72, "oversized"),
    (73, "sequence-gap"), (74, "io-failure"), (75, "transport-failure"), (76, "peer-closed"),
    (77, "handshake-rejected"), (78, "protocol-violation"), (79, "busy")].lookup code).getD
    "unknown-error-code"

/-- The name of a frame type, also of one that no version knows. -/
def messageText (type : UInt16) : String :=
  ([(0, "invalid"), (1, "hello"), (2, "hello-ack"), (3, "dispatch"), (4, "dispatch-rejected"),
    (5, "started"), (6, "completion"), (7, "shutdown"), (8, "error"),
    (9, "heartbeat")].lookup type).getD "unknown-message"

/-- One accepted worker connection and the identity it announced. -/
structure Peer where
  worker : WorkerId := {}
  boot : BootId := {}
  alive : Bool := false
  deriving DecidableEq, Repr

structure OpenAttempt where
  peer : ℕ := 0
  ticket : DispatchTicket := {}
  started : Bool := false
  deriving DecidableEq, Repr

structure CoordinatorOptions where
  /-- Empty for volatile mode. -/
  state : String := ""
  workers : UInt64 := 1
  flows : UInt64 := 64
  rounds : UInt64 := 4096
  interval : UInt64 := 1000
  capacity : UInt64 := 64
  concurrency : UInt64 := 2
  quantum : UInt64 := 4
  work : UInt64 := 16
  /-- Retire the first worker after that many completions; 0 disables. -/
  killAfter : UInt64 := 0
  /-- Leave the process after that many completions; 0 disables. -/
  exitAfter : UInt64 := 0
  deriving DecidableEq, Repr

/-- What the seeded generator draws for one flow of the synthetic population. -/
structure Draw where
  release : UInt64 := 0
  weight : UInt64 := 1
  prioritySlot : UInt64 := 0
  deriving DecidableEq, Repr

structure Coordinator where
  options : CoordinatorOptions
  peers : List Peer := []
  /-- The attempts handed to a worker and not known to have ended. -/
  attempts : Table DispatchAttemptId OpenAttempt := ∅
  scheduler : Scheduler
  now : Ticks := 0
  flowsAdmitted : UInt64 := 0
  roundsRun : UInt64 := 0
  completionsApplied : UInt64 := 0
  roundRobin : ℕ := 0
  workerKilled : Bool := false
  /-- The run is over: it converged, used its rounds up, failed, or the process has left. -/
  stopped : Bool := false

def externalProvenance (sequence : UInt64) : Provenance :=
  { origin := .external, sequence, digest := mix64 sequence }

namespace CoordinatorOptions

variable (options : CoordinatorOptions)

def makePolicy : SchedulingPolicy :=
  let policy : SchedulingPolicy :=
    { policy := ⟨1⟩, generation := ⟨1⟩, preemption := .tiered, deadlineOrdering := true
      weightedFairness := true, minServiceGuarantee := true, strictDeadlines := true
      starvationBoundTicks := 1000, deadlineUrgencyTicks := 100, minPreemptService := 0
      maxPreemptionsPerInterval := 64, preemptionIntervalTicks := 1000
      dispatchDeliveryHorizon := 100000, defaultMaxOverlap := options.concurrency
      retainedScheduleHistory := 4096, provenance := externalProvenance 1 }
  { policy with provenance.digest := policy.digest }

/-- One resource, four priority classes and one class of service. -/
def topology : List Call :=
  [.registerResource { resource := ⟨1⟩, generation := ⟨1⟩, capacity := options.capacity
                       interval := options.interval, maxOverlap := options.concurrency
                       provenance := externalProvenance 1 }] ++
  (List.range 4).map (fun index =>
    .registerPriorityClass { priority := ⟨UInt64.ofNat index + 1⟩, generation := ⟨1⟩
                             rank := UInt32.ofNat index, weight := 1
                             provenance := externalProvenance (UInt64.ofNat index + 2) }) ++
  [.registerQosClass { qos := ⟨1⟩, generation := ⟨1⟩, provenance := externalProvenance 6 }]

/-- The flow admitted at an index. Only odd identities carry a deadline. -/
def population (index : ℕ) (draw : Draw) : FlowDescriptor :=
  let flow : UInt64 := UInt64.ofNat index + 1
  { flow := ⟨flow⟩, generation := ⟨1⟩, path := ⟨⟨1⟩, ⟨1⟩⟩, resource := ⟨⟨1⟩, ⟨1⟩⟩
    priority := ⟨⟨draw.prioritySlot + 1⟩, ⟨1⟩⟩, qos := ⟨⟨1⟩, ⟨1⟩⟩
    fairnessGroup := ⟨UInt64.ofNat index % 4 + 1⟩, estimatedWork := options.work
    serviceQuantum := options.quantum, releaseTick := draw.release
    deadlineTick := if flow % 2 = 1 then draw.release + options.interval * 64 else kNoDeadline
    weight := draw.weight, preemptible := true, autoReady := true, trace := ⟨flow⟩
    provenance := externalProvenance flow }

def roundStep : Ticks := if options.interval / 100 = 0 then 1 else options.interval / 100

end CoordinatorOptions

namespace Coordinator

variable (c : Coordinator)

def ask (call : Call) : Coordinator := { c with scheduler := (c.scheduler.call call).2 }

def require (call : Call) : Option Coordinator :=
  match c.scheduler.call call with
  | (.ok _, s) => some { c with scheduler := s }
  | (.error _, _) => none

def resolveAmbiguousFlow (flow : FlowId) : Coordinator :=
  match c.scheduler.impl.flows[flow]? with
  | none => c
  | some r =>
    if r.lifecycle ≠ .ambiguous then c
    else c.ask (.resolveAmbiguous flow r.descriptor.generation .retry c.now)

/-- Apply the operator policy Retry to every flow of the population whose outcome is unknown. -/
def resolveAmbiguousFlows : Coordinator :=
  (List.range c.scheduler.impl.flows.size).foldl
    (fun c index => c.resolveAmbiguousFlow ⟨UInt64.ofNat index + 1⟩) c

def registerTopology : Option Coordinator := c.options.topology.foldlM require c

def admitFlows (draws : ℕ → Draw) : Option Coordinator := do
  let admitted ← (List.range c.options.flows.toNat).foldlM
    (fun c index => c.require (.admitFlow (c.options.population index (draws index)))) c
  return { admitted with flowsAdmitted := c.options.flows }

/-- A recovered store that holds flows already carries the topology and the population. -/
def openScheduler (options : CoordinatorOptions) (draws : ℕ → Draw) (files : Directory) :
    Option Coordinator := do
  let s ← (create { policy := options.makePolicy, stateDirectory := options.state } files).toOption
  let c : Coordinator := { options, scheduler := s }
  if s.impl.recovery.recovered ∧ 0 < s.impl.flows.size then
    return { c with flowsAdmitted := UInt64.ofNat s.impl.flows.size }.resolveAmbiguousFlows
  else
    (← c.registerTopology).admitFlows draws

/-- Accept one worker by its hello, unless the incarnation is already connected. -/
def greet (payload : Bytes) : Option Coordinator :=
  match decodeHello payload with
  | .error _ => none
  | .ok hello =>
    if c.peers.any fun peer => peer.worker = hello.worker ∧ peer.boot = hello.boot then none
    else some { c with
      peers := c.peers ++ [{ worker := hello.worker, boot := hello.boot, alive := true }] }

/-- Accept the workers the run was asked for; anything unexpected ends it. -/
def handshake (hellos : List Bytes) : Option Coordinator :=
  if hellos.length = c.options.workers.toNat then hellos.foldlM greet c else none

def pickWorker : Option ℕ :=
  ((List.range c.peers.length).map fun probe => (c.roundRobin + probe) % c.peers.length).find?
    fun index => c.peers[index]?.any (·.alive)

def nominalWork (flow : FlowId) : UInt64 :=
  match c.scheduler.impl.flows[flow]? with
  | none => 0
  | some r =>
    if r.servedWork < r.descriptor.estimatedWork then r.descriptor.estimatedWork - r.servedWork
    else 0

/-- Abandon an attempt and take it off the table, whatever the scheduler answers. -/
def dropAttempt (reason : Bytes) (attempt : DispatchAttemptId) : Coordinator :=
  { c.ask (.abandonAttempt attempt reason c.now) with attempts := c.attempts.erase attempt }

/-- The open attempts of a worker. The order they are listed in is not the hash order of the table
the source keeps; nothing below depends on it. -/
def attemptsOf (peer : ℕ) : List DispatchAttemptId :=
  (c.attempts.toList.filter fun entry => entry.2.peer = peer).map Prod.fst

def dropAttempts (reason : Bytes) (attempts : List DispatchAttemptId) : Coordinator :=
  attempts.foldl (fun c attempt => c.dropAttempt reason attempt) c

/-- Declare a worker lost: nothing it was given stays open. -/
def retirePeer (peer : ℕ) (reason : Bytes) : Coordinator :=
  if c.peers.length ≤ peer then c
  else
    let c := { c with peers := c.peers.modify peer fun entry => { entry with alive := false } }
    (c.dropAttempts reason (c.attemptsOf peer)).resolveAmbiguousFlows

def dispatchEntry (schedule : Schedule) (delivered : DispatchMessage → Bool) (entry : ScheduleEntry)
    (index : ℕ) (peer : Peer) : Coordinator :=
  let c := { c with roundRobin := (index + 1) % c.peers.length }
  match c.scheduler.call (.beginDispatch schedule.schedule schedule.generation entry.ordinal
      peer.worker peer.boot c.now) with
  | (.ok (.ticket ticket), s) =>
    let c := { c with
      scheduler := s, attempts := c.attempts.insert ticket.attempt { peer := index, ticket } }
    if delivered { ticket, nominalWork := c.nominalWork ticket.flow } then c
    else c.retirePeer index (ascii "the dispatch frame could not be delivered")
  | (_, s) => { c with scheduler := s }

/-- Hand out the entries of a schedule. Without a live worker the rest is left to the horizon. -/
def dispatchSchedule (schedule : Schedule) (delivered : DispatchMessage → Bool) :
    List ScheduleEntry → Coordinator → Coordinator
  | [], c => c
  | entry :: rest, c =>
    if entry.kind ≠ .run then dispatchSchedule schedule delivered rest c
    else match c.pickWorker with
      | none => c
      | some index =>
        match c.peers[index]? with
        | none => c
        | some peer =>
          dispatchSchedule schedule delivered rest
            (c.dispatchEntry schedule delivered entry index peer)

def maybeFinishAfterCompletion : Coordinator :=
  if c.options.exitAfter ≠ 0 ∧ c.options.exitAfter ≤ c.completionsApplied then
    { c with stopped := true }
  else if c.options.killAfter ≠ 0 ∧ c.options.killAfter ≤ c.completionsApplied ∧
      ¬ c.workerKilled then
    { c with workerKilled := true }.retirePeer 0 (ascii "simulated worker death (--kill-after)")
  else c

def handleStarted (m : StartedMessage) : Coordinator :=
  match c.attempts[m.attempt]? with
  | none => c
  | some found =>
    if found.started then c
    else match c.scheduler.call (.markStarted found.ticket c.now) with
      | (.ok _, s) => { c with
          scheduler := s, attempts := c.attempts.insert m.attempt { found with started := true } }
      | (.error _, s) => { c with scheduler := s }

def handleCompletion (m : CompletionMessage) : Coordinator :=
  match c.scheduler.call (.complete m.evidence c.now) with
  | (.error _, s) => { c with scheduler := s, stopped := true }
  | (.ok (.commit outcome), s) =>
    if outcome.disposition = .applied then
      { c with
        scheduler := s, attempts := c.attempts.erase m.evidence.attempt
        completionsApplied := c.completionsApplied + 1 }.maybeFinishAfterCompletion
    else { c with scheduler := s }
  | (.ok _, s) => { c with scheduler := s }

def handleDispatchRejected (m : DispatchRejectedMessage) : Coordinator :=
  match c.attempts[m.attempt]? with
  | none => c
  | some _ => c.dropAttempt (ascii "the worker rejected the dispatch") m.attempt

/-- A frame received on the connection of a worker. -/
def handleFrame (peer : ℕ) (type : UInt16) (payload : Bytes) : Coordinator :=
  if type = MessageType.started.code then
    match decodeStarted payload with
    | .ok m => c.handleStarted m
    | .error _ => c
  else if type = MessageType.completion.code then
    match decodeCompletion payload with
    | .ok m => c.handleCompletion m
    | .error _ => c
  else if type = MessageType.dispatchRejected.code then
    match decodeDispatchRejected payload with
    | .ok m => c.handleDispatchRejected m
    | .error _ => c
  else if type = MessageType.error.code then
    let detail := match decodeError payload with
      | .ok m => ascii m.code.text ++ ascii ": " ++ m.detail
      | .error _ => ascii "undecodable error frame"
    c.retirePeer peer (ascii "the worker reported " ++ detail)
  else c.retirePeer peer (ascii ("unexpected frame type " ++ messageText type))

inductive Received
  | frame (type : UInt16) (payload : Bytes)
  | closed
  | failed (detail : Bytes)

def receive (index : ℕ) (what : Received) : Coordinator :=
  if c.peers[index]?.any (·.alive) then
    match what with
    | .frame type payload => c.handleFrame index type payload
    | .closed => c.retirePeer index (ascii "peer closed the connection")
    | .failed detail => c.retirePeer index (ascii "transport failure: " ++ detail)
  else c

def allFlowsTerminal : Bool :=
  c.flowsAdmitted.toNat ≤ c.scheduler.impl.flows.toList.countP fun entry =>
    entry.2.lifecycle = .completed ∨ entry.2.lifecycle = .cancelled ∨ entry.2.lifecycle = .failed

/-- Arbitrate and hand out what was granted, unless the run has converged or its rounds are up. -/
def round (delivered : DispatchMessage → Bool) : Coordinator :=
  if c.options.rounds ≤ c.roundsRun ∨ c.allFlowsTerminal then { c with stopped := true }
  else match c.scheduler.call (.arbitrate c.now) with
    | (.ok (.outcome outcome), s) =>
      dispatchSchedule outcome.schedule delivered outcome.schedule.entries
        { c with scheduler := s, roundsRun := c.roundsRun + 1 }
    | (_, s) => { c with scheduler := s, stopped := true }

inductive Event
  | round (delivered : DispatchMessage → Bool)
  | received (peer : ℕ) (what : Received)
  | tick

/-- One event. A coordinator that has stopped does nothing any more. -/
def step (e : Event) : Coordinator :=
  if c.stopped then c
  else match e with
    | .round delivered => c.round delivered
    | .received peer what => c.receive peer what
    | .tick => { c with now := c.now + c.options.roundStep }

end Coordinator

end FlowScheduler

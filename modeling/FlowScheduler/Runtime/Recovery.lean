import FlowScheduler.Runtime.Arbitration

/-! # Snapshots and recovery

A checkpoint folds the whole state into one image. Opening a directory restores
the image, replays the journal on top of it and advances the epoch, so that no
authority of an earlier incarnation survives.
-/

namespace FlowScheduler

open ByteCodec Failing SchedOp

/-- A counted table: its size, then every value in key order. -/
def writeTable {κ ν : Type} [Ord κ] [Std.TransOrd κ] (write : κ × ν → Encoding) (t : Table κ ν) :
    Encoding :=
  [RecordWriter.size t.size] ++ t.toList.flatMap write

def tableOf {κ ν : Type} [Ord κ] [Std.TransOrd κ] (entries : List (κ × ν)) : Table κ ν :=
  entries.foldl (fun t entry => t.insert entry.1 entry.2) ∅

open RecordReader in
/-- A counted list of values, each filed under the key found in it. -/
def readEntries {κ ν : Type} (read : Reader ν) (key : ν → κ) (bound : ℕ) (message : String) :
    Reader (List (κ × ν)) := do
  let count ← u64
  require (count.toNat ≤ bound) .corruptData message
  let values ← replicateDecoder read count.toNat
  return values.map fun v => (key v, v)

open RecordWriter in
def writeResourceRuntime (r : ResourceRuntime) : Encoding :=
  writeResource r.descriptor ++
  [u64 r.intervalIndex, boolean r.intervalInitialized, u64 r.reservedThisInterval, u64 r.inFlight]

open RecordReader in
def readResourceRuntime : Reader ResourceRuntime := do
  let descriptor ← readResource
  let intervalIndex ← u64
  let intervalInitialized ← boolean
  let reservedThisInterval ← u64
  let inFlight ← u64
  return { descriptor, intervalIndex, intervalInitialized, reservedThisInterval, inFlight }

open RecordWriter in
def writeReservationRuntime (r : ReservationRuntime) : Encoding :=
  writeReservation r.descriptor ++ [u64 r.reservedUnits, boolean r.retired]

open RecordReader in
def readReservationRuntime : Reader ReservationRuntime := do
  let descriptor ← readReservation
  let reservedUnits ← u64
  let retired ← boolean
  return { descriptor, reservedUnits, retired }

open RecordWriter in
/-- The starvation mark and the explanation history are not part of the image. -/
def writeFlowRuntime (r : FlowRuntime) : Encoding :=
  writeFlowDescriptor r.descriptor ++
  [u8 r.lifecycle.code, u64 r.servedWork, u64 r.outstandingReserved, u64 r.openAttempt.value,
    u64 r.scheduledSchedule.value, u64 r.scheduledGeneration.value, u32 r.scheduledOrdinal,
    u64 r.scheduledTick, u64 r.lastChangeTick, u64 r.eligibleSinceTick, boolean r.everReady,
    u64 r.minServiceWindowStart, u64 r.minServiceDelivered, u64 r.virtualFinish,
    boolean r.deadlineMissedCounted, u64 r.accounting.serviceCredit,
    u64 r.accounting.dispatchesIssued, u64 r.accounting.dispatchesStarted,
    u64 r.accounting.completionsCommitted, u64 r.accounting.duplicateCompletions,
    u64 r.accounting.rejectedCompletions, u64 r.accounting.preemptions,
    u64 r.accounting.deadlineMisses, u64 r.accounting.waitTicksTotal,
    u64 r.accounting.starvationBoosts]

open RecordReader in
def readFlowRuntime : Reader FlowRuntime := do
  let descriptor ← readFlowDescriptor
  let lifecycle ← enum FlowLifecycle.ofCode .corruptData "snapshot flow lifecycle is out of range"
  let servedWork ← u64
  let outstandingReserved ← u64
  let openAttempt ← id
  let scheduledSchedule ← id
  let scheduledGeneration ← id
  let scheduledOrdinal ← u32
  let scheduledTick ← u64
  let lastChangeTick ← u64
  let eligibleSinceTick ← u64
  let everReady ← boolean
  let minServiceWindowStart ← u64
  let minServiceDelivered ← u64
  let virtualFinish ← u64
  let deadlineMissedCounted ← boolean
  let serviceCredit ← u64
  let dispatchesIssued ← u64
  let dispatchesStarted ← u64
  let completionsCommitted ← u64
  let duplicateCompletions ← u64
  let rejectedCompletions ← u64
  let preemptions ← u64
  let deadlineMisses ← u64
  let waitTicksTotal ← u64
  let starvationBoosts ← u64
  return { descriptor, lifecycle, servedWork, outstandingReserved, openAttempt, scheduledSchedule,
           scheduledGeneration, scheduledOrdinal, scheduledTick, lastChangeTick,
           eligibleSinceTick, everReady, minServiceWindowStart, minServiceDelivered,
           virtualFinish, deadlineMissedCounted
           accounting := { serviceCredit, dispatchesIssued, dispatchesStarted,
                           completionsCommitted, duplicateCompletions, rejectedCompletions,
                           preemptions, deadlineMisses, waitTicksTotal, starvationBoosts } }

open RecordWriter in
def writeAttemptRuntime (r : AttemptRuntime) : Encoding :=
  writeTicket r.ticket ++
  [u8 r.state.code, u64 r.openedTick, u64 r.closedTick, boolean r.hasEvidence,
    u64 r.evidenceDigest, u64 r.credited]

open RecordReader in
def readAttemptRuntime : Reader AttemptRuntime := do
  let ticket ← readTicket
  let state ← enum AttemptState.ofCode .corruptData "snapshot attempt state is out of range"
  let openedTick ← u64
  let closedTick ← u64
  let hasEvidence ← boolean
  let evidenceDigest ← u64
  let credited ← u64
  return { ticket, state, openedTick, closedTick, hasEvidence, evidenceDigest, credited }

open RecordWriter in
def writeScheduleRuntime (r : ScheduleRuntime) : Encoding :=
  writeSchedule r.schedule ++ [size r.consumed.length] ++ r.consumed.flatMap (fun c => [u8 c]) ++
  [u64 r.openAttempts, u64 r.pendingEntries]

open RecordReader in
def readConsumed : Reader UInt8 := do
  let consumed ← u8
  require (consumed ≤ 2) .corruptData "snapshot consumption marker is invalid"
  return consumed

open RecordReader in
def readScheduleRuntime : Reader ScheduleRuntime := do
  let schedule ← readSchedule
  let consumedCount ← u64
  require (consumedCount.toNat = schedule.entries.length) .corruptData
    "snapshot schedule consumption vector has the wrong length"
  let consumed ← replicateDecoder readConsumed consumedCount.toNat
  let openAttempts ← u64
  let pendingEntries ← u64
  return { schedule, consumed, openAttempts, pendingEntries }

namespace Impl

variable (s : Impl)

open RecordWriter in
def snapshotEncoding : Encoding :=
  [u16 kDurableFormatGeneration, u64 s.epoch.value] ++ writePolicy s.policy ++ [u64 s.lastTick] ++
  writeTable (fun entry => writeResourceRuntime entry.2) s.resources ++
  writeTable (fun entry => writeReservationRuntime entry.2) s.reservations ++
  writeTable (fun entry => writePriorityClass entry.2) s.priorityClasses ++
  writeTable (fun entry => writeQosClass entry.2) s.qosClasses ++
  writeTable (fun entry => writeFlowRuntime entry.2) s.flows ++
  writeTable (fun entry => writeAttemptRuntime entry.2) s.attempts ++
  writeTable (fun entry => writeScheduleRuntime entry.2) s.schedules ++
  writeTable (fun entry => [u64 entry.1.value, u64 entry.2]) s.virtualTime ++
  [u64 s.nextAttempt.value, u64 s.nextSchedule.value, u64 s.nextScheduleGeneration.value,
    u64 s.arbitrationRounds, u64 s.schedulesIssued, u64 s.scheduleEntriesIssued,
    u64 s.completionReports, u64 s.completionsApplied, u64 s.completionsDuplicate,
    u64 s.completionsRejected, u64 s.deadlineMisses, u64 s.preemptionsIssued,
    u64 s.reservationsRetired]

/-- The state image, or nothing when it exceeds the snapshot bound. -/
def encodeStateSnapshot : Bytes :=
  let writer := Writer.putAll { limit := kMaxSnapshotPayload } s.snapshotEncoding
  if writer.overflowed then [] else writer.buffer

/-- Attempts grouped by the schedule that issued them, in identity order. -/
def groupAttempts (attempts : Table DispatchAttemptId AttemptRuntime) :
    Table ScheduleId (List DispatchAttemptId) :=
  attempts.toList.foldl
    (fun t entry => t.insert entry.2.ticket.schedule
      (t.getD entry.2.ticket.schedule [] ++ [entry.1])) ∅

open RecordReader in
/-- The tables of a state image; each count is bounded by the restored policy. -/
def readSnapshotTables (s : Impl) : Reader Impl := do
  let resources ← readEntries readResourceRuntime (·.descriptor.resource)
    s.policy.maxResources.toNat "snapshot resource count exceeds the bound"
  let reservations ← readEntries readReservationRuntime (·.descriptor.reservation)
    s.policy.maxReservations.toNat "snapshot reservation count exceeds the bound"
  let priorityClasses ← readEntries readPriorityClass (·.priority) kMaxPriorityClasses
    "snapshot priority class count exceeds the bound"
  let qosClasses ← readEntries readQosClass (·.qos) kMaxQoSClasses
    "snapshot qos class count exceeds the bound"
  let flows ← readEntries readFlowRuntime (·.descriptor.flow) s.policy.maxFlows.toNat
    "snapshot flow count exceeds the bound"
  let attempts ← readEntries readAttemptRuntime (·.ticket.attempt)
    (s.policy.retainedScheduleHistory.toNat + 1) "snapshot attempt count exceeds the bound"
  let schedules ← readEntries readScheduleRuntime (·.schedule.schedule)
    (s.policy.retainedScheduleHistory.toNat + 1) "snapshot schedule count exceeds the bound"
  let clocks ← readEntries (do let group ← id; let clock ← u64; return (group, clock)) Prod.fst
    s.policy.maxFlows.toNat "snapshot fairness group count exceeds the bound"
  return { s with
    resources := tableOf resources
    reservations := tableOf reservations
    priorityClasses := tableOf priorityClasses
    qosClasses := tableOf qosClasses
    flows := tableOf flows
    attempts := tableOf attempts
    schedules := tableOf schedules
    virtualTime := tableOf (clocks.map Prod.snd)
    scheduleAttempts := groupAttempts (tableOf attempts)
    scheduleOrder := schedules.map Prod.fst }

open RecordReader in
def readSnapshotCounters (s : Impl) : Reader Impl := do
  let nextAttempt ← id
  let nextSchedule ← id
  let nextScheduleGeneration ← id
  let arbitrationRounds ← u64
  let schedulesIssued ← u64
  let scheduleEntriesIssued ← u64
  let completionReports ← u64
  let completionsApplied ← u64
  let completionsDuplicate ← u64
  let completionsRejected ← u64
  let deadlineMisses ← u64
  let preemptionsIssued ← u64
  let reservationsRetired ← u64
  return { s with
    nextAttempt, nextSchedule, nextScheduleGeneration, arbitrationRounds, schedulesIssued
    scheduleEntriesIssued, completionReports, completionsApplied, completionsDuplicate
    completionsRejected, deadlineMisses, preemptionsIssued, reservationsRetired }

def reportRestored : Impl :=
  { s with
    recovery.resourcesRestored := s.resources.size
    recovery.reservationsRestored := s.reservations.size
    recovery.priorityClassesRestored := s.priorityClasses.size
    recovery.qosClassesRestored := s.qosClasses.size
    recovery.flowsRestored := s.flows.size }

open RecordReader in
def readStateSnapshot : Reader Impl := do
  let format ← u16
  require (format = kDurableFormatGeneration) .unsupported
    "state snapshot format generation is not supported"
  let epoch ← id
  let policy ← readPolicy
  policy.validate
  let lastTick ← u64
  let s ← readSnapshotTables { (s.applyPolicy policy) with epoch, lastTick }
  let s ← readSnapshotCounters s
  let rest ← get
  require (rest = []) .corruptData "snapshot has trailing bytes"
  return s.reindexAll.reportRestored

def applyStateSnapshot (payload : Bytes) : Result Impl := do
  return (← s.readStateSnapshot.run payload).1

end Impl

structure SchedulerOptions where
  policy : SchedulingPolicy
  /-- Empty for a volatile scheduler without durability. -/
  stateDirectory : String := ""

/-- Restore the snapshot, if the directory has one. -/
def restoreSnapshot : SchedOp Bool := do
  let s ← get
  match s.store with
  | none => return false
  | some store =>
    match store.readSnapshot with
    | .ok payload =>
      let impl ← s.impl.applyStateSnapshot payload
      modifyImpl fun _ => { impl with recovery.snapshotRecords := 1 }
      return true
    | .error e => if e.code = .notFound then return false else throw e

/-- What a recovery does with each record of the journal. -/
def Impl.visit (s : Impl) (view : JournalRecordView) : Result Impl :=
  s.applyRecord view.type view.payload

/-- Replay the journal on top of what was restored. -/
def replayJournal : SchedOp DurableStore.JournalScanReport := do
  let s ← get
  match s.store with
  | none => return {}
  | some store =>
    match exec (DurableStore.replay true Impl.visit s.impl) store with
    | (.ok (impl, report), store) =>
      set { s with impl := impl, store := some store }
      return report
    | (.error e, store) =>
      set { s with store := some store }
      throw e

/-- Bring a durable scheduler up to its directory, under a new epoch. -/
def recover : SchedOp Unit := do
  let haveSnapshot ← restoreSnapshot
  let report ← replayJournal
  let openTail := ((← get).store.map (·.openTailTruncated)).getD false
  let recovered := haveSnapshot || decide (0 < report.records)
  modifyImpl fun s => { s.reportRestored with
    recovery.journalRecordsReplayed := report.records
    recovery.journalBytesReplayed := report.bytes
    recovery.tailTruncated := report.tailTruncated || openTail
    recovery.recovered := recovered
    recovery.epochBefore := s.epoch }
  let s ← readImpl
  let next ← s.epoch.advance
  journal (.epochAdvanced s.epoch next .recovery s.lastTick)
  modifyImpl fun s => s.applyEpochAdvance next s.lastTick
  modifyImpl fun s => { s with
    recovery.epochAfter := s.epoch
    recovery.detail := if recovered then "recovered durable state; epoch advanced"
      else "fresh durable state; epoch initialized" }

/-- Create a scheduler, recovering whatever the state directory holds. -/
def create (options : SchedulerOptions) (files : Directory) : Result Scheduler := do
  options.policy.validate
  if options.stateDirectory = "" then
    return { impl := { Impl.fresh options.policy with epoch := ⟨1⟩ } }
  else
    let store ← DurableStore.openStore options.stateDirectory files
    match exec recover { impl := Impl.fresh options.policy, store := some store } with
    | (.ok (), s) => return s
    | (.error e, _) => .error e

/-- Fold the journal into a snapshot of the current state. -/
def checkpoint : SchedOp Unit := do
  let s ← get
  match s.store with
  | none => return ()
  | some store =>
    let payload := s.impl.encodeStateSnapshot
    refuseIf (payload = []) .bounded "state image exceeds the snapshot bound; checkpoint refused"
    match exec (DurableStore.compact payload) store with
    | (.ok (), store) => set { s with store := some store }
    | (.error e, store) =>
      set { s with store := some store }
      throw e

inductive Call
  | registerResource (d : ResourceDescriptor)
  | registerReservation (d : ReservationDescriptor)
  | retireReservation (reservation : ReservationId) (generation : Generation)
  | registerPriorityClass (d : PriorityClassDescriptor)
  | registerQosClass (d : QoSClassDescriptor)
  | admitFlow (d : FlowDescriptor)
  | updateFlow (d : FlowDescriptor)
  | cancelFlow (flow : FlowId) (generation : Generation) (reason : Bytes) (now : Ticks)
  | notifyReadiness (flow : FlowId) (generation : Generation) (signal : ReadinessSignal)
      (now : Ticks)
  | resolveAmbiguous (flow : FlowId) (generation : Generation) (resolution : AmbiguityResolution)
      (now : Ticks)
  | retireFlow (flow : FlowId) (generation : Generation)
  | installPolicy (policy : SchedulingPolicy)
  | advanceEpoch (reason : EpochReason) (now : Ticks)
  | arbitrate (now : Ticks)
  | releaseSchedule (schedule : ScheduleId) (generation : Generation) (now : Ticks)
  | beginDispatch (schedule : ScheduleId) (generation : Generation) (ordinal : UInt32)
      (worker : WorkerId) (boot : BootId) (now : Ticks)
  | revalidate (ticket : DispatchTicket) (now : Ticks)
  | markStarted (ticket : DispatchTicket) (now : Ticks)
  | abandonAttempt (attempt : DispatchAttemptId) (reason : Bytes) (now : Ticks)
  | preemptAttempt (attempt : DispatchAttemptId) (reason : Bytes) (now : Ticks)
  | complete (evidence : CompletionEvidence) (now : Ticks)
  | checkpoint
  deriving DecidableEq

inductive Response
  | done
  | epoch (epoch : FabricEpoch)
  | outcome (outcome : ArbitrationOutcome)
  | ticket (ticket : DispatchTicket)
  | commit (outcome : CommitOutcome)
  deriving DecidableEq

def Call.op : Call → SchedOp Response
  | registerResource d => do FlowScheduler.registerResource d; return .done
  | registerReservation d => do FlowScheduler.registerReservation d; return .done
  | retireReservation reservation generation => do
    FlowScheduler.retireReservation reservation generation; return .done
  | registerPriorityClass d => do FlowScheduler.registerPriorityClass d; return .done
  | registerQosClass d => do FlowScheduler.registerQosClass d; return .done
  | admitFlow d => do FlowScheduler.admitFlow d; return .done
  | updateFlow d => do FlowScheduler.updateFlow d; return .done
  | cancelFlow flow generation reason now => do
    FlowScheduler.cancelFlow flow generation reason now; return .done
  | notifyReadiness flow generation signal now => do
    FlowScheduler.notifyReadiness flow generation signal now; return .done
  | resolveAmbiguous flow generation resolution now => do
    FlowScheduler.resolveAmbiguous flow generation resolution now; return .done
  | retireFlow flow generation => do FlowScheduler.retireFlow flow generation; return .done
  | installPolicy policy => do FlowScheduler.installPolicy policy; return .done
  | advanceEpoch reason now => do return .epoch (← FlowScheduler.advanceEpoch reason now)
  | arbitrate now => do return .outcome (← FlowScheduler.arbitrate now)
  | releaseSchedule schedule generation now => do
    FlowScheduler.releaseSchedule schedule generation now; return .done
  | beginDispatch schedule generation ordinal worker boot now => do
    return .ticket (← FlowScheduler.beginDispatch schedule generation ordinal worker boot now)
  | revalidate ticket now => do FlowScheduler.revalidate ticket now; return .done
  | markStarted ticket now => do FlowScheduler.markStarted ticket now; return .done
  | abandonAttempt attempt reason now => do
    FlowScheduler.abandonAttempt attempt reason now; return .done
  | preemptAttempt attempt reason now => do
    FlowScheduler.preemptAttempt attempt reason now; return .done
  | complete evidence now => do return .commit (← FlowScheduler.complete evidence now)
  | checkpoint => do FlowScheduler.checkpoint; return .done

/-- Make one public call: what it returns and the scheduler it leaves. -/
def Scheduler.call (s : Scheduler) (c : Call) : Result Response × Scheduler := exec c.op s

/-- The scheduler after a sequence of calls, accepted or refused. -/
def Scheduler.calls (s : Scheduler) (cs : List Call) : Scheduler :=
  cs.foldl (fun s c => (s.call c).2) s

end FlowScheduler

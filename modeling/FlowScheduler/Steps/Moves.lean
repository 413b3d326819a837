import FlowScheduler.Runtime.Guards
import FlowScheduler.Steps.Keeps

/-! # The moves of a scheduler

Every public call is a sequence of primitive changes. Each is listed here once,
with the record that makes it durable, if it has one, and with what the code has
checked when it is made. Invariants are proved per move.
-/

namespace FlowScheduler

open ByteCodec (Bytes)

/-- Only the diagnostics of the flow differ; a counted miss stays counted. -/
def FlowRuntime.Noted (r r' : FlowRuntime) : Prop :=
  ∃ missed starved accounting,
    r' = { r with
      deadlineMissedCounted := missed, starvationCounted := starved, accounting := accounting } ∧
    (r.deadlineMissedCounted → missed) ∧
    accounting.serviceCredit = r.accounting.serviceCredit ∧
    accounting.completionsCommitted = r.accounting.completionsCommitted

namespace Impl

/-- Advance the attempt counter unless it is exhausted. -/
def advanceAttempt (s : Impl) : Impl :=
  match s.nextAttempt.advance with
  | .ok next => { s with nextAttempt := next }
  | .error _ => s

/-- Advance the schedule counters unless one of them is exhausted. -/
def advanceSchedule (s : Impl) : Impl :=
  match s.nextSchedule.advance, s.nextScheduleGeneration.advance with
  | .ok next, .ok generation =>
    { s with nextSchedule := next, nextScheduleGeneration := generation }
  | _, _ => s

/-- No round is allowed more entries; a displacement may add one. -/
def kEntryBound : ℕ := kMaxJournalRecordPayload / kScheduleEntryBudgetBytes

/-- A granted entry: its flow is ready and may use its reservation, its resource is current, its
deadline is still ahead, and the window is positive and within the work left. -/
structure Grants (s : Impl) (now : Ticks) (e : ScheduleEntry) (r : FlowRuntime) : Prop where
  found : s.flows[e.flow]? = some r
  ready : r.lifecycle = .ready
  usable : s.reservationUsable r now = .ok ()
  current : ∃ resource, s.resources[e.resource]? = some resource ∧
    resource.descriptor.generation = e.resourceGeneration
  entry : ∃ candidate, e = s.runEntry candidate r.descriptor e.ordinal e.quantum now
  positive : 0 < e.quantum
  fits : e.quantum ≤ remainingWork r
  timely : ¬ (hasDeadline e.deadlineTick ∧ e.deadlineTick ≤ now)

/-- What a round has established about the entries it issues: no flow is granted twice, and no
resource or reservation more than it has left. -/
structure Issues (s : Impl) (now : Ticks) (entries : List ScheduleEntry) : Prop where
  nonempty : entries ≠ []
  size : entries.length ≤ kEntryBound + 1
  distinct : ((entries.filter (·.kind = .run)).map (·.flow)).Nodup
  capacity : ∀ (id : ResourceId) (resource : ResourceRuntime), s.resources[id]? = some resource →
    serviceOf (·.runsOn id) entries ≤ (resource.capacityRemaining now).toNat
  reserved : ∀ (id : ReservationId) (reservation : ReservationRuntime),
    s.reservations[id]? = some reservation → serviceOf (·.runsUnder id) entries ≤
      reservation.descriptor.capacity.toNat - reservation.reservedUnits.toNat
  run : ∀ e ∈ entries, e.kind = .run → ∃ r, s.Grants now e r
  other : ∀ e ∈ entries, e.kind ≠ .run →
    ∃ v candidate d, e = preemptEntry v e.ordinal candidate d now
  ordinal : ∀ i (h : i < entries.length), (entries.get ⟨i, h⟩).ordinal = UInt32.ofNat i

end Impl

open Impl

/-- Moves made both by a round and by the other calls. -/
inductive CommonMove : Impl → Option Record → Impl → Prop
  | counters {s provenanceSequence arbitrationRounds completionReports completionsDuplicate
      completionsRejected deadlineMisses preemptionsIssued preemptionWindowIndex
      preemptionsInWindow} :
      CommonMove s none { s with
        provenanceSequence := provenanceSequence
        arbitrationRounds := arbitrationRounds, completionReports := completionReports
        completionsDuplicate := completionsDuplicate, completionsRejected := completionsRejected
        deadlineMisses := deadlineMisses, preemptionsIssued := preemptionsIssued
        preemptionWindowIndex := preemptionWindowIndex
        preemptionsInWindow := preemptionsInWindow }
  | note {s id f} (h : ∀ r : FlowRuntime, r.Noted (f r)) : CommonMove s none (s.modifyFlow id f)
  | ready {s id r now detail} (found : s.flows[id]? = some r) (waiting : r.lifecycle = .waiting)
      (derived : s.derivedReadiness r now = .ok ()) :
      CommonMove s none
        ((s.setLifecycle id .ready now).recordStep id now .ready .selected {} {} detail)
  | normalize {s now} : CommonMove s none (s.normalizeTransientStates now)
  | close {s attempt state detail now} (h : state = .preempted ∨ state = .abandoned)
      (clock : now ≤ s.lastTick) :
      CommonMove s (some (.attemptClosed attempt state now detail))
        (s.applyAttemptClosed attempt state detail now)
  | release {s id now} (clock : now ≤ s.lastTick) :
      CommonMove s (some (.scheduleReleased id now)) (s.applyReleaseSchedule id now)

inductive RoundMove (now : Ticks) : Impl → Option Record → Impl → Prop
  | common {s r s'} (h : CommonMove s r s') : RoundMove now s r s'
  | tick {s} (clock : s.lastTick ≤ now) : RoundMove now s none { s with lastTick := now }
  | failDependency {s id r detail} (found : s.flows[id]? = some r)
      (pending : r.lifecycle = .waiting ∨ r.lifecycle = .ready)
      (derived : s.derivedReadiness r now = .error .dependencyFailed) :
      RoundMove now s none (s.failFlow id .dependencyFailed detail now)
  | failDeadline {s id r detail} (found : s.flows[id]? = some r)
      (pending : r.lifecycle = .waiting ∨ r.lifecycle = .ready)
      (derived : s.derivedReadiness r now = .error .deadlineMissed)
      (strict : s.policy.strictDeadlines) (uncounted : r.deadlineMissedCounted = false) :
      RoundMove now s none ((s.countDeadlineMiss id).failFlow id .deadlineMissed detail now)
  | roll {s id} (clock : s.lastTick = now) :
      RoundMove now s none (s.modifyResource id (·.rollInterval now))
  | issue {s entries} (clock : s.lastTick = now) (h : s.Issues now entries) :
      RoundMove now s (some (.scheduleIssued (s.makeSchedule entries now)))
        ({ s with provenanceSequence := s.provenanceSequence + 1 }.applySchedule
          (s.makeSchedule entries now)).advanceSchedule
  | forget {s front rest} (order : s.scheduleOrder = front :: rest)
      (gone : s.schedules[front]? = none) : RoundMove now s none { s with scheduleOrder := rest }
  | retire {s front rest runtime} (order : s.scheduleOrder = front :: rest)
      (found : s.schedules[front]? = some runtime)
      (idle : runtime.openAttempts = 0 ∧ runtime.pendingEntries = 0) :
      RoundMove now s none { s.dropSchedule front with scheduleOrder := rest }

def Record.isPreemption : Record → Bool
  | .attemptClosed _ .preempted _ _ => true
  | _ => false

def Call.isPreemption : Call → Bool
  | .preemptAttempt .. => true
  | _ => false

/-- Moves of the calls other than a round, with the call that makes them. -/
inductive CallMove : Call → Impl → Option Record → Impl → Prop
  | common {c s r s'} (h : CommonMove s r s')
      (only : ∀ record ∈ r, record.isPreemption → c.isPreemption := by simp [Record.isPreemption]) :
      CallMove c s r s'
  | touch {c s now} : CallMove c s none { s with lastTick := max s.lastTick now }
  | registerResource {s d} (guard : s.registerResourceGuard d = .ok ()) :
      CallMove (.registerResource d) s (some (.resourceRegistered d)) (s.applyResource d)
  | registerReservation {s d} (guard : s.registerReservationGuard d = .ok ()) :
      CallMove (.registerReservation d) s (some (.reservationRegistered d)) (s.applyReservation d)
  | retireReservation {s id generation} (guard : s.retireReservationGuard id generation = .ok true) :
      CallMove (.retireReservation id generation) s (some (.reservationRetired id generation))
        (s.applyRetireReservation id generation)
  | registerPriorityClass {s d} (guard : s.registerPriorityClassGuard d = .ok ()) :
      CallMove (.registerPriorityClass d) s (some (.priorityClassRegistered d)) (s.applyPriorityClass d)
  | registerQosClass {s d} (guard : s.registerQosClassGuard d = .ok ()) :
      CallMove (.registerQosClass d) s (some (.qosClassRegistered d)) (s.applyQosClass d)
  | admitFlow {s d s'} (guard : s.admitFlowGuard d = .ok ()) (applied : s.applyAdmit d = .ok s') :
      CallMove (.admitFlow d) s (some (.flowAdmitted d)) s'
  | admitRefused {s d e} (guard : s.admitFlowGuard d = .ok ()) (refused : s.applyAdmit d = .error e) :
      CallMove (.admitFlow d) s (some (.flowAdmitted d)) s
  | update {s d s'} (guard : s.updateFlowGuard d = .ok ()) (applied : s.applyUpdate d = .ok s') :
      CallMove (.updateFlow d) s (some (.flowUpdated d))
        (s'.releaseScheduledEntry d.flow s.lastTick)
  | updateRefused {s d e} (guard : s.updateFlowGuard d = .ok ())
      (refused : s.applyUpdate d = .error e) :
      CallMove (.updateFlow d) s (some (.flowUpdated d)) s
  | cancel {s flow generation reason now} (guard : s.cancelFlowGuard flow generation = .ok true)
      (clock : now ≤ s.lastTick) :
      CallMove (.cancelFlow flow generation reason now) s
        (some (.flowCancelled flow generation now reason))
        ((s.applyCancel flow generation now).normalizeTransientStates now)
  | notify {s flow generation signal now}
      (guard : s.notifyReadinessGuard flow generation signal = .ok true)
      (clock : now ≤ s.lastTick) :
      CallMove (.notifyReadiness flow generation signal now) s
        (some (.flowReadinessChanged flow generation signal now))
        (s.applyReadiness flow generation signal now)
  | resolve {s flow generation resolution now}
      (guard : s.resolveAmbiguousGuard flow generation = .ok ()) (clock : now ≤ s.lastTick) :
      CallMove (.resolveAmbiguous flow generation resolution now) s
        (some (.ambiguityResolved flow generation resolution now))
        (s.applyAmbiguityResolved flow generation resolution now)
  | retireFlow {s flow generation} (guard : s.retireFlowGuard flow generation = .ok ()) :
      CallMove (.retireFlow flow generation) s (some (.flowRetired flow generation))
        (s.applyRetireFlow flow generation)
  | installPolicy {s policy} (guard : s.installPolicyGuard policy = .ok ()) :
      CallMove (.installPolicy policy) s (some (.policyInstalled policy)) (s.applyPolicy policy)
  | advanceEpoch {s next reason now} (advanced : s.epoch.advance = .ok next)
      (clock : now ≤ s.lastTick) :
      CallMove (.advanceEpoch reason now) s (some (.epochAdvanced s.epoch next reason now))
        (s.applyEpochAdvance next now)
  | dispatch {s schedule generation ordinal worker boot now entry flow}
      (guard : s.beginDispatchGuard schedule generation ordinal worker boot now =
        .ok (entry, flow)) (clock : now ≤ s.lastTick) :
      CallMove (.beginDispatch schedule generation ordinal worker boot now) s
        (some (.attemptOpened (s.issueTicket schedule generation entry worker boot now)
          (remainingWork flow) now))
        ((s.applyAttemptOpened (s.issueTicket schedule generation entry worker boot now)
          (s.issueTicket schedule generation entry worker boot now).quantum now).consumeEntry
            schedule ordinal.toNat).advanceAttempt
  | start {s ticket now} (guard : s.markStartedGuard ticket now = .ok true)
      (clock : now ≤ s.lastTick) :
      CallMove (.markStarted ticket now) s (some (.attemptStarted ticket.attempt now))
        (s.applyAttemptStarted ticket.attempt now)
  | complete {s e now flow attempt}
      (verdict : s.completionVerdict e now = .ok (.commit flow attempt)) (clock : now ≤ s.lastTick) :
      CallMove (.complete e now) s
        (some (.completionCommitted e (creditOf e) (lifecycleAfterCompletion e flow) now))
        (s.applyCompletion e (creditOf e) (lifecycleAfterCompletion e flow) now)

def Move (c : Call) (s : Impl) (r : Option Record) (s' : Impl) : Prop :=
  CallMove c s r s' ∨ ∃ now, c = .arbitrate now ∧ RoundMove now s r s'

section Settings

variable {s s' : Impl} {r : Option Record}

theorem CommonMove.setting (move : CommonMove s r s') : s'.setting = s.setting := by
  cases move with
  | counters | note | ready => rfl
  | normalize => exact Impl.setting_normalizeTransientStates _
  | close => exact Impl.setting_applyAttemptClosed ..
  | release => exact Impl.setting_applyReleaseSchedule _ _

theorem setting_advanceSchedule :
    { s.advanceSchedule.setting with
      nextSchedule := s.nextSchedule, nextScheduleGeneration := s.nextScheduleGeneration } =
      s.setting := by
  unfold Impl.advanceSchedule
  split <;> rfl

theorem lastTick_issue {t : Impl} {schedule : Schedule} :
    (t.applySchedule schedule).advanceSchedule.lastTick = t.lastTick := by
  have hadvance := congrArg Setting.lastTick (@setting_advanceSchedule (t.applySchedule schedule))
  rw [Impl.setting_applySchedule] at hadvance
  exact hadvance

end Settings

end FlowScheduler

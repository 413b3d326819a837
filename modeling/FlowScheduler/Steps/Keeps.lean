import FlowScheduler.Runtime.Fields
import FlowScheduler.Runtime.Arbitration

/-! # The edits a transition is made of

A transition makes edits of two kinds: a flow enters a lifecycle, or something is
written that neither the order of the flows nor the books depend on. A preorder
that respects both relates the memory before every transition to the memory
after it.
-/

namespace FlowScheduler

open ByteCodec (Bytes)
open Failing SchedOp Impl OrderedMap

/-- The lifecycles that are entered and left inside one call. -/
def FlowLifecycle.isTransient : FlowLifecycle → Bool
  | .preempting | .cancelling => true
  | _ => false

/-- What decides when a flow is served: its lifecycle, its age, its stamp and what it is charged by. -/
structure FlowPace where
  lifecycle : FlowLifecycle
  eligibleSinceTick : Ticks
  virtualFinish : UInt64
  fairnessGroup : FairnessGroupId
  serviceQuantum : UInt64
  weight : UInt64

def FlowRuntime.pace (r : FlowRuntime) : FlowPace where
  lifecycle := r.lifecycle
  eligibleSinceTick := r.eligibleSinceTick
  virtualFinish := r.virtualFinish
  fairnessGroup := r.descriptor.fairnessGroup
  serviceQuantum := r.descriptor.serviceQuantum
  weight := r.descriptor.weight

/-- What counts as the minimum service of a flow: the start of the window, and what was delivered
in it. -/
structure Meter where
  start : Ticks
  delivered : UInt64

def FlowRuntime.meter (r : FlowRuntime) : Meter := ⟨r.minServiceWindowStart, r.minServiceDelivered⟩

/-- Besides the pace, who the flow is, what it is owed and what has been delivered of it. -/
structure FlowTempo extends FlowPace where
  flow : FlowId
  minService : UInt64
  minServiceWindow : Ticks
  meter : Meter

def FlowRuntime.tempo (r : FlowRuntime) : FlowTempo where
  toFlowPace := r.pace
  flow := r.descriptor.flow
  minService := r.descriptor.minService
  minServiceWindow := r.descriptor.minServiceWindow
  meter := r.meter

structure Throttle where
  policy : SchedulingPolicy
  windowIndex : UInt64
  inWindow : UInt32

def Impl.throttle (s : Impl) : Throttle where
  policy := s.policy
  windowIndex := s.preemptionWindowIndex
  inWindow := s.preemptionsInWindow

/-- What is kept about each resource, its dispatch slots apart. -/
def Impl.books (s : Impl) (id : ResourceId) : Option ResourceRuntime :=
  s.resources[id]?.map fun r => { r with inFlight := 0 }

theorem Impl.books_releaseInFlight (s : Impl) (id : ResourceId) :
    (s.releaseInFlight id).books = s.books := by
  funext a
  simp only [books, releaseInFlight, modifyResource, get_modify]
  split
  · rw [Option.map_map]
    rfl
  · rfl

/-- What a decision may depend on, or is written in the books. -/
structure Face where
  flows : Table FlowId FlowRuntime
  indexes : FlowIndexes
  resources : Table ResourceId ResourceRuntime
  virtualTime : Table FairnessGroupId UInt64
  scheduleOrder : List ScheduleId
  setting : Setting
  throttle : Throttle

def Impl.face (s : Impl) : Face where
  flows := s.flows
  indexes := s.indexes
  resources := s.resources
  virtualTime := s.virtualTime
  scheduleOrder := s.scheduleOrder
  setting := s.setting
  throttle := s.throttle

/-- The tempo of every flow and the clocks are the same, under the same policy. -/
structure Impl.SameTempo (s s' : Impl) : Prop where
  flows : ∀ id : FlowId, (s'.flows[id]?).map FlowRuntime.tempo = (s.flows[id]?).map FlowRuntime.tempo
  clocks : s'.virtualTime = s.virtualTime
  policy : s'.policy = s.policy
  tick : s.lastTick ≤ s'.lastTick

namespace Impl.SameTempo

variable {s s' s'' : Impl}

theorem of_eq (flows : s'.flows = s.flows) (clocks : s'.virtualTime = s.virtualTime)
    (policy : s'.policy = s.policy) (tick : s'.lastTick = s.lastTick) : s.SameTempo s' where
  flows id := by rw [flows]
  clocks := clocks
  policy := policy
  tick := by rw [tick]; exact UInt64.le_refl _

theorem trans (h : s.SameTempo s') (h' : s'.SameTempo s'') : s.SameTempo s'' where
  flows id := (h'.flows id).trans (h.flows id)
  clocks := h'.clocks.trans h.clocks
  policy := h'.policy.trans h.policy
  tick := UInt64.le_trans h.tick h'.tick

theorem get (h : s.SameTempo s') {id : FlowId} {r' : FlowRuntime} (found : s'.flows[id]? = some r') :
    ∃ r, s.flows[id]? = some r ∧ r'.tempo = r.tempo := by
  have hflow := h.flows id
  rw [found, Option.map_some] at hflow
  obtain ⟨r, hr, htempo⟩ := Option.map_eq_some_iff.mp hflow.symm
  exact ⟨r, hr, htempo.symm⟩

end Impl.SameTempo

/-- Besides, the two agree on the books and on what surrounds the flows. -/
structure Impl.Alike (s s' : Impl) : Prop extends s.SameTempo s' where
  indexes : s'.indexes = s.indexes
  books : s'.books = s.books
  order : s'.scheduleOrder = s.scheduleOrder
  setting : s'.setting = s.setting
  throttle : s'.throttle = s.throttle

namespace Impl.Alike

variable {s s' s'' : Impl} {id : FlowId} {f : FlowRuntime → FlowRuntime}

theorem of_face (h : s'.face = s.face) : s.Alike s' where
  toSameTempo := .of_eq (congrArg Face.flows h) (congrArg Face.virtualTime h)
    (congrArg (Setting.policy ∘ Face.setting) h) (congrArg (Setting.lastTick ∘ Face.setting) h)
  indexes := congrArg Face.indexes h
  books := by
    funext k
    rw [Impl.books, Impl.books, show s'.resources = s.resources from congrArg Face.resources h]
  order := congrArg Face.scheduleOrder h
  setting := congrArg Face.setting h
  throttle := congrArg Face.throttle h

theorem trans (h : s.Alike s') (h' : s'.Alike s'') : s.Alike s'' where
  toSameTempo := h.toSameTempo.trans h'.toSameTempo
  indexes := h'.indexes.trans h.indexes
  books := h'.books.trans h.books
  order := h'.order.trans h.order
  setting := h'.setting.trans h.setting
  throttle := h'.throttle.trans h.throttle

theorem modifyFlow (keep : ∀ r, (f r).tempo = r.tempo) : s.Alike (s.modifyFlow id f) := by
  refine ⟨⟨fun k => ?_, rfl, rfl, UInt64.le_refl _⟩, rfl, rfl, rfl, rfl, rfl⟩
  simp only [Impl.modifyFlow, get_modify]
  split
  · rw [Option.map_map]
    exact congrArg (Option.map · _) (funext keep)
  · rfl

theorem modified (face : s'.face = (s.modifyFlow id f).face) (keep : ∀ r, (f r).tempo = r.tempo) :
    s.Alike s' := (modifyFlow keep).trans (of_face face)

theorem releaseInFlight {k : ResourceId} : s.Alike (s.releaseInFlight k) :=
  ⟨.of_eq rfl rfl rfl rfl, rfl, s.books_releaseInFlight k, rfl, rfl, rfl⟩

theorem releaseAttempt {ticket : DispatchTicket} : s.Alike (s.releaseAttempt id ticket) := by
  refine trans ?_ releaseInFlight
  exact modifyFlow fun _ => rfl

theorem countDuplicate {e : CompletionEvidence} : s.Alike (s.countDuplicate e) :=
  modified rfl fun _ => rfl

theorem countRejected {e : CompletionEvidence} {rejection : Rejection} :
    s.Alike (s.countRejected e rejection) := by
  unfold Impl.countRejected
  dsimp only
  split
  · exact modified rfl fun _ => rfl
  · exact of_face rfl

end Impl.Alike

/-- The relation respects the edits made at the tick. Whether a flow may also be left preempting or
cancelling is said by `wild`. -/
structure Impl.Keeps (now : Ticks) (wild : Prop) (R : Impl → Impl → Prop) : Prop where
  alike : ∀ {s s' : Impl}, s.Alike s' → R s s'
  lifecycle : ∀ {s : Impl} {id : FlowId} {next : FlowLifecycle} {tick : Ticks},
    (next.isTransient → wild) → (next = .ready → tick = now) → R s (s.setLifecycle id next tick)

/-- The relation also respects what the issue of a schedule writes. -/
structure Impl.KeepsIssue (now : Ticks) (wild : Prop) (R : Impl → Impl → Prop) : Prop
    extends Keeps now wild R where
  order : ∀ {s : Impl} {ids : List ScheduleId}, R s { s with scheduleOrder := ids }
  charge : ∀ {s : Impl} {entry : ScheduleEntry}, R s (s.chargeResource entry)
  clock : ∀ {s : Impl} {id : FlowId} {r : FlowRuntime}, id ∈ s.flows → R s (s.advanceGroupClock id r)

namespace Impl.Keeps

variable {now : Ticks} {wild : Prop} {R : Impl → Impl → Prop} {s s' : Impl} {id : FlowId}
  {r : FlowRuntime}

section Edits

variable (h : Keeps now wild R)
include h

theorem other (face : s'.face = s.face) : R s s' := h.alike (.of_face face)

theorem modifyFlow {f : FlowRuntime → FlowRuntime} (keep : ∀ r, (f r).tempo = r.tempo) :
    R s (s.modifyFlow id f) := h.alike (.modifyFlow keep)

theorem recordStep {lifecycle : FlowLifecycle} {reason : DecisionReason} {schedule : ScheduleId}
    {attempt : DispatchAttemptId} {detail : Bytes} {tick : Ticks} :
    R s (s.recordStep id tick lifecycle reason schedule attempt detail) := by
  refine h.modifyFlow fun r => ?_
  obtain ⟨_, _, hstep⟩ := r.recordStep_eq tick lifecycle reason schedule attempt detail
  rw [hstep]
  rfl

theorem setLifecycle {next : FlowLifecycle} (rest : next.isTransient → wild) :
    R s (s.setLifecycle id next now) := h.lifecycle rest fun _ => rfl

theorem releaseInFlight {k : ResourceId} : R s (s.releaseInFlight k) := h.alike .releaseInFlight

theorem releaseAttempt {ticket : DispatchTicket} : R s (s.releaseAttempt id ticket) :=
  h.alike .releaseAttempt

theorem modifySchedule {k : ScheduleId} {f : ScheduleRuntime → ScheduleRuntime} :
    R s (s.modifySchedule k f) := h.other rfl

theorem endAttempt {attempt : DispatchAttemptId} {record : AttemptRuntime} :
    R s (s.endAttempt attempt record) := h.other rfl

end Edits

variable [IsPreorder Impl R]

variable (R) in
theorem foldl {α : Type} {f : Impl → α → Impl} (step : ∀ s a, R s (f s a)) (xs : List α) :
    R s (xs.foldl f s) := by
  induction xs generalizing s with
  | nil => exact refl_of R s
  | cons x xs ih => exact trans_of R (step s x) ih

variable (R) in
theorem foldl_fst {α β : Type} {f : Impl × α → β → Impl × α} (step : ∀ p x, R p.1 (f p x).1)
    (xs : List β) (p : Impl × α) : R p.1 (xs.foldl f p).1 := by
  induction xs generalizing p with
  | nil => exact refl_of R _
  | cons x xs ih => exact trans_of R (step p x) (ih _)

section Transitions

variable (h : Keeps now wild R)
include h

theorem enters {k : FlowId} {next lifecycle : FlowLifecycle} {reason : DecisionReason}
    {schedule : ScheduleId} {attempt : DispatchAttemptId} {detail : Bytes}
    (rest : next.isTransient → wild) :
    R s ((s.setLifecycle id next now).recordStep k now lifecycle reason schedule attempt detail) :=
  trans_of R (h.lifecycle rest fun _ => rfl) h.recordStep

theorem failFlow {reason : DecisionReason} {detail : String} :
    R s (s.failFlow id reason detail now) := h.enters nofun

theorem countDeadlineMiss : R s (s.countDeadlineMiss id) := by
  have hcount : R s { s with deadlineMisses := s.deadlineMisses + 1 } := h.other rfl
  refine trans_of R hcount ?_
  exact h.modifyFlow fun _ => rfl

theorem deferUnready {reason : DecisionReason} {o : ArbitrationOutcome} :
    R s (s.deferUnready id r reason now o).1 := by
  unfold Impl.deferUnready
  split
  · unfold handleDeadlineMiss
    split
    · exact refl_of R s
    · dsimp only
      split
      · exact trans_of R h.countDeadlineMiss h.failFlow
      · exact h.countDeadlineMiss
  · split
    · exact h.failFlow
    · exact refl_of R s

theorem refreshWaiting (p : Impl × ArbitrationOutcome) (id : FlowId) :
    R p.1 (refreshWaiting now p id).1 := by
  obtain ⟨s, o⟩ := p
  unfold Impl.refreshWaiting
  dsimp only
  split
  · exact refl_of R s
  · split
    · exact refl_of R s
    · split
      · exact refl_of R s
      · split
        · exact h.enters nofun
        · exact h.deferUnready

theorem refreshInflight (p : Impl × ArbitrationOutcome) (id : FlowId) :
    R p.1 (refreshInflight now p id).1 := by
  obtain ⟨s, o⟩ := p
  unfold Impl.refreshInflight
  dsimp only
  split
  · exact refl_of R s
  · split
    · exact h.countDeadlineMiss
    · exact refl_of R s

theorem refreshLifecycles {o : ArbitrationOutcome} : R s (s.refreshLifecycles now o).1 :=
  trans_of R (foldl_fst R h.refreshWaiting s.indexes.waiting.toList (s, o))
    (foldl_fst R h.refreshInflight _ _)

theorem rankCandidates : R s (s.rankCandidates now).1 := by
  refine foldl_fst R (fun p id => ?_) s.indexes.ready.toList (s, [])
  obtain ⟨s, candidates⟩ := p
  unfold rankFlow
  dsimp only
  split
  · exact refl_of R s
  · split
    · exact refl_of R s
    · split
      · exact h.modifyFlow fun _ => rfl
      · exact refl_of R s

theorem unscheduleFlow {entry : ScheduleEntry} : R s (s.unscheduleFlow entry now) := by
  have hfree : R s (s.modifyFlow entry.flow fun r =>
      { r.clearScheduled with outstandingReserved := clampedSub r.outstandingReserved entry.quantum }) :=
    h.modifyFlow fun _ => rfl
  unfold Impl.unscheduleFlow
  exact trans_of R (trans_of R hfree h.releaseInFlight) (h.enters (by nofun))

theorem releaseRunEntry {k : ScheduleId} {index : ℕ} : R s (s.releaseRunEntry k index now) := by
  unfold Impl.releaseRunEntry
  split
  · exact refl_of R s
  · split
    · split
      · exact h.modifySchedule
      · dsimp only
        split
        · exact h.modifySchedule
        · split
          · exact h.modifySchedule
          · exact trans_of R h.modifySchedule h.unscheduleFlow
    · exact refl_of R s

theorem releaseScheduledEntry : R s (s.releaseScheduledEntry id now) := by
  unfold Impl.releaseScheduledEntry
  split
  · exact refl_of R s
  · split
    · exact refl_of R s
    · split
      · exact refl_of R s
      · split
        · exact h.releaseRunEntry
        · exact refl_of R s

theorem applyReleaseSchedule {k : ScheduleId} : R s (s.applyReleaseSchedule k now) := by
  unfold Impl.applyReleaseSchedule
  split
  · exact refl_of R s
  · exact foldl R (fun s index => h.releaseRunEntry) _

omit h in
variable (R) in
theorem normalizeTransientStates_of (settle : ∀ {s : Impl} {id : FlowId} {next : FlowLifecycle},
    ¬ next.isTransient → R s (s.setLifecycle id next now)) : R s (s.normalizeTransientStates now) := by
  refine foldl R (fun s id => ?_) _
  unfold normalizeFlow
  split
  · exact refl_of R s
  · split
    · exact settle nofun
    · split
      · exact settle nofun
      · exact refl_of R s

theorem normalizeTransientStates : R s (s.normalizeTransientStates now) :=
  normalizeTransientStates_of R fun rest => h.setLifecycle fun transient => absurd transient rest

theorem closeFlowAttempt {record : AttemptRuntime} {attempt : DispatchAttemptId}
    {state : AttemptState} (ends : state = .preempted ∨ state = .cancelled → wild) :
    R s (s.closeFlowAttempt record attempt state now) := by
  unfold Impl.closeFlowAttempt
  dsimp only
  have hrelease : R s (s.releaseAttempt record.ticket.flow record.ticket) := h.releaseAttempt
  refine trans_of R hrelease ?_
  generalize s.releaseAttempt record.ticket.flow record.ticket = s
  cases state with
  | preempted =>
    have hcount : R s (s.modifyFlow record.ticket.flow fun r =>
        { r with accounting.preemptions := r.accounting.preemptions + 1 }) :=
      h.modifyFlow fun _ => rfl
    exact trans_of R hcount (h.enters fun _ => ends (.inl rfl))
  | cancelled => exact h.enters fun _ => ends (.inr rfl)
  | abandoned | rejected => exact h.enters nofun
  | opened | started | committed => exact refl_of R _

theorem applyAttemptClosed {attempt : DispatchAttemptId} {state : AttemptState} {detail : Bytes}
    (ends : state = .preempted ∨ state = .cancelled → wild) :
    R s (s.applyAttemptClosed attempt state detail now) := by
  unfold Impl.applyAttemptClosed
  split
  · exact refl_of R s
  · split
    · exact refl_of R s
    · dsimp only
      split
      · exact h.endAttempt
      · split
        · exact h.endAttempt
        · exact trans_of R h.endAttempt (h.closeFlowAttempt ends)

/-- The last steps of a cancellation, once the flow has given up what it held. -/
theorem cancelled : R s (((s.setLifecycle id .cancelled now).modifyFlow id fun r =>
    { r.clearScheduled with outstandingReserved := 0 }).recordStep id now .cancelled .terminal {} {}
      (ascii "cancelled by caller")) := by
  have hclear : R (s.setLifecycle id .cancelled now) ((s.setLifecycle id .cancelled now).modifyFlow
      id fun r => { r.clearScheduled with outstandingReserved := 0 }) := h.modifyFlow fun _ => rfl
  exact trans_of R (trans_of R (h.setLifecycle (by nofun)) hclear) h.recordStep

theorem applyCancel {generation : Generation} (free : wild) :
    R s (s.applyCancel id generation now) := by
  unfold Impl.applyCancel
  split
  · exact refl_of R s
  · rename_i r _
    have hclose : R s (if r.openAttempt.valid then
        s.applyAttemptClosed r.openAttempt .cancelled (ascii "flow cancelled") now else s) := by
      split
      · exact h.applyAttemptClosed fun _ => free
      · exact refl_of R s
    exact trans_of R (trans_of R hclose h.releaseScheduledEntry) h.cancelled

theorem applyReadiness {generation : Generation} {signal : ReadinessSignal} :
    R s (s.applyReadiness id generation signal now) := by
  unfold Impl.applyReadiness
  split
  · exact refl_of R s
  · exact h.modifyFlow fun _ => rfl

theorem applyAmbiguityResolved {generation : Generation} {resolution : AmbiguityResolution} :
    R s (s.applyAmbiguityResolved id generation resolution now) := by
  unfold Impl.applyAmbiguityResolved
  split
  · exact refl_of R s
  · split
    · exact refl_of R s
    · cases resolution with
      | abandon => exact h.enters nofun
      | retry =>
        have hforget : R (s.setLifecycle id .waiting now) ((s.setLifecycle id .waiting now).modifyFlow
            id fun r => { r with everReady := false }) := h.modifyFlow fun _ => rfl
        exact trans_of R (trans_of R (h.setLifecycle (by nofun)) hforget) h.recordStep

theorem applyRetireReservation {reservation : ReservationId} {generation : Generation} :
    R s (s.applyRetireReservation reservation generation) := by
  unfold Impl.applyRetireReservation
  split
  · exact refl_of R s
  · split
    · exact refl_of R s
    · exact h.other rfl

theorem abandonOpenAttempts {detail : Bytes} : R s (s.abandonOpenAttempts now detail) := by
  have habandon : R s (s.openAttemptIds.foldl (fun s attempt =>
      let s := s.applyAttemptClosed attempt .abandoned detail now
      { s with recovery.attemptsAbandoned := s.recovery.attemptsAbandoned + 1 }) s) := by
    refine foldl R (fun s attempt => ?_) _
    have hclose : R s (s.applyAttemptClosed attempt .abandoned detail now) :=
      h.applyAttemptClosed (by simp)
    refine trans_of R hclose ?_
    exact h.other rfl
  have hrelease : ∀ (ids : List ScheduleId) (s : Impl),
      R s (ids.foldl (fun s id => s.applyReleaseSchedule id now) s) :=
    fun ids s => foldl R (fun s id => h.applyReleaseSchedule) ids
  unfold Impl.abandonOpenAttempts
  refine trans_of R habandon ?_
  generalize s.openAttemptIds.foldl _ s = s
  exact trans_of R (hrelease s.scheduleOrder s) h.normalizeTransientStates

theorem scheduleFlow {schedule : Schedule} {entry : ScheduleEntry} :
    R s (s.scheduleFlow schedule entry) := by
  have hplace : R s (s.modifyFlow entry.flow fun r =>
      { r with
        outstandingReserved := saturatingAdd r.outstandingReserved entry.quantum
        scheduledSchedule := schedule.schedule
        scheduledGeneration := schedule.generation
        scheduledOrdinal := entry.ordinal
        scheduledTick := entry.startTick }) :=
    h.modifyFlow fun _ => by simp only [FlowRuntime.tempo, FlowRuntime.pace, FlowRuntime.meter]
  unfold Impl.scheduleFlow
  refine trans_of R hplace ?_
  generalize s.modifyFlow entry.flow _ = s
  have henter : R s (s.setLifecycle entry.flow .scheduled entry.startTick) :=
    h.lifecycle nofun nofun
  exact trans_of R henter h.recordStep

theorem applyAttemptOpened {ticket : DispatchTicket} {work : UInt64} :
    R s (s.applyAttemptOpened ticket work now) := by
  have hfile : R s (s.fileAttempt ticket now) := h.other rfl
  unfold Impl.applyAttemptOpened
  refine trans_of R hfile ?_
  generalize s.fileAttempt ticket now = s
  dsimp only
  split
  · exact refl_of R s
  · have hissue : R s (s.modifyFlow ticket.flow fun r =>
        { r with
          openAttempt := ticket.attempt
          accounting.dispatchesIssued := r.accounting.dispatchesIssued + 1 }) :=
      h.modifyFlow fun _ => rfl
    exact trans_of R hissue (h.enters (by nofun))

theorem applyAttemptStarted {attempt : DispatchAttemptId} :
    R s (s.applyAttemptStarted attempt now) := by
  unfold Impl.applyAttemptStarted
  split
  · exact refl_of R s
  · rename_i record _
    split
    · exact refl_of R s
    · have hfile : R s
          { s with attempts := s.attempts.insert attempt { record with state := .started } } :=
        h.other rfl
      refine trans_of R hfile ?_
      generalize { s with attempts := s.attempts.insert attempt { record with state := .started } } = s
      dsimp only
      split
      · exact refl_of R s
      · split
        · exact refl_of R s
        · have hcount : R s (s.modifyFlow record.ticket.flow fun r =>
              { r with accounting.dispatchesStarted := r.accounting.dispatchesStarted + 1 }) :=
            h.modifyFlow fun _ => rfl
          exact trans_of R hcount (h.setLifecycle (by nofun))

/-- Up to the credit, a completion changes nothing that matters. -/
theorem applyCompletion_of_found {e : CompletionEvidence} (credited : UInt64) (after : FlowLifecycle)
    {x : AttemptRuntime} (rest : after.isTransient → wild)
    (retained : s.attempts[e.attempt]? = some x) (found : s.flows[e.flow]? = some r) :
    ∃ i, s.Alike i ∧ R (i.creditFlow e.flow credited) (s.applyCompletion e credited after now) := by
  unfold Impl.applyCompletion
  simp only [retained]
  have hend : s.Alike (s.endAttempt e.attempt { x with
      state := .committed, closedTick := now, hasEvidence := true
      evidenceDigest := e.digest, credited := credited }) := .of_face rfl
  split
  · rename_i habsent
    exact absurd (habsent.symm.trans found) nofun
  · refine ⟨_, .trans ?_ .releaseAttempt, h.enters rest⟩
    exact hend.trans (.modifyFlow fun _ => rfl)

theorem applyCompletion {e : CompletionEvidence} {credited : UInt64} {after : FlowLifecycle}
    (rest : after.isTransient → wild) (credit : ∀ s id n, R s (s.creditFlow id n)) :
    R s (s.applyCompletion e credited after now) := by
  cases retained : s.attempts[e.attempt]? with
  | none =>
    simp only [Impl.applyCompletion, retained]
    exact refl_of R s
  | some x =>
    cases found : s.flows[e.flow]? with
    | none =>
      have hnone : ∀ record, (s.endAttempt e.attempt record).flows[e.flow]? = none := fun _ => found
      simp only [Impl.applyCompletion, retained, hnone]
      exact h.endAttempt
    | some r =>
      obtain ⟨i, halike, hrest⟩ := h.applyCompletion_of_found credited after rest retained found
      exact trans_of R (h.alike halike) (trans_of R (credit i _ _) hrest)

theorem resumeFlow {credited : UInt64} : R s (s.resumeFlow id credited now) := by
  unfold Impl.resumeFlow
  split
  · exact refl_of R s
  · split
    · exact h.enters nofun
    · exact h.setLifecycle nofun

end Transitions

end Impl.Keeps

theorem Impl.retireSchedulesFrom_of (R : Impl → Impl → Prop) [IsPreorder Impl R] {s : Impl}
    (order : ∀ {s : Impl} {ids : List ScheduleId}, R s { s with scheduleOrder := ids })
    (drop : ∀ {s : Impl} {k : ScheduleId}, R s (s.dropSchedule k)) (ids : List ScheduleId) :
    R s (retireSchedulesFrom s ids) := by
  induction ids generalizing s with
  | nil => exact order
  | cons front rest ih =>
    unfold retireSchedulesFrom
    split
    · exact order
    · split
      · exact ih
      · split
        · exact order
        · exact trans_of R drop ih

namespace Impl.KeepsIssue

variable {now : Ticks} {wild : Prop} {R : Impl → Impl → Prop} {s : Impl} {id : FlowId}

theorem flows_charge {schedule : ScheduleId} {entry : ScheduleEntry} :
    (((s.countPending schedule).chargeResource entry).chargeReservation entry).flows = s.flows := by
  unfold Impl.chargeReservation
  split <;> rfl

theorem mem_scheduleFlow {schedule : Schedule} {entry : ScheduleEntry} (mem : id ∈ s.flows) :
    id ∈ (s.scheduleFlow schedule entry).flows := by
  rw [Std.ExtTreeMap.mem_iff_isSome_getElem?] at mem ⊢
  simp only [Impl.scheduleFlow, Impl.recordStep, Impl.setLifecycle, Impl.modifyFlow, get_modify]
  split <;> simpa using mem

variable [IsPreorder Impl R]

theorem applyRunEntry (h : KeepsIssue now wild R) {schedule : Schedule} {entry : ScheduleEntry} :
    R s (s.applyRunEntry schedule entry) := by
  unfold Impl.applyRunEntry
  split
  · exact refl_of R s
  · rename_i flow hfound
    split
    · exact refl_of R s
    · split
      · exact refl_of R s
      · have hplace : R s (s.scheduleFlow schedule entry) := h.scheduleFlow
        have hmem : entry.flow ∈ (s.scheduleFlow schedule entry).flows :=
          mem_scheduleFlow (Std.ExtTreeMap.mem_iff_isSome_getElem?.mpr (by rw [hfound]; rfl))
        dsimp only
        refine trans_of R hplace ?_
        generalize s.scheduleFlow schedule entry = s at hmem ⊢
        have hcount : R s (s.countPending schedule.schedule) := h.modifySchedule
        have hcharge : R s ((s.countPending schedule.schedule).chargeResource entry) :=
          trans_of R hcount h.charge
        refine trans_of R hcharge (trans_of R ?_ (h.clock ?_))
        · unfold Impl.chargeReservation
          split
          · exact h.other rfl
          · exact refl_of R _
        · rw [flows_charge]
          exact hmem

theorem retireSchedulesFrom (h : KeepsIssue now wild R) (ids : List ScheduleId) :
    R s (Impl.retireSchedulesFrom s ids) := retireSchedulesFrom_of R h.order (h.other rfl) ids

theorem applySchedule (h : KeepsIssue now wild R) {schedule : Schedule} : R s (s.applySchedule schedule) := by
  have horder : R s { s with scheduleOrder := s.scheduleOrder ++ [schedule.schedule] } := h.order
  have hretain : R s (s.retainSchedule schedule) := by
    refine trans_of R horder ?_
    exact h.other rfl
  refine trans_of R hretain (Keeps.foldl R (fun s entry => ?_) _)
  split
  · exact refl_of R s
  · exact h.applyRunEntry

end Impl.KeepsIssue

/-- What is looked at is the same after as before. -/
abbrev Impl.Same {α : Type} (look : Impl → α) (s s' : Impl) : Prop := look s' = look s

instance {α : Type} {look : Impl → α} : IsPreorder Impl (Same look) where
  refl _ := rfl
  trans _ _ _ h h' := h'.trans h

namespace Impl

theorem keeps_setting {now : Ticks} : KeepsIssue now True (Same setting) where
  alike h := h.setting
  lifecycle _ _ := rfl
  order := rfl
  charge := rfl
  clock _ := by
    unfold advanceGroupClock
    split <;> rfl

theorem look_retireSchedulesFrom {α : Type} (look : Impl → α)
    (order : ∀ {s : Impl} {ids : List ScheduleId}, look { s with scheduleOrder := ids } = look s)
    (drop : ∀ {s : Impl} {k : ScheduleId}, look (s.dropSchedule k) = look s) (s : Impl)
    (ids : List ScheduleId) : look (retireSchedulesFrom s ids) = look s :=
  retireSchedulesFrom_of (Same look) order drop ids

theorem look_normalizeTransientStates {α : Type} (look : Impl → α) {now : Ticks}
    (settle : ∀ {s : Impl} {id : FlowId} {next : FlowLifecycle},
      look (s.setLifecycle id next now) = look s) (s : Impl) :
    look (s.normalizeTransientStates now) = look s :=
  Keeps.normalizeTransientStates_of (Same look) fun _ => settle

theorem flows_retireSchedulesFrom (s : Impl) (ids : List ScheduleId) :
    (retireSchedulesFrom s ids).flows = s.flows := look_retireSchedulesFrom (·.flows) rfl rfl s ids

theorem keeps_order {now : Ticks} : Keeps now True (Same scheduleOrder) where
  alike h := h.order
  lifecycle _ _ := rfl

theorem keeps_books {now : Ticks} : Keeps now True (Same books) where
  alike h := h.books
  lifecycle _ _ := rfl

section Setting

variable {s s' : Impl} (flow : FlowId) (generation : Generation) (schedule : ScheduleId)
  (attempt : DispatchAttemptId) (state : AttemptState) (detail : Bytes) (next : FabricEpoch) (now : Ticks)

theorem setting_applyReadiness (signal : ReadinessSignal) :
    (s.applyReadiness flow generation signal now).setting = s.setting := keeps_setting.applyReadiness

theorem setting_applyRetireFlow : (s.applyRetireFlow flow generation).setting = s.setting := by
  unfold applyRetireFlow
  split <;> rfl

theorem setting_applyAdmit {d : FlowDescriptor} (h : s.applyAdmit d = .ok s') :
    s'.setting = s.setting := by
  unfold applyAdmit at h
  split at h
  · cases h
  · cases h
    rfl

theorem setting_applyUpdate {d : FlowDescriptor} (h : s.applyUpdate d = .ok s') :
    s'.setting = s.setting := by
  unfold applyUpdate at h
  split at h
  · cases h
  · split at h
    · cases h
    · cases h
      rfl

theorem setting_applyAmbiguityResolved (resolution : AmbiguityResolution) :
    (s.applyAmbiguityResolved flow generation resolution now).setting = s.setting :=
  keeps_setting.applyAmbiguityResolved

theorem setting_applyRetireReservation (id : ReservationId) :
    (s.applyRetireReservation id generation).setting = s.setting :=
  (@keeps_setting 0).applyRetireReservation

theorem setting_releaseScheduledEntry : (s.releaseScheduledEntry flow now).setting = s.setting :=
  keeps_setting.releaseScheduledEntry

theorem setting_applyReleaseSchedule : (s.applyReleaseSchedule schedule now).setting = s.setting :=
  keeps_setting.applyReleaseSchedule

theorem setting_applySchedule (schedule : Schedule) :
    (s.applySchedule schedule).setting = s.setting := (@keeps_setting 0).applySchedule

theorem setting_applyAttemptOpened (ticket : DispatchTicket) (nominal : UInt64) :
    (s.applyAttemptOpened ticket nominal now).setting = s.setting := keeps_setting.applyAttemptOpened

theorem setting_applyAttemptStarted : (s.applyAttemptStarted attempt now).setting = s.setting :=
  keeps_setting.applyAttemptStarted

theorem setting_applyAttemptClosed :
    (s.applyAttemptClosed attempt state detail now).setting = s.setting :=
  keeps_setting.applyAttemptClosed fun _ => trivial

theorem setting_applyCancel : (s.applyCancel flow generation now).setting = s.setting :=
  keeps_setting.applyCancel trivial

theorem setting_applyCompletion (e : CompletionEvidence) (credited : UInt64)
    (lifecycle : FlowLifecycle) : (s.applyCompletion e credited lifecycle now).setting = s.setting :=
  keeps_setting.applyCompletion (fun _ => trivial) fun _ _ _ => rfl

theorem setting_normalizeTransientStates : (s.normalizeTransientStates now).setting = s.setting :=
  keeps_setting.normalizeTransientStates

theorem setting_applyEpochAdvance : (s.applyEpochAdvance next now).setting = s.setting :=
  keeps_setting.abandonOpenAttempts

end Setting

theorem books_applyEpochAdvance {s : Impl} {next : FabricEpoch} {now : Ticks} :
    (s.applyEpochAdvance next now).books = s.books := by
  unfold applyEpochAdvance
  generalize ascii _ = detail
  have hkept : (s.abandonOpenAttempts now detail).books = s.books := keeps_books.abandonOpenAttempts
  rw [← hkept]
  generalize s.abandonOpenAttempts now detail = t
  funext a
  have hslots : (t.clearAuthority next).resources =
      t.resources.map fun _ (r : ResourceRuntime) => { r with inFlight := 0 } := rfl
  simp only [books, hslots, Std.ExtTreeMap.getElem?_map, Option.map_map]
  rfl

end Impl

end FlowScheduler

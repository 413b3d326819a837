import FlowScheduler.Steps.Relates
import FlowScheduler.Steps.Reachable

/-! # Relations closed under the edits of a flow

Two edits matter to the pace of the flows: a flow enters a lifecycle, and the
clock of a group follows a stamp. A preorder that respects both, and that looks
at little else, relates the memory before every transition to the memory after
it, and so the memory before and after every call that defines neither a flow
nor a policy.
-/

namespace FlowScheduler

open ByteCodec (Bytes)
open Failing SchedOp Impl OrderedMap

structure Impl.SamePace (s s' : Impl) : Prop where
  flows : ∀ id : FlowId, (s'.flows[id]?).map FlowRuntime.pace = (s.flows[id]?).map FlowRuntime.pace
  clocks : s'.virtualTime = s.virtualTime
  policy : s'.policy = s.policy
  tick : s.lastTick ≤ s'.lastTick

theorem Impl.SameTempo.pace {s s' : Impl} (h : s.SameTempo s') : s.SamePace s' where
  flows id := by
    have htempo := congrArg (Option.map FlowTempo.toFlowPace) (h.flows id)
    rwa [Option.map_map, Option.map_map] at htempo
  clocks := h.clocks
  policy := h.policy
  tick := h.tick

/-- A credit changes neither the pace nor the throttle. -/
theorem Impl.samePace_creditFlow (s : Impl) (id : FlowId) (credited : UInt64) :
    s.SamePace (s.creditFlow id credited) := by
  refine ⟨fun k => ?_, rfl, rfl, UInt64.le_refl _⟩
  simp only [Impl.creditFlow, Impl.modifyFlow, get_modify]
  split
  · rw [Option.map_map]
    rfl
  · rfl

/-- The relation respects the edits made at the tick, and looks only at the tempo of the flows and at
the throttle. -/
structure Impl.Edits (now : Ticks) (R : Impl → Impl → Prop) : Prop extends KeepsIssue now True R where
  quiet : ∀ {s s' : Impl}, s.SameTempo s' → s'.throttle = s.throttle → R s s'
  alike h := quiet h.toSameTempo h.throttle
  order := quiet (.of_eq rfl rfl rfl rfl) rfl
  charge := quiet (.of_eq rfl rfl rfl rfl) rfl

/-- The relation does not look at the throttle either. -/
structure Impl.RoundEdits (now : Ticks) (R : Impl → Impl → Prop) : Prop extends Edits now R where
  recount : ∀ {s s' : Impl}, s.SameTempo s' → R s s'

namespace Impl.Edits

variable {now : Ticks} {R : Impl → Impl → Prop} {s s' : Impl}

theorem other (h : Edits now R) (flows : s'.flows = s.flows) (clocks : s'.virtualTime = s.virtualTime)
    (throttle : s'.throttle = s.throttle) (tick : s'.lastTick = s.lastTick) : R s s' :=
  h.quiet (.of_eq flows clocks (congrArg Throttle.policy throttle) tick) throttle

theorem modifyResource (h : Edits now R) {k : ResourceId} {f : ResourceRuntime → ResourceRuntime} :
    R s (s.modifyResource k f) := h.other rfl rfl rfl rfl

end Impl.Edits

namespace Impl.RoundEdits

variable {now : Ticks} {R : Impl → Impl → Prop} {s : Impl}

theorem clearAuthority (h : RoundEdits now R) {next : FabricEpoch} : R s (s.clearAuthority next) := by
  refine h.recount ⟨fun k => ?_, rfl, rfl, UInt64.le_refl _⟩
  simp only [Impl.clearAuthority, Impl.reindexAll, Std.ExtTreeMap.getElem?_map, Option.map_map]
  rfl

theorem rollPreemptionWindow [IsPreorder Impl R] (h : RoundEdits now R) : R s (s.rollPreemptionWindow now) := by
  unfold Impl.rollPreemptionWindow
  generalize (if s.policy.preemptionIntervalTicks = 0 then 0
    else now / s.policy.preemptionIntervalTicks) = window
  dsimp only
  split
  · exact h.recount (.of_eq rfl rfl rfl rfl)
  · exact refl_of R s

end Impl.RoundEdits

section Programs

variable {now : Ticks} {R : Impl → Impl → Prop} [IsPreorder Impl R] {s : Scheduler} {round : Round}
  {candidate : Candidate} {flow : FlowRuntime}

theorem Relates.succeeds_journal {r : Record} : Relates R (succeeds (SchedOp.journal r)) s := by
  unfold Relates
  rw [exec_succeeds]
  cases h : exec (SchedOp.journal r) s with
  | mk result t =>
    have himpl : t.impl = s.impl := impl_of_append h
    cases result <;> exact himpl ▸ refl_of R _

theorem Relates.grantWindow : Relates R (grantWindow now candidate flow round) s := by
  unfold FlowScheduler.grantWindow
  refine .readImpl_bind ?_
  split
  · exact .pure
  · split <;> exact .pure

namespace Impl.Edits

omit [IsPreorder Impl R] in
theorem touch (h : Edits now R) (tick : Ticks) : Relates R (touch tick) s :=
  h.quiet ⟨fun _ => rfl, rfl, rfl, le_max_tick s.impl.lastTick tick⟩ rfl

theorem closeAttempt (h : Edits now R) {attempt : DispatchAttemptId} {state : AttemptState}
    {detail : Bytes} : Relates R (closeAttempt attempt state detail now) s :=
  .bind .journal fun _ _ => .modifyImpl (h.applyAttemptClosed fun _ => trivial)

theorem reclaimExpiredDeliveries (h : Edits now R) (ids : List ScheduleId) (o : ArbitrationOutcome) :
    Relates R (reclaimExpiredDeliveries now ids o) s := by
  induction ids generalizing s o with
  | nil => exact .pure
  | cons id ids ih =>
    unfold FlowScheduler.reclaimExpiredDeliveries
    refine .readImpl_bind ?_
    split
    · exact ih o
    · split
      · exact ih o
      · split
        · exact .pure
        · refine .bind .succeeds_journal fun done t => ?_
          split
          · exact .modifyImpl_bind h.applyReleaseSchedule fun t => ih _
          · exact .pure

theorem stopOverdue (h : Edits now R) (attempts : List DispatchAttemptId) :
    Relates R (stopOverdue now attempts) s := by
  induction attempts generalizing s with
  | nil => exact .pure
  | cons attempt rest ih =>
    refine .bind h.closeAttempt fun _ t => ?_
    exact .modifyImpl_bind (h.other rfl rfl rfl rfl) fun t => ih

theorem issueSchedule (h : Edits now R) {entries : List ScheduleEntry} :
    Relates R (issueSchedule entries now) s := by
  refine .readImpl_bind (.modifyImpl_bind (h.other rfl rfl rfl rfl) fun t => ?_)
  refine .journal_bind fun t _ => .modifyImpl_bind h.applySchedule fun t => .readImpl_bind ?_
  refine .lift_bind fun _ _ => .readImpl_bind (.lift_bind fun _ _ => ?_)
  exact .modifyImpl_bind (h.other rfl rfl rfl rfl) fun _ => .pure

theorem concludeRound (h : Edits now R) : Relates R (concludeRound now round) s := by
  have hsettle : ∀ t : Scheduler, R t.impl
      (t.impl.normalizeTransientStates now).maybeRetireSchedules := fun t =>
    trans_of R h.normalizeTransientStates (h.retireSchedulesFrom _)
  unfold FlowScheduler.concludeRound
  dsimp only
  split
  · exact .readImpl_bind (.bind .pure fun _ t => .modifyImpl_bind (hsettle t) fun _ => .pure)
  · exact .bind h.issueSchedule fun _ t => .modifyImpl_bind (hsettle t) fun _ => .pure

theorem admitFlow {d : FlowDescriptor} (head : ∀ i i', i.applyAdmit d = .ok i' → R i i') :
    Relates R (admitFlow d) s := by
  refine .readImpl_bind (.lift_bind fun _ _ => .journal_bind fun t _ => .readImpl_bind ?_)
  exact .lift_bind fun admitted hadmit => .modifyImpl (head _ _ hadmit)

theorem updateFlow {d : FlowDescriptor} (h : Edits s.impl.lastTick R)
    (head : ∀ i i', i.applyUpdate d = .ok i' → R i i') : Relates R (updateFlow d) s := by
  refine .readImpl_bind (.lift_bind fun _ _ => .journal_bind fun t ht => .readImpl_bind ?_)
  refine .lift_bind fun updated hupdate => .modifyImpl ?_
  exact trans_of R (head _ _ hupdate) (ht ▸ h.releaseScheduledEntry)

theorem beginDispatch (h : Edits now R) {schedule : ScheduleId} {generation : Generation}
    {ordinal : UInt32} {worker : WorkerId} {boot : BootId} :
    Relates R (beginDispatch schedule generation ordinal worker boot now) s := by
  refine .bind (h.touch now) fun _ t => .readImpl_bind ?_
  refine .lift_bind fun p _ => .journal_bind fun t _ => ?_
  refine .modifyImpl_bind (trans_of R h.applyAttemptOpened h.modifySchedule) fun t => .readImpl_bind ?_
  exact .lift_bind fun _ _ => .modifyImpl_bind (h.other rfl rfl rfl rfl) fun _ => .pure

theorem abandonAttempt (h : Edits now R) {attempt : DispatchAttemptId} {reason : Bytes} :
    Relates R (abandonAttempt attempt reason now) s := by
  refine .bind (h.touch now) fun _ t => .readImpl_bind (.lift_bind fun found _ => ?_)
  split
  · exact .bind h.closeAttempt fun _ _ => .modifyImpl h.normalizeTransientStates
  · exact .pure

theorem preemptAttempt (h : Edits now R) {attempt : DispatchAttemptId} {reason : Bytes} :
    Relates R (preemptAttempt attempt reason now) s := by
  refine .bind (h.touch now) fun _ t => .readImpl_bind ?_
  refine .lift_bind fun found _ => .lift_bind fun _ _ => ?_
  refine .bind h.closeAttempt fun _ t => .modifyImpl ?_
  have hcount : R t.impl { t.impl with preemptionsIssued := t.impl.preemptionsIssued + 1 } :=
    h.other rfl rfl rfl rfl
  exact trans_of R hcount h.normalizeTransientStates

/-- A completion that is not applied changes nothing that matters; one that is does so before the
credit neither. -/
theorem complete (h : Edits now R) (e : CompletionEvidence) :
    ∃ i, s.impl.SameTempo i ∧ i.throttle = s.impl.throttle ∧
      ((exec (complete e now) s).2.impl = i ∨ (∃ flow attempt, s.impl.Commits e now flow attempt) ∧
        R (i.creditFlow e.flow (creditOf e)) (exec (complete e now) s).2.impl) := by
  rw [FlowScheduler.complete, exec_touch_bind, exec_modifyImpl_bind, exec_readImpl_bind]
  have htouch : s.impl.SameTempo { s.impl with
      lastTick := max s.impl.lastTick now, completionReports := s.impl.completionReports + 1 } :=
    ⟨fun _ => rfl, rfl, rfl, le_max_tick s.impl.lastTick now⟩
  split
  · exact ⟨_, htouch.trans Alike.countRejected.toSameTempo, Alike.countRejected.throttle, .inl rfl⟩
  · exact ⟨_, htouch.trans Alike.countDuplicate.toSameTempo, rfl, .inl rfl⟩
  · rename_i flow attempt hverdict
    have hcommits : s.impl.Commits e now flow attempt := commits_of_verdict hverdict
    dsimp only
    rw [exec_bind]
    cases happend : exec (journal _) _ with
    | mk result t =>
      have himpl := impl_of_append happend
      cases result with
      | error _ => exact ⟨_, htouch, rfl, .inl himpl⟩
      | ok _ =>
        obtain ⟨i, halike, hcommit⟩ := h.applyCompletion_of_found (s := t.impl) (creditOf e)
          (lifecycleAfterCompletion e flow) (fun _ => trivial)
          (by rw [himpl]; exact hcommits.retained) (by rw [himpl]; exact hcommits.found)
        rw [himpl] at halike
        refine ⟨i, htouch.trans halike.toSameTempo, halike.throttle, .inr ⟨⟨flow, attempt, hcommits⟩, ?_⟩⟩
        dsimp only
        rw [exec_modifyImpl_bind, exec_readImpl_bind, exec_pure]
        refine trans_of R hcommit ?_
        dsimp only
        split
        · exact trans_of R h.resumeFlow h.normalizeTransientStates
        · exact h.normalizeTransientStates

section Rounds

variable (h : Edits now R)
  (place : ∀ {candidate flow resource round s},
    Relates R (placeCandidate now candidate flow resource round) s)
  (roll : ∀ {i : Impl}, R i (i.rollPreemptionWindow now))

include h place

theorem considerCandidate {limit : ℕ} :
    Relates R (considerCandidate now limit round candidate) s := by
  unfold FlowScheduler.considerCandidate
  refine .readImpl_bind ?_
  split
  · exact .pure
  · split
    · exact .pure
    · split
      · exact .bind (.modifyImpl h.deferUnready) fun _ _ => .pure
      · split
        · exact .pure
        · split
          · exact .pure
          · split
            · exact .pure
            · exact place

theorem considerCandidates {limit : ℕ} (candidates : List Candidate) :
    Relates R (considerCandidates now limit candidates round) s := by
  induction candidates generalizing s round with
  | nil => exact .pure
  | cons candidate rest ih => exact .bind (h.considerCandidate place) fun _ _ => ih

include roll
omit place

theorem openRound : Relates R (openRound now) s := by
  unfold FlowScheduler.openRound
  refine .readImpl_bind (.lift_bind fun _ hpassed => ?_)
  have hclock : s.impl.lastTick ≤ now := UInt64.not_lt.mp (refuseIf_eq_ok.mp hpassed)
  refine .modifyImpl_bind (h.quiet ⟨fun _ => rfl, rfl, rfl, hclock⟩ rfl) fun t => .readImpl_bind ?_
  refine .bind (h.reclaimExpiredDeliveries _ _) fun o t => .readImpl_bind ?_
  have hrefresh : R t.impl (t.impl.refreshLifecycles now o).1 := h.refreshLifecycles
  refine .modifyImpl_bind hrefresh fun t => .readImpl_bind ?_
  refine .bind (h.stopOverdue _) fun _ t => .readImpl_bind ?_
  have hrank : R t.impl (t.impl.rankCandidates now).1 := h.rankCandidates
  exact .modifyImpl_bind (trans_of R hrank roll) fun _ => .pure

include place

theorem arbitrate : Relates R (arbitrate now) s := by
  rw [arbitrate_eq, decideGrants_eq]
  refine .bind (.bind (h.openRound roll) fun _ _ => .readImpl_bind ?_) fun round t => ?_
  · exact h.considerCandidates place _
  · exact h.concludeRound

end Rounds

end Impl.Edits

namespace Impl.RoundEdits

theorem placeCandidate (h : RoundEdits now R) {flow : FlowRuntime} {resource : ResourceRuntime} :
    Relates R (placeCandidate now candidate flow resource round) s := by
  unfold FlowScheduler.placeCandidate
  refine .modifyImpl_bind h.toEdits.modifyResource fun t => ?_
  split
  · refine .readImpl_bind ?_
    split
    · exact .pure
    · refine .bind ?_ fun _ _ => .grantWindow
      refine .bind h.toEdits.closeAttempt fun _ _ => ?_
      exact .modifyImpl_bind (h.recount (.of_eq rfl rfl rfl rfl)) fun _ => .pure
  · exact .grantWindow

theorem arbitrate (h : RoundEdits now R) : Relates R (arbitrate now) s :=
  h.toEdits.arbitrate h.placeCandidate h.rollPreemptionWindow

theorem advanceEpoch (h : RoundEdits now R) {reason : EpochReason} :
    Relates R (advanceEpoch reason now) s := by
  refine .bind (h.toEdits.touch now) fun _ t => .readImpl_bind (.lift_bind fun _ _ => ?_)
  refine .journal_bind fun t _ => ?_
  exact .modifyImpl_bind (trans_of R h.toEdits.abandonOpenAttempts h.clearAuthority) fun _ => .pure

end Impl.RoundEdits

end Programs

/-- The tick the call dates its changes with: its own, or the clock when it carries none. -/
def Call.tick (clock : Ticks) : Call → Ticks
  | .cancelFlow _ _ _ now | .notifyReadiness _ _ _ now | .resolveAmbiguous _ _ _ now
  | .advanceEpoch _ now | .arbitrate now | .releaseSchedule _ _ now | .beginDispatch _ _ _ _ _ now
  | .markStarted _ now | .abandonAttempt _ _ now | .preemptAttempt _ _ now | .complete _ now => now
  | .registerResource _ | .registerReservation _ | .retireReservation _ _ | .registerPriorityClass _
  | .registerQosClass _ | .admitFlow _ | .updateFlow _ | .retireFlow _ _ | .installPolicy _
  | .revalidate _ _ | .checkpoint => clock

def Call.defines : Call → Bool
  | .admitFlow _ | .updateFlow _ | .retireFlow _ _ | .installPolicy _ => true
  | _ => false

def Call.recounts : Call → Bool
  | .advanceEpoch _ _ | .arbitrate _ => true
  | _ => false

section Calls

variable {R : Impl → Impl → Prop} [IsPreorder Impl R] {s : Scheduler} {c : Call}

theorem Relates.call {α : Type} {m : SchedOp α} {f : α → Response}
    (op : c.op = m >>= fun a => Pure.pure (f a)) (h : Relates R m s) : R s.impl (s.call c).2.impl := by
  rw [Scheduler.call, op]
  exact h.bind fun _ _ => .pure

theorem Impl.Edits.call (h : Edits (c.tick s.impl.lastTick) R) (plain : c.defines = false)
    (calm : c.recounts = false)
    (credit : (∃ e now, c = .complete e now) → ∀ s id n, R s (s.creditFlow id n)) :
    R s.impl (s.call c).2.impl := by
  cases c with
  | admitFlow | updateFlow | retireFlow | installPolicy => cases plain
  | advanceEpoch | arbitrate => cases calm
  | registerResource d | registerReservation d | registerPriorityClass d | registerQosClass d =>
    exact Relates.call rfl (.guarded fun _ => h.other rfl rfl rfl rfl)
  | retireReservation k generation =>
    exact Relates.call rfl (.conditional fun _ => h.applyRetireReservation)
  | cancelFlow id generation reason now =>
    have hcancel : ∀ i : Impl, R i ((i.applyCancel id generation now).normalizeTransientStates now) :=
      fun i => trans_of R (h.applyCancel trivial) h.normalizeTransientStates
    exact Relates.call rfl (.bind (h.touch now) fun _ _ => .readImpl_bind (.conditional hcancel))
  | notifyReadiness id generation signal now =>
    exact Relates.call rfl (.bind (h.touch now) fun _ _ =>
      .readImpl_bind (.conditional fun _ => h.applyReadiness))
  | resolveAmbiguous id generation resolution now =>
    exact Relates.call rfl (.bind (h.touch now) fun _ _ =>
      .readImpl_bind (.guarded fun _ => h.applyAmbiguityResolved))
  | releaseSchedule k generation now =>
    have hrelease : ∀ i : Impl, R i ((i.applyReleaseSchedule k now).normalizeTransientStates now) :=
      fun i => trans_of R h.applyReleaseSchedule h.normalizeTransientStates
    exact Relates.call rfl (.bind (h.touch now) fun _ _ => .readImpl_bind (.guarded hrelease))
  | beginDispatch k generation ordinal worker boot now => exact Relates.call rfl h.beginDispatch
  | revalidate ticket now => exact Relates.call rfl (.readImpl_bind .lift)
  | markStarted ticket now =>
    exact Relates.call rfl (.bind (h.touch now) fun _ _ =>
      .readImpl_bind (.conditional fun _ => h.applyAttemptStarted))
  | abandonAttempt attempt reason now => exact Relates.call rfl h.abandonAttempt
  | preemptAttempt attempt reason now => exact Relates.call rfl h.preemptAttempt
  | complete e now =>
    rw [Scheduler.call, Call.op, exec_done]
    obtain ⟨i, htempo, hthrottle, hsame | ⟨-, hrest⟩⟩ := h.complete (s := s) e
    · exact hsame ▸ h.quiet htempo hthrottle
    · exact trans_of R (h.quiet htempo hthrottle) (trans_of R (credit ⟨e, now, rfl⟩ i _ _) hrest)
  | checkpoint =>
    rw [impl_checkpoint]
    exact refl_of R _

theorem Impl.RoundEdits.call (h : RoundEdits (c.tick s.impl.lastTick) R) (plain : c.defines = false)
    (credit : (∃ e now, c = .complete e now) → ∀ s id n, R s (s.creditFlow id n)) :
    R s.impl (s.call c).2.impl := by
  by_cases calm : c.recounts = false
  · exact h.toEdits.call plain calm credit
  · cases c with
    | advanceEpoch reason now => exact Relates.call rfl h.advanceEpoch
    | arbitrate now => exact Relates.call rfl h.arbitrate
    | _ => exact absurd rfl calm

end Calls

def Impl.IsReady (s : Impl) (id : FlowId) : Prop :=
  ∃ r : FlowRuntime, s.flows[id]? = some r ∧ r.lifecycle = .ready

/-- The flows are those of before, with whatever descriptor, and new ones that wait. -/
structure Impl.Redefines (s i : Impl) : Prop where
  flows : ∀ (id : FlowId) (r : FlowRuntime), i.flows[id]? = some r →
    (∃ r₀, s.flows[id]? = some r₀ ∧ r = { r₀ with descriptor := r.descriptor }) ∨
      s.flows[id]? = none ∧ r.lifecycle = .waiting ∧ r.virtualFinish = 0
  clocks : i.virtualTime = s.virtualTime
  tick : i.lastTick = s.lastTick

section Defining

variable {s t : Impl} {d : FlowDescriptor}

namespace Impl.Redefines

theorem of_flows (clocks : t.virtualTime = s.virtualTime) (tick : t.lastTick = s.lastTick)
    (flows : ∀ (id : FlowId) (r : FlowRuntime), t.flows[id]? = some r → s.flows[id]? = some r) :
    s.Redefines t :=
  ⟨fun id r hr => .inl ⟨r, flows id r hr, rfl⟩, clocks, tick⟩

theorem refl (s : Impl) : s.Redefines s := of_flows rfl rfl fun _ _ h => h

theorem applyRetireFlow {id : FlowId} {generation : Generation} :
    s.Redefines (s.applyRetireFlow id generation) := by
  unfold Impl.applyRetireFlow
  split
  · exact refl s
  · refine of_flows rfl rfl fun k r hr => ?_
    rw [get_erase] at hr
    split at hr
    · cases hr
    · exact hr

theorem applyAdmit (absent : s.flows[d.flow]? = none) (h : s.applyAdmit d = .ok t) :
    s.Redefines t := by
  unfold Impl.applyAdmit at h
  split at h
  · cases h
  · cases h
    refine ⟨fun k r hr => ?_, rfl, rfl⟩
    rw [get_insert] at hr
    split at hr
    · rename_i hsame
      subst hsame
      obtain rfl := Option.some.inj hr
      exact .inr ⟨absent, rfl, rfl⟩
    · exact .inl ⟨r, hr, rfl⟩

theorem applyUpdate (h : s.applyUpdate d = .ok t) :
    s.Redefines t ∧ t.policy = s.policy ∧
      ∀ id : FlowId, s.flows[id]? = none → t.flows[id]? = none := by
  unfold Impl.applyUpdate at h
  split at h
  · cases h
  · split at h
    · cases h
    · cases h
      refine ⟨⟨fun k r' hr' => .inl ?_, rfl, rfl⟩, rfl, fun k hk => ?_⟩
      · simp only [Impl.modifyFlow, get_modify] at hr'
        split at hr'
        · obtain ⟨r, hr, rfl⟩ := Option.map_eq_some_iff.mp hr'
          exact ⟨r, hr, rfl⟩
        · exact ⟨r', hr', rfl⟩
      · simp only [Impl.modifyFlow, get_modify, hk, Option.map_none, ite_self]

end Impl.Redefines

/-- The common shape of the calls that define a flow: check, append, and apply what may yet be
refused. -/
theorem impl_checked {s : Scheduler} {guard : Status} {r : Record} {p : Impl → Result Impl}
    {f : Impl → Impl → Impl} {t : Scheduler}
    (h : (exec (liftM guard >>= fun _ => journal r >>= fun _ => readImpl >>= fun i =>
      liftM (p i) >>= fun i' => modifyImpl (f i')) s).2 = t) :
    t.impl = s.impl ∨ guard = .ok () ∧ ∃ i', p s.impl = .ok i' ∧ t.impl = f i' s.impl := by
  subst h
  rw [exec_lift_bind]
  cases guard with
  | error e => exact .inl rfl
  | ok u =>
    dsimp only
    rw [exec_bind]
    cases happend : exec (journal r) s with
    | mk result t =>
      have himpl := impl_of_append happend
      cases result with
      | error e => exact .inl himpl
      | ok v =>
        dsimp only
        rw [exec_readImpl_bind, exec_lift_bind, himpl]
        cases hp : p s.impl with
        | error e => exact .inl himpl
        | ok i' => exact .inr ⟨rfl, i', rfl, congrArg (f i') himpl⟩

/-- A call that defines a flow or a policy does nothing else, but that an update takes back a window
of the flow. -/
theorem redefines_call (s : Scheduler) {c : Call} (defines : c.defines = true) :
    ∃ i, s.impl.Redefines i ∧ ((s.call c).2.impl = i ∨
      i.policy = s.impl.policy ∧ (∀ id : FlowId, s.impl.flows[id]? = none → i.flows[id]? = none) ∧
        ∃ id, (s.call c).2.impl = i.releaseScheduledEntry id s.impl.lastTick) := by
  cases c with
  | admitFlow d =>
    have hdone : (s.call (.admitFlow d)).2 = (exec (admitFlow d) s).2 := exec_done _ _
    rcases impl_checked (f := fun i' _ => i') (t := (exec (admitFlow d) s).2) rfl with
      hsame | ⟨hguard, i', hadmit, himpl⟩
    · exact ⟨s.impl, .refl _, .inl (hdone ▸ hsame)⟩
    · have habsent : d.flow ∉ s.impl.flows := by
        simp only [Impl.admitFlowGuard, bind_eq_ok, refuseIf_eq_ok] at hguard
        tauto
      exact ⟨i', .applyAdmit (Std.ExtTreeMap.getElem?_eq_none habsent) hadmit, .inl (hdone ▸ himpl)⟩
  | updateFlow d =>
    have hdone : (s.call (.updateFlow d)).2 = (exec (updateFlow d) s).2 := exec_done _ _
    rcases impl_checked (f := fun i' i => i'.releaseScheduledEntry d.flow i.lastTick)
        (t := (exec (updateFlow d) s).2) rfl with hsame | ⟨-, i', hupdate, himpl⟩
    · exact ⟨s.impl, .refl _, .inl (hdone ▸ hsame)⟩
    · obtain ⟨hdefines, hpolicy, hkeys⟩ := Redefines.applyUpdate hupdate
      exact ⟨i', hdefines, .inr ⟨hpolicy, hkeys, d.flow, hdone ▸ himpl⟩⟩
  | retireFlow id generation =>
    have hdone : (s.call (.retireFlow id generation)).2 = (exec (retireFlow id generation) s).2 :=
      exec_done _ _
    have h : (exec (retireFlow id generation) s).2.impl = s.impl ∨
        (s.impl.retireFlowGuard id generation = .ok () ∧
          (exec (retireFlow id generation) s).2.impl = s.impl.applyRetireFlow id generation) :=
      impl_guarded
    rcases h with hsame | ⟨-, hretired⟩
    · exact ⟨s.impl, .refl _, .inl (hdone ▸ hsame)⟩
    · exact ⟨_, .applyRetireFlow, .inl (hdone ▸ hretired)⟩
  | installPolicy policy =>
    have hdone : (s.call (.installPolicy policy)).2 = (exec (installPolicy policy) s).2 :=
      exec_done _ _
    have h : (exec (installPolicy policy) s).2.impl = s.impl ∨
        (s.impl.installPolicyGuard policy = .ok () ∧
          (exec (installPolicy policy) s).2.impl = s.impl.applyPolicy policy) := impl_guarded
    rcases h with hsame | ⟨-, hinstalled⟩
    · exact ⟨s.impl, .refl _, .inl (hdone ▸ hsame)⟩
    · exact ⟨s.impl.applyPolicy policy, .of_flows rfl rfl fun _ _ h => h, .inl (hdone ▸ hinstalled)⟩
  | _ => cases defines

end Defining

/-- The clock has not gone back. -/
def Impl.Onward (s s' : Impl) : Prop := s.lastTick ≤ s'.lastTick

instance : IsPreorder Impl Onward where
  refl _ := UInt64.le_refl _
  trans _ _ _ := UInt64.le_trans

theorem Impl.Onward.edits {now : Ticks} : RoundEdits now Onward where
  quiet h _ := h.tick
  lifecycle _ _ := UInt64.le_refl _
  clock _ := by
    unfold Impl.advanceGroupClock
    split <;> exact UInt64.le_refl _
  recount h := h.tick

theorem lastTick_le_call (s : Scheduler) (c : Call) : s.impl.lastTick ≤ (s.call c).2.impl.lastTick := by
  cases plain : c.defines with
  | false => exact Onward.edits.call plain fun _ _ _ _ => UInt64.le_refl _
  | true =>
    obtain ⟨i, hdefines, hsame | ⟨-, -, id, hreleased⟩⟩ := redefines_call s plain
    · rw [hsame, hdefines.tick]
      exact UInt64.le_refl _
    · rw [hreleased, ← hdefines.tick]
      exact Onward.edits.releaseScheduledEntry

end FlowScheduler

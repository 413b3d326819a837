import FlowScheduler.Steps.Runs

/-! # The calls other than arbitration

Each makes only the moves of its kind: a refused call stops before its append,
and an accepted one appends the record it applies.
-/

namespace FlowScheduler

open ByteCodec (Bytes)
open Failing SchedOp Impl

variable {s : Scheduler} {c : Call}

theorem makes_touch_bind {α : Type} {now : Ticks} {k : Unit → SchedOp α}
    (h : ∀ s : Scheduler, now ≤ s.impl.lastTick → Makes (CallMove c) s (exec (k ()) s).2) :
    Makes (CallMove c) s (exec (touch now >>= k) s).2 :=
  .modifyImpl_bind .touch fun t ht => h t (by rw [ht]; exact tick_le_max s.impl.lastTick now)

theorem makes_guarded {guard : Status} {r : Record} {f : Impl → Impl}
    (move : guard = .ok () → CallMove c s.impl (some r) (f s.impl)) :
    Makes (CallMove c) s (exec (liftM guard >>= fun _ => journal r >>= fun _ => modifyImpl f) s).2 := by
  rw [exec_lift_bind]
  cases hg : guard with
  | error e => exact .refl
  | ok u => exact .journal_modify (move hg)

/-- Such a call leaves the memory alone or has passed its check and is applied. -/
theorem impl_guarded {guard : Status} {r : Record} {f : Impl → Impl} :
    (exec (liftM guard >>= fun _ => journal r >>= fun _ => modifyImpl f) s).2.impl = s.impl ∨
      (guard = .ok () ∧
        (exec (liftM guard >>= fun _ => journal r >>= fun _ => modifyImpl f) s).2.impl =
          f s.impl) := by
  rw [exec_lift_bind]
  cases guard with
  | error e => exact .inl rfl
  | ok u =>
    dsimp only
    rw [exec_bind]
    cases happend : exec (journal r) s with
    | mk result t =>
      cases result with
      | error e => exact .inl (impl_of_append happend)
      | ok v => exact .inr ⟨rfl, congrArg f (impl_of_append happend)⟩

theorem makes_registerResource (d : ResourceDescriptor) :
    Makes (CallMove (.registerResource d)) s (exec (registerResource d) s).2 :=
  makes_guarded fun h => .registerResource h

theorem makes_registerReservation (d : ReservationDescriptor) :
    Makes (CallMove (.registerReservation d)) s (exec (registerReservation d) s).2 :=
  makes_guarded fun h => .registerReservation h

theorem makes_registerPriorityClass (d : PriorityClassDescriptor) :
    Makes (CallMove (.registerPriorityClass d)) s (exec (registerPriorityClass d) s).2 :=
  makes_guarded fun h => .registerPriorityClass h

theorem makes_registerQosClass (d : QoSClassDescriptor) :
    Makes (CallMove (.registerQosClass d)) s (exec (registerQosClass d) s).2 :=
  makes_guarded fun h => .registerQosClass h

theorem makes_retireFlow (flow : FlowId) (generation : Generation) :
    Makes (CallMove (.retireFlow flow generation)) s (exec (retireFlow flow generation) s).2 :=
  makes_guarded fun h => .retireFlow h

theorem makes_installPolicy (policy : SchedulingPolicy) :
    Makes (CallMove (.installPolicy policy)) s (exec (installPolicy policy) s).2 :=
  makes_guarded fun h => .installPolicy h

theorem makes_resolveAmbiguous (flow : FlowId) (generation : Generation)
    (resolution : AmbiguityResolution) (now : Ticks) :
    Makes (CallMove (.resolveAmbiguous flow generation resolution now)) s (exec (resolveAmbiguous flow generation resolution now) s).2 :=
  makes_touch_bind fun _ clock => makes_guarded fun h => .resolve h clock

theorem makes_conditional {guard : Result Bool} {r : Record} {f : Impl → Impl}
    (move : guard = .ok true → CallMove c s.impl (some r) (f s.impl)) :
    Makes (CallMove c) s (exec (liftM guard >>= fun b =>
      if b = true then journal r >>= fun _ => modifyImpl f else pure ()) s).2 := by
  rw [exec_lift_bind]
  cases hg : guard with
  | error e => exact .refl
  | ok b =>
    cases b with
    | false => exact .refl
    | true => exact .journal_modify (move hg)

theorem makes_retireReservation (id : ReservationId) (generation : Generation) :
    Makes (CallMove (.retireReservation id generation)) s (exec (retireReservation id generation) s).2 :=
  makes_conditional fun h => .retireReservation h

theorem makes_cancelFlow (flow : FlowId) (generation : Generation) (reason : Bytes) (now : Ticks) :
    Makes (CallMove (.cancelFlow flow generation reason now)) s (exec (cancelFlow flow generation reason now) s).2 :=
  makes_touch_bind fun _ clock => makes_conditional fun h => .cancel h clock

theorem makes_notifyReadiness (flow : FlowId) (generation : Generation) (signal : ReadinessSignal)
    (now : Ticks) : Makes (CallMove (.notifyReadiness flow generation signal now)) s (exec (notifyReadiness flow generation signal now) s).2 :=
  makes_touch_bind fun _ clock => makes_conditional fun h => .notify h clock

theorem makes_markStarted (ticket : DispatchTicket) (now : Ticks) :
    Makes (CallMove (.markStarted ticket now)) s (exec (markStarted ticket now) s).2 := by
  refine makes_touch_bind fun s clock => ?_
  rw [exec_readImpl_bind]
  refine makes_conditional fun h => ?_
  exact .start h clock

theorem makes_admitFlow_first (d : FlowDescriptor) :
    Makes (fun u r i => u = s.impl ∧ CallMove (.admitFlow d) u r i) s (exec (admitFlow d) s).2 := by
  rw [admitFlow, exec_readImpl_bind, exec_lift_bind]
  cases hg : s.impl.admitFlowGuard d with
  | error e => exact .refl
  | ok u =>
    refine .journal_bind fun t ht => ?_
    rw [exec_readImpl_bind, exec_lift_bind, impl_of_append ht]
    cases ha : s.impl.applyAdmit d with
    | error e => exact .journaled_self ⟨rfl, .admitRefused hg ha⟩ ht
    | ok admitted => exact .journaled ⟨rfl, .admitFlow hg ha⟩ ht

theorem makes_admitFlow (d : FlowDescriptor) : Makes (CallMove (.admitFlow d)) s (exec (admitFlow d) s).2 :=
  (makes_admitFlow_first d).mono fun _ _ _ move => move.2

theorem makes_updateFlow_first (d : FlowDescriptor) :
    Makes (fun u r i => u = s.impl ∧ CallMove (.updateFlow d) u r i) s (exec (updateFlow d) s).2 := by
  rw [updateFlow, exec_readImpl_bind, exec_lift_bind]
  cases hg : s.impl.updateFlowGuard d with
  | error e => exact .refl
  | ok u =>
    refine .journal_bind fun t ht => ?_
    rw [exec_readImpl_bind, exec_lift_bind, impl_of_append ht]
    cases ha : s.impl.applyUpdate d with
    | error e => exact .journaled_self ⟨rfl, .updateRefused hg ha⟩ ht
    | ok updated =>
      simp only [exec_modifyImpl, impl_of_append ht]
      exact .journaled ⟨rfl, .update hg ha⟩ ht

theorem makes_updateFlow (d : FlowDescriptor) : Makes (CallMove (.updateFlow d)) s (exec (updateFlow d) s).2 :=
  (makes_updateFlow_first d).mono fun _ _ _ move => move.2

theorem makes_advanceEpoch (reason : EpochReason) (now : Ticks) :
    Makes (CallMove (.advanceEpoch reason now)) s (exec (advanceEpoch reason now) s).2 := by
  refine makes_touch_bind fun s clock => ?_
  rw [exec_readImpl_bind, exec_lift_bind]
  cases ha : s.impl.epoch.advance with
  | error e => exact .refl
  | ok next =>
    refine .journal_bind fun t ht => ?_
    rw [exec_modifyImpl_bind, impl_of_append ht]
    exact .journaled (.advanceEpoch ha clock) ht

theorem makes_normalize {now : Ticks} :
    Makes (CallMove c) s { s with impl := s.impl.normalizeTransientStates now } :=
  .silent (.common .normalize)

theorem makes_releaseSchedule (schedule : ScheduleId) (generation : Generation) (now : Ticks) :
    Makes (CallMove (.releaseSchedule schedule generation now)) s (exec (releaseSchedule schedule generation now) s).2 := by
  refine makes_touch_bind fun s clock => ?_
  rw [exec_readImpl_bind, exec_lift_bind]
  cases s.impl.releaseScheduleGuard schedule generation with
  | error e => exact .refl
  | ok u =>
    refine .journal_bind fun t ht => ?_
    rw [exec_modifyImpl, impl_of_append ht]
    exact (Makes.journaled (.common (.release clock)) ht).trans makes_normalize

theorem exec_closeAttempt_bind {α : Type} {attempt : DispatchAttemptId} {state : AttemptState}
    {detail : Bytes} {now : Ticks} {k : Unit → SchedOp α} :
    exec (closeAttempt attempt state detail now >>= k) s =
      exec (journal (.attemptClosed attempt state now detail) >>= fun _ =>
        modifyImpl (·.applyAttemptClosed attempt state detail now) >>= k) s := by
  rw [closeAttempt, bind_assoc]

theorem makes_abandonAttempt (attempt : DispatchAttemptId) (reason : Bytes) (now : Ticks) :
    Makes (CallMove (.abandonAttempt attempt reason now)) s (exec (abandonAttempt attempt reason now) s).2 := by
  refine makes_touch_bind fun s clock => ?_
  rw [exec_readImpl_bind, exec_lift_bind]
  cases s.impl.retainedAttempt attempt with
  | error e => exact .refl
  | ok found =>
    dsimp only
    split
    · rw [exec_closeAttempt_bind]
      refine .journal_bind fun t ht => ?_
      rw [exec_modifyImpl_bind, exec_modifyImpl, impl_of_append ht]
      exact (Makes.journaled (.common (.close (.inr rfl) clock)) ht).trans makes_normalize
    · exact .refl

theorem makes_preemptAttempt (attempt : DispatchAttemptId) (reason : Bytes) (now : Ticks) :
    Makes (CallMove (.preemptAttempt attempt reason now)) s (exec (preemptAttempt attempt reason now) s).2 := by
  refine makes_touch_bind fun s clock => ?_
  rw [exec_readImpl_bind, exec_lift_bind]
  cases s.impl.retainedAttempt attempt with
  | error e => exact .refl
  | ok found =>
    dsimp only
    rw [exec_lift_bind]
    cases refuseIf (found.state.isTerminal) .completionForClosedAttempt
        "attempt already reached a terminal state" with
    | error e => exact .refl
    | ok u =>
      dsimp only
      rw [exec_closeAttempt_bind]
      refine .journal_bind fun t ht => ?_
      rw [exec_modifyImpl_bind, exec_modifyImpl, impl_of_append ht]
      refine (Makes.journaled (.common (.close (.inl rfl) clock) fun _ _ _ => rfl) ht).trans ?_
      exact (Makes.silent (.common .counters)).trans makes_normalize

theorem exec_advanceAttempt (ticket : DispatchTicket) :
    (exec (readImpl >>= fun i => liftM i.nextAttempt.advance >>= fun next =>
      modifyImpl (fun i => { i with nextAttempt := next }) >>= fun _ => pure ticket) s).2 =
      { s with impl := s.impl.advanceAttempt } := by
  rw [exec_readImpl_bind, exec_lift_bind]
  unfold advanceAttempt
  cases s.impl.nextAttempt.advance <;> rfl

theorem makes_beginDispatch (schedule : ScheduleId) (generation : Generation) (ordinal : UInt32)
    (worker : WorkerId) (boot : BootId) (now : Ticks) :
    Makes (CallMove (.beginDispatch schedule generation ordinal worker boot now)) s (exec (beginDispatch schedule generation ordinal worker boot now) s).2 := by
  refine makes_touch_bind fun s clock => ?_
  rw [exec_readImpl_bind, exec_lift_bind]
  cases hg : s.impl.beginDispatchGuard schedule generation ordinal worker boot now with
  | error e => exact .refl
  | ok found =>
    obtain ⟨entry, flow⟩ := found
    refine .journal_bind fun t ht => ?_
    rw [exec_modifyImpl_bind, exec_advanceAttempt, impl_of_append ht]
    have h := Makes.journaled (CallMove.dispatch hg clock) ht
    exact h

theorem setLifecycle_self {i : Impl} {id : FlowId} {lifecycle : FlowLifecycle} {now : Ticks}
    (h : ∀ r, i.flows[id]? = some r → r.lifecycle = lifecycle) :
    i.setLifecycle id lifecycle now = i := by
  unfold setLifecycle
  rw [OrderedMap.modify_eq_self fun r hr => by simp [FlowRuntime.setLifecycle, h r hr]]
  cases hr : i.flows[id]? with
  | none => rfl
  | some r => simp [h r hr]

theorem makes_resumeFlow {flow : FlowId} {credited : UInt64} {now : Ticks}
    (h : ∀ r, s.impl.flows[flow]? = some r → r.lifecycle = .waiting) :
    Makes (CallMove c) s { s with impl := s.impl.resumeFlow flow credited now } := by
  unfold resumeFlow
  cases hr : s.impl.flows[flow]? with
  | none => exact .refl
  | some r =>
    dsimp only
    cases hd : s.impl.derivedReadiness r now with
    | ok u => exact .silent (.common (.ready hr (h r hr) hd))
    | error reason =>
      dsimp only
      rw [setLifecycle_self h]
      exact .refl

theorem lifecycle_applyCompletion {i : Impl} {e : CompletionEvidence} {credited : UInt64}
    {lifecycle : FlowLifecycle} {now : Ticks} {x : AttemptRuntime}
    (hx : i.attempts[e.attempt]? = some x) {r : FlowRuntime}
    (hr : (i.applyCompletion e credited lifecycle now).flows[e.flow]? = some r) :
    r.lifecycle = lifecycle := by
  simp only [applyCompletion, hx] at hr
  split at hr
  · rename_i hnone
    rw [hnone] at hr
    cases hr
  · simp only [recordStep, modifyFlow, setLifecycle, OrderedMap.get_modify, if_true] at hr
    obtain ⟨r₁, h₁, rfl⟩ := Option.map_eq_some_iff.mp hr
    obtain ⟨r₂, -, rfl⟩ := Option.map_eq_some_iff.mp h₁
    simp

theorem makes_countRejected {e : CompletionEvidence} {rejection : Rejection} :
    Makes (CallMove c) s { s with impl := s.impl.countRejected e rejection } := by
  have hcount : Makes (CallMove c) s { s with impl := { s.impl with
      completionsRejected := s.impl.completionsRejected + 1 } } := .silent (.common .counters)
  unfold countRejected
  refine hcount.trans ?_
  split
  · refine Makes.silent (.common (.note fun r => ?_))
    exact ⟨r.deadlineMissedCounted, r.starvationCounted, _, rfl, id, rfl, rfl⟩
  · exact .refl

theorem makes_countDuplicate {e : CompletionEvidence} :
    Makes (CallMove c) s { s with impl := s.impl.countDuplicate e } := by
  have hcount : Makes (CallMove c) s { s with impl := { s.impl with
      completionsDuplicate := s.impl.completionsDuplicate + 1 } } := .silent (.common .counters)
  unfold countDuplicate
  refine hcount.trans ?_
  refine Makes.silent (.common (.note fun r => ?_))
  exact ⟨r.deadlineMissedCounted, r.starvationCounted, _, rfl, id, rfl, rfl⟩

theorem makes_complete (e : CompletionEvidence) (now : Ticks) :
    Makes (CallMove (.complete e now)) s (exec (complete e now) s).2 := by
  refine makes_touch_bind fun s clock => ?_
  refine .modifyImpl_bind (.common .counters) fun t ht => ?_
  replace clock : now ≤ t.impl.lastTick := by rwa [ht]
  clear ht s
  rename' t => s
  rw [exec_readImpl_bind]
  cases hv : s.impl.completionVerdict e now with
  | error rejection => exact makes_countRejected
  | ok verdict =>
    cases verdict with
    | duplicate flow attempt => exact makes_countDuplicate
    | commit flow attempt =>
      have hx := (commits_of_verdict hv).retained
      dsimp only
      refine .journal_bind fun t ht => ?_
      rw [exec_modifyImpl_bind, exec_readImpl_bind, exec_pure, impl_of_append ht]
      refine (Makes.journaled (CallMove.complete hv clock) ht).trans ?_
      dsimp only
      split
      · rename_i hw
        refine Makes.trans (makes_resumeFlow fun r hr => ?_) makes_normalize
        rw [lifecycle_applyCompletion hx hr, hw]
      · exact makes_normalize

end FlowScheduler

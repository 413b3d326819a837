import FlowScheduler.Durable.Appends
import FlowScheduler.Steps.Reachable

/-! # Refused calls

A call checks everything before its append and applies everything after it, so
a refusal leaves the tables and the journal as they were. Three calls check once
more behind the append: an admission at the table bound, the update of a flow
that holds an attempt, and a dispatch with the last attempt identity.
-/

namespace FlowScheduler

open ByteCodec (Bytes)
open Failing SchedOp OrderedMap Impl

/-- The memory without the clock and the counters of completion reports. -/
def Impl.authoritative (s : Impl) : Impl :=
  { s with
    lastTick := 0, completionReports := 0, completionsDuplicate := 0, completionsRejected := 0
    flows := s.flows.map fun _ (r : FlowRuntime) =>
      { r with accounting := { r.accounting with duplicateCompletions := 0, rejectedCompletions := 0 } } }

/-- What the file system is still going to do to the coming writes. -/
def Scheduler.script (s : Scheduler) : List (Option IoFault) := (s.store.map (·.io)).getD []

/-- A write made on the way from one state to another failed. -/
def WriteFailed (s t : Scheduler) : Prop :=
  ∃ fault ∈ s.script.take (s.script.length - t.script.length), fault.isSome

/-- Nothing authoritative has changed: only the clock, forward, and the counters of completion
reports. -/
structure Unchanged (s t : Scheduler) : Prop where
  memory : t.impl.authoritative = s.impl.authoritative
  clock : s.impl.lastTick ≤ t.impl.lastTick
  journal : t.store.map (fun d => (d.files, d.lastSequence)) =
    s.store.map (fun d => (d.files, d.lastSequence))

variable {α β : Type} {s t : Scheduler}

theorem Unchanged.refl (s : Scheduler) : Unchanged s s := ⟨rfl, UInt64.le_refl _, rfl⟩

/-- An append is refused by its checks, which change nothing, or by a write that failed. -/
theorem DurableStore.append_error {d d' : DurableStore} {type : JournalRecordType} {payload : Bytes}
    {e : Error} (h : exec (append type payload) d = (.error e, d')) :
    (appendGuard d type payload = .error e ∧ d' = d) ∨
      ∃ fault ∈ d.io.take (d.io.length - d'.io.length), fault.isSome := by
  -- A failed operation is the last one whose outcome is taken from the script.
  have hwrite : ∀ {b : DurableStore} {record : Bytes} {f : DurableStore → DurableStore},
      exec (writeJournal record >>= fun _ => modify f) b = (.error e, d') →
      ∃ fault, b.io = some fault :: d'.io := by
    intro b record f hb
    rw [exec_bind, exec_writeJournal] at hb
    rcases hio : b.io with _ | ⟨_ | fault, rest⟩
    · rw [hio] at hb
      cases hb
    · rw [hio] at hb
      cases hb
    · rw [hio] at hb
      cases hb
      exact ⟨fault, rfl⟩
  rw [append, exec_bind, exec_get] at h
  dsimp only at h
  rw [exec_bind, exec_lift] at h
  cases hguard : appendGuard d type payload with
  | error e' =>
    rw [hguard] at h
    cases h
    exact .inl ⟨rfl, rfl⟩
  | ok u =>
    rw [hguard] at h
    dsimp only at h
    right
    split at h
    · rw [exec_bind, exec_truncateJournal] at h
      rcases hio : d.io with _ | ⟨_ | fault, rest⟩
      · simp only [hio, List.head?_nil, Option.join_none] at h
        rw [exec_bind, exec_modify] at h
        obtain ⟨fault, hfault⟩ := hwrite h
        cases hfault
      · simp only [hio, List.head?_cons, Option.join_some] at h
        rw [exec_bind, exec_modify] at h
        obtain ⟨fault, hfault⟩ := hwrite h
        have hrest : rest = some fault :: d'.io := hfault
        have hlast : (none :: rest).length - d'.io.length = 2 := by
          rw [hrest, List.length_cons, List.length_cons]
          omega
        refine ⟨some fault, ?_, rfl⟩
        rw [hlast, hrest]
        simp
      · rw [hio] at h
        refine ⟨some fault, ?_, rfl⟩
        have hd' : d'.io = rest := by
          simp only [List.head?_cons, Option.join_some] at h
          split at h <;> cases h <;> rfl
        rw [hd']
        simp
    · obtain ⟨fault, hfault⟩ := hwrite h
      refine ⟨some fault, ?_, rfl⟩
      rw [hfault]
      simp

theorem DurableStore.compact_error {d d' : DurableStore} {payload : Bytes} {e : Error}
    (h : exec (compact payload) d = (.error e, d')) :
    d' = d ∨ ∃ fault ∈ d.io.take (d.io.length - d'.io.length), fault.isSome := by
  rw [compact, exec_bind, writeSnapshot, exec_bind, exec_lift] at h
  cases hsize : refuseIf (kMaxSnapshotPayload < payload.length) .oversized
      "snapshot payload exceeds the configured bound" with
  | error e' =>
    rw [hsize] at h
    cases h
    exact .inl rfl
  | ok u =>
    rw [hsize] at h
    dsimp only at h
    right
    rw [exec_bind, exec_nextFault] at h
    rcases hio : d.io with _ | ⟨_ | fault, rest⟩
    · simp only [hio, List.head?_nil, Option.join_none, exec_modify, List.tail_nil] at h
      rw [exec_bind, exec_truncateJournal] at h
      cases h
    · simp only [hio, List.head?_cons, Option.join_some, exec_modify, List.tail_cons] at h
      rw [exec_bind, exec_truncateJournal] at h
      rcases hrest : rest with _ | ⟨_ | fault, rest'⟩
      · rw [hrest] at h
        cases h
      · rw [hrest] at h
        cases h
      · rw [hrest] at h
        have hd' : d'.io = rest' := by
          simp only [List.head?_cons, Option.join_some] at h
          split at h <;> cases h <;> rfl
        have hlast : (none :: some fault :: rest').length - d'.io.length = 2 := by
          rw [hd', List.length_cons, List.length_cons]
          omega
        refine ⟨some fault, ?_, rfl⟩
        rw [hlast]
        simp
    · simp only [hio, List.head?_cons, Option.join_some, List.tail_cons] at h
      refine ⟨some fault, ?_, rfl⟩
      cases h
      simp

/-- The program, when it returns an error, has changed nothing, unless a write failed. -/
def Refuses (m : SchedOp α) (s : Scheduler) : Prop :=
  ∀ e t, exec m s = (.error e, t) → WriteFailed s t ∨ Unchanged s t

namespace Refuses

theorem pure (a : α) : Refuses (pure a : SchedOp α) s := by
  intro e t h
  cases h

theorem readImpl_bind {k : Impl → SchedOp β} (h : Refuses (k s.impl) s) :
    Refuses (readImpl >>= k) s := h

theorem lift_bind {x : Result α} {k : α → SchedOp β} (h : ∀ a, x = .ok a → Refuses (k a) s) :
    Refuses (liftM x >>= k) s := by
  intro e t hexec
  rw [exec_lift_bind] at hexec
  cases x with
  | error e' =>
    cases hexec
    exact .inr (.refl s)
  | ok a => exact h a rfl e t hexec

theorem modifyImpl_bind {f : Impl → Impl} {k : Unit → SchedOp β}
    (same : (f s.impl).authoritative = s.impl.authoritative)
    (clock : s.impl.lastTick ≤ (f s.impl).lastTick)
    (h : Refuses (k ()) { s with impl := f s.impl }) :
    Refuses (FlowScheduler.SchedOp.modifyImpl f >>= k) s := by
  intro e t hexec
  refine (h e t hexec).imp_right fun hsame => ?_
  exact ⟨hsame.memory.trans same, UInt64.le_trans clock hsame.clock, hsame.journal⟩

theorem touch_bind {now : Ticks} {k : Unit → SchedOp β}
    (h : Refuses (k ()) { s with impl := { s.impl with lastTick := max s.impl.lastTick now } }) :
    Refuses (touch now >>= k) s := by
  exact modifyImpl_bind rfl (le_max_tick _ _) h

theorem done {m : SchedOp α} {f : α → β} (h : Refuses m s) :
    Refuses (m >>= fun a => Pure.pure (f a)) s := by
  intro e t hexec
  rcases exec_bind_error.mp hexec with hm | ⟨a, u, -, hpure⟩
  · exact h e t hm
  · cases hpure

theorem journal (r : Record) : Refuses (journal r) s := by
  intro e t h
  rw [exec_journal] at h
  cases hstore : s.store with
  | none =>
    rw [hstore] at h
    cases h
  | some store =>
    rw [hstore] at h
    dsimp only at h
    rcases happend : exec (DurableStore.append r.type r.payload) store with ⟨e' | u, store'⟩
    · rw [happend] at h
      cases h
      rcases DurableStore.append_error happend with ⟨-, rfl⟩ | hfailed
      · exact .inr ⟨rfl, UInt64.le_refl _, by rw [hstore]⟩
      · left
        unfold WriteFailed Scheduler.script
        rw [hstore]
        exact hfailed
    · rw [happend] at h
      cases h

theorem journal_bind {r : Record} {k : Unit → SchedOp β}
    (total : ∀ t e u, exec (k ()) t ≠ (.error e, u)) :
    Refuses (FlowScheduler.SchedOp.journal r >>= k) s := by
  intro e t hexec
  rcases exec_bind_error.mp hexec with hj | ⟨_, u, -, hk⟩
  · exact journal r e t hj
  · exact absurd hk (total u e t)

theorem journal_modify {r : Record} {f : Impl → Impl} :
    Refuses (FlowScheduler.SchedOp.journal r >>= fun _ => FlowScheduler.SchedOp.modifyImpl f) s :=
  journal_bind fun _ _ _ h => by cases h

theorem guarded {guard : Status} {r : Record} {f : Impl → Impl} :
    Refuses (liftM guard >>= fun _ => FlowScheduler.SchedOp.journal r >>= fun _ =>
      FlowScheduler.SchedOp.modifyImpl f) s :=
  lift_bind fun _ _ => journal_modify

theorem conditional {guard : Result Bool} {r : Record} {f : Impl → Impl} :
    Refuses (liftM guard >>= fun b => if b = true then FlowScheduler.SchedOp.journal r >>= fun _ =>
      FlowScheduler.SchedOp.modifyImpl f else Pure.pure ()) s := by
  refine lift_bind fun b _ => ?_
  split
  · exact journal_modify
  · exact pure ()

end Refuses

def Scheduler.Takes (s : Scheduler) (r : Record) : Prop :=
  ∀ store ∈ s.store, store.appendGuard r.type r.payload = .ok ()

/-- The call passes its checks and is refused behind the append. -/
def ChecksLate (s : Scheduler) : Call → Prop
  | .admitFlow d => s.impl.admitFlowGuard d = .ok () ∧
    s.impl.policy.maxFlows.toNat ≤ s.impl.flows.size ∧ s.Takes (.flowAdmitted d)
  | .updateFlow d => s.impl.updateFlowGuard d = .ok () ∧
    (∃ r ∈ s.impl.flows[d.flow]?, r.lifecycle.holdsOpenWork) ∧ s.Takes (.flowUpdated d)
  | .beginDispatch schedule generation ordinal worker boot now =>
    ∃ entry flow, s.impl.beginDispatchGuard schedule generation ordinal worker boot now =
        .ok (entry, flow) ∧ s.impl.nextAttempt.value = u64Max ∧
      s.Takes (.attemptOpened (s.impl.issueTicket schedule generation entry worker boot now)
        (remainingWork flow) now)
  | _ => False

theorem taken_of_journal {r : Record} (h : exec (journal r) s = (.ok (), t)) :
    s.Takes r ∧ ∀ d, s.store = some d → ∃ d', t.store = some d' ∧ d'.lastSequence ≠ d.lastSequence := by
  rw [exec_journal] at h
  cases hstore : s.store with
  | none =>
    refine ⟨fun d hd => ?_, fun d hd => by cases hd⟩
    rw [hstore] at hd
    cases hd
  | some store =>
    rw [hstore] at h
    dsimp only at h
    have hend := DurableStore.appendEnd store r.type r.payload
    rcases happend : exec (DurableStore.append r.type r.payload) store with ⟨e' | u, store'⟩
    · rw [happend] at h
      cases h
    · rw [happend] at h hend
      cases h
      cases hend with
      | acknowledged guard =>
        refine ⟨fun d hd => ?_, fun d hd => ?_⟩
        · rw [hstore] at hd
          cases hd
          exact guard
        · cases hd
          exact ⟨_, rfl, by simp⟩

theorem journal_of_late {r : Record} {d : DurableStore} {k : Unit → SchedOp β} {e : Error}
    (durable : s.store = some d) (takes : s.Takes r)
    (keeps : ∀ u, (exec (k ()) u).2.store = u.store)
    (h : exec (journal r >>= k) s = (.error e, t)) (writes : ¬ WriteFailed s t) :
    t.store.map (fun d => (d.files, d.lastSequence)) ≠
      s.store.map (fun d => (d.files, d.lastSequence)) := by
  rcases exec_bind_error.mp h with hj | ⟨_, u, hj, hk⟩
  · -- The journal has room, so only a failed write can have refused the record.
    exfalso
    rw [exec_journal, durable] at hj
    dsimp only at hj
    rcases happend : exec (DurableStore.append r.type r.payload) d with ⟨e' | v, d'⟩
    · rw [happend] at hj
      cases hj
      rcases DurableStore.append_error happend with ⟨hguard, -⟩ | hfailed
      · rw [takes d durable] at hguard
        cases hguard
      · refine writes ?_
        unfold WriteFailed Scheduler.script
        rw [durable]
        exact hfailed
    · rw [happend] at hj
      cases hj
  · obtain ⟨d', hd', hne⟩ := (taken_of_journal hj).2 d durable
    have hstore := keeps u
    rw [hk] at hstore
    rw [hstore, hd', durable]
    exact fun hsame => hne (congrArg Prod.snd (Option.some.inj hsame))

theorem authoritative_modifyFlow {i : Impl} {id : FlowId} {f : FlowRuntime → FlowRuntime}
    (same : ∀ r : FlowRuntime, ({ f r with accounting := { (f r).accounting with
        duplicateCompletions := 0, rejectedCompletions := 0 } } : FlowRuntime) =
      { r with accounting := { r.accounting with
        duplicateCompletions := 0, rejectedCompletions := 0 } }) :
    (i.modifyFlow id f).authoritative = i.authoritative := by
  have hflows : (i.modifyFlow id f).authoritative.flows = i.authoritative.flows := by
    refine Std.ExtTreeMap.ext_getElem? fun a => ?_
    simp only [authoritative, modifyFlow, Std.ExtTreeMap.getElem?_map, get_modify]
    split
    · rw [Option.map_map]
      exact congrArg (Option.map · i.flows[a]?) (funext same)
    · rfl
  calc (i.modifyFlow id f).authoritative
      = { i.authoritative with flows := (i.modifyFlow id f).authoritative.flows } := rfl
    _ = i.authoritative := by rw [hflows]

theorem authoritative_countRejected {i : Impl} {e : CompletionEvidence} {rejection : Rejection} :
    (i.countRejected e rejection).authoritative = i.authoritative := by
  unfold countRejected
  dsimp only
  split
  · exact authoritative_modifyFlow fun _ => rfl
  · rfl

section Calls

theorem refuses_closeAttempt {attempt : DispatchAttemptId} {state : AttemptState} {detail : Bytes}
    {now : Ticks} {f : Impl → Impl} :
    Refuses (closeAttempt attempt state detail now >>= fun _ => modifyImpl f) s := by
  intro e t h
  rw [exec_closeAttempt_bind] at h
  exact Refuses.journal_bind (fun _ _ _ h => by cases h) e t h

theorem refuses_checkpoint : Refuses checkpoint s := by
  intro e t h
  rw [checkpoint, exec_bind, exec_get] at h
  dsimp only at h
  split at h
  · cases h
  · rename_i store hstore
    rw [exec_lift_bind] at h
    cases hsize : refuseIf (s.impl.encodeStateSnapshot = []) .bounded
        "state image exceeds the snapshot bound; checkpoint refused" with
    | error e' =>
      rw [hsize] at h
      cases h
      exact .inr (.refl s)
    | ok u =>
      rw [hsize] at h
      dsimp only at h
      rcases hcompact : exec (DurableStore.compact s.impl.encodeStateSnapshot) store with
        ⟨e' | v, store'⟩
      · rw [hcompact] at h
        cases h
        rcases DurableStore.compact_error hcompact with rfl | hfailed
        · exact .inr ⟨rfl, UInt64.le_refl _, by rw [hstore]⟩
        · left
          unfold WriteFailed Scheduler.script
          rw [hstore]
          exact hfailed
      · rw [hcompact] at h
        cases h

theorem refuses_complete {evidence : CompletionEvidence} {now : Ticks} :
    Refuses (complete evidence now) s := by
  refine Refuses.touch_bind (Refuses.modifyImpl_bind rfl (UInt64.le_refl _) ?_)
  refine Refuses.readImpl_bind ?_
  split
  · intro e t h
    cases h
  · intro e t h
    cases h
  · exact Refuses.journal_bind fun _ _ _ h => by cases h

theorem refuses_admitFlow {d : FlowDescriptor} (early : ¬ ChecksLate s (.admitFlow d)) :
    Refuses (admitFlow d) s := by
  refine Refuses.readImpl_bind (Refuses.lift_bind fun _ hguard => ?_)
  intro e t h
  rcases exec_bind_error.mp h with hj | ⟨_, u, hj, hk⟩
  · exact Refuses.journal _ e t hj
  · have hroom : ¬ (s.impl.policy.maxFlows.toNat ≤ s.impl.flows.size ∧ d.flow ∉ s.impl.flows) :=
      fun hbound => early ⟨hguard, hbound.1, (taken_of_journal hj).1⟩
    rw [exec_readImpl_bind, impl_of_append hj, exec_lift_bind, applyAdmit, if_neg hroom] at hk
    cases hk

theorem refuses_updateFlow {d : FlowDescriptor} (early : ¬ ChecksLate s (.updateFlow d)) :
    Refuses (updateFlow d) s := by
  refine Refuses.readImpl_bind (Refuses.lift_bind fun _ hguard => ?_)
  intro e t h
  rcases exec_bind_error.mp h with hj | ⟨_, u, hj, hk⟩
  · exact Refuses.journal _ e t hj
  · obtain ⟨found, hfound, -⟩ := generation_lt_of_updateFlowGuard hguard
    have hidle : ¬ found.lifecycle.holdsOpenWork :=
      fun hbusy => early ⟨hguard, ⟨found, hfound, hbusy⟩, (taken_of_journal hj).1⟩
    rw [exec_readImpl_bind, impl_of_append hj, exec_lift_bind, applyUpdate, hfound] at hk
    simp only [hidle] at hk
    cases hk

theorem nextAttempt_dispatch {i : Impl} {ticket : DispatchTicket} {nominal : UInt64} {now : Ticks}
    {schedule : ScheduleId} {ordinal : ℕ} :
    ((i.applyAttemptOpened ticket nominal now).consumeEntry schedule ordinal).nextAttempt =
      i.nextAttempt :=
  congrArg Setting.nextAttempt (setting_applyAttemptOpened ..)

theorem refuses_beginDispatch {schedule : ScheduleId} {generation : Generation} {ordinal : UInt32}
    {worker : WorkerId} {boot : BootId} {now : Ticks}
    (early : ¬ ChecksLate s (.beginDispatch schedule generation ordinal worker boot now)) :
    Refuses (beginDispatch schedule generation ordinal worker boot now) s := by
  refine Refuses.touch_bind (Refuses.readImpl_bind (Refuses.lift_bind fun p hguard => ?_))
  obtain ⟨entry, flow⟩ := p
  intro e t h
  rcases exec_bind_error.mp h with hj | ⟨_, u, hj, hk⟩
  · exact Refuses.journal _ e t hj
  · have hlast : s.impl.nextAttempt.value ≠ u64Max :=
      fun hmax => early ⟨entry, flow, hguard, hmax, (taken_of_journal hj).1⟩
    rw [exec_modifyImpl_bind, exec_readImpl_bind, exec_lift_bind, impl_of_append hj] at hk
    dsimp only at hk
    rw [nextAttempt_dispatch, Id.advance, if_neg hlast] at hk
    cases hk

/-- A call other than a round that does not check behind its append refuses cleanly. -/
theorem refuses_call {c : Call} (round : ∀ now, c ≠ .arbitrate now) (early : ¬ ChecksLate s c) :
    Refuses c.op s := by
  cases c with
  | registerResource | registerReservation | registerPriorityClass | registerQosClass | retireFlow
  | installPolicy => exact .done (.readImpl_bind .guarded)
  | retireReservation => exact .done (.readImpl_bind .conditional)
  | admitFlow => exact .done (refuses_admitFlow early)
  | updateFlow => exact .done (refuses_updateFlow early)
  | cancelFlow | notifyReadiness | markStarted =>
    exact .done (.touch_bind (.readImpl_bind .conditional))
  | resolveAmbiguous => exact .done (.touch_bind (.readImpl_bind .guarded))
  | advanceEpoch =>
    refine .done (.touch_bind (.readImpl_bind (.lift_bind fun _ _ => ?_)))
    exact .journal_bind fun _ _ _ h => by cases h
  | arbitrate now => exact absurd rfl (round now)
  | releaseSchedule =>
    refine .done (.touch_bind (.readImpl_bind (.lift_bind fun _ _ => ?_)))
    exact .journal_modify
  | beginDispatch => exact .done (refuses_beginDispatch early)
  | revalidate =>
    refine .done (.readImpl_bind ?_)
    intro e t h
    rw [exec_lift] at h
    obtain ⟨-, rfl⟩ := Prod.mk.inj h
    exact .inr (.refl s)
  | abandonAttempt =>
    refine .done (.touch_bind (.readImpl_bind (.lift_bind fun _ _ => ?_)))
    split
    · exact refuses_closeAttempt
    · exact .pure ()
  | preemptAttempt =>
    refine .done (.touch_bind (.readImpl_bind (.lift_bind fun _ _ => .lift_bind fun _ _ => ?_)))
    exact refuses_closeAttempt
  | complete => exact .done refuses_complete
  | checkpoint => exact .done refuses_checkpoint

theorem changed_of_checksLate {c : Call} {d : DurableStore} {e : Error}
    (durable : s.store = some d) (late : ChecksLate s c) (h : exec c.op s = (.error e, t))
    (writes : ¬ WriteFailed s t) : ¬ Unchanged s t := by
  intro hsame
  have hdone : ∀ {γ : Type} {m : SchedOp γ} {f : γ → Response},
      exec (m >>= fun a => pure (f a)) s = (.error e, t) → exec m s = (.error e, t) := by
    intro γ m f hm
    rcases exec_bind_error.mp hm with hm | ⟨_, _, -, hpure⟩
    · exact hm
    · cases hpure
  cases c with
  | admitFlow d₀ =>
    obtain ⟨hguard, -, htakes⟩ := late
    have hadmit := hdone h
    rw [admitFlow, exec_readImpl_bind, exec_lift_bind, hguard] at hadmit
    refine journal_of_late durable htakes (fun u => ?_) hadmit writes hsame.journal
    rw [exec_readImpl_bind, exec_lift_bind]
    split <;> rfl
  | updateFlow d₀ =>
    obtain ⟨hguard, -, htakes⟩ := late
    have hupdate := hdone h
    rw [updateFlow, exec_readImpl_bind, exec_lift_bind, hguard] at hupdate
    refine journal_of_late durable htakes (fun u => ?_) hupdate writes hsame.journal
    rw [exec_readImpl_bind, exec_lift_bind]
    split <;> rfl
  | beginDispatch schedule generation ordinal worker boot now =>
    obtain ⟨entry, flow, hguard, -, htakes⟩ := late
    have hdispatch := hdone h
    have hpassed : ({ s.impl with lastTick := max s.impl.lastTick now } : Impl).beginDispatchGuard
        schedule generation ordinal worker boot now = .ok (entry, flow) := hguard
    rw [beginDispatch, exec_touch_bind, exec_readImpl_bind, exec_lift_bind, hpassed] at hdispatch
    refine journal_of_late (s := { s with impl := { s.impl with
      lastTick := max s.impl.lastTick now } }) durable htakes (fun u => ?_) hdispatch writes
      hsame.journal
    rw [exec_modifyImpl_bind, exec_readImpl_bind, exec_lift_bind]
    split <;> rfl
  | _ => exact late

theorem unchanged_of_rejected {evidence : CompletionEvidence} {now : Ticks} {outcome : CommitOutcome}
    (h : exec (complete evidence now) s = (.ok outcome, t))
    (rejected : outcome.disposition = .rejected) : Unchanged s t := by
  rw [complete, exec_touch_bind, exec_modifyImpl_bind, exec_readImpl_bind] at h
  split at h
  · cases h
    refine ⟨authoritative_countRejected, ?_, rfl⟩
    have hclock : ∀ (i : Impl) (r : Rejection), (i.countRejected evidence r).lastTick = i.lastTick := by
      intro i r
      unfold countRejected
      dsimp only
      split <;> rfl
    rw [hclock]
    exact le_max_tick _ _
  · cases h
    cases rejected
  · obtain ⟨_, u, -, h⟩ := exec_bind_ok.mp h
    cases h
    cases rejected

end Calls

def Refusal : Result Response → Prop
  | .error _ => True
  | .ok (.commit outcome) => outcome.disposition = .rejected
  | .ok _ => False

/-- A call other than a round that is turned down without a failed write changes nothing
authoritative, neither in memory nor in the journal, exactly if it was not checked behind its
append. -/
theorem refused_call_unchanged {c : Call} {result : Result Response} {d : DurableStore}
    (durable : s.store = some d) (other : ∀ now, c ≠ .arbitrate now)
    (call : s.call c = (result, t)) (refusal : Refusal result) (writes : ¬ WriteFailed s t) :
    Unchanged s t ↔ ¬ ChecksLate s c := by
  cases result with
  | error e =>
    refine ⟨fun hsame late => changed_of_checksLate durable late call writes hsame, fun early => ?_⟩
    exact (refuses_call other early e t call).resolve_left writes
  | ok response =>
    cases response with
    | commit outcome =>
      obtain ⟨evidence, now, rfl⟩ : ∃ evidence now, c = .complete evidence now := by
        cases c with
        | complete evidence now => exact ⟨evidence, now, rfl⟩
        | _ =>
          obtain ⟨_, _, -, h⟩ := exec_bind_ok.mp call
          cases h
      obtain ⟨_, _, hcomplete, h⟩ := exec_bind_ok.mp call
      cases h
      exact ⟨fun _ late => late, fun _ => unchanged_of_rejected hcomplete refusal⟩
    | _ => exact absurd refusal id

section Sample

open Sample

def Sample.narrow : SchedulerOptions :=
  { policy := { policy with maxFlows := 1 }, stateDirectory := "state" }

/-- A call that leaves the script of the file system alone has not failed in it. -/
theorem not_writeFailed (h : s.script.length ≤ t.script.length) : ¬ WriteFailed s t := by
  rintro ⟨fault, hmem, -⟩
  rw [Nat.sub_eq_zero_of_le h, List.take_zero] at hmem
  cases hmem

theorem refusal_of_isNone {c : Call} (h : (s.call c).1.toOption.isNone) : Refusal (s.call c).1 := by
  cases hc : (s.call c).1 with
  | error e => trivial
  | ok response => simp [hc, Except.toOption] at h

set_option maxRecDepth 100000 in
theorem refused_call_unchanged_unknown : ∃ s d t result, s.store = some d ∧
    (∀ now, Call.retireFlow ⟨1⟩ ⟨1⟩ ≠ .arbitrate now) ∧
    s.call (.retireFlow ⟨1⟩ ⟨1⟩) = (result, t) ∧ Refusal result ∧ ¬ WriteFailed s t ∧
    (Unchanged s t ↔ ¬ ChecksLate s (.retireFlow ⟨1⟩ ⟨1⟩)) := by
  obtain ⟨s, -, hdurable, hrefused, hwrites⟩ : ∃ s, Reachable s ∧ s.store.isSome ∧
      (s.call (.retireFlow ⟨1⟩ ⟨1⟩)).1.toOption.isNone ∧
      s.script.length ≤ (s.call (.retireFlow ⟨1⟩ ⟨1⟩)).2.script.length :=
    @exists_reachable narrow [] _ (by decide +kernel)
  obtain ⟨d, hd⟩ := Option.isSome_iff_exists.mp hdurable
  have hother : ∀ now, Call.retireFlow ⟨1⟩ ⟨1⟩ ≠ .arbitrate now := fun _ h => by cases h
  exact ⟨s, d, _, _, hd, hother, rfl, refusal_of_isNone hrefused, not_writeFailed hwrites,
    refused_call_unchanged hd hother rfl (refusal_of_isNone hrefused) (not_writeFailed hwrites)⟩

set_option maxRecDepth 100000 in
/-- An admission past the table bound is refused with its record in the journal. -/
theorem not_refused_call_unchanged : ∃ s t e, Reachable s ∧ s.store.isSome ∧
    s.call (.admitFlow (flow 2)) = (.error e, t) ∧ ¬ WriteFailed s t ∧ ¬ Unchanged s t := by
  obtain ⟨s, reachable, hdurable, hrefused, hwrites, hjournal⟩ : ∃ s, Reachable s ∧
      s.store.isSome ∧ (s.call (.admitFlow (flow 2))).1.toOption.isNone ∧
      s.script.length ≤ (s.call (.admitFlow (flow 2))).2.script.length ∧
      (s.call (.admitFlow (flow 2))).2.store.map (·.lastSequence) ≠ s.store.map (·.lastSequence) :=
    @exists_reachable narrow setup _ (by decide +kernel)
  rcases hcall : s.call (.admitFlow (flow 2)) with ⟨e | response, t⟩
  · rw [hcall] at hwrites hjournal
    refine ⟨s, t, e, reachable, hdurable, hcall, not_writeFailed hwrites, fun hsame => hjournal ?_⟩
    have hsequence := congrArg (Option.map Prod.snd) hsame.journal
    rw [Option.map_map, Option.map_map] at hsequence
    exact hsequence
  · simp [hcall, Except.toOption] at hrefused

end Sample

end FlowScheduler

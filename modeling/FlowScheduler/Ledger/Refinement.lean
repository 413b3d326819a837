import FlowScheduler.Ledger.Basic
import FlowScheduler.Runtime.Fields

/-! # The state transitions refine the ledger

Every writer of scheduler state acts on the ledger as the record it belongs to,
whatever it does to queues, clocks, counters and explanations.
-/

namespace FlowScheduler

open ByteCodec (Bytes)
open OrderedMap

namespace FlowRuntime

variable (r : FlowRuntime)

@[simp] theorem ledger_recordStep (now : Ticks) (lifecycle : FlowLifecycle)
    (reason : DecisionReason) (schedule : ScheduleId) (attempt : DispatchAttemptId)
    (detail : Bytes) :
    (r.recordStep now lifecycle reason schedule attempt detail).ledger = r.ledger := by
  obtain ⟨_, _, h⟩ := r.recordStep_eq now lifecycle reason schedule attempt detail
  rw [h]
  rfl

theorem ledger_setLifecycle (policy : SchedulingPolicy) (clock : UInt64) (next : FlowLifecycle)
    (now : Ticks) :
    (r.setLifecycle policy clock next now).ledger = { r.ledger with phase := next.phase } := by
  obtain ⟨_, _, _, _, _, _, _, _, h, -⟩ := r.setLifecycle_eq policy clock next now
  rw [h]
  rfl

end FlowRuntime

namespace Impl

variable {s : Impl}

theorem ledger_flows (id : FlowId) : s.ledger.flows id = s.flows[id]?.map FlowRuntime.ledger := rfl

theorem ledger_attempts (id : DispatchAttemptId) :
    s.ledger.attempts id = s.attempts[id]?.map AttemptRuntime.ledger := rfl

theorem ledger_modifyFlow {id : FlowId} {f : FlowRuntime → FlowRuntime} {g : LedgerFlow → LedgerFlow}
    (h : ∀ r, (f r).ledger = g r.ledger) :
    (s.modifyFlow id f).ledger = s.ledger.modifyFlow id g := by
  refine Ledger.ext rfl rfl rfl rfl rfl rfl ?_ rfl rfl
  funext a
  simp only [modifyFlow, Ledger.modifyFlow, get_modify, Function.update_apply, ledger_flows]
  by_cases ha : a = id
  · subst ha
    simp [Function.comp_def, h]
  · simp [ha]

theorem ledger_modifyFlow_self {id : FlowId} {f : FlowRuntime → FlowRuntime}
    (h : ∀ r, (f r).ledger = r.ledger) : (s.modifyFlow id f).ledger = s.ledger := by
  refine Ledger.ext rfl rfl rfl rfl rfl rfl ?_ rfl rfl
  funext a
  simp only [modifyFlow, get_modify, ledger_flows]
  split
  · simp [Function.comp_def, h]
  · rfl

@[simp] theorem ledger_recordStep (id : FlowId) (now : Ticks) (lifecycle : FlowLifecycle)
    (reason : DecisionReason) (schedule : ScheduleId) (attempt : DispatchAttemptId)
    (detail : Bytes) :
    (s.recordStep id now lifecycle reason schedule attempt detail).ledger = s.ledger :=
  ledger_modifyFlow_self fun r => r.ledger_recordStep ..

@[simp] theorem ledger_setLifecycle (id : FlowId) (next : FlowLifecycle) (now : Ticks) :
    (s.setLifecycle id next now).ledger = s.ledger.setPhase id next.phase :=
  ledger_modifyFlow (s := s) fun r => r.ledger_setLifecycle ..

@[simp] theorem ledger_modifySchedule (id : ScheduleId) (f : ScheduleRuntime → ScheduleRuntime) :
    (s.modifySchedule id f).ledger = s.ledger := rfl

theorem ledger_modifyResource {id : ResourceId} {f : ResourceRuntime → ResourceRuntime}
    (h : ∀ r, (f r).descriptor = r.descriptor) : (s.modifyResource id f).ledger = s.ledger := by
  refine Ledger.ext rfl rfl ?_ rfl rfl rfl rfl rfl rfl
  funext a
  simp only [Impl.ledger, modifyResource, get_modify]
  split
  · simp [Function.comp_def, h]
  · rfl

theorem descriptor_rollInterval (r : ResourceRuntime) (now : Ticks) :
    (r.rollInterval now).descriptor = r.descriptor := by
  unfold ResourceRuntime.rollInterval
  dsimp only
  split <;> rfl

@[simp] theorem ledger_releaseInFlight (resource : ResourceId) :
    (s.releaseInFlight resource).ledger = s.ledger := ledger_modifyResource fun _ => rfl

theorem ledger_current (flow : FlowId) (generation : Generation) :
    s.ledger.current flow generation = (s.current flow generation).map FlowRuntime.ledger := by
  simp only [Ledger.current, current, ledger_flows]
  cases s.flows[flow]? with
  | none => rfl
  | some r =>
    by_cases h : r.descriptor.generation = generation <;>
      simp [Option.filter, FlowRuntime.ledger, h]

end Impl

namespace Ledger

variable {l : Ledger} {id : FlowId}

theorem modifyFlow_eq_self {f : LedgerFlow → LedgerFlow}
    (h : ∀ r, l.flows id = some r → f r = r) : l.modifyFlow id f = l := by
  refine Ledger.ext rfl rfl rfl rfl rfl rfl ?_ rfl rfl
  simp only [modifyFlow, Function.update_eq_self_iff]
  cases hr : l.flows id with
  | none => rfl
  | some r => simp [h r hr]

theorem setPhase_eq_self {phase : Phase} (h : ∀ r, l.flows id = some r → r.phase = phase) :
    l.setPhase id phase = l :=
  modifyFlow_eq_self fun r hr => by rw [← h r hr]

theorem modifyFlow_modifyFlow (f g : LedgerFlow → LedgerFlow) :
    (l.modifyFlow id f).modifyFlow id g = l.modifyFlow id (g ∘ f) := by
  simp [modifyFlow, Function.comp_def]

end Ledger

namespace Impl

variable {s : Impl}

section Registries

theorem ledger_applyResource (d : ResourceDescriptor) :
    (s.applyResource d).ledger = s.ledger.apply (.resourceRegistered d) := by
  refine Ledger.ext rfl rfl ?_ rfl rfl rfl rfl rfl rfl
  funext a
  simp only [Impl.ledger, applyResource, get_insert, Ledger.apply, Function.update_apply]
  split <;> rfl

theorem ledger_applyReservation (d : ReservationDescriptor) :
    (s.applyReservation d).ledger = s.ledger.apply (.reservationRegistered d) := by
  refine Ledger.ext rfl rfl rfl ?_ rfl rfl rfl rfl rfl
  funext a
  simp only [Impl.ledger, applyReservation, get_insert, Ledger.apply, Ledger.registerReservation,
    Function.update_apply, Std.ExtTreeMap.getD_eq_getD_getElem?]

theorem ledger_applyRetireReservation (id : ReservationId) (generation : Generation) :
    (s.applyRetireReservation id generation).ledger =
      s.ledger.apply (.reservationRetired id generation) := by
  have heq : ∀ a, (s.applyRetireReservation id generation).reservations[a]? =
      (s.ledger.retireReservation id generation).reservations a := by
    intro a
    simp only [applyRetireReservation, Ledger.retireReservation, Ledger.modifyReservation,
      Function.update_apply, Impl.ledger]
    cases hr : s.reservations[id]? with
    | none =>
      by_cases ha : a = id
      · subst ha
        simp [hr]
      · simp [ha]
    | some found =>
      by_cases hg : found.descriptor.generation = generation
      · simp only [hg, ne_eq, not_true_eq_false, if_false, get_insert]
        split <;> simp [hg]
      · simp only [hg, ne_eq, not_false_eq_true, if_true]
        by_cases ha : a = id
        · subst ha
          simp [hr, hg]
        · simp [ha]
  refine Ledger.ext ?_ ?_ ?_ (funext heq) ?_ ?_ ?_ ?_ ?_ <;>
    · simp only [applyRetireReservation]
      split
      · rfl
      · split <;> rfl

theorem ledger_applyPriorityClass (d : PriorityClassDescriptor) :
    (s.applyPriorityClass d).ledger = s.ledger.apply (.priorityClassRegistered d) := by
  refine Ledger.ext rfl rfl rfl rfl ?_ rfl rfl rfl rfl
  funext a
  simp only [Impl.ledger, applyPriorityClass, get_insert, Ledger.apply, Function.update_apply]

theorem ledger_applyQosClass (d : QoSClassDescriptor) :
    (s.applyQosClass d).ledger = s.ledger.apply (.qosClassRegistered d) := by
  refine Ledger.ext rfl rfl rfl rfl rfl ?_ rfl rfl rfl
  funext a
  simp only [Impl.ledger, applyQosClass, get_insert, Ledger.apply, Function.update_apply]

end Registries

section Flows

theorem ledger_applyAdmit {d : FlowDescriptor} {s' : Impl} (h : s.applyAdmit d = .ok s') :
    s'.ledger = s.ledger.admitFlow d := by
  unfold applyAdmit at h
  split at h
  · cases h
  · cases h
    refine Ledger.ext rfl rfl rfl rfl rfl rfl ?_ rfl rfl
    funext a
    simp only [Impl.ledger, get_insert, Ledger.admitFlow, Function.update_apply]
    split <;> rfl

theorem ledger_applyUpdate {d : FlowDescriptor} {s' : Impl} (h : s.applyUpdate d = .ok s') :
    s'.ledger = s.ledger.update d := by
  unfold applyUpdate at h
  split at h
  · cases h
  · split at h
    · cases h
    · cases h
      exact ledger_modifyFlow fun _ => rfl

theorem ledger_applyReadiness (flow : FlowId) (generation : Generation) (signal : ReadinessSignal)
    (now : Ticks) :
    (s.applyReadiness flow generation signal now).ledger =
      s.ledger.notify flow generation signal := by
  simp only [applyReadiness, Ledger.notify, ledger_current]
  cases s.current flow generation with
  | none => rfl
  | some r => exact ledger_modifyFlow fun _ => rfl

theorem ledger_applyRetireFlow (flow : FlowId) (generation : Generation) :
    (s.applyRetireFlow flow generation).ledger = s.ledger.retireFlow flow generation := by
  simp only [applyRetireFlow, Ledger.retireFlow, ledger_current]
  cases s.current flow generation with
  | none => rfl
  | some r =>
    refine Ledger.ext rfl rfl rfl rfl rfl rfl ?_ rfl rfl
    funext a
    simp only [Impl.ledger, get_erase, Option.map_some, Function.update_apply]
    split <;> rfl

theorem ledger_applyAmbiguityResolved (flow : FlowId) (generation : Generation)
    (resolution : AmbiguityResolution) (now : Ticks) :
    (s.applyAmbiguityResolved flow generation resolution now).ledger =
      s.ledger.resolve flow generation resolution := by
  simp only [applyAmbiguityResolved, Ledger.resolve, ledger_current]
  cases s.current flow generation with
  | none => rfl
  | some r =>
    have hphase : r.ledger.phase = .ambiguous ↔ r.lifecycle = .ambiguous := by
      simp only [FlowRuntime.ledger]
      cases r.lifecycle <;> simp [FlowLifecycle.phase]
    by_cases h : r.lifecycle = .ambiguous
    · cases resolution with
      | abandon => simp [h, hphase, FlowLifecycle.phase]
      | retry =>
        have hmark (t : Impl) :
            (t.modifyFlow flow fun r => { r with everReady := false }).ledger = t.ledger :=
          ledger_modifyFlow_self fun _ => rfl
        simp [h, hphase, hmark, FlowLifecycle.phase]
    · simp [h, hphase]

end Flows

section Schedules

/-- Putting a flow that is pending already back in the ready set changes nothing durable. -/
theorem ledger_setLifecycle_of_phase {id : FlowId} {next : FlowLifecycle} {now : Ticks}
    (h : ∀ r, s.flows[id]? = some r → r.lifecycle.phase = next.phase) :
    (s.setLifecycle id next now).ledger = s.ledger := by
  rw [ledger_setLifecycle]
  refine Ledger.setPhase_eq_self fun r hr => ?_
  rw [ledger_flows] at hr
  obtain ⟨found, hf, rfl⟩ := Option.map_eq_some_iff.mp hr
  exact h found hf

theorem ledger_unscheduleFlow {entry : ScheduleEntry} {now : Ticks}
    (h : ∀ r, s.flows[entry.flow]? = some r → r.lifecycle.phase = .pending) :
    (s.unscheduleFlow entry now).ledger = s.ledger := by
  unfold unscheduleFlow
  rw [ledger_recordStep, ledger_setLifecycle_of_phase, ledger_releaseInFlight,
    ledger_modifyFlow_self]
  · intro r
    rfl
  · intro r hr
    simp only [releaseInFlight, modifyResource, modifyFlow, get_modify, if_true] at hr
    obtain ⟨found, hf, rfl⟩ := Option.map_eq_some_iff.mp hr
    exact h found hf

theorem ledger_releaseRunEntry (id : ScheduleId) (index : ℕ) (now : Ticks) :
    (s.releaseRunEntry id index now).ledger = s.ledger := by
  unfold releaseRunEntry
  split
  · rfl
  · split
    · split
      · rfl
      · dsimp only
        split
        · rfl
        · rename_i flow hflow
          split
          · rfl
          · rename_i hs
            rw [ledger_unscheduleFlow, ledger_modifySchedule]
            intro r hr
            obtain rfl : flow = r := Option.some.inj (hflow.symm.trans hr)
            obtain ⟨hl, -⟩ := not_or.mp hs
            rw [not_not.mp hl]
            rfl
    · rfl

theorem ledger_releaseScheduledEntry (flow : FlowId) (now : Ticks) :
    (s.releaseScheduledEntry flow now).ledger = s.ledger := by
  unfold releaseScheduledEntry
  split
  · rfl
  · split
    · rfl
    · split
      · rfl
      · split
        · exact ledger_releaseRunEntry ..
        · rfl

theorem ledger_applyReleaseSchedule (id : ScheduleId) (now : Ticks) :
    (s.applyReleaseSchedule id now).ledger = s.ledger := by
  unfold applyReleaseSchedule
  split
  · rfl
  · exact foldl_frame (fun s index => ledger_releaseRunEntry (s := s) id index now) _ s

theorem phase_accepts {lifecycle : FlowLifecycle} (h : lifecycle ≠ .preempting) :
    lifecycle.isTerminal ∨ lifecycle.holdsOpenWork ↔
      lifecycle.phase ≠ .pending ∧ lifecycle.phase ≠ .ambiguous := by
  revert h
  cases lifecycle <;> decide

theorem ledger_scheduleFlow (schedule : Schedule) (e : ScheduleEntry) :
    (s.scheduleFlow schedule e).ledger = s.ledger.setPhase e.flow .pending := by
  unfold scheduleFlow
  dsimp only
  rw [ledger_recordStep, ledger_setLifecycle, ledger_modifyFlow_self]
  · rfl
  · intro r
    simp only [FlowRuntime.ledger]

theorem ledger_chargeResource (e : ScheduleEntry) : (s.chargeResource e).ledger = s.ledger := by
  refine ledger_modifyResource fun r => ?_
  split
  · exact descriptor_rollInterval r e.startTick
  · rfl

theorem ledger_chargeReservation (e : ScheduleEntry) :
    (s.chargeReservation e).ledger =
      if e.reservation.valid then s.ledger.charge e.reservation e.reservationGeneration e.quantum
      else s.ledger := by
  unfold chargeReservation
  split
  · refine Ledger.ext rfl rfl rfl ?_ rfl rfl rfl rfl rfl
    funext a
    simp only [Impl.ledger, get_modify, Ledger.charge, Ledger.modifyReservation,
      Function.update_apply]
    by_cases ha : a = e.reservation
    · subst ha
      simp
    · simp [ha]
  · rfl

theorem ledger_advanceGroupClock (id : FlowId) (r : FlowRuntime) :
    (s.advanceGroupClock id r).ledger = s.ledger := by
  unfold advanceGroupClock
  split <;> rfl

theorem ledger_applyRunEntry {schedule : Schedule} {e : ScheduleEntry}
    (h : ∀ r, s.flows[e.flow]? = some r → r.lifecycle ≠ .preempting) :
    (s.applyRunEntry schedule e).ledger = s.ledger.runEntry e := by
  unfold applyRunEntry Ledger.runEntry
  rw [ledger_flows]
  cases hr : s.flows[e.flow]? with
  | none => rfl
  | some r =>
    have hphase : r.lifecycle.isTerminal ∨ r.lifecycle.holdsOpenWork ↔
        r.ledger.phase ≠ .pending ∧ r.ledger.phase ≠ .ambiguous := phase_accepts (h r hr)
    have hgen : r.ledger.descriptor.generation = r.descriptor.generation := rfl
    simp only [Option.map_some, hgen]
    by_cases hg : r.descriptor.generation = e.flowGeneration
    · rw [if_neg (not_not.mpr hg), if_neg (not_not.mpr hg)]
      by_cases hl : r.lifecycle.isTerminal ∨ r.lifecycle.holdsOpenWork
      · rw [if_pos hl, if_pos (hphase.mp hl)]
      · rw [if_neg hl, if_neg (mt hphase.mpr hl)]
        rw [ledger_advanceGroupClock, ledger_chargeReservation, ledger_chargeResource,
          countPending, ledger_modifySchedule, ledger_scheduleFlow]
    · rw [if_pos hg, if_pos hg]

/-- An applied entry leaves every flow at the lifecycle it had, or scheduled. -/
theorem lifecycle_applyRunEntry {schedule : Schedule} {e : ScheduleEntry} {id : FlowId}
    {r : FlowRuntime} (h : (s.applyRunEntry schedule e).flows[id]? = some r) :
    r.lifecycle = .scheduled ∨ ∃ r₀, s.flows[id]? = some r₀ ∧ r₀.lifecycle = r.lifecycle := by
  rcases s.applyRunEntry_cases schedule e with ⟨-, hs⟩ | ⟨_, _, _, -, hs, -⟩
  · rw [hs] at h
    exact .inr ⟨r, h, rfl⟩
  · rw [hs] at h
    simp only [chargeResource, modifyResource, countPending, modifySchedule, scheduleFlow,
      recordStep, modifyFlow, setLifecycle, get_modify] at h
    split at h
    · left
      obtain ⟨r₁, h₁, rfl⟩ := Option.map_eq_some_iff.mp h
      obtain ⟨r₂, -, rfl⟩ := Option.map_eq_some_iff.mp h₁
      simp
    · exact .inr ⟨r, h, rfl⟩

theorem ledger_applyEntries {schedule : Schedule} {entries : List ScheduleEntry}
    (h : ∀ e ∈ entries, e.kind = .run →
      ∀ r, s.flows[e.flow]? = some r → r.lifecycle ≠ .preempting) :
    (s.applyEntries schedule entries).ledger =
      entries.foldl (fun l e => if e.kind ≠ .run then l else l.runEntry e) s.ledger := by
  unfold applyEntries
  induction entries generalizing s with
  | nil => rfl
  | cons e es ih =>
    rw [List.foldl_cons, List.foldl_cons]
    split
    · exact ih fun e' he' => h e' (List.mem_cons_of_mem _ he')
    · rename_i hk
      have he := h e List.mem_cons_self (not_not.mp hk)
      have happly : (s.applyRunEntry schedule e).ledger = s.ledger.runEntry e :=
        ledger_applyRunEntry he
      rw [← happly]
      refine ih fun e' he' hk' r hr => ?_
      rcases lifecycle_applyRunEntry hr with hr | ⟨r₀, hr₀, hr⟩
      · rw [hr]
        decide
      · rw [← hr]
        exact h e' (List.mem_cons_of_mem _ he') hk' r₀ hr₀

theorem ledger_applySchedule {schedule : Schedule}
    (h : ∀ e ∈ schedule.entries, e.kind = .run →
      ∀ r, s.flows[e.flow]? = some r → r.lifecycle ≠ .preempting) :
    (s.applySchedule schedule).ledger = s.ledger.issue schedule :=
  ledger_applyEntries (s := s.retainSchedule schedule) h

end Schedules

section Attempts

theorem ledger_insertAttempt (s : Impl) (id : DispatchAttemptId) (r : AttemptRuntime) :
    ({ s with attempts := s.attempts.insert id r } : Impl).ledger =
      { s.ledger with attempts := Function.update s.ledger.attempts id (some r.ledger) } := by
  refine Ledger.ext rfl rfl rfl rfl rfl rfl rfl ?_ rfl
  funext a
  simp only [Impl.ledger, get_insert, Function.update_apply]
  split <;> rfl

theorem ledger_applyAttemptOpened (ticket : DispatchTicket) (nominal : UInt64) (now : Ticks) :
    (s.applyAttemptOpened ticket nominal now).ledger = s.ledger.openAttempt ticket := by
  have hfile : (s.fileAttempt ticket now).ledger = { s.ledger with
      attempts := Function.update s.ledger.attempts ticket.attempt (some { ticket }) } :=
    ledger_insertAttempt s ticket.attempt { ticket, openedTick := now }
  unfold applyAttemptOpened Ledger.openAttempt
  dsimp only
  rw [← hfile, ledger_current]
  cases (s.fileAttempt ticket now).current ticket.flow ticket.flowGeneration with
  | none => rfl
  | some r =>
    simp only [Option.map_some, dispatchFlow, ledger_recordStep, ledger_setLifecycle]
    rw [ledger_modifyFlow (g := ({ · with openAttempt := ticket.attempt })) fun _ => rfl,
      Ledger.setPhase, Ledger.modifyFlow_modifyFlow]
    rfl

theorem ledger_applyAttemptStarted (attempt : DispatchAttemptId) (now : Ticks) :
    (s.applyAttemptStarted attempt now).ledger = s.ledger.startAttempt attempt := by
  unfold applyAttemptStarted Ledger.startAttempt
  rw [ledger_attempts]
  cases ha : s.attempts[attempt]? with
  | none => rfl
  | some record =>
    simp only [Option.map_some, AttemptRuntime.ledger]
    by_cases ho : record.state = .opened
    · have hins := ledger_insertAttempt s attempt { record with state := .started }
      simp only [ho, ne_eq, not_true_eq_false, if_false]
      rw [ledger_flows]
      cases hf : s.flows[record.ticket.flow]? with
      | none => exact hins
      | some r =>
        simp only [Option.map_some, FlowRuntime.ledger]
        by_cases hh : r.openAttempt = attempt
        · simp only [hh, not_true_eq_false, if_false, ledger_setLifecycle]
          rw [ledger_modifyFlow_self, hins]
          · rfl
          · intro r
            rfl
        · simp only [hh, not_false_eq_true, if_true]
          exact hins
    · simp [ho]

theorem ledger_releaseAttempt (id : FlowId) (ticket : DispatchTicket) :
    (s.releaseAttempt id ticket).ledger = s.ledger.modifyFlow id ({ · with openAttempt := {} }) := by
  unfold releaseAttempt
  dsimp only
  rw [ledger_releaseInFlight]
  exact ledger_modifyFlow fun r => by simp only [FlowRuntime.ledger]

theorem ledger_closeFlowAttempt (record : AttemptRuntime) (attempt : DispatchAttemptId)
    (state : AttemptState) (now : Ticks) :
    (s.closeFlowAttempt record attempt state now).ledger =
      s.ledger.modifyFlow record.ticket.flow fun r =>
        { r with openAttempt := {}, phase := Ledger.closedPhase r.phase state } := by
  have hcount (t : Impl) : (t.modifyFlow record.ticket.flow fun r =>
      { r with accounting.preemptions := r.accounting.preemptions + 1 }).ledger = t.ledger :=
    ledger_modifyFlow_self fun r => by simp only [FlowRuntime.ledger]
  unfold closeFlowAttempt
  cases state <;>
    simp only [ledger_recordStep, ledger_setLifecycle, hcount, ledger_releaseAttempt,
      Ledger.setPhase, Ledger.modifyFlow_modifyFlow, Ledger.closedPhase, FlowLifecycle.phase,
      Function.comp_def]

theorem ledger_applyAttemptClosed (attempt : DispatchAttemptId) (state : AttemptState)
    (detail : Bytes) (now : Ticks) :
    (s.applyAttemptClosed attempt state detail now).ledger = s.ledger.closeAttempt attempt state := by
  unfold applyAttemptClosed Ledger.closeAttempt
  rw [ledger_attempts]
  cases ha : s.attempts[attempt]? with
  | none => rfl
  | some found =>
    simp only [Option.map_some, AttemptRuntime.ledger]
    by_cases ht : found.state.isTerminal
    · simp [ht]
    · simp only [ht, Bool.false_eq_true, if_false]
      have hend : (s.endAttempt attempt { found with
          state, closedTick := now, closeDetail := boundedDetail detail }).ledger = { s.ledger with
            attempts := Function.update s.ledger.attempts attempt (some ⟨found.ticket, state⟩) } :=
        ledger_insertAttempt s attempt _
      have hflows : (s.endAttempt attempt { found with
          state, closedTick := now, closeDetail := boundedDetail detail }).flows = s.flows := rfl
      rw [ledger_flows, hflows]
      cases hf : s.flows[found.ticket.flow]? with
      | none => exact hend
      | some r =>
        simp only [Option.map_some, FlowRuntime.ledger]
        by_cases hh : r.openAttempt = attempt
        · rw [if_neg (not_not.mpr hh), if_neg (not_not.mpr hh), ledger_closeFlowAttempt, hend]
        · rw [if_pos hh, if_pos hh, hend]

theorem ledger_applyCompletion (e : CompletionEvidence) (credited : UInt64)
    (lifecycle : FlowLifecycle) (now : Ticks) :
    (s.applyCompletion e credited lifecycle now).ledger =
      s.ledger.complete e credited lifecycle := by
  unfold applyCompletion Ledger.complete
  rw [ledger_attempts]
  cases ha : s.attempts[e.attempt]? with
  | none => rfl
  | some found =>
    simp only [Option.map_some, AttemptRuntime.ledger]
    have hend : (s.endAttempt e.attempt { found with
        state := .committed, closedTick := now, hasEvidence := true
        evidenceDigest := e.digest, credited := credited }).ledger = { s.ledger with
          attempts := Function.update s.ledger.attempts e.attempt
            (some ⟨found.ticket, .committed⟩) } := ledger_insertAttempt s e.attempt _
    have hflows : (s.endAttempt e.attempt { found with
        state := .committed, closedTick := now, hasEvidence := true
        evidenceDigest := e.digest, credited := credited }).flows = s.flows := rfl
    have hclear (t : Impl) : (t.modifyFlow e.flow (·.clearScheduled)).ledger = t.ledger :=
      ledger_modifyFlow_self fun _ => rfl
    have hcredit (t : Impl) : (t.creditFlow e.flow credited).ledger =
        { t.ledger with completionsApplied := t.completionsApplied + 1 }.modifyFlow e.flow fun r =>
          { r with
            servedWork := saturatingAdd r.servedWork credited
            serviceCredit := saturatingAdd r.serviceCredit credited
            completionsCommitted := r.completionsCommitted + 1 } :=
      ledger_modifyFlow (s := { t with completionsApplied := t.completionsApplied + 1 }) fun r => by
        simp only [FlowRuntime.ledger]
    have hcount (l : Ledger) (f : LedgerFlow → LedgerFlow) (n : UInt64) :
        { l.modifyFlow e.flow f with completionsApplied := n } =
          { l with completionsApplied := n }.modifyFlow e.flow f := rfl
    rw [ledger_flows, hflows]
    cases hf : s.flows[e.flow]? with
    | none => exact hend
    | some r =>
      simp only [Option.map_some, ledger_recordStep, ledger_setLifecycle, hcredit,
        ledger_releaseAttempt, hclear, hend]
      rw [hcount, Ledger.setPhase, Ledger.modifyFlow_modifyFlow, Ledger.modifyFlow_modifyFlow]
      simp only [Function.comp_def]
      rfl

theorem current_eq_some {flow : FlowId} {generation : Generation} {r : FlowRuntime} :
    s.current flow generation = some r ↔
      s.flows[flow]? = some r ∧ r.descriptor.generation = generation := by
  simp [current, Option.filter_eq_some_iff]

theorem ledger_applyCancel (flow : FlowId) (generation : Generation) (now : Ticks) :
    (s.applyCancel flow generation now).ledger = s.ledger.cancel flow generation := by
  unfold applyCancel Ledger.cancel
  rw [ledger_current]
  cases hr : s.current flow generation with
  | none => rfl
  | some r =>
    have hclear (t : Impl) : (t.modifyFlow flow fun r =>
        { r.clearScheduled with outstandingReserved := 0 }).ledger = t.ledger :=
      ledger_modifyFlow_self fun _ => rfl
    simp only [Option.map_some, ledger_recordStep, hclear, ledger_setLifecycle,
      ledger_releaseScheduledEntry, FlowRuntime.ledger, FlowLifecycle.phase]
    split
    · rw [ledger_applyAttemptClosed]
    · rfl

end Attempts

section Settling

theorem ledger_normalizeFlow (id : FlowId) (now : Ticks) :
    (s.normalizeFlow id now).ledger = s.ledger := by
  unfold normalizeFlow
  split
  · rfl
  · rename_i r hr
    split
    · rename_i hl
      refine ledger_setLifecycle_of_phase fun r' hr' => ?_
      obtain rfl : r = r' := Option.some.inj (hr.symm.trans hr')
      rw [hl]
      rfl
    · split
      · rename_i hl
        refine ledger_setLifecycle_of_phase fun r' hr' => ?_
        obtain rfl : r = r' := Option.some.inj (hr.symm.trans hr')
        rw [hl]
        rfl
      · rfl

@[simp] theorem ledger_normalizeTransientStates (now : Ticks) :
    (s.normalizeTransientStates now).ledger = s.ledger :=
  foldl_frame (fun s id => ledger_normalizeFlow (s := s) id now) _ s

end Settling

end Impl

namespace Ledger

open Classical

variable {l : Ledger}

theorem flows_closeAttempt (attempt : DispatchAttemptId) (state : AttemptState) (id : FlowId) :
    (l.closeAttempt attempt state).flows id = (l.flows id).map fun r =>
      if r.openAttempt = attempt ∧ l.holdsAttempt id r then
        { r with openAttempt := {}, phase := closedPhase r.phase state }
      else r := by
  have hsame (h : ∀ r, l.flows id = some r → ¬ (r.openAttempt = attempt ∧ l.holdsAttempt id r)) :
      l.flows id = (l.flows id).map fun r =>
        if r.openAttempt = attempt ∧ l.holdsAttempt id r then
          { r with openAttempt := {}, phase := closedPhase r.phase state }
        else r := by
    cases hr : l.flows id with
    | none => rfl
    | some r => simp [h r hr]
  unfold closeAttempt
  cases ha : l.attempts attempt with
  | none =>
    refine hsame fun r hr => ?_
    rintro ⟨rfl, x, hx, -⟩
    simp [ha] at hx
  | some record =>
    dsimp only
    split
    · rename_i ht
      refine hsame fun r hr => ?_
      rintro ⟨rfl, x, hx, hn, -⟩
      obtain rfl : record = x := Option.some.inj (ha.symm.trans hx)
      exact hn ht
    · rename_i ht
      cases hf : l.flows record.ticket.flow with
      | none =>
        refine hsame fun r hr => ?_
        rintro ⟨rfl, x, hx, -, rfl⟩
        obtain rfl : record = x := Option.some.inj (ha.symm.trans hx)
        simp [hf] at hr
      | some r =>
        dsimp only
        split
        · rename_i hne
          refine hsame fun r' hr' => ?_
          rintro ⟨rfl, x, hx, -, rfl⟩
          obtain rfl : record = x := Option.some.inj (ha.symm.trans hx)
          obtain rfl : r = r' := Option.some.inj (hf.symm.trans hr')
          exact hne rfl
        · rename_i heq
          simp only [modifyFlow, Function.update_apply]
          by_cases hid : id = record.ticket.flow
          · subst hid
            have hh : l.holdsAttempt record.ticket.flow r :=
              ⟨record, by rw [not_not.mp heq]; exact ha, ht, rfl⟩
            simp [hf, hh, not_not.mp heq]
          · rw [if_neg hid]
            refine hsame fun r' hr' => ?_
            rintro ⟨rfl, x, hx, -, hxf⟩
            obtain rfl : record = x := Option.some.inj (ha.symm.trans hx)
            exact hid hxf.symm

theorem attempts_closeAttempt_of_ne {attempt a : DispatchAttemptId} {state : AttemptState}
    (h : a ≠ attempt) : (l.closeAttempt attempt state).attempts a = l.attempts a := by
  unfold closeAttempt
  split
  · rfl
  · split
    · rfl
    · dsimp only
      split
      · simp [h]
      · split <;> simp [modifyFlow, h]

theorem closeAttempt_eq (l : Ledger) (attempt : DispatchAttemptId) (state : AttemptState) :
    ∃ flows attempts, l.closeAttempt attempt state = { l with flows, attempts } := by
  unfold closeAttempt
  split
  · exact ⟨l.flows, l.attempts, rfl⟩
  · split
    · exact ⟨l.flows, l.attempts, rfl⟩
    · dsimp only
      split
      · exact ⟨l.flows, _, rfl⟩
      · split
        · exact ⟨l.flows, _, rfl⟩
        · exact ⟨_, _, rfl⟩

/-- Close a list of attempts, losing the outcome of each. -/
def abandonAll (l : Ledger) (attempts : List DispatchAttemptId) : Ledger :=
  attempts.foldl (fun l attempt => l.closeAttempt attempt .abandoned) l

theorem flows_abandonAll {attempts : List DispatchAttemptId} (nodup : attempts.Nodup)
    (hzero : {} ∉ attempts.tail) (id : FlowId) :
    (l.abandonAll attempts).flows id = (l.flows id).map fun r =>
      if r.openAttempt ∈ attempts ∧ l.holdsAttempt id r then
        { r with openAttempt := {}, phase := .ambiguous }
      else r := by
  unfold abandonAll
  induction attempts generalizing l with
  | nil => simp
  | cons a as ih =>
    obtain ⟨ha, nodup⟩ := List.nodup_cons.mp nodup
    rw [List.tail_cons] at hzero
    rw [List.foldl_cons, ih nodup fun h => hzero (List.mem_of_mem_tail h), flows_closeAttempt,
      Option.map_map]
    refine Option.map_congr fun r _ => ?_
    have hholds (h : r.openAttempt ∈ as) :
        (l.closeAttempt a .abandoned).holdsAttempt id r ↔ l.holdsAttempt id r := by
      have hne : r.openAttempt ≠ a := fun h' => ha (h' ▸ h)
      simp only [holdsAttempt, attempts_closeAttempt_of_ne hne]
    by_cases hr : r.openAttempt = a
    · by_cases hh : l.holdsAttempt id r
      · simp [hr, hh, hzero, closedPhase]
      · simp [hr, hh, ha]
    · by_cases hm : r.openAttempt ∈ as
      · simp [hr, hm, hholds hm]
      · simp [hr, hm]

theorem abandonAll_eq (l : Ledger) (as : List DispatchAttemptId) :
    ∃ flows attempts, l.abandonAll as = { l with flows, attempts } := by
  unfold abandonAll
  induction as generalizing l with
  | nil => exact ⟨l.flows, l.attempts, rfl⟩
  | cons a as ih =>
    obtain ⟨_, _, h⟩ := l.closeAttempt_eq a .abandoned
    rw [List.foldl_cons, h]
    exact ih _

end Ledger

namespace Impl

variable {s : Impl}

theorem mem_openAttemptIds {a : DispatchAttemptId} :
    a ∈ s.openAttemptIds ↔ ∃ r, s.attempts[a]? = some r ∧ ¬ r.state.isTerminal := by
  simp only [openAttemptIds, List.mem_map, List.mem_filter, Prod.exists,
    Std.ExtTreeMap.mem_toList_iff_getElem?_eq_some]
  constructor
  · rintro ⟨a, r, ⟨hr, ht⟩, rfl⟩
    exact ⟨r, hr, by simpa using ht⟩
  · rintro ⟨r, hr, ht⟩
    exact ⟨a, r, ⟨hr, by simpa using ht⟩, rfl⟩

theorem nodup_openAttemptIds : s.openAttemptIds.Nodup := by
  refine List.Nodup.sublist (List.Sublist.map _ List.filter_sublist) ?_
  rw [Std.ExtTreeMap.map_fst_toList_eq_keys]
  exact nodup_keys s.attempts

theorem zero_notMem_tail_openAttemptIds : {} ∉ s.openAttemptIds.tail := by
  have hsorted : s.openAttemptIds.Pairwise fun a b => compare a b = .lt :=
    List.Pairwise.sublist (List.Sublist.map _ List.filter_sublist)
      (by rw [Std.ExtTreeMap.map_fst_toList_eq_keys]; exact s.attempts.ordered_keys)
  intro hmem
  cases hl : s.openAttemptIds with
  | nil =>
    rw [hl] at hmem
    cases hmem
  | cons a as =>
    rw [hl] at hsorted hmem
    have hlt := (List.pairwise_cons.mp hsorted).1 {} hmem
    have hvalue : compare a.value 0 = .lt := hlt
    exact UInt64.not_lt_zero (Std.compare_eq_lt.mp hvalue)

theorem ledger_abandonOpenAttempts (now : Ticks) (detail : Bytes) :
    (s.abandonOpenAttempts now detail).ledger = s.ledger.abandonAll s.openAttemptIds := by
  unfold abandonOpenAttempts
  dsimp only
  rw [ledger_normalizeTransientStates,
    foldl_frame (fun t id => ledger_applyReleaseSchedule (s := t) id now)]
  exact (List.foldl_hom Impl.ledger fun t a =>
    (ledger_applyAttemptClosed (s := t) a .abandoned detail now).symm).symm

theorem ledger_applyEpochAdvance (next : FabricEpoch) (now : Ticks) :
    (s.applyEpochAdvance next now).ledger = s.ledger.advanceEpoch next := by
  unfold applyEpochAdvance
  generalize ht : s.abandonOpenAttempts now _ = t
  have hl : t.ledger = s.ledger.abandonAll s.openAttemptIds := by
    rw [← ht]
    exact ledger_abandonOpenAttempts ..
  obtain ⟨flows, attempts, he⟩ := s.ledger.abandonAll_eq s.openAttemptIds
  have hflows : ∀ id, t.ledger.flows id = (s.ledger.advanceEpoch next).flows id := by
    intro id
    rw [hl, Ledger.flows_abandonAll nodup_openAttemptIds zero_notMem_tail_openAttemptIds]
    refine Option.map_congr fun r _ => ?_
    have hmem : s.ledger.holdsAttempt id r → r.openAttempt ∈ s.openAttemptIds := by
      rintro ⟨x, hx, hn, -⟩
      rw [ledger_attempts] at hx
      obtain ⟨found, hf, rfl⟩ := Option.map_eq_some_iff.mp hx
      exact mem_openAttemptIds.mpr ⟨found, hf, hn⟩
    by_cases hh : s.ledger.holdsAttempt id r
    · simp [hh, hmem hh]
    · simp [hh]
  rw [he] at hl
  have hresources : t.ledger.resources = s.ledger.resources := by rw [hl]
  have hpolicy : t.ledger.policy = s.ledger.policy := by rw [hl]
  have hreservations : t.ledger.reservations = s.ledger.reservations := by rw [hl]
  have hpriority : t.ledger.priorityClasses = s.ledger.priorityClasses := by rw [hl]
  have hqos : t.ledger.qosClasses = s.ledger.qosClasses := by rw [hl]
  have happlied : t.ledger.completionsApplied = s.ledger.completionsApplied := by rw [hl]
  refine Ledger.ext hpolicy rfl ?_ hreservations hpriority hqos ?_ ?_ happlied
  · rw [show (s.ledger.advanceEpoch next).resources = t.ledger.resources from hresources.symm]
    funext id
    simp [Impl.ledger, clearAuthority, reindexAll, Std.ExtTreeMap.getElem?_map, Function.comp_def]
  · funext id
    rw [← hflows]
    simp only [Impl.ledger, clearAuthority, reindexAll, Std.ExtTreeMap.getElem?_map,
      Option.map_map]
    rfl
  · funext id
    simp [Impl.ledger, clearAuthority, Ledger.advanceEpoch]

end Impl

end FlowScheduler

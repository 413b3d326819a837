import FlowScheduler.Lifecycle.Transient
import FlowScheduler.Steps.Registry

/-! # No transient lifecycle rests

A round enters preempting in two loops and normalizes only at its end. It gets
there unless an append is refused on the way or, after the schedule was applied,
a schedule counter cannot advance.
-/

namespace FlowScheduler

open ByteCodec (Bytes)
open Failing SchedOp OrderedMap Impl

def Unexhausted (s : Impl) : Prop :=
  s.nextSchedule.value ≠ u64Max ∧ s.nextScheduleGeneration.value ≠ u64Max

instance (s : Impl) : Decidable (Unexhausted s) := inferInstanceAs (Decidable (_ ∧ _))

theorem Unexhausted.of_setting {s s' : Impl} (h : Unexhausted s) (same : s'.setting = s.setting) :
    Unexhausted s' := by
  have hschedule : s'.nextSchedule = s.nextSchedule := congrArg Setting.nextSchedule same
  have hgeneration : s'.nextScheduleGeneration = s.nextScheduleGeneration :=
    congrArg Setting.nextScheduleGeneration same
  unfold Unexhausted
  rw [hschedule, hgeneration]
  exact h

/-- The program stops only where an append is refused and otherwise ends as required. -/
def Endures {α : Type} (Q : Scheduler → Prop) (m : SchedOp α) (s : Scheduler) : Prop :=
  match exec m s with
  | (.ok _, t) => s.refusedAppends ≤ t.refusedAppends ∧ Q t
  | (.error _, t) => s.refusedAppends < t.refusedAppends

namespace Endures

variable {α β : Type} {Q Q' : Scheduler → Prop} {m : SchedOp α} {s : Scheduler}

theorem pure {a : α} (h : Q s) : Endures Q (pure a : SchedOp α) s := ⟨le_refl _, h⟩

theorem bind {k : α → SchedOp β} (h : Endures Q m s)
    (next : ∀ a t, exec m s = (.ok a, t) → Q t → Endures Q' (k a) t) :
    Endures Q' (m >>= k) s := by
  unfold Endures at h ⊢
  rw [exec_bind]
  rcases hm : exec m s with ⟨e | a, t⟩
  · rw [hm] at h
    exact h
  · rw [hm] at h
    obtain ⟨hle, hQ⟩ := h
    have hk := next a t hm hQ
    unfold Endures at hk
    revert hk
    dsimp only
    rcases exec (k a) t with ⟨e | b, u⟩
    · exact fun hk => lt_of_le_of_lt hle hk
    · exact fun hk => ⟨hle.trans hk.1, hk.2⟩

theorem readImpl_bind {k : Impl → SchedOp β} (h : Endures Q (k s.impl) s) :
    Endures Q (readImpl >>= k) s := h

theorem modifyImpl_bind {f : Impl → Impl} {k : Unit → SchedOp β}
    (h : Endures Q (k ()) { s with impl := f s.impl }) : Endures Q (modifyImpl f >>= k) s := h

theorem lift_bind {x : Result α} {k : α → SchedOp β} {a : α} (hx : x = .ok a)
    (h : Endures Q (k a) s) : Endures Q (liftM x >>= k) s := by
  unfold Endures
  rw [exec_lift_bind, hx]
  exact h

theorem journal {r : Record} : Endures (fun t => t.impl = s.impl) (SchedOp.journal r) s := by
  unfold Endures
  have himpl := impl_journal (s := s) r
  revert himpl
  rw [exec_journal]
  cases s.store with
  | none => exact fun himpl => ⟨le_refl _, himpl⟩
  | some store =>
    dsimp only
    rcases exec (DurableStore.append r.type r.payload) store with ⟨e | _, store⟩
    · exact fun _ => Nat.lt_succ_self _
    · exact fun himpl => ⟨le_refl _, himpl⟩

theorem journal_bind {r : Record} {k : Unit → SchedOp β}
    (h : ∀ t, t.impl = s.impl → Endures Q (k ()) t) : Endures Q (SchedOp.journal r >>= k) s :=
  journal.bind fun _ t _ ht => h t ht

end Endures

section Round

variable {s : Scheduler} {now : Ticks} {β : Type} {Q : Scheduler → Prop}

/-- The state is one from which a schedule can still be issued. -/
def Open (t : Scheduler) : Prop := Unexhausted t.impl

theorem endures_reclaimExpiredDeliveries (ids : List ScheduleId) (o : ArbitrationOutcome)
    (h : Open s) : Endures Open (reclaimExpiredDeliveries now ids o) s := by
  induction ids generalizing s o with
  | nil => exact .pure h
  | cons id ids ih =>
    unfold reclaimExpiredDeliveries
    refine .readImpl_bind ?_
    split
    · exact ih o h
    · rename_i runtime _
      split
      · exact ih o h
      · split
        · exact .pure h
        · -- The reclaim goes on without the record, so a refused append only ends the pass.
          have hcaught : Endures (fun t => t.impl = s.impl)
              (succeeds (journal (.scheduleReleased id now))) s := by
            unfold Endures
            rw [exec_succeeds]
            have himpl := impl_journal (s := s) (.scheduleReleased id now)
            have hjournal := Endures.journal (s := s) (r := .scheduleReleased id now)
            unfold Endures at hjournal
            revert hjournal himpl
            rcases exec (journal (.scheduleReleased id now)) s with ⟨e | u, t⟩
            · exact fun himpl hjournal => ⟨Nat.le_of_lt hjournal, himpl⟩
            · exact fun himpl hjournal => ⟨hjournal.1, himpl⟩
          refine hcaught.bind fun released t _ ht => ?_
          have hopen : Open t := by
            unfold Open
            rw [ht]
            exact h
          split
          · refine .modifyImpl_bind (ih _ ?_)
            exact Unexhausted.of_setting hopen (setting_applyReleaseSchedule ..)
          · exact .pure hopen

theorem endures_closeAttempt_bind {attempt : DispatchAttemptId} {state : AttemptState}
    {detail : Bytes} {k : Unit → SchedOp β} (h : Open s)
    (next : ∀ t, Open t → Endures Q (k ()) t) :
    Endures Q (closeAttempt attempt state detail now >>= k) s := by
  unfold Endures
  rw [exec_closeAttempt_bind]
  refine Endures.journal_bind fun t ht => .modifyImpl_bind (next _ ?_)
  refine Unexhausted.of_setting (s := t.impl) ?_ (setting_applyAttemptClosed ..)
  rw [ht]
  exact h

theorem endures_stopOverdue (attempts : List DispatchAttemptId) (h : Open s) :
    Endures Open (stopOverdue now attempts) s := by
  induction attempts generalizing s with
  | nil => exact .pure h
  | cons attempt rest ih =>
    refine endures_closeAttempt_bind h fun t ht => .modifyImpl_bind (ih ?_)
    exact Unexhausted.of_setting ht rfl

variable {candidate : Candidate} {flow : FlowRuntime}

theorem endures_grantWindow (round : Round) (h : Open s) :
    Endures Open (grantWindow now candidate flow round) s := by
  unfold grantWindow
  refine .readImpl_bind ?_
  split
  · exact .pure h
  · split <;> exact .pure h

theorem endures_placeCandidate {resource : ResourceRuntime} (round : Round) (h : Open s) :
    Endures Open (placeCandidate now candidate flow resource round) s := by
  unfold placeCandidate
  refine .modifyImpl_bind ?_
  have hrolled : Open { s with
      impl := s.impl.modifyResource flow.descriptor.resource.id (·.rollInterval now) } :=
    Unexhausted.of_setting h rfl
  split
  · refine .readImpl_bind ?_
    split
    · exact .pure hrolled
    · refine Endures.bind (Q := Open) ?_ fun round t _ ht => endures_grantWindow round ht
      refine endures_closeAttempt_bind hrolled fun t ht => .modifyImpl_bind (.pure ?_)
      exact Unexhausted.of_setting ht rfl
  · exact endures_grantWindow round hrolled

theorem endures_considerCandidate {limit : ℕ} (round : Round) (h : Open s) :
    Endures Open (considerCandidate now limit round candidate) s := by
  unfold considerCandidate
  refine .readImpl_bind ?_
  split
  · exact .pure h
  · split
    · exact .pure h
    · split
      · refine .modifyImpl_bind (.pure ?_)
        exact Unexhausted.of_setting h setting_deferUnready
      · split
        · exact .pure h
        · split
          · exact .pure h
          · split
            · exact .pure h
            · exact endures_placeCandidate round h

theorem endures_considerCandidates {limit : ℕ} (candidates : List Candidate) (round : Round)
    (h : Open s) : Endures Open (considerCandidates now limit candidates round) s := by
  induction candidates generalizing s round with
  | nil => exact .pure h
  | cons candidate rest ih =>
    exact (endures_considerCandidate round h).bind fun round t _ ht => ih round ht

theorem endures_issueSchedule (entries : List ScheduleEntry) (h : Open s) :
    Endures (fun _ => True) (issueSchedule entries now) s := by
  unfold issueSchedule
  refine .readImpl_bind (.modifyImpl_bind (.journal_bind fun t ht => .modifyImpl_bind ?_))
  have hopen : Open { t with
      impl := t.impl.applySchedule (s.impl.makeSchedule entries now) } := by
    refine Unexhausted.of_setting (s := s.impl) h ?_
    rw [setting_applySchedule, ht]
    rfl
  obtain ⟨hschedule, hgeneration⟩ := hopen
  refine .readImpl_bind (.lift_bind (Id.advance_eq_ok.mpr ⟨hschedule, rfl⟩) ?_)
  refine .readImpl_bind (.lift_bind (Id.advance_eq_ok.mpr ⟨hgeneration, rfl⟩) ?_)
  exact .modifyImpl_bind (.pure trivial)

/-- A round that is not refused at once ends with every flow at rest, or an append was refused. -/
theorem endures_arbitrate (h : Open s) (accepted : s.impl.lastTick ≤ now) :
    Endures (fun t => Resting t.impl) (arbitrate now) s := by
  unfold arbitrate
  have hrefuse : refuseIf (now < s.impl.lastTick) .invalidArgument
      "arbitration tick moved backwards" = .ok () := by
    simp [refuseIf, UInt64.not_lt.mpr accepted]
  refine .readImpl_bind (.lift_bind hrefuse (.modifyImpl_bind (.readImpl_bind ?_)))
  have hbegin : Open { s with impl := { s.impl with
      lastTick := now, arbitrationRounds := s.impl.arbitrationRounds + 1 } } := h
  refine (endures_reclaimExpiredDeliveries _ _ hbegin).bind fun outcome t _ ht => .readImpl_bind ?_
  have hrefresh : (t.impl.refreshLifecycles now outcome).1.setting = t.impl.setting :=
    setting_refreshLifecycles
  revert hrefresh
  generalize t.impl.refreshLifecycles now outcome = p
  intro hrefresh
  obtain ⟨refreshed, outcome⟩ := p
  refine .modifyImpl_bind (.readImpl_bind ?_)
  have ht : Open { t with impl := refreshed } := Unexhausted.of_setting ht hrefresh
  refine (endures_stopOverdue _ ht).bind fun _ t _ ht => .readImpl_bind ?_
  have hrank : (t.impl.rankCandidates now).1.setting = t.impl.setting := setting_rankCandidates
  revert hrank
  generalize t.impl.rankCandidates now = p
  intro hrank
  obtain ⟨ranked, candidates⟩ := p
  refine .modifyImpl_bind (.readImpl_bind ?_)
  have ht : Open { t with impl := ranked.rollPreemptionWindow now } :=
    Unexhausted.of_setting ht (setting_rollPreemptionWindow.trans hrank)
  refine (endures_considerCandidates _ _ ht).bind fun round t _ ht => ?_
  have hfinish : ∀ (a : ArbitrationOutcome) (t : Scheduler), Endures (fun t => Resting t.impl)
      (modifyImpl (fun s => (s.normalizeTransientStates now).maybeRetireSchedules) >>= fun _ =>
        pure a) t := by
    intro a t
    refine .modifyImpl_bind (.pure ?_)
    exact (resting_normalizeTransientStates _ now).congr (flows_retireSchedulesFrom _ _)
  split
  · exact .readImpl_bind (hfinish _ _)
  · exact (endures_issueSchedule _ ht).bind fun _ t _ _ => hfinish _ t

end Round

section Calls

variable {s t : Scheduler}

theorem resting_preemptAttempt (attempt : DispatchAttemptId) (reason : Bytes) (now : Ticks)
    (h : Resting s.impl) : Resting (exec (preemptAttempt attempt reason now) s).2.impl := by
  unfold preemptAttempt
  rw [exec_touch_bind, exec_readImpl_bind, exec_lift_bind]
  split
  · rw [exec_lift_bind]
    split
    · rw [exec_closeAttempt_bind, exec_bind]
      split
      · exact resting_normalizeTransientStates _ now
      · rename_i e u hjournal
        rw [impl_of_append hjournal]
        exact h.congr rfl
    · exact h.congr rfl
  · exact h.congr rfl

theorem resting_create {options : SchedulerOptions} {files : Directory}
    (h : create options files = .ok s) : Resting s.impl := by
  obtain ⟨-, rfl | ⟨-, store, -, -, hrecover⟩⟩ := create_ok h
  · intro id r hr
    simp [Impl.fresh] at hr
  · obtain ⟨b, report, s₁, s₂, s₃, next, before, after, -, -, -, -, rfl⟩ := recover_ok hrecover
    exact (resting_applyEpochAdvance _ next _).congr rfl

def Call.isRound : Call → Bool
  | .arbitrate _ => true
  | _ => false

/-- A round is made only with room in the schedule counters, and no append it makes is refused. -/
def Undisturbed (s : Scheduler) (c : Call) : Prop :=
  c.isRound → (s.call c).2.refusedAppends = s.refusedAppends ∧ Unexhausted s.impl

instance (s : Scheduler) (c : Call) : Decidable (Undisturbed s c) :=
  inferInstanceAs (Decidable (_ → _))

theorem resting_arbitrate {now : Ticks} (h : Resting s.impl)
    (ok : Undisturbed s (.arbitrate now)) : Resting (s.call (.arbitrate now)).2.impl := by
  obtain ⟨hrefused, hopen⟩ := ok rfl
  by_cases htick : s.impl.lastTick ≤ now
  · have hexec : (s.call (.arbitrate now)).2 = (exec (arbitrate now) s).2 := exec_done _ _
    rw [hexec] at hrefused ⊢
    have hendures := endures_arbitrate hopen htick
    unfold Endures at hendures
    revert hendures hrefused
    rcases exec (arbitrate now) s with ⟨e | outcome, t⟩
    · intro hrefused hlt
      exact absurd hrefused (Nat.ne_of_gt hlt)
    · intro _ hrest
      exact hrest.2
  · rw [call_arbitrate_late (UInt64.not_le.mp htick)]
    exact h

theorem resting_call {c : Call} (sound : Sound s.impl) (ok : Undisturbed s c)
    (h : Resting s.impl) : Resting (s.call c).2.impl := by
  by_cases hround : c.isRound
  · cases c with
    | arbitrate now => exact resting_arbitrate h ok
    | _ => cases hround
  · by_cases hpreempt : c.isPreemption
    · cases c with
      | preemptAttempt attempt reason now =>
        have hexec : (s.call (.preemptAttempt attempt reason now)).2 =
            (exec (preemptAttempt attempt reason now) s).2 := exec_done _ _
        rw [hexec]
        exact resting_preemptAttempt attempt reason now h
      | _ => cases hpreempt
    · refine preserves_call (fun i r i' move hi => ?_) sound h
      rcases move with move | ⟨now, rfl, -⟩
      · exact move.resting (Bool.not_eq_true _ ▸ hpreempt) hi
      · exact absurd rfl hround

end Calls

/-- When a call returns, no flow is left preempting or cancelling. -/
theorem transient_never_rests {s : Scheduler} (reachable : ReachableBy Undisturbed s) :
    Resting s.impl :=
  reachable.invariant (fun _ _ _ => resting_create) fun _ _ sound ok h => resting_call sound ok h

section Sample

open Sample

/-- The first flow runs into its deadline while a second one waits for the slot. -/
def overrun : List Call :=
  [.registerResource resource, .registerPriorityClass priority, .registerQosClass qos,
    .admitFlow { flow 1 with deadlineTick := 10 }, .arbitrate 5, dispatch 5, .admitFlow (flow 2)]

set_option maxRecDepth 100000 in
theorem transient_never_rests_overrun : ∃ s, ReachableBy Undisturbed s ∧
    s.impl.preemptionsIssued = 1 ∧ Resting s.impl := by
  obtain ⟨s, reachable, hissued⟩ : ∃ s, ReachableBy Undisturbed s ∧
      s.impl.preemptionsIssued = 1 :=
    @exists_reachableBy transient (overrun ++ [.arbitrate 20]) _ _ (by decide +kernel)
  exact ⟨s, reachable, hissued, transient_never_rests reachable⟩

set_option maxRecDepth 100000 in
/-- The record of the preemption is written, the one of the schedule is not. -/
theorem not_transient_never_rests : ∃ s now, ∃ id : FlowId, ∃ r : FlowRuntime, Reachable s ∧
    (s.call (.arbitrate now)).2.impl.flows[id]? = some r ∧ r.lifecycle = .preempting := by
  obtain ⟨s, reachable, hstuck⟩ : ∃ s, Reachable s ∧
      (((s.withFaults [none, some { operation := "fwrite" }]).call
        (.arbitrate 20)).2.impl.flows[(⟨1⟩ : FlowId)]?).map (·.lifecycle) = some .preempting :=
    @exists_reachable durable overrun _ (by decide +kernel)
  obtain ⟨r, hr, hl⟩ := Option.map_eq_some_iff.mp hstuck
  exact ⟨_, 20, ⟨1⟩, r, reachable.faulty _, hr, hl⟩

end Sample

end FlowScheduler

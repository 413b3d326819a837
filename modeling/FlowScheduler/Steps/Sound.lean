import FlowScheduler.Steps.Keyed
import FlowScheduler.Ledger.Sound

/-! # What the moves do to the ledger

A move with a record acts on the ledger as that record. A move without one
leaves the ledger alone, but for a flow that fails and for the ended attempts
that are forgotten with their schedule. From this follows the invariant every
round relies on.
-/

namespace FlowScheduler

open OrderedMap

/-- The ledger after a move that appended the given record, if any. -/
noncomputable def Ledger.after (l : Ledger) : Option Record → Ledger
  | none => l
  | some r => l.apply r

def Ledger.forget (l : Ledger) (gone : List DispatchAttemptId) : Ledger :=
  { l with attempts := fun a => if a ∈ gone then none else l.attempts a }

namespace Impl

variable {s s' : Impl}

theorem ledger_failFlow (id : FlowId) (reason : DecisionReason) (detail : String) (now : Ticks) :
    (s.failFlow id reason detail now).ledger = s.ledger.setPhase id .failed := by
  rw [failFlow, ledger_recordStep, ledger_setLifecycle, FlowLifecycle.phase]

theorem ledger_countDeadlineMiss (id : FlowId) : (s.countDeadlineMiss id).ledger = s.ledger := by
  refine (ledger_modifyFlow_self fun r => ?_).trans rfl
  rfl

theorem ledger_advanceAttempt : s.advanceAttempt.ledger = s.ledger := by
  unfold advanceAttempt
  split <;> rfl

theorem ledger_advanceSchedule : s.advanceSchedule.ledger = s.ledger := by
  unfold advanceSchedule
  split <;> rfl

theorem ledger_dropSchedule (front : ScheduleId) :
    (s.dropSchedule front).ledger = s.ledger.forget (s.scheduleAttempts.getD front []) := by
  refine Ledger.ext rfl rfl rfl rfl rfl rfl rfl ?_ rfl
  funext a
  simp only [Impl.ledger, dropSchedule, Ledger.forget, get_foldl_erase]
  split <;> rfl

end Impl

namespace CommonMove

variable {s s' : Impl} {r : Option Record}

theorem ledger (move : CommonMove s r s') : s'.ledger = s.ledger.after r := by
  cases move with
  | counters => rfl
  | note hf =>
    refine Impl.ledger_modifyFlow_self fun r => ?_
    obtain ⟨_, _, _, hr, -, hc, hn⟩ := hf r
    rw [hr]
    simp only [FlowRuntime.ledger, hc, hn]
  | ready found waiting =>
    rw [Impl.ledger_recordStep, Impl.ledger_setLifecycle_of_phase]
    · rfl
    · intro r hr
      obtain rfl := Option.some.inj (found.symm.trans hr)
      rw [waiting]
      rfl
  | normalize => exact Impl.ledger_normalizeTransientStates _
  | close => exact Impl.ledger_applyAttemptClosed ..
  | release => exact Impl.ledger_applyReleaseSchedule ..

end CommonMove

/-- The ways a round changes the ledger without a record. -/
inductive Ledger.Quiet : Ledger → Ledger → Prop
  | same (l) : Quiet l l
  | fail {l id r} (found : l.flows id = some r) (pending : r.phase = .pending) :
      Quiet l (l.setPhase id .failed)
  | forget {l} (gone) : Quiet l (l.forget gone)

theorem Ledger.Quiet.attempts {l l' : Ledger} (h : l.Quiet l') {id : DispatchAttemptId} {x : LedgerAttempt}
    (found : l'.attempts id = some x) : l.attempts id = some x := by
  cases h with
  | same => exact found
  | fail => exact found
  | forget gone =>
    unfold Ledger.forget at found
    dsimp only at found
    split at found
    · cases found
    · exact found

namespace RoundMove

variable {s s' : Impl} {now : Ticks} {r : Option Record}

theorem phase_pending {r : FlowRuntime} (h : r.lifecycle = .waiting ∨ r.lifecycle = .ready) :
    r.ledger.phase = .pending := by
  simp only [FlowRuntime.ledger]
  rcases h with h | h <;> rw [h] <;> rfl

theorem quiet (move : RoundMove now s none s') : s.ledger.Quiet s'.ledger := by
  generalize hr : (none : Option Record) = r at move
  cases move with
  | common move =>
    subst hr
    rw [move.ledger]
    exact .same _
  | failDependency found pending =>
    rw [Impl.ledger_failFlow]
    exact .fail (by rw [Impl.ledger_flows, found]; rfl) (phase_pending pending)
  | failDeadline found pending =>
    rw [Impl.ledger_failFlow, Impl.ledger_countDeadlineMiss]
    exact .fail (by rw [Impl.ledger_flows, found]; rfl) (phase_pending pending)
  | tick => exact .same _
  | roll =>
    rw [Impl.ledger_modifyResource fun r => Impl.descriptor_rollInterval r now]
    exact .same _
  | issue => cases hr
  | forget => exact .same _
  | @retire front =>
    have h : s.ledger.Quiet (s.dropSchedule front).ledger := by
      rw [Impl.ledger_dropSchedule]
      exact .forget _
    exact h

theorem ledger {rec : Record} (move : RoundMove now s (some rec) s') :
    s'.ledger = s.ledger.apply rec := by
  generalize hr : some rec = r at move
  cases move with
  | common move =>
    subst hr
    exact move.ledger
  | failDependency => cases hr
  | failDeadline => cases hr
  | tick => cases hr
  | roll => cases hr
  | issue _ h =>
    cases hr
    rw [Impl.ledger_advanceSchedule, Impl.ledger_applySchedule]
    · rfl
    · intro e he hk r hr
      obtain ⟨r₀, hg⟩ := h.run e he hk
      obtain rfl := Option.some.inj (hg.found.symm.trans hr)
      rw [hg.ready]
      decide
  | forget => cases hr
  | retire => cases hr

theorem attempts (move : RoundMove now s r s') {a : DispatchAttemptId} {x' : AttemptRuntime}
    (found : s'.attempts[a]? = some x') : ∃ x, s.attempts[a]? = some x ∧ x'.ticket = x.ticket ∧
      (x.state.isTerminal → x'.state.isTerminal) := by
  have hfound : s'.ledger.attempts a = some x'.ledger := congrArg (Option.map _) found
  have hold : ∃ y, s.ledger.attempts a = some y ∧ x'.ledger.ticket = y.ticket ∧
      (y.state.isTerminal → x'.ledger.state.isTerminal) := by
    cases r with
    | none => exact ⟨_, move.quiet.attempts hfound, rfl, fun h => h⟩
    | some record =>
      rw [move.ledger] at hfound
      rcases Ledger.attempts_apply hfound with hold | ⟨-, nominal, tick, rfl⟩
      · exact hold
      · cases move with
        | common move => cases move
  obtain ⟨y, hy, hticket, hstate⟩ := hold
  obtain ⟨x, hx, rfl⟩ := Option.map_eq_some_iff.mp hy
  exact ⟨x, hx, hticket, hstate⟩

end RoundMove

namespace CallMove

variable {c : Call} {s s' : Impl}

/-- A record that was appended for a change the transition then refused. -/
def Late (s : Impl) (r : Record) : Prop :=
  (∃ d e, r = .flowAdmitted d ∧ s.applyAdmit d = .error e) ∨
    ∃ d e, r = .flowUpdated d ∧ s.applyUpdate d = .error e

theorem quiet (move : CallMove c s none s') : s'.ledger = s.ledger := by
  generalize hr : (none : Option Record) = r at move
  cases move with
  | common move =>
    subst hr
    exact move.ledger
  | touch => rfl
  | _ => cases hr

theorem ledger {rec : Record} (move : CallMove c s (some rec) s') :
    s'.ledger = s.ledger.apply rec ∨ (Late s rec ∧ s' = s) := by
  generalize hr : some rec = r at move
  cases move with
  | common move =>
    subst hr
    exact .inl move.ledger
  | touch => cases hr
  | registerResource => cases hr; exact .inl (Impl.ledger_applyResource _)
  | registerReservation => cases hr; exact .inl (Impl.ledger_applyReservation _)
  | retireReservation => cases hr; exact .inl (Impl.ledger_applyRetireReservation _ _)
  | registerPriorityClass => cases hr; exact .inl (Impl.ledger_applyPriorityClass _)
  | registerQosClass => cases hr; exact .inl (Impl.ledger_applyQosClass _)
  | admitFlow _ applied => cases hr; exact .inl (Impl.ledger_applyAdmit applied)
  | admitRefused _ refused => cases hr; exact .inr ⟨.inl ⟨_, _, rfl, refused⟩, rfl⟩
  | update _ applied =>
    cases hr
    exact .inl ((Impl.ledger_releaseScheduledEntry _ _).trans (Impl.ledger_applyUpdate applied))
  | updateRefused _ refused => cases hr; exact .inr ⟨.inr ⟨_, _, rfl, refused⟩, rfl⟩
  | cancel =>
    cases hr
    exact .inl ((Impl.ledger_normalizeTransientStates _).trans (Impl.ledger_applyCancel _ _ _))
  | notify => cases hr; exact .inl (Impl.ledger_applyReadiness _ _ _ _)
  | resolve => cases hr; exact .inl (Impl.ledger_applyAmbiguityResolved _ _ _ _)
  | retireFlow => cases hr; exact .inl (Impl.ledger_applyRetireFlow _ _)
  | installPolicy => cases hr; exact .inl rfl
  | advanceEpoch =>
    cases hr
    exact .inl (Impl.ledger_applyEpochAdvance _ _)
  | dispatch =>
    cases hr
    exact .inl (Impl.ledger_advanceAttempt.trans (Impl.ledger_applyAttemptOpened _ _ _))
  | start => cases hr; exact .inl (Impl.ledger_applyAttemptStarted _ _)
  | complete => cases hr; exact .inl (Impl.ledger_applyCompletion _ _ _ _)

end CallMove

/-- The invariant of every reachable state that a round relies on. -/
structure Sound (s : Impl) : Prop where
  keyed : Keyed s
  ledger : s.ledger.Sound

theorem Ledger.Sound.quiet {l l' : Ledger} (h : l.Sound) (move : l.Quiet l') : l'.Sound := by
  cases move with
  | same => exact h
  | @fail id r₀ found pending =>
    refine h.modifyFlow fun r hr _ hv => ?_
    obtain rfl := Option.some.inj (found.symm.trans hr)
    have hidle : r₀.phase.idle := by
      rw [pending]
      exact ⟨by decide, by decide⟩
    exact h id r₀ found hidle hv
  | forget gone =>
    intro id r hr hp hv hholds
    refine h id r hr hp hv ?_
    obtain ⟨x, hx, hlive⟩ := hholds
    simp only [forget] at hx
    split at hx
    · cases hx
    · exact ⟨x, hx, hlive⟩

namespace Sound

variable {s s' : Impl}

theorem roundMove {now : Ticks} {r : Option Record} (h : Sound s) (move : RoundMove now s r s') :
    Sound s' where
  keyed := h.keyed.roundMove move
  ledger := by
    cases r with
    | none => exact h.ledger.quiet move.quiet
    | some rec =>
      rw [move.ledger]
      refine h.ledger.apply fun ticket nominal tick hr => ?_
      subst hr
      rcases move with move | _ | _ | _ | _ | _ | _
      cases move

theorem current_of_dispatches {schedule : ScheduleId} {generation : Generation} {ordinal : UInt32}
    {worker : WorkerId} {boot : BootId} {now : Ticks} {entry : ScheduleEntry} {flow : FlowRuntime}
    (h : s.Dispatches schedule generation ordinal worker boot now entry flow) :
    s.ledger.current entry.flow entry.flowGeneration ≠ none := by
  rw [Impl.ledger_current, Impl.current_eq_some.mpr ⟨h.found, h.generation⟩]
  exact Option.some_ne_none _

theorem callMove {c : Call} {r : Option Record} (h : Sound s) (move : CallMove c s r s') : Sound s' where
  keyed := h.keyed.callMove move
  ledger := by
    cases r with
    | none =>
      rw [move.quiet]
      exact h.ledger
    | some rec =>
      rcases move.ledger with hl | ⟨-, hl⟩
      · rw [hl]
        refine h.ledger.apply fun ticket nominal tick hr => ?_
        subst hr
        cases move with
        | common move => cases move
        | dispatch guard => exact current_of_dispatches (Impl.beginDispatchGuard_eq_ok.mp guard)
      · rw [hl]
        exact h.ledger

theorem move {c : Call} {r : Option Record} (h : Sound s) (m : Move c s r s') : Sound s' := by
  rcases m with m | ⟨now, -, m⟩
  · exact h.callMove m
  · exact h.roundMove m

end Sound

end FlowScheduler

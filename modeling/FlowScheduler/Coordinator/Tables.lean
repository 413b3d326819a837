import FlowScheduler.Coordinator.Model
import FlowScheduler.Steps.Reachable
import FlowScheduler.Steps.Registry

/-! # The attempts of a scheduler and of its coordinator

The scheduler retains attempts, the coordinator keeps a table of those it has
handed out. Only a dispatch files a new attempt. Every other call leaves the
attempts with the tickets they have, and the calls a frame can cause touch the
one attempt they name.
-/

namespace FlowScheduler

open ByteCodec (Bytes)
open Failing SchedOp OrderedMap

section Transitions

namespace Impl

variable {s : Impl} {a b : DispatchAttemptId}

theorem attempts_normalizeTransientStates (now : Ticks) :
    (s.normalizeTransientStates now).attempts = s.attempts :=
  look_normalizeTransientStates (·.attempts) rfl s

theorem attempts_closeFlowAttempt (record : AttemptRuntime) (state : AttemptState) (now : Ticks) :
    (s.closeFlowAttempt record a state now).attempts = s.attempts := by
  cases state <;> rfl

theorem attempts_applyAttemptClosed (state : AttemptState) (detail : Bytes) (now : Ticks)
    (h : b ≠ a) : (s.applyAttemptClosed a state detail now).attempts[b]? = s.attempts[b]? := by
  unfold applyAttemptClosed
  split
  · rfl
  · split
    · rfl
    · have hended : ∀ record, (s.endAttempt a record).attempts[b]? = s.attempts[b]? := by
        intro record
        exact (get_insert _).trans (if_neg h)
      dsimp only
      split
      · exact hended _
      · split
        · exact hended _
        · rw [attempts_closeFlowAttempt]
          exact hended _

theorem terminal_applyAttemptClosed {state : AttemptState} (terminal : state.isTerminal)
    (detail : Bytes) (now : Ticks) {x : AttemptRuntime}
    (h : (s.applyAttemptClosed a state detail now).attempts[a]? = some x) : x.state.isTerminal := by
  unfold applyAttemptClosed at h
  split at h
  · rename_i hnone
    rw [hnone] at h
    cases h
  · rename_i found hfound
    split at h
    · rename_i hterminal
      obtain rfl := Option.some.inj (hfound.symm.trans h)
      exact hterminal
    · have hended : ∀ record, (s.endAttempt a record).attempts[a]? = some record := by
        intro record
        exact (get_insert _).trans (if_pos rfl)
      have hx : x.state = state := by
        dsimp only at h
        split at h
        · rw [hended] at h
          cases h
          rfl
        · split at h
          · rw [hended] at h
            cases h
            rfl
          · rw [attempts_closeFlowAttempt, hended] at h
            cases h
            rfl
      rw [hx]
      exact terminal

theorem attempts_applyAttemptStarted (now : Ticks) (h : b ≠ a) :
    (s.applyAttemptStarted a now).attempts[b]? = s.attempts[b]? := by
  have hfiled : ∀ record, (s.attempts.insert a record)[b]? = s.attempts[b]? := by
    intro record
    exact (get_insert _).trans (if_neg h)
  unfold applyAttemptStarted
  split
  · rfl
  · split
    · rfl
    · dsimp only
      split
      · exact hfiled _
      · split
        · exact hfiled _
        · exact hfiled _

theorem attempts_applyCompletion (e : CompletionEvidence) (credited : UInt64)
    (lifecycle : FlowLifecycle) (now : Ticks) (b : DispatchAttemptId) :
    (s.applyCompletion e credited lifecycle now).attempts[b]? =
      if b = e.attempt then s.attempts[b]?.map fun found =>
        { found with
          state := .committed, closedTick := now, hasEvidence := true
          evidenceDigest := e.digest, credited := credited }
      else s.attempts[b]? := by
  unfold applyCompletion
  split
  · rename_i hnone
    split
    · rename_i hb
      rw [hb, hnone]
      rfl
    · rfl
  · rename_i found hfound
    have hended : ∀ record, (s.endAttempt e.attempt record).attempts[b]? =
        if b = e.attempt then some record else s.attempts[b]? := fun record => get_insert _
    have hsame : b = e.attempt → s.attempts[b]? = some found := by
      rintro rfl
      exact hfound
    dsimp only
    split <;> refine (hended _).trans ?_
    all_goals
      split
      · rename_i hb
        rw [hsame hb]
        rfl
      · rfl

theorem attempts_applyAmbiguityResolved (flow : FlowId) (generation : Generation)
    (resolution : AmbiguityResolution) (now : Ticks) :
    (s.applyAmbiguityResolved flow generation resolution now).attempts = s.attempts := by
  unfold applyAmbiguityResolved
  split
  · rfl
  · split
    · rfl
    · cases resolution <;> rfl

theorem attempts_resumeFlow (flow : FlowId) (credited : UInt64) (now : Ticks) :
    (s.resumeFlow flow credited now).attempts = s.attempts := by
  unfold resumeFlow
  split
  · rfl
  · split <;> rfl

theorem attempts_applyAttemptOpened (ticket : DispatchTicket) (nominal : UInt64) (now : Ticks)
    (schedule : ScheduleId) (ordinal : ℕ) (b : DispatchAttemptId) :
    ((s.applyAttemptOpened ticket nominal now).consumeEntry schedule ordinal).attempts[b]? =
      if b = ticket.attempt then some { ticket, openedTick := now } else s.attempts[b]? := by
  unfold applyAttemptOpened
  dsimp only
  split
  · exact get_insert _
  · exact get_insert _

end Impl

end Transitions

section Calls

variable {s t u : Scheduler} {a : DispatchAttemptId} {c : Call}

def Call.isDispatch : Call → Bool
  | .beginDispatch .. => true
  | _ => false

/-- An attempt on record was there before, and is over if it was, or is the one the record opens. -/
theorem Move.retained {i i' : Impl} {r : Option Record} (move : Move c i r i')
    {x' : AttemptRuntime} (found : i'.attempts[a]? = some x') :
    (∃ x, i.attempts[a]? = some x ∧ x'.ticket = x.ticket ∧
      (x.state.isTerminal → x'.state.isTerminal)) ∨
    x'.ticket.attempt = a ∧ ∃ nominal tick, r = some (.attemptOpened x'.ticket nominal tick) := by
  rcases move with move | ⟨now, -, move⟩
  · have hfound : i'.ledger.attempts a = some x'.ledger := congrArg (Option.map _) found
    cases r with
    | none =>
      rw [move.quiet] at hfound
      obtain ⟨x, hx, hsame⟩ := Option.map_eq_some_iff.mp hfound
      obtain ⟨hticket, hstate⟩ := LedgerAttempt.mk.inj hsame
      exact .inl ⟨x, hx, hticket.symm, fun h => hstate ▸ h⟩
    | some record =>
      rcases move.ledger with hledger | ⟨-, rfl⟩
      · rw [hledger] at hfound
        rcases Ledger.attempts_apply hfound with ⟨y, hy, hold⟩ | ⟨hattempt, nominal, tick, rfl⟩
        · obtain ⟨x, hx, rfl⟩ := Option.map_eq_some_iff.mp hy
          exact .inl ⟨x, hx, hold⟩
        · exact .inr ⟨hattempt, nominal, tick, rfl⟩
      · exact .inl ⟨x', found, rfl, id⟩
  · exact .inl (move.attempts found)

theorem Move.attempts {i i' : Impl} {r : Option Record} (move : Move c i r i') (other : ¬ c.isDispatch)
    {x' : AttemptRuntime} (found : i'.attempts[a]? = some x') :
    ∃ x, i.attempts[a]? = some x ∧ x'.ticket = x.ticket ∧
      (x.state.isTerminal → x'.state.isTerminal) := by
  refine (move.retained found).resolve_right ?_
  rintro ⟨-, nominal, tick, hrecord⟩
  rcases move with move | ⟨now, -, move⟩
  · cases move with
    | common move => cases move <;> cases hrecord
    | dispatch => exact other rfl
    | _ => cases hrecord
  · cases move with
    | common move => cases move <;> cases hrecord
    | _ => cases hrecord

theorem Move.nextAttempt_le {i i' : Impl} {r : Option Record} (move : Move c i r i') :
    i.nextAttempt.value ≤ i'.nextAttempt.value := by
  rcases move.nextAttempt with hsame | hadvance
  · rw [hsame]
    exact UInt64.le_refl _
  · exact UInt64.le_of_lt (Id.lt_of_advance hadvance)

theorem refused_of_append {r : Record} (h : exec (journal r) s = (.ok (), t)) :
    t.refusedAppends = s.refusedAppends := by
  rw [exec_journal] at h
  split at h
  · cases h
    rfl
  · split at h
    · cases h
      rfl
    · cases h

theorem refused_of_refused {r : Record} {e : Error} (h : exec (journal r) s = (.error e, t)) :
    t.refusedAppends = s.refusedAppends + 1 := by
  rw [exec_journal] at h
  split at h
  · cases h
  · split at h
    · cases h
    · cases h
      rfl

theorem Makes.refusedAppends_le {R : Impl → Option Record → Impl → Prop} (h : Makes R s t) :
    s.refusedAppends ≤ t.refusedAppends := by
  obtain ⟨rs, h⟩ := h
  induction h with
  | refl => exact le_rfl
  | silent _ _ ih => exact ih
  | journaled _ _ append ih =>
    have happend := refused_of_append append
    dsimp only
    omega
  | refused _ append ih =>
    have happend := refused_of_refused append
    omega

structure Scheduler.Grows (s t : Scheduler) : Prop where
  refused : s.refusedAppends ≤ t.refusedAppends
  next : s.impl.nextAttempt.value ≤ t.impl.nextAttempt.value

namespace Scheduler.Grows

theorem refl : s.Grows s := ⟨le_rfl, UInt64.le_refl _⟩

theorem trans (h : s.Grows t) (h' : t.Grows u) : s.Grows u :=
  ⟨h.refused.trans h'.refused, UInt64.le_trans h.next h'.next⟩

theorem call (sound : Sound s.impl) (c : Call) : s.Grows (s.call c).2 := by
  by_cases himage : c = .checkpoint
  · subst himage
    obtain ⟨store, hcall⟩ := call_checkpoint (s := s)
    rw [hcall]
    exact ⟨le_rfl, UInt64.le_refl _⟩
  · have hmakes := makes_move sound himage
    refine ⟨hmakes.refusedAppends_le, ?_⟩
    obtain ⟨rs, hsteps⟩ := hmakes
    refine hsteps.preserves (P := fun i => s.impl.nextAttempt.value ≤ i.nextAttempt.value)
      (fun i r i' move hi => ?_) (UInt64.le_refl _)
    exact UInt64.le_trans hi move.nextAttempt_le

end Scheduler.Grows

/-- A later state of the scheduler, without a dispatch in between. -/
structure Scheduler.Follows (s t : Scheduler) : Prop extends Scheduler.Grows s t where
  sound : Sound t.impl
  attempts : ∀ (a : DispatchAttemptId) (x' : AttemptRuntime), t.impl.attempts[a]? = some x' →
    ∃ x, s.impl.attempts[a]? = some x ∧ x'.ticket = x.ticket ∧
      (x.state.isTerminal → x'.state.isTerminal)

namespace Scheduler.Follows

theorem refl (sound : Sound s.impl) : s.Follows s where
  toGrows := .refl
  sound := sound
  attempts _ x hx := ⟨x, hx, rfl, fun h => h⟩

theorem trans (h : s.Follows t) (h' : t.Follows u) : s.Follows u where
  toGrows := h.toGrows.trans h'.toGrows
  sound := h'.sound
  attempts a z hz := by
    obtain ⟨y, hy, hzy, hz⟩ := h'.attempts a z hz
    obtain ⟨x, hx, hyx, hy⟩ := h.attempts a y hy
    exact ⟨x, hx, hzy.trans hyx, fun hx => hz (hy hx)⟩

theorem call (sound : Sound s.impl) (other : ¬ c.isDispatch) : s.Follows (s.call c).2 := by
  refine ⟨.call sound c, sound_call sound c, ?_⟩
  exact preserves_call (P := fun i => ∀ (a : DispatchAttemptId) (x' : AttemptRuntime),
    i.attempts[a]? = some x' → ∃ x, s.impl.attempts[a]? = some x ∧ x'.ticket = x.ticket ∧
      (x.state.isTerminal → x'.state.isTerminal)) (fun i r i' move hi a z hz => by
        obtain ⟨y, hy, hzy, hz⟩ := move.attempts other hz
        obtain ⟨x, hx, hyx, hy⟩ := hi a y hy
        exact ⟨x, hx, hzy.trans hyx, fun hx => hz (hy hx)⟩)
    sound fun a x hx => ⟨x, hx, rfl, fun h => h⟩

end Scheduler.Follows

def Spares (a : DispatchAttemptId) (i : Impl) (_ : Option Record) (i' : Impl) : Prop :=
  ∀ b, b ≠ a → i'.attempts[b]? = i.attempts[b]?

theorem Makes.spares (h : Makes (Spares a) s t) {b : DispatchAttemptId} (hb : b ≠ a) :
    t.impl.attempts[b]? = s.impl.attempts[b]? := by
  obtain ⟨rs, h⟩ := h
  exact h.preserves (P := fun i => i.attempts[b]? = s.impl.attempts[b]?)
    (fun i r i' move hi => (move b hb).trans hi) rfl

theorem spares_of_attempts {i i' : Impl} {r : Option Record} (h : i'.attempts = i.attempts) :
    Spares a i r i' := by
  intro b _
  rw [h]

theorem spares_abandonAttempt (reason : Bytes) (now : Ticks) :
    Makes (Spares a) s (s.call (.abandonAttempt a reason now)).2 := by
  refine makes_done (.modifyImpl_bind (spares_of_attempts rfl) fun s _ => ?_)
  rw [exec_readImpl_bind, exec_lift_bind]
  cases s.impl.retainedAttempt a with
  | error e => exact .refl
  | ok found =>
    dsimp only
    split
    · rw [exec_closeAttempt_bind]
      refine .journal_bind fun t ht => ?_
      rw [exec_modifyImpl_bind, exec_modifyImpl, impl_of_append ht]
      refine (Makes.journaled (fun b hb => ?_) ht).trans
        (.silent (spares_of_attempts (Impl.attempts_normalizeTransientStates now)))
      exact Impl.attempts_applyAttemptClosed _ _ _ hb
    · exact .refl

theorem spares_markStarted (ticket : DispatchTicket) (now : Ticks) :
    Makes (Spares ticket.attempt) s (s.call (.markStarted ticket now)).2 := by
  refine makes_done (.modifyImpl_bind (spares_of_attempts rfl) fun s _ => ?_)
  rw [exec_readImpl_bind, exec_lift_bind]
  cases s.impl.markStartedGuard ticket now with
  | error e => exact .refl
  | ok b =>
    cases b with
    | false => exact .refl
    | true => exact .journal_modify fun b hb => Impl.attempts_applyAttemptStarted now hb

theorem spares_complete (e : CompletionEvidence) (now : Ticks) :
    Makes (Spares e.attempt) s (s.call (.complete e now)).2 := by
  refine makes_done (.modifyImpl_bind (spares_of_attempts rfl) fun s _ => ?_)
  refine .modifyImpl_bind (spares_of_attempts rfl) fun s _ => ?_
  rw [exec_readImpl_bind]
  cases s.impl.completionVerdict e now with
  | error rejection =>
    refine .silent (spares_of_attempts ?_)
    unfold Impl.countRejected
    dsimp only
    split <;> rfl
  | ok verdict =>
    cases verdict with
    | duplicate flow attempt => exact .silent (spares_of_attempts rfl)
    | commit flow attempt =>
      refine .journal_bind fun t ht => ?_
      rw [exec_modifyImpl_bind, exec_readImpl_bind, exec_pure, impl_of_append ht]
      refine Makes.journaled (fun b hb => ?_) ht
      dsimp only
      rw [Impl.attempts_normalizeTransientStates]
      split
      · rw [Impl.attempts_resumeFlow, Impl.attempts_applyCompletion, if_neg hb]
      · rw [Impl.attempts_applyCompletion, if_neg hb]

theorem attempts_resolveAmbiguous (flow : FlowId) (generation : Generation)
    (resolution : AmbiguityResolution) (now : Ticks) :
    (s.call (.resolveAmbiguous flow generation resolution now)).2.impl.attempts =
      s.impl.attempts := by
  have hmakes : Makes (fun i _ i' => i'.attempts = i.attempts) s
      (s.call (.resolveAmbiguous flow generation resolution now)).2 := by
    refine makes_done (.modifyImpl_bind rfl fun s _ => ?_)
    rw [exec_readImpl_bind, exec_lift_bind]
    cases s.impl.resolveAmbiguousGuard flow generation with
    | error e => exact .refl
    | ok u => exact .journal_modify (Impl.attempts_applyAmbiguityResolved _ _ _ _)
  obtain ⟨rs, hsteps⟩ := hmakes
  exact hsteps.preserves (P := fun i => i.attempts = s.impl.attempts)
    (fun i r i' move hi => move.trans hi) rfl

theorem terminal_abandonAttempt {reason : Bytes} {now : Ticks}
    (appended : (s.call (.abandonAttempt a reason now)).2.refusedAppends = s.refusedAppends)
    {x : AttemptRuntime}
    (h : (s.call (.abandonAttempt a reason now)).2.impl.attempts[a]? = some x) :
    x.state.isTerminal := by
  change (exec (abandonAttempt a reason now >>= fun _ => pure Response.done) s).2.refusedAppends = _
    at appended
  change (exec (abandonAttempt a reason now >>= fun _ => pure Response.done) s).2.impl.attempts[a]? =
    _ at h
  rw [exec_done, abandonAttempt, exec_touch_bind, exec_readImpl_bind, exec_lift_bind] at h appended
  unfold Impl.retainedAttempt at h appended
  dsimp only at h appended
  cases hfound : s.impl.attempts[a]? with
  | none =>
    rw [hfound] at h
    exact absurd (hfound.symm.trans h) (by simp)
  | some found =>
    rw [hfound] at h appended
    dsimp only at h appended
    split at h
    · rename_i hlive
      rw [if_pos hlive, exec_closeAttempt_bind, exec_bind] at appended
      rw [exec_closeAttempt_bind, exec_bind] at h
      cases hj : exec (journal (.attemptClosed a .abandoned now reason))
          { s with impl := { s.impl with lastTick := max s.impl.lastTick now } } with
      | mk result u =>
        rw [hj] at h appended
        cases result with
        | error e =>
          have hrefused := refused_of_refused hj
          dsimp only at appended hrefused
          omega
        | ok v =>
          dsimp only at h
          rw [exec_modifyImpl_bind, exec_modifyImpl, impl_of_append hj] at h
          dsimp only at h
          rw [Impl.attempts_normalizeTransientStates] at h
          exact Impl.terminal_applyAttemptClosed rfl _ _ h
    · rename_i hterminal
      obtain rfl := Option.some.inj (hfound.symm.trans h)
      exact not_not.mp hterminal

theorem commit_of_applied {e : CompletionEvidence} {now : Ticks} {outcome : CommitOutcome}
    (h : s.call (.complete e now) = (.ok (.commit outcome), t))
    (applied : outcome.disposition = .applied) :
    (∃ flow attempt, s.impl.completionVerdict e now = .ok (.commit flow attempt)) ∧
      ∀ x, t.impl.attempts[e.attempt]? = some x → x.state.isTerminal := by
  change exec (complete e now >>= fun a => pure (Response.commit a)) s = _ at h
  obtain ⟨outcome', u, h, hpure⟩ := exec_bind_ok.mp h
  cases hpure
  rw [complete, exec_touch_bind, exec_modifyImpl_bind, exec_readImpl_bind] at h
  split at h
  · cases h
    cases applied
  · cases h
    cases applied
  · rename_i flow attempt hverdict
    refine ⟨⟨flow, attempt, hverdict⟩, fun x found => ?_⟩
    obtain ⟨_, v, hj, h⟩ := exec_bind_ok.mp h
    rw [exec_modifyImpl_bind, exec_readImpl_bind, impl_of_append hj] at h
    cases h
    dsimp only at found
    have hcommitted : ∀ {i : Impl} {credited lifecycle},
        (i.applyCompletion e credited lifecycle now).attempts[e.attempt]? = some x →
          x.state.isTerminal := by
      intro i credited lifecycle hx
      rw [Impl.attempts_applyCompletion, if_pos rfl] at hx
      obtain ⟨y, -, rfl⟩ := Option.map_eq_some_iff.mp hx
      rfl
    rw [Impl.attempts_normalizeTransientStates] at found
    split at found
    · rw [Impl.attempts_resumeFlow] at found
      exact hcommitted found
    · exact hcommitted found

/-- What a dispatch does to the attempts and the counter, by whether it succeeds. -/
theorem attempts_beginDispatch {schedule : ScheduleId} {generation : Generation} {ordinal : UInt32}
    {worker : WorkerId} {boot : BootId} {now : Ticks} {result : Result Response}
    (h : s.call (.beginDispatch schedule generation ordinal worker boot now) = (result, t)) :
    (∃ ticket x, result = .ok (.ticket ticket) ∧ ticket.attempt = s.impl.nextAttempt ∧
      ticket.worker = worker ∧ ticket.boot = boot ∧
      s.impl.nextAttempt.advance = .ok t.impl.nextAttempt ∧ x.ticket = ticket ∧
      ∀ b : DispatchAttemptId, t.impl.attempts[b]? =
        if b = ticket.attempt then some x else s.impl.attempts[b]?) ∨
    (∃ e, result = .error e ∧ t.impl.nextAttempt = s.impl.nextAttempt ∧
      ((∀ b : DispatchAttemptId, t.impl.attempts[b]? = s.impl.attempts[b]?) ∨
        (s.impl.nextAttempt.value = u64Max ∧ ∀ b : DispatchAttemptId, b ≠ s.impl.nextAttempt →
          t.impl.attempts[b]? = s.impl.attempts[b]?))) := by
  change exec (beginDispatch schedule generation ordinal worker boot now >>=
    fun ticket => pure (Response.ticket ticket)) s = _ at h
  rw [exec_bind, beginDispatch, exec_touch_bind, exec_readImpl_bind, exec_lift_bind] at h
  cases hg : ({ s.impl with lastTick := max s.impl.lastTick now } : Impl).beginDispatchGuard schedule
      generation ordinal worker boot now with
  | error e =>
    rw [hg] at h
    cases h
    exact .inr ⟨e, rfl, rfl, .inl fun b => rfl⟩
  | ok p =>
    obtain ⟨entry, flow⟩ := p
    rw [hg] at h
    dsimp only at h
    rw [exec_bind] at h
    generalize hticket : Impl.issueTicket { s.impl with lastTick := max s.impl.lastTick now }
      schedule generation entry worker boot now = ticket at h
    have hattempt : ticket.attempt = s.impl.nextAttempt := by rw [← hticket]; rfl
    have hworker : ticket.worker = worker ∧ ticket.boot = boot := by
      rw [← hticket]
      exact ⟨rfl, rfl⟩
    cases hj : exec (journal (.attemptOpened ticket (remainingWork flow) now))
        { s with impl := { s.impl with lastTick := max s.impl.lastTick now } } with
    | mk appended u =>
      rw [hj] at h
      cases appended with
      | error e =>
        cases h
        refine .inr ⟨e, rfl, ?_, .inl fun b => ?_⟩
        · rw [impl_of_append hj]
        · rw [impl_of_append hj]
      | ok v =>
        dsimp only at h
        rw [exec_modifyImpl_bind, exec_readImpl_bind, exec_lift_bind, impl_of_append hj] at h
        dsimp only at h
        have hopened := Impl.attempts_applyAttemptOpened
          (s := { s.impl with lastTick := max s.impl.lastTick now }) ticket ticket.quantum now
          schedule ordinal.toNat
        have hnext : (({ s.impl with lastTick := max s.impl.lastTick now } : Impl).applyAttemptOpened
            ticket ticket.quantum now).nextAttempt = s.impl.nextAttempt :=
          congrArg Setting.nextAttempt (Impl.setting_applyAttemptOpened ..)
        generalize ({ s.impl with lastTick := max s.impl.lastTick now } : Impl).applyAttemptOpened
            ticket ticket.quantum now = i at h hopened hnext
        have hconsumed : (i.consumeEntry schedule ordinal.toNat).nextAttempt = s.impl.nextAttempt := hnext
        rw [hconsumed] at h
        cases hadvance : s.impl.nextAttempt.advance with
        | error e =>
          rw [hadvance] at h
          cases h
          refine .inr ⟨e, rfl, hconsumed, .inr ⟨?_, fun b hb => ?_⟩⟩
          · by_contra hmax
            rw [Id.advance, if_neg hmax] at hadvance
            cases hadvance
          · exact (hopened b).trans (if_neg (by rwa [hattempt]))
        | ok next =>
          rw [hadvance] at h
          dsimp only at h
          rw [exec_modifyImpl_bind] at h
          cases h
          exact .inl ⟨ticket, _, rfl, hattempt, hworker.1, hworker.2, rfl, rfl, hopened⟩

end Calls

end FlowScheduler

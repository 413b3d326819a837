import FlowScheduler.Coordinator.Coherence

/-! # Isolation of the workers

A frame arrives on the connection of one worker and names an attempt of the
sender's choice. Nothing relates the two, so a worker can end what another one
was given. What stands in its way are the checks further on: a start counts once
and while the ticket holds, evidence has to carry the identity the attempt was
given to, and a rejection has to name an attempt that is still open. What passes
them is exactly what has to belong to the sender.
-/

namespace FlowScheduler

open ByteCodec (Bytes)
open Failing SchedOp OrderedMap

section Outcomes

variable {s t : Scheduler} {a : DispatchAttemptId} {now : Ticks}

theorem attempts_abandonAttempt_ended {reason : Bytes}
    (ended : ∀ x, s.impl.attempts[a]? = some x → x.state.isTerminal) :
    (s.call (.abandonAttempt a reason now)).2.impl.attempts = s.impl.attempts := by
  change (exec (abandonAttempt a reason now >>= fun _ => pure Response.done) s).2.impl.attempts = _
  rw [exec_done, abandonAttempt, exec_touch_bind, exec_readImpl_bind, exec_lift_bind]
  unfold Impl.retainedAttempt
  dsimp only
  cases hfound : s.impl.attempts[a]? with
  | none => rfl
  | some found =>
    dsimp only
    rw [if_neg (not_not.mpr (ended found hfound))]
    rfl

theorem attempts_markStarted_refused {ticket : DispatchTicket}
    (refused : s.impl.markStartedGuard ticket now ≠ .ok true) :
    (s.call (.markStarted ticket now)).2.impl.attempts = s.impl.attempts := by
  change (exec (markStarted ticket now >>= fun _ => pure Response.done) s).2.impl.attempts = _
  rw [exec_done, markStarted, exec_touch_bind, exec_readImpl_bind, exec_lift_bind]
  split
  · rename_i b hguard
    cases b with
    | false => rfl
    | true => exact absurd hguard refused
  · rfl

theorem started_applyAttemptStarted {i : Impl} {x : AttemptRuntime} (found : i.attempts[a]? = some x)
    (opened : x.state = .opened) :
    (i.applyAttemptStarted a now).attempts[a]? = some { x with state := .started } := by
  have hfiled : (i.attempts.insert a { x with state := .started })[a]? =
      some { x with state := .started } := (get_insert _).trans (if_pos rfl)
  unfold Impl.applyAttemptStarted
  rw [found]
  dsimp only
  rw [if_neg (not_not.mpr opened)]
  split
  · exact hfiled
  · split
    · exact hfiled
    · exact hfiled

theorem opened_of_markStartedGuard {i : Impl} {ticket : DispatchTicket}
    (guard : i.markStartedGuard ticket now = .ok true) :
    ∃ x, i.attempts[ticket.attempt]? = some x ∧ x.state = .opened := by
  unfold Impl.markStartedGuard at guard
  split at guard
  · cases guard
  · rename_i x hx
    obtain ⟨_, hlive, guard⟩ := bind_eq_ok.mp guard
    obtain ⟨_, -, guard⟩ := bind_eq_ok.mp guard
    have hlive := refuseIf_eq_ok.mp hlive
    refine ⟨x, hx, ?_⟩
    cases hstate : x.state with
    | opened => rfl
    | started =>
      rw [hstate] at guard
      cases guard
    | _ => simp [hstate, AttemptState.isTerminal] at hlive

theorem changed_markStarted {ticket : DispatchTicket}
    (guard : s.impl.markStartedGuard ticket now = .ok true)
    (appended : (s.call (.markStarted ticket now)).2.refusedAppends = s.refusedAppends)
    {x : AttemptRuntime} (found : s.impl.attempts[ticket.attempt]? = some x) :
    (s.call (.markStarted ticket now)).2.impl.attempts[ticket.attempt]? ≠ some x := by
  change (exec (markStarted ticket now >>= fun _ => pure Response.done) s).2.refusedAppends = _
    at appended
  change (exec (markStarted ticket now >>= fun _ => pure Response.done)
    s).2.impl.attempts[ticket.attempt]? ≠ _
  rw [exec_done, markStarted, exec_touch_bind, exec_readImpl_bind, exec_lift_bind] at appended ⊢
  have hguard : ({ s.impl with lastTick := max s.impl.lastTick now } : Impl).markStartedGuard
      ticket now = .ok true := guard
  rw [hguard] at appended ⊢
  dsimp only at appended ⊢
  rw [if_pos rfl, exec_bind] at appended ⊢
  cases hj : exec (journal (.attemptStarted ticket.attempt now))
      { s with impl := { s.impl with lastTick := max s.impl.lastTick now } } with
  | mk result t =>
    rw [hj] at appended
    cases result with
    | error e =>
      have hrefused := refused_of_refused hj
      dsimp only at appended hrefused
      omega
    | ok v =>
      obtain ⟨y, hy, hopened⟩ := opened_of_markStartedGuard guard
      obtain rfl := Option.some.inj (found.symm.trans hy)
      dsimp only
      rw [exec_modifyImpl, impl_of_append hj]
      intro hsame
      rw [started_applyAttemptStarted (i := { s.impl with lastTick := max s.impl.lastTick now })
        found hopened] at hsame
      have hstate := congrArg AttemptRuntime.state (Option.some.inj hsame)
      cases hstate.trans hopened

theorem applied_of_commit {e : CompletionEvidence} {flow : FlowRuntime} {attempt : AttemptRuntime}
    (verdict : s.impl.completionVerdict e now = .ok (.commit flow attempt))
    (appended : (s.call (.complete e now)).2.refusedAppends = s.refusedAppends) :
    ∃ outcome, (s.call (.complete e now)).1 = .ok (.commit outcome) ∧
      outcome.disposition = .applied := by
  change (exec (complete e now >>= fun a => pure (Response.commit a)) s).2.refusedAppends = _
    at appended
  change ∃ outcome, (exec (complete e now >>= fun a => pure (Response.commit a)) s).1 = _ ∧ _
  rw [exec_bind] at appended ⊢
  have hverdict : ({ s.impl with
      lastTick := max s.impl.lastTick now
      completionReports := s.impl.completionReports + 1 } : Impl).completionVerdict e now =
    .ok (.commit flow attempt) := verdict
  cases hc : exec (complete e now) s with
  | mk result t =>
    rw [hc] at appended
    rw [complete, exec_touch_bind, exec_modifyImpl_bind, exec_readImpl_bind] at hc
    rw [hverdict] at hc
    cases result with
    | error err =>
      obtain hj | ⟨_, u, -, hrest⟩ := exec_bind_error.mp hc
      · have hrefused := refused_of_refused hj
        dsimp only at appended hrefused
        omega
      · rw [exec_modifyImpl_bind, exec_readImpl_bind] at hrest
        cases hrest
    | ok outcome =>
      obtain ⟨_, u, -, hrest⟩ := exec_bind_ok.mp hc
      rw [exec_modifyImpl_bind, exec_readImpl_bind] at hrest
      cases hrest
      exact ⟨_, rfl, rfl⟩

theorem attempts_complete_refused {e : CompletionEvidence}
    (refused : ∀ flow attempt, s.impl.completionVerdict e now ≠ .ok (.commit flow attempt)) :
    (s.call (.complete e now)).2.impl.attempts = s.impl.attempts := by
  change (exec (complete e now >>= fun a => pure (Response.commit a)) s).2.impl.attempts = _
  rw [exec_done, complete, exec_touch_bind, exec_modifyImpl_bind, exec_readImpl_bind]
  split
  · rw [exec_modifyImpl_bind]
    change (Impl.countRejected _ e _).attempts = _
    unfold Impl.countRejected
    dsimp only
    split <;> rfl
  · rfl
  · rename_i flow attempt hverdict
    exact absurd hverdict (refused flow attempt)

end Outcomes

/-- Every attempt is as it was, except those given to the worker. -/
def Confined (p : Peer) (s t : Scheduler) : Prop :=
  ∀ a : DispatchAttemptId, t.impl.attempts[a]? = s.impl.attempts[a]? ∨
    ∃ x, s.impl.attempts[a]? = some x ∧ p.Holds x.ticket

namespace Confined

variable {p : Peer} {s t u : Scheduler}

theorem refl : Confined p s s := fun _ => .inl rfl

theorem trans (h : Confined p s t) (h' : Confined p t u) : Confined p s u := by
  intro a
  rcases h a with hst | hown
  · rcases h' a with htu | ⟨x, hx, hholds⟩
    · exact .inl (htu.trans hst)
    · exact .inr ⟨x, hst.symm.trans hx, hholds⟩
  · exact .inr hown

theorem of_attempts (h : t.impl.attempts = s.impl.attempts) : Confined p s t :=
  fun _ => .inl (by rw [h])

/-- The attempts that may differ were given to the worker, or are not retained at all. -/
theorem of_spared {c : DispatchAttemptId → Prop} (later : s.Follows t)
    (spared : ∀ a, ¬ c a → t.impl.attempts[a]? = s.impl.attempts[a]?)
    (own : ∀ a, c a → ∀ x, s.impl.attempts[a]? = some x → p.Holds x.ticket) :
    Confined p s t := by
  intro a
  by_cases ha : c a
  · cases hx : s.impl.attempts[a]? with
    | some x => exact .inr ⟨x, rfl, own a ha x hx⟩
    | none =>
      left
      cases hy : t.impl.attempts[a]? with
      | none => rfl
      | some y =>
        obtain ⟨x, hx', -⟩ := later.attempts a y hy
        cases hx.symm.trans hx'
  · exact .inl (spared a ha)

theorem holds (h : Confined p s t) {a : DispatchAttemptId} {x : AttemptRuntime}
    (found : s.impl.attempts[a]? = some x) (changed : t.impl.attempts[a]? ≠ some x) :
    p.Holds x.ticket := by
  rcases h a with hsame | ⟨y, hy, hholds⟩
  · exact absurd (hsame.trans found) changed
  · obtain rfl := Option.some.inj (found.symm.trans hy)
    exact hholds

end Confined

namespace Coordinator

variable {c d : Coordinator} {p : Peer} {index : ℕ} {a : DispatchAttemptId} {reason payload : Bytes}

/-- The attempt, if it is still open, was given to the worker. -/
def Owns (c : Coordinator) (p : Peer) (a : DispatchAttemptId) : Prop :=
  ∀ x, c.scheduler.impl.attempts[a]? = some x → ¬ x.state.isTerminal → p.Holds x.ticket

/-- The next completion to be applied is the one that kills the first worker. -/
def KillDue (c : Coordinator) : Prop :=
  ¬ (c.options.exitAfter ≠ 0 ∧ c.options.exitAfter ≤ c.completionsApplied + 1) ∧
    c.options.killAfter ≠ 0 ∧ c.options.killAfter ≤ c.completionsApplied + 1 ∧ ¬ c.workerKilled

/-- What passes the checks on the way of a frame is the sender's. -/
structure Entitled (c : Coordinator) (p : Peer) (type : UInt16) (payload : Bytes) : Prop where
  started : type = MessageType.started.code → ∀ m o, decodeStarted payload = .ok m →
    c.attempts[m.attempt]? = some o → ¬ o.started →
    c.scheduler.impl.markStartedGuard o.ticket c.now = .ok true → p.Holds o.ticket
  completed : type = MessageType.completion.code → ∀ m flow attempt,
    decodeCompletion payload = .ok m →
    c.scheduler.impl.completionVerdict m.evidence c.now = .ok (.commit flow attempt) →
    m.evidence.worker = p.worker ∧ m.evidence.boot = p.boot ∧
      (c.KillDue → ∀ a ∈ c.attemptsOf 0, a ≠ m.evidence.attempt → c.Owns p a)
  rejected : type = MessageType.dispatchRejected.code → ∀ m o,
    decodeDispatchRejected payload = .ok m → c.attempts[m.attempt]? = some o → c.Owns p m.attempt

/-- The coordinator once evidence is committed, before it sees whether to go on. -/
def credit (c : Coordinator) (e : CompletionEvidence) (t : Scheduler) : Coordinator :=
  { c with
    scheduler := t, attempts := c.attempts.erase e.attempt
    completionsApplied := c.completionsApplied + 1 }

theorem follows_credit (sound : Sound c.scheduler.impl) {t : Scheduler}
    (later : c.scheduler.Follows t) (e : CompletionEvidence) : c.Follows (c.credit e t) :=
  (follows_erase sound later e.attempt).congr rfl rfl rfl rfl

theorem mem_attemptsOf_credit {e : CompletionEvidence} {t : Scheduler} {i : ℕ} :
    a ∈ (c.credit e t).attemptsOf i ↔ a ≠ e.attempt ∧ a ∈ c.attemptsOf i := by
  rw [mem_attemptsOf, mem_attemptsOf, credit]
  dsimp only
  rw [get_erase]
  by_cases ha : a = e.attempt <;> simp [ha]

theorem Owns.follows (h : c.Owns p a) (later : c.Follows d) : d.Owns p a := by
  intro y hy hopen
  obtain ⟨x, hx, hticket, hended⟩ := later.scheduler.attempts a y hy
  rw [hticket]
  exact h x hx fun hterminal => hopen (hended hterminal)

section Sufficient

theorem confined_dropAttempt (sound : Sound c.scheduler.impl) (own : c.Owns p a) :
    Confined p c.scheduler (c.dropAttempt reason a).scheduler := by
  by_cases hended : ∀ x, c.scheduler.impl.attempts[a]? = some x → x.state.isTerminal
  · exact .of_attempts (attempts_abandonAttempt_ended hended)
  · refine .of_spared (follows_dropAttempt sound reason a).scheduler (c := (· = a))
      (fun b hb => (dropAttempt_spares reason hb).1) ?_
    rintro b rfl x hx
    push Not at hended
    obtain ⟨y, hy, hopen⟩ := hended
    obtain rfl := Option.some.inj (hx.symm.trans hy)
    exact own x hx hopen

theorem confined_dropAttempts {ids : List DispatchAttemptId} (sound : Sound c.scheduler.impl)
    (own : ∀ a ∈ ids, c.Owns p a) :
    Confined p c.scheduler (c.dropAttempts reason ids).scheduler := by
  induction ids generalizing c with
  | nil => exact .refl
  | cons a ids ih =>
    have hdrop := follows_dropAttempt sound reason a
    refine (confined_dropAttempt sound (own a List.mem_cons_self)).trans
      (ih hdrop.scheduler.sound fun b hb => ?_)
    exact (own b (List.mem_cons_of_mem a hb)).follows hdrop

theorem confined_retirePeer (sound : Sound c.scheduler.impl)
    (own : ∀ a ∈ c.attemptsOf index, c.Owns p a) :
    Confined p c.scheduler (c.retirePeer index reason).scheduler := by
  unfold retirePeer
  split
  · exact .refl
  · have hdrops : Confined p c.scheduler (dropAttempts { c with
        peers := c.peers.modify index fun entry => { entry with alive := false } } reason
          (c.attemptsOf index)).scheduler :=
      confined_dropAttempts (c := { c with
        peers := c.peers.modify index fun entry => { entry with alive := false } }) sound own
    exact hdrops.trans (.of_attempts resolveAmbiguousFlows_spares.1)

theorem Coherent.owns (h : c.Coherent) (peer : c.peers[index]? = some p) :
    ∀ a ∈ c.attemptsOf index, c.Owns p a := by
  intro a ha x hx _
  obtain ⟨o, ho, rfl⟩ := mem_attemptsOf.mp ha
  exact h.holds ho peer hx

theorem confined_handleStarted (h : c.Coherent) {m : StartedMessage}
    (own : ∀ o, c.attempts[m.attempt]? = some o → ¬ o.started →
      c.scheduler.impl.markStartedGuard o.ticket c.now = .ok true → p.Holds o.ticket) :
    Confined p c.scheduler (c.handleStarted m).scheduler := by
  unfold handleStarted
  split
  · exact .refl
  · rename_i o ho
    split
    · exact .refl
    · rename_i hstarted
      have hconfined : Confined p c.scheduler (c.scheduler.call (.markStarted o.ticket c.now)).2 := by
        by_cases hguard : c.scheduler.impl.markStartedGuard o.ticket c.now = .ok true
        · refine .of_spared (.call h.sound Bool.false_ne_true) (c := (· = o.ticket.attempt))
            (fun b hb => (spares_markStarted o.ticket c.now).spares hb) ?_
          rintro b rfl x hx
          rw [(h.filed m.attempt o ho).1] at hx
          rw [h.same m.attempt o x ho hx]
          exact own o ho hstarted hguard
        · exact .of_attempts (attempts_markStarted_refused hguard)
      split
      all_goals
        rename_i ht
        rw [ht] at hconfined
        exact hconfined

theorem confined_maybeFinishAfterCompletion (sound : Sound c.scheduler.impl)
    (own : ¬ (c.options.exitAfter ≠ 0 ∧ c.options.exitAfter ≤ c.completionsApplied) →
      c.options.killAfter ≠ 0 ∧ c.options.killAfter ≤ c.completionsApplied ∧ ¬ c.workerKilled →
      ∀ a ∈ c.attemptsOf 0, c.Owns p a) :
    Confined p c.scheduler c.maybeFinishAfterCompletion.scheduler := by
  unfold maybeFinishAfterCompletion
  split
  · exact .refl
  · rename_i hexit
    split
    · rename_i hkill
      exact confined_retirePeer (c := { c with workerKilled := true }) sound (own hexit hkill)
    · exact .refl

theorem confined_handleCompletion (h : c.Coherent) {m : CompletionMessage}
    (own : ∀ flow attempt,
      c.scheduler.impl.completionVerdict m.evidence c.now = .ok (.commit flow attempt) →
      m.evidence.worker = p.worker ∧ m.evidence.boot = p.boot ∧
        (c.KillDue → ∀ a ∈ c.attemptsOf 0, a ≠ m.evidence.attempt → c.Owns p a)) :
    Confined p c.scheduler (c.handleCompletion m).scheduler := by
  have hcall : c.scheduler.Follows (c.scheduler.call (.complete m.evidence c.now)).2 :=
    .call h.sound Bool.false_ne_true
  have hconfined : Confined p c.scheduler (c.scheduler.call (.complete m.evidence c.now)).2 := by
    by_cases hverdict : ∃ flow attempt,
        c.scheduler.impl.completionVerdict m.evidence c.now = .ok (.commit flow attempt)
    · obtain ⟨flow, attempt, hverdict⟩ := hverdict
      obtain ⟨hworker, hboot, -⟩ := own flow attempt hverdict
      have hcommits := Impl.commits_of_verdict hverdict
      refine .of_spared hcall (c := (· = m.evidence.attempt))
        (fun b hb => (spares_complete m.evidence c.now).spares hb) ?_
      rintro b rfl x hx
      obtain rfl := Option.some.inj (hx.symm.trans hcommits.retained)
      exact ⟨hcommits.worker.trans hworker, hcommits.boot.trans hboot⟩
    · push Not at hverdict
      exact .of_attempts (attempts_complete_refused hverdict)
  unfold handleCompletion
  split
  all_goals
    rename_i t ht
    rw [ht] at hcall hconfined
  · exact hconfined
  · rename_i outcome
    split
    · rename_i happlied
      obtain ⟨⟨flow, attempt, hverdict⟩, -⟩ := commit_of_applied ht happlied
      obtain ⟨-, -, hkill⟩ := own flow attempt hverdict
      refine hconfined.trans (confined_maybeFinishAfterCompletion (c := c.credit m.evidence t)
        hcall.sound fun hexit hdue b hb => ?_)
      obtain ⟨hne, hmem⟩ := mem_attemptsOf_credit.mp hb
      exact (hkill ⟨hexit, hdue⟩ b hmem hne).follows (follows_credit h.sound hcall m.evidence)
    · exact hconfined
  · exact hconfined

end Sufficient

section Necessary

theorem ended_dropAttempts {ids : List DispatchAttemptId} (sound : Sound c.scheduler.impl)
    (appended : (c.dropAttempts reason ids).scheduler.refusedAppends = c.scheduler.refusedAppends)
    (h : a ∈ ids) {x : AttemptRuntime}
    (found : (c.dropAttempts reason ids).scheduler.impl.attempts[a]? = some x) :
    x.state.isTerminal := by
  induction ids generalizing c with
  | nil => cases h
  | cons b ids ih =>
    have hdrop := follows_dropAttempt sound reason b
    have hrest := follows_dropAttempts hdrop.scheduler.sound reason ids
    have hfirst : (c.dropAttempt reason b).scheduler.refusedAppends = c.scheduler.refusedAppends :=
      le_antisymm (hrest.scheduler.refused.trans_eq appended) hdrop.scheduler.refused
    rcases List.mem_cons.mp h with rfl | hmem
    · obtain ⟨y, hy, -, hended⟩ := hrest.scheduler.attempts a x found
      exact hended (terminal_abandonAttempt hfirst hy)
    · exact ih hdrop.scheduler.sound (appended.trans hfirst.symm) hmem found

theorem ended_retirePeer (sound : Sound c.scheduler.impl) (peer : index < c.peers.length)
    (appended : (c.retirePeer index reason).scheduler.refusedAppends = c.scheduler.refusedAppends)
    (h : a ∈ c.attemptsOf index) {x : AttemptRuntime}
    (found : (c.retirePeer index reason).scheduler.impl.attempts[a]? = some x) :
    x.state.isTerminal := by
  unfold retirePeer at appended found
  rw [if_neg (not_le.mpr peer)] at appended found
  rw [resolveAmbiguousFlows_spares.1] at found
  have hretire := follows_retire sound index
  have hdrops := follows_dropAttempts hretire.scheduler.sound reason
    (attemptsOf { c with peers := c.peers.modify index fun p => { p with alive := false } } index)
  have hresolve := follows_resolveAmbiguousFlows hdrops.scheduler.sound
  refine ended_dropAttempts hretire.scheduler.sound ?_ h found
  exact le_antisymm (hresolve.scheduler.refused.trans_eq appended) hdrops.scheduler.refused

theorem owns_of_ended {t : Scheduler} (confined : Confined p c.scheduler t)
    (ended : ∀ x, t.impl.attempts[a]? = some x → x.state.isTerminal) : c.Owns p a := by
  intro x hx hopen
  exact confined.holds hx fun hsame => hopen (ended x hsame)

theorem holds_of_handleStarted (h : c.Coherent) {m : StartedMessage} {o : OpenAttempt}
    (appended : (c.handleStarted m).scheduler.refusedAppends = c.scheduler.refusedAppends)
    (confined : Confined p c.scheduler (c.handleStarted m).scheduler)
    (filed : c.attempts[m.attempt]? = some o) (first : ¬ o.started)
    (guard : c.scheduler.impl.markStartedGuard o.ticket c.now = .ok true) : p.Holds o.ticket := by
  have hscheduler : (c.handleStarted m).scheduler =
      (c.scheduler.call (.markStarted o.ticket c.now)).2 := by
    unfold handleStarted
    rw [filed]
    dsimp only
    rw [if_neg first]
    split
    all_goals
      rename_i ht
      rw [ht]
  rw [hscheduler] at appended confined
  obtain ⟨x, hx, -⟩ := opened_of_markStartedGuard guard
  have hholds := confined.holds hx (changed_markStarted guard appended hx)
  rw [(h.filed m.attempt o filed).1] at hx
  rwa [h.same m.attempt o x filed hx] at hholds

theorem handleCompletion_of_commit (h : c.Coherent) {m : CompletionMessage} {flow : FlowRuntime}
    {attempt : AttemptRuntime}
    (appended : (c.handleCompletion m).scheduler.refusedAppends = c.scheduler.refusedAppends)
    (verdict : c.scheduler.impl.completionVerdict m.evidence c.now = .ok (.commit flow attempt)) :
    ∃ t outcome, c.scheduler.call (.complete m.evidence c.now) = (.ok (.commit outcome), t) ∧
      outcome.disposition = .applied ∧ t.refusedAppends = c.scheduler.refusedAppends ∧
      c.handleCompletion m = (c.credit m.evidence t).maybeFinishAfterCompletion := by
  have hcall : c.scheduler.Follows (c.scheduler.call (.complete m.evidence c.now)).2 :=
    .call h.sound Bool.false_ne_true
  have hlater : (c.scheduler.call (.complete m.evidence c.now)).2.refusedAppends ≤
      (c.handleCompletion m).scheduler.refusedAppends := by
    unfold handleCompletion
    split
    · rename_i ht
      rw [ht]
    · rename_i ht
      rw [ht] at hcall ⊢
      split
      · exact (follows_maybeFinishAfterCompletion
          (follows_credit h.sound hcall m.evidence).scheduler.sound).scheduler.refused
      · exact le_rfl
    · rename_i ht
      rw [ht]
  have hsame := le_antisymm (hlater.trans_eq appended) hcall.refused
  obtain ⟨outcome, hresult, happlied⟩ := applied_of_commit verdict hsame
  have hcommit : c.scheduler.call (.complete m.evidence c.now) =
      (.ok (.commit outcome), (c.scheduler.call (.complete m.evidence c.now)).2) :=
    Prod.ext hresult rfl
  refine ⟨_, outcome, hcommit, happlied, hsame, ?_⟩
  unfold handleCompletion
  rw [hcommit]
  dsimp only
  rw [if_pos happlied]
  rfl

theorem ended_maybeFinishAfterCompletion (sound : Sound c.scheduler.impl)
    (exit : ¬ (c.options.exitAfter ≠ 0 ∧ c.options.exitAfter ≤ c.completionsApplied))
    (kill : c.options.killAfter ≠ 0 ∧ c.options.killAfter ≤ c.completionsApplied ∧ ¬ c.workerKilled)
    (peer : 0 < c.peers.length)
    (appended : c.maybeFinishAfterCompletion.scheduler.refusedAppends = c.scheduler.refusedAppends)
    (h : a ∈ c.attemptsOf 0) {x : AttemptRuntime}
    (found : c.maybeFinishAfterCompletion.scheduler.impl.attempts[a]? = some x) :
    x.state.isTerminal := by
  unfold maybeFinishAfterCompletion at appended found
  rw [if_neg exit, if_pos kill] at appended found
  exact ended_retirePeer (c := { c with workerKilled := true }) sound peer appended h found

theorem owned_of_handleCompletion (h : c.Coherent) {m : CompletionMessage} {flow : FlowRuntime}
    {attempt : AttemptRuntime}
    (appended : (c.handleCompletion m).scheduler.refusedAppends = c.scheduler.refusedAppends)
    (confined : Confined p c.scheduler (c.handleCompletion m).scheduler)
    (verdict : c.scheduler.impl.completionVerdict m.evidence c.now = .ok (.commit flow attempt)) :
    m.evidence.worker = p.worker ∧ m.evidence.boot = p.boot ∧
      (c.KillDue → ∀ a ∈ c.attemptsOf 0, a ≠ m.evidence.attempt → c.Owns p a) := by
  obtain ⟨t, outcome, hcall, happlied, hsame, hhandled⟩ := handleCompletion_of_commit h appended verdict
  have hlater : c.scheduler.Follows t := by
    have hcalled : c.scheduler.Follows (c.scheduler.call (.complete m.evidence c.now)).2 :=
      .call h.sound Bool.false_ne_true
    rwa [hcall] at hcalled
  have hcredit := follows_credit h.sound hlater m.evidence
  have hfinish := follows_maybeFinishAfterCompletion hcredit.scheduler.sound
  have hcommits := Impl.commits_of_verdict verdict
  rw [hhandled] at appended confined
  have hholds : p.Holds attempt.ticket := by
    refine owns_of_ended confined (fun y hy => ?_) attempt hcommits.retained hcommits.live
    obtain ⟨x, hx, -, hended⟩ := hfinish.scheduler.attempts _ y hy
    exact hended ((commit_of_applied hcall happlied).2 _ hx)
  refine ⟨hcommits.worker.symm.trans hholds.1, hcommits.boot.symm.trans hholds.2,
    fun hdue a ha hne => ?_⟩
  obtain ⟨o, ho, hpeer⟩ := mem_attemptsOf.mp ha
  obtain ⟨-, -, q, hq, -⟩ := h.filed a o ho
  have hlength : 0 < c.peers.length := hpeer ▸ (List.getElem?_eq_some_iff.mp hq).1
  refine owns_of_ended confined fun y hy => ?_
  exact ended_maybeFinishAfterCompletion hcredit.scheduler.sound hdue.1 hdue.2 hlength
    (appended.trans hsame.symm) (mem_attemptsOf_credit.mpr ⟨hne, ha⟩) hy

end Necessary

theorem handleFrame_started {m : StartedMessage} (decoded : decodeStarted payload = .ok m) :
    c.handleFrame index MessageType.started.code payload = c.handleStarted m := by
  unfold handleFrame
  rw [if_pos rfl, decoded]

theorem handleFrame_completion {m : CompletionMessage} (decoded : decodeCompletion payload = .ok m) :
    c.handleFrame index MessageType.completion.code payload = c.handleCompletion m := by
  unfold handleFrame
  rw [if_neg (by decide), if_pos rfl, decoded]

theorem handleFrame_dispatchRejected {m : DispatchRejectedMessage}
    (decoded : decodeDispatchRejected payload = .ok m) :
    c.handleFrame index MessageType.dispatchRejected.code payload = c.handleDispatchRejected m := by
  unfold handleFrame
  rw [if_neg (by decide), if_neg (by decide), if_pos rfl, decoded]

/-- In every state a coordinator can be in, a frame changes attempts of its sender only, provided that
what passes the checks on its way is the sender's: a first start whose ticket still holds, evidence
the scheduler commits, an open attempt that is rejected, and what the death of the first worker ends
if the completion is the one that triggers it. Unless an append is refused meanwhile, nothing less
will do. -/
theorem frame_confined (reached : c.Reached) (peer : c.peers[index]? = some p) (type : UInt16)
    (payload : Bytes) :
    (c.Entitled p type payload →
      Confined p c.scheduler (c.handleFrame index type payload).scheduler) ∧
    ((c.handleFrame index type payload).scheduler.refusedAppends = c.scheduler.refusedAppends →
      Confined p c.scheduler (c.handleFrame index type payload).scheduler →
      c.Entitled p type payload) := by
  have h := reached.coherent
  constructor
  · intro entitled
    unfold handleFrame
    split
    · rename_i htype
      split
      · rename_i m hm
        exact confined_handleStarted h fun o => entitled.started htype m o hm
      · exact .refl
    · split
      · rename_i htype
        split
        · rename_i m hm
          exact confined_handleCompletion h fun flow attempt =>
            entitled.completed htype m flow attempt hm
        · exact .refl
      · split
        · rename_i htype
          split
          · rename_i m hm
            unfold handleDispatchRejected
            split
            · exact .refl
            · rename_i o ho
              exact confined_dropAttempt h.sound (entitled.rejected htype m o hm ho)
          · exact .refl
        · split
          · exact confined_retirePeer h.sound (h.owns peer)
          · exact confined_retirePeer h.sound (h.owns peer)
  · intro appended confined
    refine ⟨?_, ?_, ?_⟩
    · rintro rfl m o hm ho hfirst hguard
      rw [handleFrame_started hm] at appended confined
      exact holds_of_handleStarted h appended confined ho hfirst hguard
    · rintro rfl m flow attempt hm hverdict
      rw [handleFrame_completion hm] at appended confined
      exact owned_of_handleCompletion h appended confined hverdict
    · rintro rfl m o hm ho
      rw [handleFrame_dispatchRejected hm, handleDispatchRejected, ho] at appended confined
      exact owns_of_ended confined fun x hx => terminal_abandonAttempt appended hx

end Coordinator

namespace Sample

open Coordinator

def rejection : Bytes := DispatchRejectedMessage.encode { attempt := ⟨1⟩, epoch := ⟨1⟩ }

/-- What the first worker was given, reported under the identity of the second. -/
def pretence : CompletionMessage where
  evidence := { schedule := ⟨1⟩, scheduleGeneration := ⟨1⟩, attempt := ⟨1⟩, epoch := ⟨1⟩, flow := ⟨1⟩
                flowGeneration := ⟨1⟩, worker := ⟨2⟩, boot := ⟨2⟩, served := 1, observedTick := 1, provenance }

set_option maxRecDepth 100000 in
/-- The second worker reports what the first was given, and is fenced. -/
theorem frame_confined_fenced : ∃ (c : Coordinator) (p : Peer), c.Reached ∧
    c.peers[1]? = some p ∧ ¬ c.Owns p pretence.evidence.attempt ∧
    c.Entitled p MessageType.completion.code pretence.encode ∧
    Confined p c.scheduler
      (c.handleFrame 1 MessageType.completion.code pretence.encode).scheduler := by
  obtain ⟨c, reached, p, hp, ⟨x, hx, hopen, hother⟩, hfenced⟩ : ∃ c : Coordinator, c.Reached ∧
      ∃ p ∈ c.peers[1]?, (∃ x ∈ c.scheduler.impl.attempts[pretence.evidence.attempt]?,
        ¬ x.state.isTerminal ∧ ¬ p.Holds x.ticket) ∧
        (c.scheduler.impl.completionVerdict pretence.evidence c.now).toOption.isNone :=
    @exists_reached pair {} [hello 1, hello 2] [.round fun _ => true] _ (by decide +kernel)
  have hdecoded : decodeCompletion pretence.encode = .ok pretence :=
    wellCoded_completion.1 pretence ⟨by decide, by decide⟩
  have hentitled : c.Entitled p MessageType.completion.code pretence.encode := by
    refine ⟨nofun, fun _ m flow attempt hm hverdict => ?_, nofun⟩
    cases hdecoded.symm.trans hm
    rw [hverdict] at hfenced
    cases hfenced
  exact ⟨c, p, reached, hp, fun hown => hother (hown x hx hopen), hentitled,
    (frame_confined reached hp _ _).1 hentitled⟩

set_option maxRecDepth 100000 in
/-- The second worker rejects what the first was given, and the attempt is abandoned. -/
theorem not_frame_confined : ∃ (c : Coordinator) (p : Peer), c.Reached ∧
    c.peers[1]? = some p ∧ c.options.killAfter = 0 ∧
    ¬ Confined p c.scheduler
      (c.handleFrame 1 MessageType.dispatchRejected.code rejection).scheduler := by
  obtain ⟨c, reached, hkill, p, hp, x, hx, hother, hchanged⟩ : ∃ c : Coordinator, c.Reached ∧
      c.options.killAfter = 0 ∧ ∃ p ∈ c.peers[1]?,
        ∃ x ∈ c.scheduler.impl.attempts[(⟨1⟩ : DispatchAttemptId)]?, ¬ p.Holds x.ticket ∧
          (c.handleFrame 1 MessageType.dispatchRejected.code rejection).scheduler.impl.attempts[(⟨1⟩ :
            DispatchAttemptId)]? ≠ some x :=
    @exists_reached pair {} [hello 1, hello 2] [.round fun _ => true] _ (by decide +kernel)
  refine ⟨c, p, reached, hp, hkill, fun hconfined => ?_⟩
  rcases hconfined ⟨1⟩ with hsame | ⟨y, hy, hholds⟩
  · exact hchanged (hsame.trans hx)
  · obtain rfl := Option.some.inj (hx.symm.trans hy)
    exact hother hholds

end Sample

end FlowScheduler

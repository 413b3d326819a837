import FlowScheduler.Authority.Dispatch
import FlowScheduler.Recovery.Lives

/-! # No execution past the deadline

A window carries the deadline of its flow, and so does the ticket it is
dispatched under. A round stops every attempt whose flow has crossed its
deadline, which is every attempt whose own deadline has passed: the flow keeps
its descriptor while the attempt is open.
-/

namespace FlowScheduler

open Failing SchedOp OrderedMap Impl

/-- There is no deadline, or it is strictly after this tick. -/
def DeadlineAhead (deadline now : Ticks) : Prop := hasDeadline deadline → now < deadline

theorem deadlineAhead_iff {deadline now : Ticks} :
    DeadlineAhead deadline now ↔ ¬ (hasDeadline deadline ∧ deadline ≤ now) := by
  rw [DeadlineAhead, not_and, UInt64.not_le]

/-- Entries and tickets carry the deadline of their flow. -/
def deadlinePromise : Promise where
  entry d _ e := e.deadlineTick = d.deadlineTick
  ticket d _ t := t.deadlineTick = d.deadlineTick

theorem deadlinePromise_sincere : deadlinePromise.Sincere where
  granted {s now e r} h := by
    obtain ⟨candidate, hentry⟩ := h.entry
    rw [hentry]
    rfl
  issued h := h
  entrySignal h := h
  ticketSignal _ _ _ _ h := h

/-- No attempt that is still open has reached its deadline. -/
def Impl.Timely (s : Impl) (now : Ticks) : Prop :=
  ∀ (a : DispatchAttemptId) (x : AttemptRuntime), s.attempts[a]? = some x →
    ¬ x.state.isTerminal → DeadlineAhead x.ticket.deadlineTick now

section Round

variable {s s' : Impl} {now : Ticks} {r : Option Record}

theorem Impl.Timely.move (h : s.Timely now) (move : RoundMove now s r s') : s'.Timely now := by
  intro a x' hx' hlive
  obtain ⟨x, hx, hticket, hstate⟩ := move.attempts hx'
  rw [hticket]
  exact h a x hx fun hterminal => hlive (hstate hterminal)

theorem mem_overdueAttempts (sound : Sound s) (kept : deadlinePromise.Kept s)
    {a : DispatchAttemptId} {x : AttemptRuntime} (found : s.attempts[a]? = some x)
    (live : ¬ x.state.isTerminal) (passed : ¬ DeadlineAhead x.ticket.deadlineTick now) :
    a ∈ s.overdueAttempts now := by
  have hfound : s.ledger.attempts a = some x.ledger := congrArg (Option.map _) found
  obtain ⟨hvalid, f, hf, hholds, hbusy, hdeadline⟩ := kept.held a x.ledger hfound live
  obtain ⟨flow, hflow, rfl⟩ := Option.map_eq_some_iff.mp hf
  -- The flow is busy with the attempt, so the in-flight index lists it.
  have hslot : flow.lifecycle.slot = .inflight := by
    revert hbusy
    simp only [FlowRuntime.ledger, Phase.idle]
    cases flow.lifecycle <;> simp [FlowLifecycle.phase, FlowLifecycle.slot]
  have hlisted := (sound.keyed.index x.ticket.flow .inflight (by decide)).mpr ⟨flow, hflow, hslot⟩
  rw [deadlineAhead_iff, not_not] at passed
  have hoverdue : isOverdue flow now := by
    have hsame : x.ticket.deadlineTick = flow.descriptor.deadlineTick := hdeadline
    rw [hsame] at passed
    simpa [isOverdue] using passed
  have hflow : s.flows[x.ticket.flow]? = some flow := hflow
  refine List.mem_filterMap.mpr ⟨x.ticket.flow, Std.ExtTreeSet.mem_toList.mpr hlisted, ?_⟩
  rw [hflow]
  have hopen : flow.openAttempt = a := hholds
  dsimp only
  rw [hopen, if_pos ⟨hoverdue, hvalid⟩]

/-- Once a round has stopped what it found overdue, every open attempt is within its deadline. -/
theorem timely_of_stopped {s t : Scheduler} (sound : Sound s.impl)
    (kept : deadlinePromise.Kept s.impl) (stopped : Stopped now s t) : t.impl.Timely now := by
  obtain ⟨u, hu, ⟨rs, ht⟩, hended⟩ := stopped.ended
  have hkept : deadlinePromise.Kept u.impl := by
    obtain ⟨rs, hu⟩ := hu
    exact hu.preserves (fun _ _ _ move hi => hi.move deadlinePromise_sincere
      (c := .arbitrate now) (.inr ⟨now, rfl, move⟩)) kept
  intro a x' hx' hlive
  obtain ⟨x, hx, hticket, hstate⟩ : ∃ x, u.impl.attempts[a]? = some x ∧ x'.ticket = x.ticket ∧
      (x.state.isTerminal → x'.state.isTerminal) := by
    refine ht.preserves (P := fun i => ∀ y, i.attempts[a]? = some y → ∃ x,
      u.impl.attempts[a]? = some x ∧ y.ticket = x.ticket ∧
        (x.state.isTerminal → y.state.isTerminal)) (fun i r i' move hi y hy => ?_)
      (fun y hy => ⟨y, hy, rfl, fun h => h⟩) x' hx'
    obtain ⟨z, hz, hticket, hstate⟩ := move.attempts hy
    obtain ⟨x, hx, hticket', hstate'⟩ := hi z hz
    exact ⟨x, hx, hticket.trans hticket', fun h => hstate (hstate' h)⟩
  by_contra hpassed
  rw [hticket] at hpassed
  exact hlive (hended a (mem_overdueAttempts (hu.sound sound) hkept hx
    (fun h => hlive (hstate h)) hpassed) x' hx')

end Round

def Impl.service (s : Impl) (id : FlowId) : Option (UInt64 × UInt64) :=
  s.flows[id]?.map fun r => (r.servedWork, r.accounting.serviceCredit)

def Ledger.service (l : Ledger) (id : FlowId) : Option (UInt64 × UInt64) :=
  (l.flows id).map fun r => (r.servedWork, r.serviceCredit)

def Ledger.tickets (l : Ledger) (a : DispatchAttemptId) : Option DispatchTicket :=
  (l.attempts a).map (·.ticket)

section Service

variable {l : Ledger} {s s' : Impl} {e : CompletionEvidence} {now : Ticks}

theorem Impl.service_eq (s : Impl) : s.service = s.ledger.service := by
  funext id
  simp only [Impl.service, Ledger.service, ledger_flows, Option.map_map]
  rfl

theorem Ledger.service_modifyFlow {id : FlowId} {f : LedgerFlow → LedgerFlow}
    (same : ∀ r, (f r).servedWork = r.servedWork ∧ (f r).serviceCredit = r.serviceCredit) :
    (l.modifyFlow id f).service = l.service := by
  funext a
  simp only [Ledger.service, Ledger.flows_modifyFlow]
  split
  · rw [Option.map_map]
    refine congrArg (fun g => Option.map g (l.flows a)) (funext fun r => ?_)
    exact Prod.ext (same r).1 (same r).2
  · rfl

theorem Ledger.tickets_update {a : DispatchAttemptId} {x : LedgerAttempt} (state : AttemptState)
    (found : l.attempts a = some x) :
    ({ l with attempts := Function.update l.attempts a (some { x with state }) } : Ledger).tickets =
      l.tickets := by
  funext b
  simp only [Ledger.tickets, Function.update_apply]
  split
  · rename_i hb
    rw [hb, found]
    rfl
  · rfl

theorem Ledger.service_closeAttempt (a : DispatchAttemptId) (state : AttemptState) :
    (l.closeAttempt a state).service = l.service ∧ (l.closeAttempt a state).tickets = l.tickets := by
  unfold Ledger.closeAttempt
  split
  · exact ⟨rfl, rfl⟩
  · rename_i x hx
    split
    · exact ⟨rfl, rfl⟩
    · have htickets := Ledger.tickets_update state hx
      dsimp only
      split
      · exact ⟨rfl, htickets⟩
      · split
        · exact ⟨rfl, htickets⟩
        · exact ⟨Ledger.service_modifyFlow fun _ => ⟨rfl, rfl⟩, htickets⟩

theorem saturatingAdd_zero (a : UInt64) : saturatingAdd a 0 = a := by
  refine UInt64.toNat_inj.mp ?_
  rw [toNat_saturatingAdd]
  have := a.toNat_lt
  simp only [UInt64.toNat_zero]
  omega

theorem Ledger.service_complete_zero {lifecycle : FlowLifecycle} :
    (l.complete e 0 lifecycle).service = l.service ∧
      (l.complete e 0 lifecycle).tickets = l.tickets := by
  unfold Ledger.complete
  split
  · exact ⟨rfl, rfl⟩
  · rename_i x hx
    have htickets := Ledger.tickets_update .committed hx
    dsimp only
    split
    · exact ⟨rfl, htickets⟩
    · refine ⟨Ledger.service_modifyFlow fun r => ?_, htickets⟩
      exact ⟨saturatingAdd_zero _, saturatingAdd_zero _⟩

/-- The attempt named by the evidence is filed and within its deadline. -/
def Impl.InTime (s : Impl) (e : CompletionEvidence) (now : Ticks) : Prop :=
  ∃ ticket, s.ledger.tickets e.attempt = some ticket ∧ DeadlineAhead ticket.deadlineTick now

theorem CallMove.service {r : Option Record} (move : CallMove (.complete e now) s r s') :
    (s'.ledger.service = s.ledger.service ∧ s'.ledger.tickets = s.ledger.tickets) ∨
      s.InTime e now := by
  cases r with
  | none =>
    rw [move.quiet]
    exact .inl ⟨rfl, rfl⟩
  | some record =>
    rcases move.ledger with hledger | ⟨-, rfl⟩
    · rw [hledger]
      cases move with
      | common move =>
        cases move with
        | close => exact .inl (Ledger.service_closeAttempt ..)
        | release => exact .inl ⟨rfl, rfl⟩
      | @complete _ _ _ flow attempt verdict =>
        have hcommits := commits_of_verdict verdict
        by_cases hserved : e.outcome = .served
        · refine .inr ⟨attempt.ticket, ?_, deadlineAhead_iff.mpr fun h => ?_⟩
          · simp only [Ledger.tickets, ledger_attempts, hcommits.retained]
            rfl
          · exact hcommits.deadline ⟨h.1, h.2, hserved⟩
        · left
          rw [creditOf, if_neg hserved]
          exact Ledger.service_complete_zero
    · exact .inl ⟨rfl, rfl⟩

end Service

/-- A round that returns leaves no open attempt past its deadline and issues no window past it. -/
theorem timely_arbitrate {s t : Scheduler} {now : Ticks} {o : ArbitrationOutcome}
    (sound : Sound s.impl) (kept : deadlinePromise.Kept s.impl)
    (h : exec (arbitrate now) s = (.ok o, t)) :
    t.impl.Timely now ∧ ∀ e ∈ o.schedule.entries, e.kind = .run → DeadlineAhead e.deadlineTick now := by
  have hinv : RoundInvariant now (fun _ i round => i.Timely now ∧ ∀ e ∈ round.entries,
      e.kind = .run → DeadlineAhead e.deadlineTick now) fun _ _ _ => True := by
    refine .entering (fun _ _ _ move hi => hi.move move) ?_ ?_
    · intro s candidate flow victim ordinal _ _ _ hrun
      cases hrun
    · intro s candidate flow ordinal quantum _ _ eligible _
      exact deadlineAhead_iff.mpr eligible.timely
  have hruns := runs_arbitrate_from hinv sound fun _ _ _ hstop _ =>
    ⟨timely_of_stopped sound kept hstop, by simp⟩
  unfold Runs at hruns
  rw [h] at hruns
  obtain ⟨u, round, ⟨htimely, hahead⟩, hentries, ⟨rs, hend⟩⟩ := hruns.2 o rfl
  refine ⟨hend.preserves (P := fun i => i.Timely now) (fun _ _ _ move hi => hi.move move) htimely, ?_⟩
  rw [hentries]
  exact hahead

/-- No round leaves an open attempt, or issues a window, whose deadline has come; no ticket is handed
out at or after its deadline; and evidence credits service only before the deadline of its attempt. -/
theorem no_execution_past_deadline {past : List Record} {s : Scheduler}
    (lived : Lived (fun _ _ => True) (fun _ => True) past s) :
    (∀ now o t, s.call (.arbitrate now) = (.ok (.outcome o), t) →
      (∀ (a : DispatchAttemptId) (x : AttemptRuntime), t.impl.attempts[a]? = some x →
        ¬ x.state.isTerminal → DeadlineAhead x.ticket.deadlineTick now) ∧
      ∀ e ∈ o.schedule.entries, e.kind = .run → DeadlineAhead e.deadlineTick now) ∧
    (∀ schedule generation ordinal worker boot now ticket t,
      s.call (.beginDispatch schedule generation ordinal worker boot now) =
        (.ok (.ticket ticket), t) → DeadlineAhead ticket.deadlineTick now) ∧
    (∀ e now id, (s.call (.complete e now)).2.impl.service id ≠ s.impl.service id →
      ∃ x, s.impl.attempts[e.attempt]? = some x ∧ DeadlineAhead x.ticket.deadlineTick now) := by
  have hkept := lived.promised deadlinePromise_sincere
  refine ⟨fun now o t hcall => ?_, ?_, fun e now id hcredited => ?_⟩
  · obtain ⟨o', t', hround, hresponse⟩ := exec_bind_ok.mp hcall
    cases hresponse
    exact timely_arbitrate lived.sound hkept hround
  · rintro schedule generation ordinal worker boot now ticket t hcall
    obtain ⟨entry, flow, hd, hticket⟩ := dispatches_of_call hcall
    cases hticket
    exact deadlineAhead_iff.mpr hd.authority.deadline
  · by_contra hlate
    obtain ⟨rs, hmakes⟩ := makes_call (s := s) (c := .complete e now) (by simp) (by simp)
    have hsame := hmakes.preserves (P := fun i => i.ledger.service = s.impl.ledger.service ∧
      i.ledger.tickets = s.impl.ledger.tickets) (fun i r i' move hi => ?_) ⟨rfl, rfl⟩
    · refine hcredited ?_
      rw [service_eq, service_eq, hsame.1]
    · rcases move.service with hstep | ⟨ticket, hticket, hahead⟩
      · exact ⟨hstep.1.trans hi.1, hstep.2.trans hi.2⟩
      · rw [hi.2] at hticket
        obtain ⟨y, hy, rfl⟩ := Option.map_eq_some_iff.mp hticket
        obtain ⟨x, hx, rfl⟩ := Option.map_eq_some_iff.mp hy
        exact absurd ⟨x, hx, hahead⟩ hlate

section Sample

open Sample

set_option maxRecDepth 100000 in
/-- An attempt with a deadline at 20 is open, and a round at 25 stops it. -/
theorem no_execution_past_deadline_sample : ∃ s, Lived (fun _ _ => True) (fun _ => True) [] s ∧
    (∃ x ∈ s.impl.attempts[(⟨1⟩ : DispatchAttemptId)]?,
      x.state = .opened ∧ x.ticket.deadlineTick = 20) ∧
    ∃ o t, s.call (.arbitrate 25) = (.ok (.outcome o), t) ∧
      ∀ (a : DispatchAttemptId) (x : AttemptRuntime), t.impl.attempts[a]? = some x →
        ¬ x.state.isTerminal → DeadlineAhead x.ticket.deadlineTick 25 := by
  obtain ⟨s, lived, hopen, hround⟩ : ∃ s, Lived (fun _ _ => True) (fun _ => True) [] s ∧
      (∃ x ∈ s.impl.attempts[(⟨1⟩ : DispatchAttemptId)]?,
        x.state = .opened ∧ x.ticket.deadlineTick = 20) ∧
      (exec (arbitrate 25) s).1.toOption.isSome :=
    @exists_lived _ _ [.registerResource resource, .registerPriorityClass priority,
      .registerQosClass qos, .admitFlow { flow 1 with deadlineTick := 20 }, .arbitrate 5,
      dispatch 6] transient _ (by decide +kernel)
  rcases hexec : exec (arbitrate 25) s with ⟨e | o, t⟩
  · simp [hexec, Except.toOption] at hround
  · have hcall : s.call (.arbitrate 25) = (.ok (.outcome o), t) := by
      rw [Scheduler.call, Call.op, exec_bind, hexec]
      rfl
    exact ⟨s, lived, hopen, o, t, hcall, ((no_execution_past_deadline lived).1 25 o t hcall).1⟩

end Sample

end FlowScheduler

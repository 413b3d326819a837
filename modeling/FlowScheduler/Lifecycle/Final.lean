import FlowScheduler.Authority.Dispatch
import FlowScheduler.Ledger.Settled
import FlowScheduler.Lifecycle.Transient

/-! # Final lifecycles

Once a flow is completed, cancelled or failed nothing but its retirement touches
it again. A round may still name it: the entry of a displacement takes the flow
from the attempt, and under an identity that was given out twice it finds the
attempt of another flow.
-/

namespace FlowScheduler

open Failing SchedOp OrderedMap Impl

/-- The flow has ended in this lifecycle, with this service. -/
structure Impl.Ends (s : Impl) (id : FlowId) (r : FlowRuntime) : Prop where
  terminal : r.lifecycle.isTerminal
  kept : ∃ r', s.flows[id]? = some r' ∧ r'.lifecycle = r.lifecycle ∧
    r'.servedWork = r.servedWork ∧ r'.accounting.serviceCredit = r.accounting.serviceCredit

theorem final_phase {l : FlowLifecycle} (h : l.isTerminal) : l.phase.final := by
  cases l <;> first | rfl | cases h

theorem idle_of_final {p : Phase} (h : p.final) : p.idle := by
  constructor <;> rintro rfl <;> cases h

theorem lifecycle_of_phase {l l' : FlowLifecycle} (terminal : l.isTerminal)
    (same : l'.phase = l.phase) (rest : l'.isTransient = false) : l' = l := by
  revert terminal same rest
  cases l <;> cases l' <;> simp [FlowLifecycle.isTerminal, FlowLifecycle.phase,
    FlowLifecycle.isTransient]

section Moves

variable {c : Call} {s s' : Impl} {r : Option Record} {id : FlowId} {f : FlowRuntime}

theorem spares_callMove {record : Record} (found : s.flows[id]? = some f)
    (terminal : f.lifecycle.isTerminal) (free : ¬ s.ledger.holdsAttempt id f.ledger)
    (move : CallMove c s (some record) s') (other : ∀ generation, c ≠ .retireFlow id generation) :
    Ledger.Spares id record := by
  cases move with
  | common move => cases move <;> trivial
  | admitFlow guard | admitRefused guard =>
    rintro rfl
    obtain ⟨_, -, guard⟩ := bind_eq_ok.mp guard
    obtain ⟨_, hfresh, -⟩ := bind_eq_ok.mp guard
    rw [refuseIf_eq_ok, ← Std.ExtTreeMap.isSome_getElem?_iff_mem, found] at hfresh
    exact hfresh rfl
  | cancel guard =>
    rintro rfl
    obtain ⟨f', hnamed, guard⟩ := bind_eq_ok.mp guard
    obtain ⟨hf', -⟩ := namedFlow_eq_ok.mp hnamed
    obtain rfl := Option.some.inj (found.symm.trans hf')
    split at guard
    · cases guard
    · obtain ⟨_, hlive, -⟩ := bind_eq_ok.mp guard
      exact refuseIf_eq_ok.mp hlive terminal
  | retireFlow =>
    rintro rfl
    exact other _ rfl
  | dispatch guard =>
    rename_i entry flow _
    intro (hid : entry.flow = id)
    subst hid
    have hd := beginDispatchGuard_eq_ok.mp guard
    obtain rfl := Option.some.inj (found.symm.trans hd.found)
    rw [hd.scheduled] at terminal
    cases terminal
  | complete verdict =>
    rintro rfl
    have hcommits := commits_of_verdict verdict
    obtain rfl := Option.some.inj (found.symm.trans hcommits.found)
    rename_i attempt _
    refine free ⟨attempt.ledger, ?_, hcommits.live, hcommits.flow⟩
    have hholds : f.ledger.openAttempt = _ := hcommits.holds
    rw [hholds]
    exact congrArg (Option.map AttemptRuntime.ledger) hcommits.retained
  | _ => trivial

theorem Ledger.Tied.quiet {l l' : Ledger} (h : l.Tied) (quiet : l.Quiet l') : l'.Tied := by
  refine h.holdsLess ?_ fun a x' hx' => ⟨x', quiet.attempts hx', rfl⟩
  cases quiet with
  | same => exact .of_eq rfl
  | fail => exact .modifyFlow fun _ => .inl rfl
  | forget => exact .of_eq rfl

/-- Only a dispatch files an attempt, so only there its identity matters. -/
theorem Ledger.Tied.move (h : s.ledger.Tied) (move : Move c s r s')
    (other : ∀ ticket nominal tick, r ≠ some (.attemptOpened ticket nominal tick)) :
    s'.ledger.Tied := by
  rcases move with move | ⟨now, -, move⟩
  · cases r with
    | none =>
      rw [move.quiet]
      exact h
    | some record =>
      rcases move.ledger with hledger | ⟨-, rfl⟩
      · rw [hledger]
        exact h.apply fun ticket nominal tick hr => other ticket nominal tick (by rw [hr])
      · exact h
  · cases r with
    | none => exact h.quiet move.quiet
    | some record =>
      rw [move.ledger]
      exact h.apply fun ticket nominal tick hr => other ticket nominal tick (by rw [hr])

theorem Ledger.Quiet.flows_of_final {l l' : Ledger} {f : LedgerFlow} (h : l.Quiet l')
    (found : l.flows id = some f) (final : f.phase.final) : l'.flows id = some f := by
  cases h with
  | same => exact found
  | forget => exact found
  | @fail flow r hflow hpending =>
    rw [Ledger.setPhase, Ledger.flows_modifyFlow, if_neg]
    · exact found
    · rintro rfl
      obtain rfl := Option.some.inj (found.symm.trans hflow)
      rw [hpending] at final
      cases final

/-- What has been decided about a flow that has ended is as it was in the ledger. -/
theorem sameEnd_move (sound : Sound s) (tied : s.ledger.Tied) (found : s.flows[id]? = some f)
    (terminal : f.lifecycle.isTerminal) (move : Move c s r s')
    (other : ∀ generation, c ≠ .retireFlow id generation) :
    ∃ f', s'.ledger.flows id = some f' ∧ Ledger.SameEnd f.ledger f' := by
  have hfound : s.ledger.flows id = some f.ledger := congrArg (Option.map _) found
  have hfinal : f.ledger.phase.final := final_phase terminal
  have hfree := tied.free sound.ledger hfound (idle_of_final hfinal)
  rcases move with move | ⟨now, -, move⟩
  · cases r with
    | none =>
      rw [move.quiet]
      exact ⟨_, hfound, .refl _⟩
    | some record =>
      rcases move.ledger with hledger | ⟨-, rfl⟩
      · rw [hledger]
        exact Ledger.settled_apply hfound hfinal hfree
          (spares_callMove found terminal hfree move other)
      · exact ⟨_, hfound, .refl _⟩
  · cases r with
    | none => exact ⟨_, move.quiet.flows_of_final hfound hfinal, .refl _⟩
    | some record =>
      rw [move.ledger]
      refine Ledger.settled_apply hfound hfinal hfree ?_
      cases move with
      | common move => cases move <;> trivial
      | issue => trivial

theorem Impl.Ends.move (sound : Sound s) (tied : s.ledger.Tied) (h : s.Ends id f)
    (move : Move c s r s') (other : ∀ generation, c ≠ .retireFlow id generation) : s'.Ends id f := by
  obtain ⟨terminal, r₁, hr₁, hlifecycle, hserved, hcredit⟩ := h
  refine ⟨terminal, ?_⟩
  rw [← hlifecycle] at terminal ⊢
  rw [← hserved, ← hcredit]
  rcases move.calm_or_preempts with hcalm | ⟨attempt, detail, now, rfl⟩
  · obtain ⟨f', hf', hphase, hserved', hcredit'⟩ := sameEnd_move sound tied hr₁ terminal move other
    obtain ⟨r₂, hr₂, rfl⟩ := Option.map_eq_some_iff.mp hf'
    refine ⟨r₂, hr₂, ?_, hserved', hcredit'⟩
    refine lifecycle_of_phase terminal hphase ?_
    by_contra htransient
    obtain ⟨r₀, hr₀, hl⟩ := hcalm id r₂ hr₂ (Bool.not_eq_false _ ▸ htransient)
    obtain rfl := Option.some.inj (hr₀.symm.trans hr₁)
    revert terminal hl
    cases r₀.lifecycle <;> simp [FlowLifecycle.isTerminal, FlowLifecycle.isTransient]
  · refine ⟨r₁, flows_applyAttemptClosed hr₁ fun _ => ?_, rfl, rfl, rfl⟩
    exact tied.free sound.ledger (congrArg (Option.map _) hr₁)
      (idle_of_final (final_phase terminal))

end Moves

/-- The record opens an attempt for the flow or issues an entry naming it. -/
def Record.engages (id : FlowId) : Record → Prop
  | .attemptOpened ticket _ _ => ticket.flow = id
  | .scheduleIssued schedule => ∃ e ∈ schedule.entries, e.flow = id
  | _ => False

instance (id : FlowId) : ∀ r : Record, Decidable (r.engages id) := by
  intro r
  cases r <;> unfold Record.engages <;> infer_instance

/-- The flow has ended, and nothing accepted since then engages it. -/
structure Untouched (id : FlowId) (f : FlowRuntime) (n : ℕ) (i : Impl) (l : List Record) : Prop where
  ends : i.Ends id f
  longer : n ≤ l.length
  spared : ∀ record ∈ l.drop n, ¬ record.engages id

section Rounds

variable {i i' : Impl} {l : List Record} {id : FlowId} {f : FlowRuntime} {n : ℕ} {now : Ticks}

theorem Untouched.step {r : Option Record} (h : Untouched id f n i l) (ends : i'.Ends id f)
    (spared : ∀ record ∈ r, ¬ record.engages id) : Untouched id f n i' (l ++ r.toList) where
  ends := ends
  longer := by
    have := h.longer
    rw [List.length_append]
    omega
  spared record hrecord := by
    rw [List.drop_append_of_le_length h.longer] at hrecord
    rcases List.mem_append.mp hrecord with hold | hnew
    · exact h.spared record hold
    · exact spared record (Option.mem_toList.mp hnew)

/-- What a round can rely on about a flow that has ended. -/
structure Impl.Over (id : FlowId) (f : FlowRuntime) (i : Impl) : Prop where
  sound : Sound i
  tied : i.ledger.Tied
  ends : i.Ends id f

theorem Impl.Over.round {r : Option Record} (h : i.Over id f) (move : RoundMove now i r i') :
    i'.Over id f where
  sound := h.sound.roundMove move
  tied := by
    refine h.tied.move (c := .arbitrate now) (.inr ⟨now, rfl, move⟩) fun ticket nominal tick hr => ?_
    cases move with
    | common move => cases move <;> cases hr
    | _ => cases hr
  ends := h.ends.move h.sound h.tied (c := .arbitrate now) (.inr ⟨now, rfl, move⟩) (by simp)

theorem Impl.Over.lifecycle_ne {r : FlowRuntime} (h : i.Over id f) (found : i.flows[id]? = some r) :
    r.lifecycle ≠ .ready ∧ r.lifecycle.slot ≠ .inflight := by
  obtain ⟨r₁, hr₁, hlifecycle, -⟩ := h.ends.kept
  obtain rfl := Option.some.inj (found.symm.trans hr₁)
  have hterminal := h.ends.terminal
  rw [← hlifecycle] at hterminal
  revert hterminal
  cases r.lifecycle <;> simp [FlowLifecycle.isTerminal, FlowLifecycle.slot]

theorem overInvariant (id : FlowId) (f : FlowRuntime) (now : Ticks) :
    RoundInvariant now (fun _ i round => i.Over id f ∧ ∀ e ∈ round.entries, e.flow ≠ id)
      fun _ _ _ => True := by
  refine .entering (fun _ _ _ move h => h.round move) ?_ ?_
  · intro s candidate flow victim ordinal sound hover chosen
    -- The incumbent holds the attempt, so the attempt is its own.
    obtain ⟨hrecord, hvalid, a, ha, r, hr, hopen⟩ := chooseVictim_spec chosen
    have hholds : r.ledger.openAttempt = victim.attempt := hopen
    have hown : victim.record.ticket.flow = a := by
      refine hover.tied.own a r.ledger victim.record.ledger (congrArg (Option.map _) hr) ?_ ?_
      · rw [hholds]
        exact hvalid
      · rw [hholds]
        exact congrArg (Option.map _) hrecord
    intro (hid : victim.record.ticket.flow = id)
    rw [hown] at hid
    subst hid
    obtain ⟨r', hr', hslot⟩ := (sound.keyed.index a .inflight (by decide)).mp
      (Std.ExtTreeSet.mem_toList.mp ha)
    exact (hover.lifecycle_ne hr').2 hslot
  · intro s candidate flow ordinal quantum sound hover eligible (hid : flow.descriptor.flow = id)
    rw [sound.keyed.key _ _ eligible.found] at hid
    subst hid
    exact (hover.lifecycle_ne eligible.found).1 eligible.ready

end Rounds

/-- A dispatch is made under a real attempt identity that no flow holds. -/
def OwnAttempt (s : Scheduler) : Call → Prop
  | .beginDispatch _ _ _ _ _ _ => s.impl.nextAttempt.valid ∧
      ∀ entry ∈ s.impl.flows.toList, entry.2.openAttempt ≠ s.impl.nextAttempt
  | _ => True

instance : ∀ s c, Decidable (OwnAttempt s c)
  | s, .beginDispatch _ _ _ _ _ _ => inferInstanceAs (Decidable (s.impl.nextAttempt.valid ∧
      ∀ entry ∈ s.impl.flows.toList, entry.2.openAttempt ≠ s.impl.nextAttempt))
  | _, .registerResource _ | _, .registerReservation _ | _, .retireReservation _ _
  | _, .registerPriorityClass _ | _, .registerQosClass _ | _, .admitFlow _ | _, .updateFlow _
  | _, .cancelFlow _ _ _ _ | _, .notifyReadiness _ _ _ _ | _, .resolveAmbiguous _ _ _ _
  | _, .retireFlow _ _ | _, .installPolicy _ | _, .advanceEpoch _ _ | _, .arbitrate _
  | _, .releaseSchedule _ _ _ | _, .revalidate _ _ | _, .markStarted _ _ | _, .abandonAttempt _ _ _
  | _, .preemptAttempt _ _ _ | _, .complete _ _ | _, .checkpoint => .isTrue trivial

section Calls

variable {s : Scheduler} {c : Call} {id : FlowId} {f : FlowRuntime} {n : ℕ}

theorem call_beginDispatch (s : Scheduler) (schedule : ScheduleId) (generation : Generation)
    (ordinal : UInt32) (worker : WorkerId) (boot : BootId) (now : Ticks) :
    let c : Call := .beginDispatch schedule generation ordinal worker boot now
    ∃ i : Impl, i.flows = s.impl.flows ∧ i.ledger = s.impl.ledger ∧
      i.nextAttempt = s.impl.nextAttempt ∧ CallMove c s.impl none i ∧
      (((s.call c).2.impl = i ∧ (s.call c).2.accepted = s.accepted) ∨ ∃ r i',
        CallMove c i (some r) i' ∧ (s.call c).2.impl = i' ∧
          (s.call c).2.accepted = s.accepted ++ [r]) := by
  intro c
  obtain ⟨impl, store, refused, accepted⟩ := s
  refine ⟨{ impl with lastTick := max impl.lastTick now }, rfl, rfl, rfl, .touch, ?_⟩
  have hcall := exec_done (s := ⟨impl, store, refused, accepted⟩)
    (beginDispatch schedule generation ordinal worker boot now) .ticket
  have hclock : now ≤ ({ impl with lastTick := max impl.lastTick now } : Impl).lastTick :=
    tick_le_max ..
  rw [Scheduler.call, Call.op, hcall, beginDispatch, exec_touch_bind]
  dsimp only
  generalize ({ impl with lastTick := max impl.lastTick now } : Impl) = i at hclock ⊢
  rw [exec_readImpl_bind, exec_lift_bind]
  dsimp only
  cases hguard : i.beginDispatchGuard schedule generation ordinal worker boot now with
  | error e => exact .inl ⟨rfl, rfl⟩
  | ok p =>
    obtain ⟨entry, flow⟩ := p
    dsimp only
    rw [exec_bind]
    cases happend : exec (journal (.attemptOpened (i.issueTicket schedule generation entry worker boot
        now) (remainingWork flow) now)) ⟨i, store, refused, accepted⟩ with
    | mk result t =>
      have himpl : t.impl = i := impl_of_append happend
      cases result with
      | error e => exact .inl ⟨himpl, accepted_of_refused happend⟩
      | ok u =>
        refine .inr ⟨_, _, .dispatch hguard hclock, ?_, ?_⟩
        · dsimp only
          rw [exec_modifyImpl_bind, exec_advanceAttempt, himpl]
        · dsimp only
          rw [exec_modifyImpl_bind, exec_advanceAttempt]
          exact accepted_of_append happend

theorem tied_call (sound : Sound s.impl) (tied : s.impl.ledger.Tied) (ok : OwnAttempt s c) :
    (s.call c).2.impl.ledger.Tied := by
  by_cases hdispatch : ∃ schedule generation ordinal worker boot now,
      c = .beginDispatch schedule generation ordinal worker boot now
  · obtain ⟨schedule, generation, ordinal, worker, boot, now, rfl⟩ := hdispatch
    obtain ⟨i, hflows, hledger, hnext, -, ⟨himpl, -⟩ | ⟨r, i', hmove, himpl, -⟩⟩ :=
      call_beginDispatch s schedule generation ordinal worker boot now
    · rw [himpl, hledger]
      exact tied
    · rw [himpl]
      rw [← hledger] at tied
      rcases hmove.ledger with happly | ⟨-, rfl⟩
      · rw [happly]
        cases hmove with
        | common move => cases move <;> exact tied.apply (by simp)
        | dispatch guard =>
          have hvalid : i.nextAttempt.valid := by
            rw [hnext]
            exact ok.1
          refine tied.openAttempt hvalid fun a x hx => ?_
          obtain ⟨r, hr, rfl⟩ := Option.map_eq_some_iff.mp hx
          have hfresh := ok.2 (a, r) (mem_toList.mpr (hflows ▸ hr))
          rw [← hnext] at hfresh
          exact hfresh
      · exact tied
  · refine preserves_call (P := fun i => i.ledger.Tied) (fun i r i' move hi => ?_) sound tied
    refine hi.move move fun ticket nominal tick hr => ?_
    subst hr
    rcases move with move | ⟨now, -, move⟩
    · cases move with
      | common move => cases move
      | dispatch => exact hdispatch ⟨_, _, _, _, _, _, rfl⟩
    · cases move with
      | common move => cases move

theorem tied_of_reachableBy (h : ReachableBy OwnAttempt s) : s.impl.ledger.Tied := by
  refine h.invariant (P := fun i => i.ledger.Tied) (fun options files s hs => ?_)
    fun s c sound ok tied => tied_call sound tied ok
  refine ⟨fun a x hx => ?_, fun id f x _ _ hx => ?_⟩ <;>
    simp [Impl.ledger, (empty_create hs).2] at hx

theorem engages_move {i i' : Impl} {record : Record} (move : Move c i (some record) i')
    (round : ∀ now, c ≠ .arbitrate now)
    (dispatch : ∀ schedule generation ordinal worker boot now,
      c ≠ .beginDispatch schedule generation ordinal worker boot now) : ¬ record.engages id := by
  rcases move with move | ⟨now, rfl, -⟩
  · cases move with
    | common move => cases move <;> exact fun h => h
    | dispatch => exact absurd rfl (dispatch _ _ _ _ _ _)
    | _ => exact fun h => h
  · exact absurd rfl (round now)

theorem untouched_arbitrate {now : Ticks} (sound : Sound s.impl) (tied : s.impl.ledger.Tied)
    (h : Untouched id f n s.impl s.accepted) :
    Untouched id f n (s.call (.arbitrate now)).2.impl (s.call (.arbitrate now)).2.accepted := by
  have hstart : s.impl.Over id f := ⟨sound, tied, h.ends⟩
  have hruns := runs_arbitrate_from (overInvariant id f now) sound fun t _ _ hstop _ => by
    obtain ⟨rs, hmakes⟩ := hstop.makes
    exact ⟨hmakes.preserves (fun _ _ _ move hi => hi.round move) hstart, by simp⟩
  have hcall : (s.call (.arbitrate now)).2 = (exec (arbitrate now) s).2 := exec_done ..
  obtain ⟨rs, hsteps⟩ := hruns.1
  rw [hcall]
  refine (hsteps.preserves_history (P := fun i l => i.Over id f ∧ Untouched id f n i l)
    (fun i i' l move hi => ?_) (fun i r i' l move hi => ?_) ⟨hstart, h⟩).2
  · have hover := hi.1.round move.1
    have hstep := hi.2.step (r := none) hover.ends (by simp)
    rw [Option.toList_none, List.append_nil] at hstep
    exact ⟨hover, hstep⟩
  · have hover := hi.1.round move.1
    refine ⟨hover, hi.2.step (r := some r) hover.ends fun record hrecord => ?_⟩
    cases hrecord
    obtain ⟨hmove, hmay⟩ := move
    cases hmove with
    | common move => cases move <;> exact fun h => h
    | issue =>
      obtain ⟨round, ⟨-, hentries⟩, heq⟩ := hmay _ rfl
      rintro ⟨e, he, hid⟩
      exact hentries e (heq ▸ he) hid

theorem untouched_call (sound : Sound s.impl) (tied : s.impl.ledger.Tied)
    (other : ∀ generation, c ≠ .retireFlow id generation) (ok : OwnAttempt s c)
    (h : Untouched id f n s.impl s.accepted) :
    Untouched id f n (s.call c).2.impl (s.call c).2.accepted := by
  by_cases hround : ∃ now, c = .arbitrate now
  · obtain ⟨now, rfl⟩ := hround
    exact untouched_arbitrate sound tied h
  by_cases hdispatch : ∃ schedule generation ordinal worker boot now,
      c = .beginDispatch schedule generation ordinal worker boot now
  · obtain ⟨schedule, generation, ordinal, worker, boot, now, rfl⟩ := hdispatch
    obtain ⟨i, -, hledger, -, htouch, hend⟩ :=
      call_beginDispatch s schedule generation ordinal worker boot now
    have hends := h.ends.move sound tied (.inl htouch) other
    rcases hend with ⟨himpl, haccepted⟩ | ⟨r, i', hmove, himpl, haccepted⟩
    · rw [himpl, haccepted]
      exact ⟨hends, h.longer, h.spared⟩
    · rw [himpl, haccepted]
      have hsound := sound.callMove htouch
      rw [← hledger] at tied
      refine h.step (r := some r) (hends.move hsound tied (.inl hmove) other) fun record hr => ?_
      cases hr
      obtain ⟨g, hg, hlifecycle, -⟩ := hends.kept
      have hterminal := hends.terminal
      rw [← hlifecycle] at hterminal
      have hfree := tied.free hsound.ledger (congrArg (Option.map _) hg)
        (idle_of_final (final_phase hterminal))
      have hspares := spares_callMove hg hterminal hfree hmove other
      cases hmove with
      | common move => cases move <;> exact fun h => h
      | dispatch => exact hspares
  · have hstep : ∀ i i' r l, Move c i r i' → i.Over id f ∧ Untouched id f n i l →
        i'.Over id f ∧ Untouched id f n i' (l ++ r.toList) := by
      intro i i' r l move hi
      have hengages : ∀ a, ∀ record ∈ r, ¬ record.engages a := by
        intro a record hr
        cases hr
        exact engages_move move (fun now hc => hround ⟨now, hc⟩)
          fun _ _ _ _ _ _ hc => hdispatch ⟨_, _, _, _, _, _, hc⟩
      have hends := hi.1.ends.move hi.1.sound hi.1.tied move other
      refine ⟨⟨hi.1.sound.move move, ?_, hends⟩, hi.2.step hends (hengages id)⟩
      exact hi.1.tied.move move fun ticket nominal tick hr => hengages ticket.flow _ hr rfl
    refine (preserves_call_history (P := fun i l => i.Over id f ∧ Untouched id f n i l)
      (fun i i' l move hi => ?_) (fun i r i' l move hi => hstep i i' (some r) l move hi) sound
      ⟨⟨sound, tied, h.ends⟩, h⟩).2
    have hquiet := hstep i i' none l move hi
    rwa [Option.toList_none, List.append_nil] at hquiet

end Calls

/-- Once a flow is completed, cancelled or failed, no later call but its retirement moves it, credits
it, opens an attempt for it or issues an entry naming it, as long as every dispatch is made under an
attempt identity that no flow holds. -/
theorem final_lifecycle_untouched {s t : Scheduler} {id : FlowId} {r : FlowRuntime}
    (reachable : ReachableBy OwnAttempt s) (found : s.impl.flows[id]? = some r)
    (terminal : r.lifecycle.isTerminal)
    (later : LaterBy (fun u c => OwnAttempt u c ∧ ∀ generation, c ≠ .retireFlow id generation) s t) :
    (∃ r', t.impl.flows[id]? = some r' ∧ r'.lifecycle = r.lifecycle ∧
      r'.servedWork = r.servedWork ∧ r'.accounting.serviceCredit = r.accounting.serviceCredit) ∧
    ∀ record ∈ t.accepted.drop s.accepted.length, ¬ record.engages id := by
  have huntouched : Sound t.impl ∧ t.impl.ledger.Tied ∧
      Untouched id r s.accepted.length t.impl t.accepted := by
    induction later with
    | refl =>
      refine ⟨reachable.sound, tied_of_reachableBy reachable, ⟨terminal, r, found, rfl, rfl, rfl⟩,
        le_refl _, ?_⟩
      simp
    | called _ c ok ih =>
      obtain ⟨sound, tied, h⟩ := ih
      exact ⟨sound_call sound c, tied_call sound tied ok.1, untouched_call sound tied ok.2 ok.1 h⟩
    | faulty _ io ih => exact ih
  exact ⟨huntouched.2.2.ends.kept, huntouched.2.2.spared⟩

section Sample

open Sample

set_option maxRecDepth 100000 in
theorem final_lifecycle_untouched_sample : ∃ s t, ReachableBy OwnAttempt s ∧
    (∃ r ∈ s.impl.flows[(⟨1⟩ : FlowId)]?, r.lifecycle = .cancelled) ∧
    t = (s.call (.arbitrate 8)).2 ∧
    ∀ record ∈ t.accepted.drop s.accepted.length, ¬ record.engages ⟨1⟩ := by
  obtain ⟨s, reachable, r, hr, hcancelled⟩ : ∃ s, ReachableBy OwnAttempt s ∧
      ∃ r ∈ s.impl.flows[(⟨1⟩ : FlowId)]?, r.lifecycle = .cancelled :=
    @exists_reachableBy transient (setup ++ [.admitFlow (flow 2), .arbitrate 5, dispatch 6,
      .cancelFlow ⟨1⟩ ⟨1⟩ [] 7]) _ _ (by decide +kernel)
  refine ⟨s, _, reachable, ⟨r, hr, hcancelled⟩, rfl, ?_⟩
  exact (final_lifecycle_untouched reachable hr (by rw [hcancelled]; rfl)
    (.called .refl (.arbitrate 8) ⟨trivial, by simp⟩)).2

/-- Two flows on two resources are dispatched under the last identity, the second is cancelled, and an
urgent flow asks for the resource of the first. -/
def Sample.sharedAttempt : List Call :=
  [.registerResource resource, .registerResource { resource with resource := ⟨2⟩ },
    .registerPriorityClass { priority with rank := 5 },
    .registerPriorityClass { priority with priority := ⟨2⟩ }, .registerQosClass qos,
    .admitFlow { flow 1 with preemptible := true },
    .admitFlow { flow 2 with resource := ⟨⟨2⟩, ⟨1⟩⟩, preemptible := true }, .arbitrate 5, dispatch 6,
    .beginDispatch ⟨1⟩ ⟨1⟩ 1 ⟨7⟩ ⟨8⟩ 6, .cancelFlow ⟨2⟩ ⟨1⟩ [] 7,
    .admitFlow { flow 3 with priority := ⟨⟨2⟩, ⟨1⟩⟩ }]

set_option maxRecDepth 100000 in
/-- The round displaces the first flow with an entry that names the cancelled one. -/
theorem not_final_lifecycle_untouched : ∃ s, Reachable s ∧
    ∃ r ∈ s.impl.flows[(⟨2⟩ : FlowId)]?, r.lifecycle = .cancelled ∧
      ∃ record ∈ (s.call (.arbitrate 8)).2.accepted.drop s.accepted.length, record.engages ⟨2⟩ := by
  obtain ⟨s, hs, hnamed⟩ : ∃ s ∈ (create durable (lastAttempt ranked)).toOption,
      ∃ r ∈ (s.calls sharedAttempt).impl.flows[(⟨2⟩ : FlowId)]?, r.lifecycle = .cancelled ∧
        ∃ record ∈ ((s.calls sharedAttempt).call (.arbitrate 8)).2.accepted.drop
          (s.calls sharedAttempt).accepted.length, record.engages ⟨2⟩ := by decide +kernel
  cases hcreate : create durable (lastAttempt ranked) with
  | error e =>
    rw [hcreate] at hs
    cases hs
  | ok s₀ =>
    rw [hcreate] at hs
    cases hs
    exact ⟨_, ReachableBy.calls (ReachableBy.opened hcreate) sharedAttempt, hnamed⟩

end Sample

end FlowScheduler

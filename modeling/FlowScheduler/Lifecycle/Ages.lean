import FlowScheduler.Steps.Edits

/-! # How long a flow has been ready

The age of a flow counts from the tick it was last made ready at, and its window
of minimum service is looked at then and at no other time. So a flow that is
ready after a call either was so before, since the same tick and with the same
count, or has become ready at the tick of the call, with the count it had then.
-/

namespace FlowScheduler

open ByteCodec (Bytes)
open Failing SchedOp Impl OrderedMap

section Meters

variable {m : Meter} {d d' : FlowDescriptor} {now : Ticks}

/-- A minimum is due, and the window is over or has not begun. -/
def Meter.Lapsed (m : Meter) (d : FlowDescriptor) (now : Ticks) : Prop :=
  0 < d.minService ∧ (now < m.start ∨ d.minServiceWindow ≤ now - m.start)

instance : Decidable (m.Lapsed d now) := inferInstanceAs (Decidable (_ ∧ _))

def Meter.refresh (m : Meter) (d : FlowDescriptor) (now : Ticks) : Meter :=
  if m.Lapsed d now then ⟨now, 0⟩ else m

theorem Meter.refresh_refresh : (m.refresh d now).refresh d now = m.refresh d now := by
  by_cases hlapsed : m.Lapsed d now
  · rw [refresh, refresh, if_pos hlapsed, ite_self]
  · have hkept : m.refresh d now = m := if_neg hlapsed
    rw [hkept, hkept]

theorem Meter.refresh_congr (terms : d'.minService = d.minService ∧
    d'.minServiceWindow = d.minServiceWindow) : m.refresh d' now = m.refresh d now := by
  have hlapsed : m.Lapsed d' now ↔ m.Lapsed d now := by
    unfold Lapsed
    rw [terms.1, terms.2]
  simp only [refresh, hlapsed]

theorem meter_refreshMinServiceWindow {r : FlowRuntime} (ever : r.everReady = true) :
    (r.refreshMinServiceWindow now).meter = r.meter.refresh r.descriptor now := by
  by_cases hlapsed : r.meter.Lapsed r.descriptor now
  · rw [Meter.refresh, if_pos hlapsed, FlowRuntime.refreshMinServiceWindow,
      if_neg (UInt64.pos_iff_ne_zero.mp hlapsed.1), if_pos (.inr hlapsed.2)]
    rfl
  · rw [Meter.refresh, if_neg hlapsed, FlowRuntime.refreshMinServiceWindow]
    split
    · rfl
    · rename_i hdue
      refine congrArg FlowRuntime.meter (if_neg ?_)
      rintro (hnever | hover)
      · exact hnever ever
      · exact hlapsed ⟨UInt64.pos_iff_ne_zero.mpr hdue, hover⟩

theorem meter_enterReady {policy : SchedulingPolicy} {clock : UInt64} {r : FlowRuntime} :
    (r.enterReady policy clock now).eligibleSinceTick = now ∧
      (r.enterReady policy clock now).meter = r.meter.refresh r.descriptor now := by
  constructor
  · obtain ⟨_, _, _, h, -⟩ := FlowRuntime.enterReady_eq r policy clock now
    rw [h]
  · unfold FlowRuntime.enterReady
    dsimp only
    split
    all_goals
      rw [meter_refreshMinServiceWindow rfl]
      rfl

end Meters

/-- The flow was ready already, since the same tick and with the same meter. -/
def FlowRuntime.Dwells (r r' : FlowRuntime) : Prop :=
  r.lifecycle = .ready ∧ r'.eligibleSinceTick = r.eligibleSinceTick ∧ r'.meter = r.meter

theorem FlowRuntime.Dwells.of_tempo {r r' : FlowRuntime} (h : r'.tempo = r.tempo)
    (ready : r'.lifecycle = .ready) : r.Dwells r' :=
  ⟨(congrArg (·.toFlowPace.lifecycle) h).symm.trans ready,
    congrArg (·.toFlowPace.eligibleSinceTick) h, congrArg FlowTempo.meter h⟩

/-- What the changes made at a tick may do to a flow: its meter is looked at when it becomes ready. -/
structure FlowRuntime.Ages (now : Ticks) (r r' : FlowRuntime) : Prop where
  terms : r'.descriptor.minService = r.descriptor.minService ∧
    r'.descriptor.minServiceWindow = r.descriptor.minServiceWindow
  meter : r'.meter = r.meter ∨ r'.meter = r.meter.refresh r.descriptor now
  ready : r'.lifecycle = .ready → r.Dwells r' ∨
    r'.eligibleSinceTick = now ∧ r'.meter = r.meter.refresh r.descriptor now

namespace FlowRuntime.Ages

variable {now : Ticks} {r r' r'' : FlowRuntime}

theorem of_tempo (h : r'.tempo = r.tempo) : Ages now r r' where
  terms := ⟨congrArg FlowTempo.minService h, congrArg FlowTempo.minServiceWindow h⟩
  meter := .inl (congrArg FlowTempo.meter h)
  ready hready := .inl (.of_tempo h hready)

theorem trans (h : Ages now r r') (h' : Ages now r' r'') : Ages now r r'' := by
  have hrefresh : r'.meter.refresh r'.descriptor now = r.meter.refresh r.descriptor now := by
    rw [Meter.refresh_congr h.terms]
    rcases h.meter with hsame | hsame <;> rw [hsame]
    exact Meter.refresh_refresh
  refine ⟨⟨h'.terms.1.trans h.terms.1, h'.terms.2.trans h.terms.2⟩, ?_, fun hready => ?_⟩
  · rcases h'.meter with hsame | hsame
    · exact hsame ▸ h.meter
    · exact .inr (hsame.trans hrefresh)
  · rcases h'.ready hready with ⟨hready', hsince, hsame⟩ | ⟨hsince, hsame⟩
    · rw [FlowRuntime.Dwells, hsince, hsame]
      exact h.ready hready'
    · exact .inr ⟨hsince, hsame.trans hrefresh⟩

theorem setLifecycle {policy : SchedulingPolicy} {clock : UInt64} {next : FlowLifecycle} {tick : Ticks}
    (prompt : next = .ready → tick = now) : Ages now r (r.setLifecycle policy clock next tick) := by
  by_cases hsame : r.lifecycle = next
  · rw [FlowRuntime.setLifecycle, if_pos hsame]
    exact of_tempo rfl
  · refine ⟨by simp, ?_, fun hready => .inr ?_⟩
    all_goals
      unfold FlowRuntime.setLifecycle
      rw [if_neg hsame]
      dsimp only
    · split
      · rename_i hready
        rw [prompt hready]
        refine .inr (meter_enterReady.2.trans ?_)
        split <;> rfl
      · refine .inl ?_
        split <;> rfl
    · rw [FlowRuntime.lifecycle_setLifecycle] at hready
      rw [if_pos hready, prompt hready]
      refine ⟨meter_enterReady.1, meter_enterReady.2.trans ?_⟩
      split <;> rfl

end FlowRuntime.Ages

/-- Every flow is one of before that may have aged so. -/
def Impl.Ages (now : Ticks) (s s' : Impl) : Prop :=
  ∀ (id : FlowId) (r' : FlowRuntime), s'.flows[id]? = some r' →
    ∃ r, s.flows[id]? = some r ∧ r.Ages now r'

namespace Impl.Ages

variable {now : Ticks} {s s' : Impl}

theorem of_flows (flows : s'.flows = s.flows) : Ages now s s' := fun _ r' hr' =>
  ⟨r', flows ▸ hr', .of_tempo rfl⟩

theorem of_tempo (h : s.SameTempo s') : Ages now s s' := by
  intro id r' hr'
  obtain ⟨r, hr, htempo⟩ := h.get hr'
  exact ⟨r, hr, .of_tempo htempo⟩

instance : IsPreorder Impl (Ages now) where
  refl _ := of_flows rfl
  trans _ _ _ h h' id r'' hr'' := by
    obtain ⟨r', hr', haged'⟩ := h' id r'' hr''
    obtain ⟨r, hr, haged⟩ := h id r' hr'
    exact ⟨r, hr, haged.trans haged'⟩

theorem setLifecycle {id : FlowId} {next : FlowLifecycle} {tick : Ticks}
    (prompt : next = .ready → tick = now) : Ages now s (s.setLifecycle id next tick) := by
  intro k r' hr'
  simp only [Impl.setLifecycle, get_modify] at hr'
  split at hr'
  · obtain ⟨r, hr, rfl⟩ := Option.map_eq_some_iff.mp hr'
    exact ⟨r, hr, .setLifecycle prompt⟩
  · exact ⟨r', hr', .of_tempo rfl⟩

theorem edits : RoundEdits now (Ages now) where
  quiet h _ := of_tempo h
  lifecycle _ prompt := setLifecycle prompt
  clock _ := by
    unfold Impl.advanceGroupClock
    split <;> exact of_flows rfl
  recount h := of_tempo h

end Impl.Ages

/-- The flow is ready, and no attempt of its own is still open. -/
def Impl.Eligible (i : Impl) (id : FlowId) (r : FlowRuntime) : Prop :=
  i.flows[id]? = some r ∧ r.lifecycle = .ready ∧ (r.openAttempt.valid → ∀ x,
    i.attempts[r.openAttempt]? = some x → x.ticket.flow = id → x.state.isTerminal)

section Calls

variable {s : Scheduler} {c : Call} {id : FlowId} {r' : FlowRuntime}

theorem eligible_of_ready {r : FlowRuntime} (sound : Sound s.impl) (found : s.impl.flows[id]? = some r)
    (ready : r.lifecycle = .ready) : s.impl.Eligible id r := by
  refine ⟨found, ready, fun valid x hx hflow => ?_⟩
  have hfound : s.impl.ledger.flows id = some r.ledger := by simp [Impl.ledger, found]
  have hidle : r.ledger.phase.idle := by
    simp [FlowRuntime.ledger, ready, Phase.idle, FlowLifecycle.phase]
  by_contra hopen
  refine sound.ledger id _ hfound hidle valid ⟨x.ledger, ?_, hopen, hflow⟩
  exact (congrArg (Option.map AttemptRuntime.ledger) hx :)

/-- What the call, if it is applied, delivers to the flow. -/
def Call.credit (c : Call) (id : FlowId) (m : Meter) : Meter :=
  match c with
  | .complete e _ =>
    if e.flow = id then { m with delivered := saturatingAdd m.delivered (creditOf e) } else m
  | _ => m

/-- The flow has become ready in the call, whose tick dates it and whose credit has been counted when
its window was looked at. -/
def Call.Readies (c : Call) (clock : Ticks) (id : FlowId) (r r' : FlowRuntime) : Prop :=
  r'.eligibleSinceTick = c.tick clock ∧
    r'.meter = (c.credit id r.meter).refresh r'.descriptor (c.tick clock)

theorem FlowRuntime.Ages.dwells_or_readies {r : FlowRuntime} {clock : Ticks}
    (h : r.Ages (c.tick clock) r') (ready : r'.lifecycle = .ready) (idle : c.credit id r.meter = r.meter) :
    r.Dwells r' ∨ c.Readies clock id r r' := by
  refine (h.ready ready).imp_right fun ⟨hsince, hmeter⟩ => ⟨hsince, ?_⟩
  rw [idle, Meter.refresh_congr h.terms, hmeter]

theorem ready_complete {e : CompletionEvidence} {now : Ticks} (sound : Sound s.impl)
    (found : (s.call (.complete e now)).2.impl.flows[id]? = some r') (ready : r'.lifecycle = .ready) :
    ∃ r, s.impl.flows[id]? = some r ∧
      (r.Dwells r' ∨ (Call.complete e now).Readies s.impl.lastTick id r r') := by
  rw [Scheduler.call, Call.op, exec_done] at found
  obtain ⟨i, htempo, -, hsame | ⟨⟨flow, attempt, hcommits⟩, hages⟩⟩ :=
    (@Ages.edits now).toEdits.complete (s := s) e
  · obtain ⟨r, hr, hkept⟩ := htempo.get (hsame ▸ found)
    exact ⟨r, hr, .inl (.of_tempo hkept ready)⟩
  · obtain ⟨r₁, hr₁, haged⟩ := hages id r' found
    simp only [Impl.creditFlow, Impl.modifyFlow, get_modify] at hr₁
    split at hr₁
    · rename_i hflow
      subst hflow
      obtain ⟨r₂, hr₂, rfl⟩ := Option.map_eq_some_iff.mp hr₁
      obtain ⟨r, hr, hkept⟩ := htempo.get hr₂
      have hmeter : r₂.meter = r.meter := congrArg FlowTempo.meter hkept
      refine ⟨r, hr, .inr ?_⟩
      rcases haged.ready ready with ⟨hready, -⟩ | ⟨hsince, hrefreshed⟩
      · -- the flow of an attempt that is still open is not ready
        have hready : r.lifecycle = .ready := (FlowRuntime.Dwells.of_tempo hkept hready).1
        obtain rfl := Option.some.inj (hr.symm.trans hcommits.found)
        have hvalid : e.attempt.valid := by
          have hbound := hcommits.bound
          simp only [CompletionEvidence.bound, Bool.and_eq_true] at hbound
          tauto
        have hended := (eligible_of_ready sound hr hready).2.2
        rw [hcommits.holds] at hended
        exact absurd (hended hvalid attempt hcommits.retained hcommits.flow) hcommits.live
      · refine ⟨hsince, hrefreshed.trans ?_⟩
        rw [Call.credit, if_pos rfl, Meter.refresh_congr haged.terms, ← hmeter]
        rfl
    · rename_i hflow
      obtain ⟨r, hr, hkept⟩ := htempo.get hr₁
      have haged : r.Ages ((Call.complete e now).tick s.impl.lastTick) r' :=
        (FlowRuntime.Ages.of_tempo hkept).trans haged
      exact ⟨r, hr, haged.dwells_or_readies ready (if_neg (Ne.symm hflow))⟩

/-- A flow that is ready after a call was so before, and has been left so, or has become ready in the
call. -/
theorem ready_call (sound : Sound s.impl) (c : Call) (found : (s.call c).2.impl.flows[id]? = some r')
    (ready : r'.lifecycle = .ready) : ∃ r, s.impl.flows[id]? = some r ∧
      (r.Dwells r' ∨ c.Readies s.impl.lastTick id r r') := by
  cases plain : c.defines with
  | false =>
    by_cases hcomplete : ∃ e now, c = .complete e now
    · obtain ⟨e, now, rfl⟩ := hcomplete
      exact ready_complete sound found ready
    · obtain ⟨r, hr, haged⟩ := Ages.edits.call plain (fun h => absurd h hcomplete) id r' found
      refine ⟨r, hr, haged.dwells_or_readies ready ?_⟩
      cases c with
      | complete e now => exact absurd ⟨e, now, rfl⟩ hcomplete
      | _ => rfl
  | true =>
    have hidle : c.tick s.impl.lastTick = s.impl.lastTick ∧ ∀ m, c.credit id m = m := by
      cases c with
      | admitFlow | updateFlow | retireFlow | installPolicy => exact ⟨rfl, fun _ => rfl⟩
      | _ => cases plain
    have hsame : ∀ {r r₁ : FlowRuntime}, r₁ = { r with descriptor := r₁.descriptor } →
        r₁.lifecycle = r.lifecycle ∧ r₁.eligibleSinceTick = r.eligibleSinceTick ∧ r₁.meter = r.meter :=
      fun h => by rw [h]; exact ⟨rfl, rfl, rfl⟩
    obtain ⟨i, hdefines, hdefined | ⟨-, hkeys, k, hreleased⟩⟩ := redefines_call s plain
    · rw [hdefined] at found
      rcases hdefines.flows id r' found with ⟨r, hr, hr'⟩ | ⟨-, hwaits, -⟩
      · exact ⟨r, hr, .inl ⟨(hsame hr').1 ▸ ready, (hsame hr').2⟩⟩
      · rw [hwaits] at ready
        cases ready
    · rw [hreleased] at found
      obtain ⟨r₁, hr₁, haged⟩ := Ages.edits.releaseScheduledEntry id r' found
      rcases hdefines.flows id r₁ hr₁ with ⟨r, hr, hr'⟩ | ⟨habsent, -⟩
      · obtain ⟨hlifecycle, hsince, hmeter⟩ := hsame hr'
        refine ⟨r, hr, ?_⟩
        rw [FlowRuntime.Dwells, Call.Readies, hidle.1, hidle.2, Meter.refresh_congr haged.terms,
          ← hlifecycle, ← hsince, ← hmeter]
        exact haged.ready ready
      · exact absurd (hr₁.symm.trans (hkeys id habsent)) nofun

end Calls

end FlowScheduler

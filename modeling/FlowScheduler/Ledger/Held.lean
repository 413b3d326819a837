import FlowScheduler.Ledger.Sound

/-! # Held attempts

An attempt that is still open is held by the flow it serves, which is busy with
it. What an attempt was promised when it was opened, as far as the terms of the
flow and its progress go, stays true while it is open.
-/

namespace FlowScheduler

namespace Ledger

variable {T : FlowDescriptor → UInt64 → DispatchTicket → Prop} {l l' : Ledger}

/-- Every open attempt is held by its flow, and the flow and the ticket keep the promise. -/
def Held (T : FlowDescriptor → UInt64 → DispatchTicket → Prop) (l : Ledger) : Prop :=
  ∀ a x, l.attempts a = some x → ¬ x.state.isTerminal → a.valid ∧
    ∃ f, l.flows x.ticket.flow = some f ∧ f.openAttempt = a ∧ ¬ f.phase.idle ∧
      T f.descriptor f.servedWork x.ticket

/-- What the code has checked about a record before it appends it. -/
def Heeds (T : FlowDescriptor → UInt64 → DispatchTicket → Prop) (l : Ledger) : Record → Prop
  | .flowAdmitted d => l.flows d.flow = none
  | .flowUpdated d => ∀ f, l.flows d.flow = some f → f.phase.idle
  | .flowRetired flow _ => ∀ f, l.flows flow = some f → f.phase.idle
  | .attemptOpened ticket _ _ => ticket.attempt.valid ∧
      ∃ f, l.current ticket.flow ticket.flowGeneration = some f ∧ f.phase.idle ∧
        T f.descriptor f.servedWork ticket
  | .attemptClosed _ state _ _ => state.isTerminal
  | .completionCommitted e _ _ _ => ∀ f, l.flows e.flow = some f → f.openAttempt = e.attempt
  | _ => True

namespace Held

theorem congr (h : l.Held T) (flows : l'.flows = l.flows) (attempts : l'.attempts = l.attempts) :
    l'.Held T := by
  unfold Held
  rw [flows, attempts]
  exact h

theorem modifyFlow (h : l.Held T) {id : FlowId} {f : LedgerFlow → LedgerFlow}
    (keep : ∀ r x, l.flows id = some r → l.attempts r.openAttempt = some x → ¬ x.state.isTerminal →
      x.ticket.flow = id → ¬ r.phase.idle → (f r).openAttempt = r.openAttempt ∧
      ¬ (f r).phase.idle ∧ (T r.descriptor r.servedWork x.ticket →
        T (f r).descriptor (f r).servedWork x.ticket)) : (l.modifyFlow id f).Held T := by
  intro a x hx hlive
  obtain ⟨hvalid, r, hr, hopen, hbusy, hterms⟩ := h a x hx hlive
  refine ⟨hvalid, ?_⟩
  rw [flows_modifyFlow]
  split
  · rename_i hid
    subst hopen
    obtain ⟨hopen', hbusy', hterms'⟩ := keep r x (hid ▸ hr) hx hlive hid hbusy
    exact ⟨f r, by rw [hr]; rfl, hopen', hbusy', hterms' hterms⟩
  · exact ⟨r, hr, hopen, hbusy, hterms⟩

theorem modifyIdle (h : l.Held T) {id : FlowId} {f : LedgerFlow → LedgerFlow}
    (idle : ∀ r, l.flows id = some r → r.phase.idle) : (l.modifyFlow id f).Held T :=
  h.modifyFlow fun r _ hr _ _ _ hbusy => absurd (idle r hr) hbusy

theorem updateAttempt (h : l.Held T) {a : DispatchAttemptId} {x : LedgerAttempt}
    (hx : l.attempts a = some x) (state : AttemptState)
    (live : ¬ state.isTerminal → ¬ x.state.isTerminal) :
    Held T { l with attempts := Function.update l.attempts a (some { x with state }) } := by
  intro b y hy hlive
  simp only [Function.update_apply] at hy
  split at hy
  · rename_i hb
    subst hb
    cases hy
    exact h b x hx (live hlive)
  · exact h b y hy hlive

theorem closeAttempt (h : l.Held T) (a : DispatchAttemptId) {state : AttemptState}
    (terminal : state.isTerminal) : (l.closeAttempt a state).Held T := by
  unfold Ledger.closeAttempt
  split
  · exact h
  · rename_i x hx
    split
    · exact h
    · have hupdate := h.updateAttempt hx state fun hn => absurd terminal hn
      dsimp only
      split
      · exact hupdate
      · split
        · exact hupdate
        · rename_i r hr hopen
          -- the flow that gives up the attempt held no other one
          refine hupdate.modifyFlow fun r' y hr' hy hlive _ _ => ?_
          obtain rfl := Option.some.inj (hr.symm.trans hr')
          rw [not_not.mp hopen] at hy
          simp only [Function.update_self, Option.some.injEq] at hy
          subst hy
          exact absurd terminal hlive

theorem runEntry (h : l.Held T) (e : ScheduleEntry) : (l.runEntry e).Held T := by
  unfold Ledger.runEntry
  split
  · exact h
  · rename_i r hr
    split
    · exact h
    · split
      · exact h
      · rename_i hp
        have hset : (l.setPhase e.flow .pending).Held T := by
          refine h.modifyIdle fun r' hr' => ?_
          obtain rfl : r = r' := Option.some.inj (hr.symm.trans hr')
          constructor <;> intro hr <;> exact hp (by rw [hr]; decide)
        dsimp only
        split
        · exact hset.congr rfl rfl
        · exact hset

theorem openAttempt (h : l.Held T) {ticket : DispatchTicket} (valid : ticket.attempt.valid)
    {f : LedgerFlow} (found : l.current ticket.flow ticket.flowGeneration = some f)
    (idle : f.phase.idle) (terms : T f.descriptor f.servedWork ticket) :
    (l.openAttempt ticket).Held T := by
  have hflow : l.flows ticket.flow = some f := (Option.filter_eq_some_iff.mp found).1
  have hopened : l.openAttempt ticket =
      ({ l with attempts := Function.update l.attempts ticket.attempt (some { ticket }) } :
        Ledger).modifyFlow ticket.flow
          ({ · with openAttempt := ticket.attempt, phase := .dispatched }) := by
    unfold Ledger.openAttempt
    dsimp only
    split
    · rename_i hnone
      exact absurd (hnone.symm.trans found) (by simp)
    · rfl
  rw [hopened]
  intro a x hx hlive
  simp only [Ledger.modifyFlow, Function.update_apply] at hx
  rw [flows_modifyFlow]
  split at hx
  · rename_i ha
    cases hx
    rw [if_pos rfl]
    refine ⟨ha ▸ valid, { f with openAttempt := ticket.attempt, phase := .dispatched }, ?_, ha.symm,
      fun hidle => hidle.1 rfl, terms⟩
    rw [hflow]
    rfl
  · obtain ⟨hvalid, r, hr, hopen, hbusy, hterms⟩ := h a x hx hlive
    have hother : x.ticket.flow ≠ ticket.flow := by
      intro heq
      rw [heq, hflow] at hr
      cases hr
      exact hbusy idle
    rw [if_neg hother]
    exact ⟨hvalid, r, hr, hopen, hbusy, hterms⟩

theorem startAttempt (h : l.Held T) (a : DispatchAttemptId) : (l.startAttempt a).Held T := by
  unfold Ledger.startAttempt
  split
  · exact h
  · rename_i x hx
    split
    · exact h
    · rename_i hopened
      have hupdate := h.updateAttempt hx .started fun _ => by rw [not_not.mp hopened]; decide
      dsimp only
      split
      · exact hupdate
      · split
        · exact hupdate
        · exact hupdate.modifyFlow fun r _ _ _ _ _ _ => ⟨rfl, fun hidle => hidle.2 rfl, id⟩

theorem cancel (h : l.Held T) (flow : FlowId) (generation : Generation) :
    (l.cancel flow generation).Held T := by
  unfold Ledger.cancel
  split
  · exact h
  · rename_i r hr
    have hflow : l.flows flow = some r := (Option.filter_eq_some_iff.mp hr).1
    dsimp only
    split
    · refine (h.closeAttempt _ rfl).modifyFlow fun r' x hr' hx hlive hid _ => ?_
      have hholds : (l.closeAttempt r.openAttempt .cancelled).holdsAttempt flow r' :=
        ⟨x, hx, hlive, hid⟩
      rw [flows_closeAttempt, hflow] at hr'
      simp only [Option.map_some, Option.some.injEq, true_and] at hr'
      split at hr'
      · -- the attempt it held was closed and given up, and no attempt has the empty identity
        subst hr'
        exact absurd ((h.closeAttempt _ rfl) _ x hx hlive).1 Bool.false_ne_true
      · rename_i hfree
        subst hr'
        exact absurd ⟨rfl, holdsAttempt_of_closeAttempt hholds⟩ hfree
    · rename_i hinvalid
      refine h.modifyFlow fun r' x hr' hx hlive _ _ => ?_
      obtain rfl : r = r' := Option.some.inj (hflow.symm.trans hr')
      exact absurd (h _ x hx hlive).1 hinvalid

theorem complete (h : l.Held T) {e : CompletionEvidence}
    (holds : ∀ f, l.flows e.flow = some f → f.openAttempt = e.attempt) (credited : UInt64)
    (lifecycle : FlowLifecycle) : (l.complete e credited lifecycle).Held T := by
  unfold Ledger.complete
  split
  · exact h
  · rename_i x hx
    have hupdate := h.updateAttempt hx .committed fun hn => absurd rfl hn
    dsimp only
    split
    · exact hupdate
    · refine modifyFlow (hupdate.congr rfl rfl) fun r y hr hy hlive _ _ => ?_
      rw [holds r hr] at hy
      simp only [Function.update_self, Option.some.injEq] at hy
      subst hy
      exact absurd rfl hlive

theorem advanceEpoch (next : FabricEpoch) : (l.advanceEpoch next).Held T := by
  intro a x hx
  cases hx

theorem apply (h : l.Held T)
    (signal : ∀ d served ticket code, T d served ticket →
      T { d with readinessSignal := code } served ticket)
    {r : Record} (heeds : l.Heeds T r) : (l.apply r).Held T := by
  cases r with
  | policyInstalled | resourceRegistered | reservationRegistered | reservationRetired
  | priorityClassRegistered | qosClassRegistered | scheduleReleased => exact h
  | epochAdvanced => exact advanceEpoch _
  | flowAdmitted d =>
    intro a x hx hlive
    obtain ⟨hvalid, f, hf, hkept⟩ := h a x hx hlive
    refine ⟨hvalid, f, ?_, hkept⟩
    have hother : x.ticket.flow ≠ d.flow := by
      intro heq
      rw [heq, heeds] at hf
      cases hf
    exact (Function.update_of_ne hother ..).trans hf
  | flowUpdated d => exact h.modifyIdle heeds
  | flowReadinessChanged flow generation code =>
    simp only [Ledger.apply, notify]
    split
    · exact h
    · exact h.modifyFlow fun r x _ _ _ _ hbusy => ⟨rfl, hbusy, signal _ _ _ _⟩
  | flowCancelled => exact h.cancel _ _
  | flowRetired flow generation =>
    simp only [Ledger.apply, retireFlow]
    split
    · exact h
    · intro a x hx hlive
      obtain ⟨hvalid, f, hf, hopen, hbusy, hterms⟩ := h a x hx hlive
      refine ⟨hvalid, f, ?_, hopen, hbusy, hterms⟩
      have hother : x.ticket.flow ≠ flow := fun heq => hbusy (heeds f (heq ▸ hf))
      exact (Function.update_of_ne hother ..).trans hf
  | scheduleIssued schedule =>
    refine OrderedMap.foldl_keeps (fun l e hl => ?_) _ h
    split
    · exact hl
    · exact hl.runEntry e
  | attemptOpened ticket =>
    obtain ⟨valid, f, found, idle, terms⟩ := heeds
    exact h.openAttempt valid found idle terms
  | attemptStarted => exact h.startAttempt _
  | attemptClosed => exact h.closeAttempt _ heeds
  | completionCommitted => exact h.complete heeds _ _
  | ambiguityResolved flow generation resolution =>
    simp only [Ledger.apply, resolve]
    split
    · exact h
    · rename_i r hr
      split
      · exact h
      · rename_i hp
        have hflow : l.flows flow = some r := (Option.filter_eq_some_iff.mp hr).1
        refine h.modifyIdle fun r' hr' => ?_
        obtain rfl : r = r' := Option.some.inj (hflow.symm.trans hr')
        rw [not_not.mp hp]
        exact ⟨by decide, by decide⟩

end Held

end Ledger

end FlowScheduler

import FlowScheduler.Ledger.Refinement

/-! # Sound ledgers

Only a dispatched or running flow holds an open attempt. Every record keeps a
ledger sound, provided that the flow of an opened attempt is registered.
-/

namespace FlowScheduler

open OrderedMap

def Phase.idle (p : Phase) : Prop := p ≠ .dispatched ∧ p ≠ .running

namespace Ledger

/-- An idle flow holds no attempt that is still open. -/
def Sound (l : Ledger) : Prop :=
  ∀ id r, l.flows id = some r → r.phase.idle → r.openAttempt.valid → ¬ l.holdsAttempt id r

variable {l l' : Ledger}

theorem flows_modifyFlow {id a : FlowId} {f : LedgerFlow → LedgerFlow} :
    (l.modifyFlow id f).flows a = if a = id then (l.flows a).map f else l.flows a := by
  simp only [modifyFlow, Function.update_apply]
  split
  · rename_i h
    rw [h]
  · rfl

theorem holdsAttempt_congr (attempts : l'.attempts = l.attempts) {id : FlowId} {r : LedgerFlow} :
    l'.holdsAttempt id r ↔ l.holdsAttempt id r := by
  unfold holdsAttempt
  rw [attempts]

theorem attempts_closeAttempt {attempt a : DispatchAttemptId} {state : AttemptState}
    {x : LedgerAttempt} (h : (l.closeAttempt attempt state).attempts a = some x) :
    ∃ y, l.attempts a = some y ∧ x.ticket = y.ticket ∧
      (x = y ∨ (a = attempt ∧ ¬ y.state.isTerminal ∧ x.state = state)) := by
  by_cases ha : a = attempt
  · subst ha
    cases hy : l.attempts a with
    | none =>
      simp only [closeAttempt, hy] at h
      cases h
    | some y =>
      refine ⟨y, rfl, ?_⟩
      simp only [closeAttempt, hy] at h
      split at h
      · obtain rfl := Option.some.inj (hy.symm.trans h)
        exact ⟨rfl, .inl rfl⟩
      · rename_i hlive
        have hx : x = { y with state } := by
          split at h
          · simpa using h.symm
          · split at h <;> simpa [modifyFlow] using h.symm
        subst hx
        exact ⟨rfl, .inr ⟨rfl, hlive, rfl⟩⟩
  · rw [attempts_closeAttempt_of_ne ha] at h
    exact ⟨x, h, rfl, .inl rfl⟩

theorem terminal_closeAttempt {attempt : DispatchAttemptId} {state : AttemptState}
    {x : LedgerAttempt} (final : state.isTerminal)
    (h : (l.closeAttempt attempt state).attempts attempt = some x) : x.state.isTerminal := by
  cases hy : l.attempts attempt with
  | none =>
    simp only [closeAttempt, hy] at h
    cases h
  | some y =>
    simp only [closeAttempt, hy] at h
    split at h
    · rename_i hterminal
      obtain rfl := Option.some.inj (hy.symm.trans h)
      exact hterminal
    · have hx : x = { y with state } := by
        split at h
        · simpa using h.symm
        · split at h <;> simpa [modifyFlow] using h.symm
      rw [hx]
      exact final

theorem holdsAttempt_of_closeAttempt {attempt : DispatchAttemptId} {state : AttemptState}
    {id : FlowId} {r : LedgerFlow} (h : (l.closeAttempt attempt state).holdsAttempt id r) :
    l.holdsAttempt id r := by
  obtain ⟨x, hx, hlive, hf⟩ := h
  obtain ⟨y, hy, ht, hxy⟩ := attempts_closeAttempt hx
  refine ⟨y, hy, ?_, ht ▸ hf⟩
  rcases hxy with rfl | ⟨-, hy, -⟩
  · exact hlive
  · exact hy

namespace Sound

theorem congr (h : l.Sound) (flows : l'.flows = l.flows) (attempts : l'.attempts = l.attempts) :
    l'.Sound := by
  intro id r hr hp hv
  rw [flows] at hr
  rw [holdsAttempt_congr attempts]
  exact h id r hr hp hv

theorem modifyFlow (h : l.Sound) {id : FlowId} {f : LedgerFlow → LedgerFlow}
    (free : ∀ r, l.flows id = some r → (f r).phase.idle → (f r).openAttempt.valid →
      ¬ l.holdsAttempt id (f r)) : (l.modifyFlow id f).Sound := by
  intro a r hr hp hv
  rw [holdsAttempt_congr (show (l.modifyFlow id f).attempts = l.attempts from rfl)]
  rw [flows_modifyFlow] at hr
  split at hr
  · rename_i ha
    subst ha
    obtain ⟨r₀, hr₀, rfl⟩ := Option.map_eq_some_iff.mp hr
    exact free r₀ hr₀ hp hv
  · exact h a r hr hp hv

theorem setBusy (h : l.Sound) {id : FlowId} {f : LedgerFlow → LedgerFlow}
    (busy : ∀ r, ¬ (f r).phase.idle) : (l.modifyFlow id f).Sound :=
  h.modifyFlow fun r _ hp => absurd hp (busy r)

theorem setFree (h : l.Sound) {id : FlowId} {f : LedgerFlow → LedgerFlow}
    (free : ∀ r, (f r).openAttempt = {}) : (l.modifyFlow id f).Sound := by
  refine h.modifyFlow fun r _ _ hv => ?_
  rw [free r] at hv
  cases hv

/-- An attempt that is filed anew as ended, or was open before, is held by no further flow. -/
theorem updateAttempt (h : l.Sound) {a : DispatchAttemptId} {x : LedgerAttempt}
    (hx : l.attempts a = some x) (state : AttemptState)
    (live : ¬ state.isTerminal → ¬ x.state.isTerminal) :
    Sound { l with attempts := Function.update l.attempts a (some { x with state }) } := by
  intro id r hr hp hv hholds
  refine h id r hr hp hv ?_
  obtain ⟨y, hy, ht, hf⟩ := hholds
  simp only [Function.update_apply] at hy
  split at hy
  · rename_i ha
    cases hy
    exact ⟨x, ha ▸ hx, live ht, hf⟩
  · exact ⟨y, hy, ht, hf⟩

theorem admitFlow (h : l.Sound) (d : FlowDescriptor) : (l.admitFlow d).Sound := by
  intro id r hr hp hv
  simp only [Ledger.admitFlow, Function.update_apply] at hr
  split at hr
  · cases hr
    cases hv
  · exact h id r hr hp hv

theorem notify (h : l.Sound) (flow : FlowId) (generation : Generation) (signal : ReadinessSignal) :
    (l.notify flow generation signal).Sound := by
  unfold Ledger.notify
  split
  · exact h
  · exact h.modifyFlow fun r hr hp hv => h _ r hr hp hv

theorem retireFlow (h : l.Sound) (flow : FlowId) (generation : Generation) :
    (l.retireFlow flow generation).Sound := by
  unfold Ledger.retireFlow
  split
  · exact h
  · intro id r hr hp hv
    simp only [Function.update_apply] at hr
    split at hr
    · cases hr
    · exact h id r hr hp hv

theorem runEntry (h : l.Sound) (e : ScheduleEntry) : (l.runEntry e).Sound := by
  unfold Ledger.runEntry
  split
  · exact h
  · rename_i r hr
    split
    · exact h
    · split
      · exact h
      · rename_i hp
        have hidle : r.phase.idle := by
          constructor <;> intro hr <;> exact hp (by rw [hr]; decide)
        have hset : (l.setPhase e.flow .pending).Sound := by
          refine h.modifyFlow fun r' hr' _ hv => ?_
          obtain rfl : r = r' := Option.some.inj (hr.symm.trans hr')
          exact h _ r hr hidle hv
        dsimp only
        split
        · exact hset.congr rfl rfl
        · exact hset

theorem issue (h : l.Sound) (schedule : Schedule) : (l.issue schedule).Sound := by
  refine OrderedMap.foldl_keeps (fun l e hl => ?_) _ h
  split
  · exact hl
  · exact hl.runEntry e

theorem openAttempt (h : l.Sound) {ticket : DispatchTicket}
    (found : l.current ticket.flow ticket.flowGeneration ≠ none) : (l.openAttempt ticket).Sound := by
  unfold Ledger.openAttempt
  dsimp only
  split
  · rename_i hnone
    exact absurd hnone found
  · intro id r hr hp hv
    rw [flows_modifyFlow] at hr
    split at hr
    · obtain ⟨r₀, -, rfl⟩ := Option.map_eq_some_iff.mp hr
      exact absurd rfl hp.1
    · rename_i hid
      rintro ⟨x, hx, ht, hf⟩
      simp only [Ledger.modifyFlow, Function.update_apply] at hx
      split at hx
      · cases hx
        exact hid hf.symm
      · exact h id r hr hp hv ⟨x, hx, ht, hf⟩

theorem startAttempt (h : l.Sound) (a : DispatchAttemptId) : (l.startAttempt a).Sound := by
  unfold Ledger.startAttempt
  split
  · exact h
  · rename_i x hx
    split
    · exact h
    · rename_i hopened
      have hupdate := h.updateAttempt hx .started fun _ => by rw [not_not.mp hopened]; decide
      dsimp only
      split
      · exact hupdate
      · split
        · exact hupdate
        · exact hupdate.setBusy fun r hp => hp.2 rfl

theorem closeAttempt (h : l.Sound) (a : DispatchAttemptId) (state : AttemptState) :
    (l.closeAttempt a state).Sound := by
  unfold Ledger.closeAttempt
  split
  · exact h
  · rename_i x hx
    split
    · exact h
    · rename_i hopen
      have hupdate := h.updateAttempt hx state fun _ => hopen
      dsimp only
      split
      · exact hupdate
      · split
        · exact hupdate
        · exact hupdate.setFree fun _ => rfl

theorem cancel (h : l.Sound) (flow : FlowId) (generation : Generation) :
    (l.cancel flow generation).Sound := by
  unfold Ledger.cancel
  split
  · exact h
  · rename_i r hr
    have hflow : l.flows flow = some r := (Option.filter_eq_some_iff.mp hr).1
    dsimp only
    split
    · -- An attempt the flow held has just been closed, and it gave it up.
      refine (h.closeAttempt _ _).modifyFlow fun r' hr' _ hv hholds => ?_
      rw [flows_closeAttempt, hflow] at hr'
      simp only [Option.map_some, Option.some.injEq, true_and] at hr'
      split at hr'
      · subst hr'
        cases hv
      · rename_i hfree
        subst hr'
        exact hfree ⟨rfl, holdsAttempt_of_closeAttempt hholds⟩
    · rename_i hinvalid
      refine h.modifyFlow fun r' hr' _ hv => ?_
      obtain rfl : r = r' := Option.some.inj (hflow.symm.trans hr')
      exact absurd hv hinvalid

theorem complete (h : l.Sound) (e : CompletionEvidence) (credited : UInt64)
    (lifecycle : FlowLifecycle) : (l.complete e credited lifecycle).Sound := by
  unfold Ledger.complete
  split
  · exact h
  · rename_i x hx
    have hupdate := h.updateAttempt hx .committed fun hn => absurd rfl hn
    dsimp only
    split
    · exact hupdate
    · refine setFree ?_ fun _ => rfl
      exact hupdate.congr rfl rfl

theorem advanceEpoch (next : FabricEpoch) : (l.advanceEpoch next).Sound := by
  rintro id r - - - ⟨x, hx, -⟩
  cases hx

theorem resolve (h : l.Sound) (flow : FlowId) (generation : Generation)
    (resolution : AmbiguityResolution) : (l.resolve flow generation resolution).Sound := by
  unfold Ledger.resolve
  split
  · exact h
  · rename_i r hr
    split
    · exact h
    · rename_i hp
      have hflow : l.flows flow = some r := (Option.filter_eq_some_iff.mp hr).1
      refine h.modifyFlow fun r' hr' _ hv => ?_
      obtain rfl : r = r' := Option.some.inj (hflow.symm.trans hr')
      refine h _ r hflow ?_ hv
      rw [not_not.mp hp]
      exact ⟨by decide, by decide⟩

/-- Every record keeps a ledger sound; the flow of an opened attempt is registered. -/
theorem apply (h : l.Sound) {r : Record}
    (found : ∀ ticket nominal tick, r = .attemptOpened ticket nominal tick →
      l.current ticket.flow ticket.flowGeneration ≠ none) : (l.apply r).Sound := by
  cases r with
  | policyInstalled => exact h.congr rfl rfl
  | resourceRegistered => exact h.congr rfl rfl
  | reservationRegistered => exact h.congr rfl rfl
  | reservationRetired => exact h.congr rfl rfl
  | priorityClassRegistered => exact h.congr rfl rfl
  | qosClassRegistered => exact h.congr rfl rfl
  | epochAdvanced => exact advanceEpoch _
  | flowAdmitted => exact h.admitFlow _
  | flowUpdated d => exact h.modifyFlow fun r hr hp hv => h _ r hr hp hv
  | flowReadinessChanged => exact h.notify _ _ _
  | flowCancelled => exact h.cancel _ _
  | flowRetired => exact h.retireFlow _ _
  | scheduleIssued => exact h.issue _
  | scheduleReleased => exact h
  | attemptOpened ticket nominal tick => exact h.openAttempt (found ticket nominal tick rfl)
  | attemptStarted => exact h.startAttempt _
  | attemptClosed => exact h.closeAttempt _ _
  | completionCommitted => exact h.complete _ _ _
  | ambiguityResolved => exact h.resolve _ _ _

end Sound

theorem attempts_runEntry (e : ScheduleEntry) : (l.runEntry e).attempts = l.attempts := by
  unfold runEntry
  split
  · rfl
  · split
    · rfl
    · split
      · rfl
      · dsimp only
        split <;> rfl

theorem attempts_issue (schedule : Schedule) : (l.issue schedule).attempts = l.attempts := by
  refine foldl_keeps (P := fun t : Ledger => t.attempts = l.attempts) (fun t e ht => ?_) _ rfl
  split
  · exact ht
  · rw [attempts_runEntry, ht]

theorem attempts_apply {r : Record} {id : DispatchAttemptId} {x : LedgerAttempt}
    (h : (l.apply r).attempts id = some x) :
    (∃ y, l.attempts id = some y ∧ x.ticket = y.ticket ∧
      (y.state.isTerminal → x.state.isTerminal)) ∨
    (x.ticket.attempt = id ∧ ∃ nominal tick, r = .attemptOpened x.ticket nominal tick) := by
  have kept : ∀ {l' : Ledger}, l'.attempts = l.attempts → l'.attempts id = some x →
      ∃ y, l.attempts id = some y ∧ x.ticket = y.ticket ∧
        (y.state.isTerminal → x.state.isTerminal) := by
    intro l' hsame h
    rw [hsame] at h
    exact ⟨x, h, rfl, fun hx => hx⟩
  have closed : ∀ {l₀ : Ledger} {attempt state}, l₀.attempts = l.attempts →
      (l₀.closeAttempt attempt state).attempts id = some x →
      ∃ y, l.attempts id = some y ∧ x.ticket = y.ticket ∧
        (y.state.isTerminal → x.state.isTerminal) := by
    intro l₀ attempt state hsame h
    obtain ⟨y, hy, hticket, hstate⟩ := attempts_closeAttempt h
    rw [hsame] at hy
    refine ⟨y, hy, hticket, fun hterminal => ?_⟩
    rcases hstate with rfl | ⟨-, hlive, -⟩
    · exact hterminal
    · exact absurd hterminal hlive
  cases r with
  | policyInstalled | resourceRegistered | reservationRegistered | priorityClassRegistered
  | qosClassRegistered | scheduleReleased | reservationRetired | flowAdmitted | flowUpdated =>
    exact .inl (kept rfl h)
  | epochAdvanced previous next =>
    exact absurd h (by simp [apply, advanceEpoch])
  | flowReadinessChanged flow generation signal =>
    refine .inl (kept ?_ h)
    simp only [apply, notify]
    split <;> rfl
  | flowCancelled flow generation =>
    simp only [apply, cancel] at h
    split at h
    · exact .inl (kept rfl h)
    · simp only [setPhase, modifyFlow] at h
      split at h
      · exact .inl (closed rfl h)
      · exact .inl (kept rfl h)
  | flowRetired flow generation =>
    refine .inl (kept ?_ h)
    simp only [apply, retireFlow]
    split <;> rfl
  | scheduleIssued schedule => exact .inl (kept (attempts_issue schedule) h)
  | attemptOpened ticket nominal tick =>
    have hattempts : (l.openAttempt ticket).attempts =
        Function.update l.attempts ticket.attempt (some { ticket }) := by
      unfold openAttempt
      dsimp only
      split <;> rfl
    rw [apply, hattempts, Function.update_apply] at h
    split at h
    · rename_i hid
      cases h
      exact .inr ⟨hid.symm, nominal, tick, rfl⟩
    · exact .inl (kept rfl h)
  | attemptStarted attempt tick =>
    simp only [apply, startAttempt] at h
    split at h
    · exact .inl (kept rfl h)
    · rename_i record hrecord
      split at h
      · exact .inl (kept rfl h)
      · rename_i hopened
        have hupdate : Function.update l.attempts attempt
            (some { record with state := .started }) id = some x := by
          split at h
          · exact h
          · split at h <;> exact h
        rw [Function.update_apply] at hupdate
        split at hupdate
        · rename_i hid
          subst hid
          cases hupdate
          refine .inl ⟨record, hrecord, rfl, fun hterminal => ?_⟩
          rw [not_not] at hopened
          rw [hopened] at hterminal
          cases hterminal
        · exact .inl (kept rfl hupdate)
  | attemptClosed attempt state => exact .inl (closed rfl h)
  | completionCommitted e credited lifecycle tick =>
    simp only [apply, complete] at h
    split at h
    · exact .inl (kept rfl h)
    · rename_i record hrecord
      have hupdate : Function.update l.attempts e.attempt
          (some { record with state := .committed }) id = some x := by
        split at h <;> exact h
      rw [Function.update_apply] at hupdate
      split at hupdate
      · rename_i hid
        subst hid
        cases hupdate
        exact .inl ⟨record, hrecord, rfl, fun _ => rfl⟩
      · exact .inl (kept rfl hupdate)
  | ambiguityResolved flow generation resolution =>
    refine .inl (kept ?_ h)
    simp only [apply, resolve]
    split
    · rfl
    · split <;> rfl

end Ledger

end FlowScheduler

import FlowScheduler.Ledger.Sound

/-! # Settled flows

A flow that is completed, cancelled or failed has come to its end: no record but
its retirement moves it or credits it, as long as it holds no open attempt. An
attempt is tied to the flow that holds it as long as its identity is not given
out twice.
-/

namespace FlowScheduler

open OrderedMap

def Phase.final : Phase → Bool
  | .completed | .cancelled | .failed => true
  | _ => false

namespace Ledger

variable {l : Ledger} {id : FlowId} {f : LedgerFlow}

theorem flows_closeAttempt_of_free (found : l.flows id = some f) (free : ¬ l.holdsAttempt id f)
    (a : DispatchAttemptId) (state : AttemptState) : (l.closeAttempt a state).flows id = some f := by
  unfold closeAttempt
  split
  · exact found
  · rename_i x hx
    split
    · exact found
    · rename_i hlive
      dsimp only
      split
      · exact found
      · rename_i r hr
        split
        · exact found
        · rename_i hholds
          rw [flows_modifyFlow]
          split
          · rename_i hid
            subst hid
            obtain rfl := Option.some.inj (hr.symm.trans found)
            rw [not_not] at hholds
            exact absurd ⟨x, by rw [hholds]; exact hx, hlive, rfl⟩ free
          · exact found

theorem flows_startAttempt_of_free (found : l.flows id = some f) (free : ¬ l.holdsAttempt id f)
    (a : DispatchAttemptId) : (l.startAttempt a).flows id = some f := by
  unfold startAttempt
  split
  · exact found
  · rename_i x hx
    split
    · exact found
    · rename_i hopened
      rw [not_not] at hopened
      dsimp only
      split
      · exact found
      · rename_i r hr
        split
        · exact found
        · rename_i hholds
          rw [setPhase, flows_modifyFlow]
          split
          · rename_i hid
            subst hid
            obtain rfl := Option.some.inj (hr.symm.trans found)
            rw [not_not] at hholds
            exact absurd ⟨x, by rw [hholds]; exact hx, by rw [hopened]; decide, rfl⟩ free
          · exact found

theorem flows_issue_of_final (found : l.flows id = some f) (final : f.phase.final)
    (schedule : Schedule) : (l.issue schedule).flows id = some f := by
  refine foldl_keeps (P := fun t : Ledger => t.flows id = some f) (fun t e ht => ?_) _ found
  split
  · exact ht
  · unfold runEntry
    split
    · exact ht
    · rename_i r hr
      split
      · exact ht
      · split
        · exact ht
        · rename_i hpending
          have hother : id ≠ e.flow := by
            rintro rfl
            obtain rfl := Option.some.inj (ht.symm.trans hr)
            revert final hpending
            cases f.phase <;> simp [Phase.final]
          have hset : (t.setPhase e.flow .pending).flows id = some f := by
            rw [setPhase, flows_modifyFlow, if_neg hother]
            exact ht
          dsimp only
          split <;> exact hset

def Spares (id : FlowId) : Record → Prop
  | .flowAdmitted d => d.flow ≠ id
  | .flowCancelled flow _ _ _ => flow ≠ id
  | .flowRetired flow _ => flow ≠ id
  | .attemptOpened ticket _ _ => ticket.flow ≠ id
  | .completionCommitted e _ _ _ => e.flow ≠ id
  | _ => True

/-- What has been decided about the flow has not changed. -/
structure SameEnd (f f' : LedgerFlow) : Prop where
  phase : f'.phase = f.phase
  servedWork : f'.servedWork = f.servedWork
  serviceCredit : f'.serviceCredit = f.serviceCredit

theorem SameEnd.refl (f : LedgerFlow) : SameEnd f f := ⟨rfl, rfl, rfl⟩

/-- A settled flow stays as it is under every record that is not about its life. -/
theorem settled_apply {r : Record} (found : l.flows id = some f) (final : f.phase.final)
    (free : ¬ l.holdsAttempt id f) (spares : Spares id r) :
    ∃ f', (l.apply r).flows id = some f' ∧ SameEnd f f' := by
  have unchanged : ∀ {l' : Ledger}, l'.flows id = some f →
      ∃ f', l'.flows id = some f' ∧ SameEnd f f' := fun h => ⟨f, h, .refl f⟩
  have described : ∀ (flow : FlowId) (g : LedgerFlow → LedgerFlow), (∀ x, SameEnd x (g x)) →
      ∃ f', (l.modifyFlow flow g).flows id = some f' ∧ SameEnd f f' := by
    intro flow g same
    rw [flows_modifyFlow, found]
    split
    · exact ⟨g f, rfl, same f⟩
    · exact ⟨f, rfl, .refl f⟩
  cases r with
  | policyInstalled | resourceRegistered | reservationRegistered | reservationRetired
  | priorityClassRegistered | qosClassRegistered | scheduleReleased => exact unchanged found
  | flowAdmitted d =>
    refine unchanged ?_
    simp only [apply, admitFlow, Function.update_apply]
    rw [if_neg (Ne.symm spares)]
    exact found
  | flowUpdated d => exact described _ _ fun x => ⟨rfl, rfl, rfl⟩
  | flowReadinessChanged flow generation signal =>
    simp only [apply, notify]
    split
    · exact unchanged found
    · exact described _ _ fun x => ⟨rfl, rfl, rfl⟩
  | flowCancelled flow generation =>
    refine unchanged ?_
    simp only [apply, cancel]
    split
    · exact found
    · rw [setPhase, flows_modifyFlow, if_neg (Ne.symm spares)]
      split
      · exact flows_closeAttempt_of_free found free _ _
      · exact found
  | flowRetired flow generation =>
    refine unchanged ?_
    simp only [apply, retireFlow]
    split
    · exact found
    · simp only [Function.update_apply]
      rw [if_neg (Ne.symm spares)]
      exact found
  | scheduleIssued schedule => exact unchanged (flows_issue_of_final found final schedule)
  | attemptOpened ticket =>
    refine unchanged ?_
    simp only [apply, openAttempt]
    split
    · exact found
    · rw [flows_modifyFlow, if_neg (Ne.symm spares)]
      exact found
  | attemptStarted attempt => exact unchanged (flows_startAttempt_of_free found free attempt)
  | attemptClosed attempt state =>
    exact unchanged (flows_closeAttempt_of_free found free attempt state)
  | completionCommitted e =>
    refine unchanged ?_
    simp only [apply, complete]
    split
    · exact found
    · split
      · exact found
      · rw [flows_modifyFlow, if_neg (Ne.symm spares)]
        exact found
  | ambiguityResolved flow generation resolution =>
    refine unchanged ?_
    simp only [apply, resolve]
    split
    · exact found
    · rename_i r hr
      split
      · exact found
      · rename_i hambiguous
        rw [setPhase, flows_modifyFlow, if_neg]
        · exact found
        · rintro rfl
          obtain ⟨hflow, -⟩ := Option.filter_eq_some_iff.mp hr
          obtain rfl := Option.some.inj (found.symm.trans hflow)
          rw [not_not] at hambiguous
          rw [hambiguous] at final
          cases final
  | epochAdvanced previous next =>
    refine unchanged ?_
    simp only [apply, advanceEpoch, found, Option.map_some, if_neg free]

/-- No flow holds an attempt it did not hold before. -/
def HoldsLess (l l' : Ledger) : Prop :=
  ∀ id f', l'.flows id = some f' → f'.openAttempt.valid →
    ∃ f, l.flows id = some f ∧ f.openAttempt = f'.openAttempt

namespace HoldsLess

theorem of_eq {l l' : Ledger} (h : l'.flows = l.flows) : HoldsLess l l' :=
  fun _ f' hf' _ => ⟨f', h ▸ hf', rfl⟩

theorem trans {l₁ l₂ l₃ : Ledger} (h : HoldsLess l₁ l₂) (h' : HoldsLess l₂ l₃) :
    HoldsLess l₁ l₃ := by
  intro id f₃ hf₃ hvalid
  obtain ⟨f₂, hf₂, hsame⟩ := h' id f₃ hf₃ hvalid
  obtain ⟨f₁, hf₁, hsame'⟩ := h id f₂ hf₂ (hsame ▸ hvalid)
  exact ⟨f₁, hf₁, hsame'.trans hsame⟩

theorem modifyFlow {flow : FlowId} {g : LedgerFlow → LedgerFlow}
    (keep : ∀ x, (g x).openAttempt = x.openAttempt ∨ (g x).openAttempt = {}) :
    HoldsLess l (l.modifyFlow flow g) := by
  intro id f' hf' hvalid
  rw [flows_modifyFlow] at hf'
  split at hf'
  · obtain ⟨f, hf, rfl⟩ := Option.map_eq_some_iff.mp hf'
    rcases keep f with hsame | hfree
    · exact ⟨f, hf, hsame.symm⟩
    · rw [hfree] at hvalid
      cases hvalid
  · exact ⟨f', hf', rfl⟩

theorem closeAttempt (a : DispatchAttemptId) (state : AttemptState) :
    HoldsLess l (l.closeAttempt a state) := by
  unfold Ledger.closeAttempt
  split
  · exact .of_eq rfl
  · split
    · exact .of_eq rfl
    · dsimp only
      split
      · exact .of_eq rfl
      · split
        · exact .of_eq rfl
        · exact modifyFlow fun _ => .inr rfl

theorem runEntry (e : ScheduleEntry) : HoldsLess l (l.runEntry e) := by
  unfold Ledger.runEntry
  split
  · exact .of_eq rfl
  · split
    · exact .of_eq rfl
    · split
      · exact .of_eq rfl
      · have hset : HoldsLess l (l.setPhase e.flow .pending) := modifyFlow fun _ => .inl rfl
        dsimp only
        split <;> exact hset

theorem issue (schedule : Schedule) : HoldsLess l (l.issue schedule) := by
  refine foldl_keeps (P := HoldsLess l) (fun t e ht => ?_) _ (.of_eq rfl)
  split
  · exact ht
  · exact ht.trans (runEntry e)

theorem apply {r : Record} (other : ∀ ticket nominal tick, r ≠ .attemptOpened ticket nominal tick) :
    HoldsLess l (l.apply r) := by
  cases r with
  | policyInstalled | resourceRegistered | reservationRegistered | reservationRetired
  | priorityClassRegistered | qosClassRegistered | scheduleReleased => exact .of_eq rfl
  | flowAdmitted d =>
    intro id f' hf' hvalid
    simp only [Ledger.apply, admitFlow, Function.update_apply] at hf'
    split at hf'
    · cases hf'
      cases hvalid
    · exact ⟨f', hf', rfl⟩
  | flowUpdated d => exact modifyFlow fun _ => .inl rfl
  | flowReadinessChanged flow generation signal =>
    simp only [Ledger.apply, notify]
    split
    · exact .of_eq rfl
    · exact modifyFlow fun _ => .inl rfl
  | flowCancelled flow generation =>
    simp only [Ledger.apply, cancel]
    split
    · exact .of_eq rfl
    · refine trans ?_ (modifyFlow fun _ => .inl rfl)
      split
      · exact closeAttempt _ _
      · exact .of_eq rfl
  | flowRetired flow generation =>
    simp only [Ledger.apply, retireFlow]
    split
    · exact .of_eq rfl
    · intro id f' hf' _
      simp only [Function.update_apply] at hf'
      split at hf'
      · cases hf'
      · exact ⟨f', hf', rfl⟩
  | scheduleIssued schedule => exact issue schedule
  | attemptOpened ticket nominal tick => exact absurd rfl (other ticket nominal tick)
  | attemptStarted attempt =>
    simp only [Ledger.apply, startAttempt]
    split
    · exact .of_eq rfl
    · split
      · exact .of_eq rfl
      · split
        · exact .of_eq rfl
        · split
          · exact .of_eq rfl
          · exact modifyFlow fun _ => .inl rfl
  | attemptClosed attempt state => exact closeAttempt attempt state
  | completionCommitted e =>
    simp only [Ledger.apply, complete]
    split
    · exact .of_eq rfl
    · split
      · exact .of_eq rfl
      · exact modifyFlow fun _ => .inr rfl
  | ambiguityResolved flow generation resolution =>
    simp only [Ledger.apply, resolve]
    split
    · exact .of_eq rfl
    · split
      · exact .of_eq rfl
      · exact modifyFlow fun _ => .inl rfl
  | epochAdvanced previous next =>
    intro id f' hf' hvalid
    simp only [Ledger.apply, advanceEpoch] at hf'
    obtain ⟨f, hf, rfl⟩ := Option.map_eq_some_iff.mp hf'
    split at hvalid
    · cases hvalid
    · rename_i hfree
      exact ⟨f, hf, by rw [if_neg hfree]⟩

end HoldsLess

/-- Attempts have real identities, and the one a flow holds is its own. -/
structure Tied (l : Ledger) : Prop where
  valid : ∀ a x, l.attempts a = some x → a.valid
  own : ∀ id f x, l.flows id = some f → f.openAttempt.valid → l.attempts f.openAttempt = some x →
    x.ticket.flow = id

namespace Tied

variable {l' : Ledger}

theorem holdsLess (h : l.Tied) (less : HoldsLess l l')
    (attempts : ∀ a x', l'.attempts a = some x' → ∃ x, l.attempts a = some x ∧ x'.ticket = x.ticket) :
    l'.Tied where
  valid a x' hx' := by
    obtain ⟨x, hx, -⟩ := attempts a x' hx'
    exact h.valid a x hx
  own id f' x' hf' hvalid hx' := by
    obtain ⟨f, hf, hsame⟩ := less id f' hf' hvalid
    obtain ⟨x, hx, hticket⟩ := attempts _ x' hx'
    rw [hticket]
    exact h.own id f x hf (hsame ▸ hvalid) (hsame ▸ hx)

theorem openAttempt {ticket : DispatchTicket} (h : l.Tied) (valid : ticket.attempt.valid)
    (fresh : ∀ id f, l.flows id = some f → f.openAttempt ≠ ticket.attempt) :
    (l.openAttempt ticket).Tied := by
  have hattempts : (l.openAttempt ticket).attempts =
      Function.update l.attempts ticket.attempt (some { ticket }) := by
    unfold Ledger.openAttempt
    dsimp only
    split <;> rfl
  have hflows : ∀ id f', (l.openAttempt ticket).flows id = some f' →
      l.flows id = some f' ∨ (id = ticket.flow ∧ f'.openAttempt = ticket.attempt) := by
    intro id f' hf'
    unfold Ledger.openAttempt at hf'
    dsimp only at hf'
    split at hf'
    · exact .inl hf'
    · rw [flows_modifyFlow] at hf'
      split at hf'
      · rename_i hid
        obtain ⟨f, -, rfl⟩ := Option.map_eq_some_iff.mp hf'
        exact .inr ⟨hid, rfl⟩
      · exact .inl hf'
  refine ⟨fun a x hx => ?_, fun id f' x hf' hvalid hx => ?_⟩
  · rw [hattempts, Function.update_apply] at hx
    split at hx
    · rename_i ha
      rw [ha]
      exact valid
    · exact h.valid a x hx
  · rw [hattempts, Function.update_apply] at hx
    rcases hflows id f' hf' with hf | ⟨rfl, hnew⟩
    · rw [if_neg (fresh id f' hf)] at hx
      exact h.own id f' x hf hvalid hx
    · rw [if_pos hnew] at hx
      cases hx
      rfl

theorem apply {r : Record} (h : l.Tied)
    (other : ∀ ticket nominal tick, r ≠ .attemptOpened ticket nominal tick) : (l.apply r).Tied := by
  refine h.holdsLess (.apply other) fun a x' hx' => ?_
  rcases attempts_apply hx' with ⟨x, hx, hticket, -⟩ | ⟨-, nominal, tick, rfl⟩
  · exact ⟨x, hx, hticket⟩
  · exact absurd rfl (other _ _ _)

theorem free (h : l.Tied) (sound : l.Sound) (found : l.flows id = some f) (idle : f.phase.idle) :
    ¬ l.holdsAttempt id f := by
  rintro ⟨x, hx, hlive, hflow⟩
  exact sound id f found idle (h.valid _ x hx) ⟨x, hx, hlive, hflow⟩

end Tied

end Ledger

end FlowScheduler

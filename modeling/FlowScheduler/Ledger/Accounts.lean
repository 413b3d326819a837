import FlowScheduler.Ledger.Basic
import FlowScheduler.Library.OrderedMap

/-! # The reservation accounts of the ledger

Registering, retiring and issuing are the only records that touch an account.
Issuing draws the granted windows from it, whatever is registered for it.
-/

namespace FlowScheduler

/-- The record registers, retires or draws on reservations. -/
def Record.touchesReservations : Record → Bool
  | .reservationRegistered _ | .reservationRetired _ _ | .scheduleIssued _ => true
  | _ => false

/-- The entry is charged to the reservation while it has this generation. -/
def ScheduleEntry.draws (e : ScheduleEntry) (id : ReservationId) (generation : Generation) : Bool :=
  e.kind = .run && e.reservation = id && id.valid && e.reservationGeneration = generation

namespace Ledger

variable {l : Ledger}

theorem reservations_closeAttempt (attempt : DispatchAttemptId) (state : AttemptState) :
    (l.closeAttempt attempt state).reservations = l.reservations := by
  unfold closeAttempt
  split
  · rfl
  · split
    · rfl
    · dsimp only
      split
      · rfl
      · split <;> rfl

theorem reservations_apply {r : Record} (other : r.touchesReservations = false) :
    (l.apply r).reservations = l.reservations := by
  cases r with
  | policyInstalled | resourceRegistered | priorityClassRegistered | qosClassRegistered
  | flowAdmitted | flowUpdated | scheduleReleased | epochAdvanced => rfl
  | reservationRegistered | reservationRetired | scheduleIssued => cases other
  | flowReadinessChanged =>
    simp only [apply, notify]
    split <;> rfl
  | flowCancelled =>
    simp only [apply, cancel]
    split
    · rfl
    · dsimp only [setPhase, modifyFlow]
      split
      · exact reservations_closeAttempt _ _
      · rfl
  | flowRetired =>
    simp only [apply, retireFlow]
    split <;> rfl
  | attemptOpened =>
    simp only [apply, openAttempt]
    split <;> rfl
  | attemptStarted =>
    simp only [apply, startAttempt]
    split
    · rfl
    · split
      · rfl
      · split
        · rfl
        · split <;> rfl
  | attemptClosed attempt state => exact reservations_closeAttempt attempt state
  | completionCommitted =>
    simp only [apply, complete]
    split
    · rfl
    · split <;> rfl
  | ambiguityResolved =>
    simp only [apply, resolve]
    split
    · rfl
    · split
      · rfl
      · split <;> rfl

/-- The entry will be accepted: its flow is there at its generation and pending. -/
def Awaits (l : Ledger) (e : ScheduleEntry) : Prop :=
  ∃ r, l.flows e.flow = some r ∧ r.descriptor.generation = e.flowGeneration ∧ r.phase = .pending

/-- An accepted window is drawn from its reservation and leaves the other flows waiting. -/
theorem runEntry_of_awaits {e : ScheduleEntry} (h : l.Awaits e) : l.runEntry e =
    if e.reservation.valid then
      (l.setPhase e.flow .pending).charge e.reservation e.reservationGeneration e.quantum
    else l.setPhase e.flow .pending := by
  obtain ⟨r, hr, hgeneration, hphase⟩ := h
  unfold runEntry
  simp only [hr, hgeneration, hphase, ne_eq, not_true_eq_false, if_false, false_and]

theorem Awaits.setPhase {e : ScheduleEntry} {id : FlowId} (h : l.Awaits e) :
    (l.setPhase id .pending).Awaits e := by
  obtain ⟨r, hr, hgeneration, hphase⟩ := h
  unfold Awaits Ledger.setPhase modifyFlow
  by_cases hid : e.flow = id
  · subst hid
    exact ⟨{ r with phase := .pending }, by simp [hr], hgeneration, rfl⟩
  · exact ⟨r, by simp [Function.update_of_ne hid, hr], hgeneration, hphase⟩

theorem Awaits.runEntry {e e' : ScheduleEntry} (h : l.Awaits e) (h' : l.Awaits e') :
    (l.runEntry e').Awaits e := by
  have hpending : (l.setPhase e'.flow .pending).Awaits e := h.setPhase
  rw [runEntry_of_awaits h']
  split
  · exact hpending
  · exact hpending

/-- What is registered stays and the windows are added, up to the end of the counter. -/
structure Draws (before after : ReservationRuntime) (amount : ℕ) : Prop where
  descriptor : after.descriptor = before.descriptor
  retired : after.retired = before.retired
  units : after.reservedUnits.toNat = min (before.reservedUnits.toNat + amount) (2 ^ 64 - 1)

theorem Draws.trans {a b c : ReservationRuntime} {m n : ℕ} (h : Draws a b m) (h' : Draws b c n) :
    Draws a c (m + n) where
  descriptor := h'.descriptor.trans h.descriptor
  retired := h'.retired.trans h.retired
  units := by
    have h₁ := h.units
    have h₂ := h'.units
    omega

theorem Draws.refl (a : ReservationRuntime) : Draws a a 0 where
  descriptor := rfl
  retired := rfl
  units := by
    have := a.reservedUnits.toNat_lt
    omega

theorem draws_runEntry {e : ScheduleEntry} {id : ReservationId} {account : ReservationRuntime}
    (run : e.kind = .run) (h : l.Awaits e) (found : l.reservations id = some account) :
    ∃ account', (l.runEntry e).reservations id = some account' ∧
      Draws account account' (serviceOf (·.draws id account.descriptor.generation) [e]) := by
  rw [runEntry_of_awaits h]
  by_cases hdraws : e.draws id account.descriptor.generation
  · have hservice : serviceOf (·.draws id account.descriptor.generation) [e] = e.quantum.toNat := by
      simp [serviceOf, hdraws]
    simp only [ScheduleEntry.draws, Bool.and_eq_true, decide_eq_true_eq] at hdraws
    obtain ⟨⟨⟨-, rfl⟩, hvalid⟩, hgeneration⟩ := hdraws
    rw [if_pos hvalid, hservice]
    refine ⟨{ account with reservedUnits := saturatingAdd account.reservedUnits e.quantum }, ?_,
      rfl, rfl, ?_⟩
    · simp only [charge, modifyReservation, Function.update_self, setPhase, modifyFlow, found,
        Option.map_some, hgeneration, if_true]
    · rw [toNat_saturatingAdd]
  · have hservice : serviceOf (·.draws id account.descriptor.generation) [e] = 0 := by
      simp [serviceOf, hdraws]
    rw [hservice]
    refine ⟨account, ?_, .refl account⟩
    split
    · rename_i hvalid
      simp only [charge, modifyReservation, setPhase, modifyFlow, Function.update_apply]
      split
      · rename_i hid
        subst hid
        have hgeneration : account.descriptor.generation ≠ e.reservationGeneration := by
          intro heq
          simp [ScheduleEntry.draws, run, hvalid, heq] at hdraws
        simp [found, hgeneration]
      · exact found
    · exact found

theorem reservations_runEntry_none {e : ScheduleEntry} {id : ReservationId}
    (h : l.Awaits e) (found : l.reservations id = none) : (l.runEntry e).reservations id = none := by
  rw [runEntry_of_awaits h]
  split
  · simp only [charge, modifyReservation, setPhase, modifyFlow, Function.update_apply]
    split
    · rename_i hid
      subst hid
      simp [found]
    · exact found
  · exact found

/-- Every window of an issued schedule is drawn from the reservation it names. -/
theorem draws_entries {id : ReservationId} {account : ReservationRuntime}
    (entries : List ScheduleEntry) (awaits : ∀ e ∈ entries, e.kind = .run → l.Awaits e)
    (found : l.reservations id = some account) :
    ∃ account', (entries.foldl (fun l e => if e.kind ≠ .run then l else l.runEntry e)
        l).reservations id = some account' ∧
      Draws account account' (serviceOf (·.draws id account.descriptor.generation) entries) := by
  induction entries generalizing l account with
  | nil => exact ⟨account, found, .refl account⟩
  | cons e entries ih =>
    rw [List.foldl_cons, show e :: entries = [e] ++ entries from rfl, serviceOf_append]
    by_cases hrun : e.kind = .run
    · rw [if_neg (not_not.mpr hrun)]
      have hawaits := awaits e List.mem_cons_self hrun
      obtain ⟨account₁, hfound₁, hdraws₁⟩ := draws_runEntry hrun hawaits found
      have hrest : ∀ e' ∈ entries, e'.kind = .run → (l.runEntry e).Awaits e' :=
        fun e' he' hk => (awaits e' (List.mem_cons_of_mem _ he') hk).runEntry hawaits
      obtain ⟨account₂, hfound₂, hdraws₂⟩ := ih hrest hfound₁
      rw [hdraws₁.descriptor] at hdraws₂
      exact ⟨account₂, hfound₂, hdraws₁.trans hdraws₂⟩
    · have hzero : serviceOf (·.draws id account.descriptor.generation) [e] = 0 := by
        simp [serviceOf, ScheduleEntry.draws, hrun]
      rw [if_pos hrun, hzero, Nat.zero_add]
      exact ih (fun e' he' => awaits e' (List.mem_cons_of_mem _ he')) found

theorem reservations_entries_none {id : ReservationId} (entries : List ScheduleEntry)
    (awaits : ∀ e ∈ entries, e.kind = .run → l.Awaits e) (found : l.reservations id = none) :
    (entries.foldl (fun l e => if e.kind ≠ .run then l else l.runEntry e) l).reservations id =
      none := by
  induction entries generalizing l with
  | nil => exact found
  | cons e entries ih =>
    rw [List.foldl_cons]
    by_cases hrun : e.kind = .run
    · rw [if_neg (not_not.mpr hrun)]
      have hawaits := awaits e List.mem_cons_self hrun
      refine ih (fun e' he' hk => ?_) (reservations_runEntry_none hawaits found)
      exact (awaits e' (List.mem_cons_of_mem _ he') hk).runEntry hawaits
    · rw [if_pos hrun]
      exact ih (fun e' he' => awaits e' (List.mem_cons_of_mem _ he')) found

end Ledger

end FlowScheduler

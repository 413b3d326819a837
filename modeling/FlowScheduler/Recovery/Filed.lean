import FlowScheduler.Recovery.Image
import FlowScheduler.Recovery.Validity
import FlowScheduler.Steps.Windows

/-! # Filed tables

Every table stays keyed by the identities of what it holds, in live operation and
in replay, so every checkpoint can be read back as the state it was taken from.
-/

namespace FlowScheduler

open ByteCodec (Bytes)
open Failing SchedOp OrderedMap

namespace Ledger

/-- Every definition and every attempt is found under its own identity. -/
structure Filed (l : Ledger) : Prop where
  resources : ∀ id d, l.registry.resources id = some d → d.resource = id
  reservations : ∀ id d, l.registry.reservations id = some d → d.reservation = id
  priorityClasses : ∀ id d, l.registry.priorityClasses id = some d → d.priority = id
  qosClasses : ∀ id d, l.registry.qosClasses id = some d → d.qos = id
  flows : ∀ id d, l.roster id = some d → d.flow = id
  attempts : ∀ id x, l.attempts id = some x → x.ticket.attempt = id

variable {l l' : Ledger}

namespace Filed

theorem congr (h : l.Filed) (registry : l'.registry = l.registry) (roster : l'.roster = l.roster)
    (attempts : ∀ id x, l'.attempts id = some x → l.attempts id = some x) : l'.Filed := by
  obtain ⟨resources, reservations, priorityClasses, qosClasses, flows, held⟩ := h
  rw [← registry] at resources reservations priorityClasses qosClasses
  rw [← roster] at flows
  exact ⟨resources, reservations, priorityClasses, qosClasses, flows,
    fun id x hx => held id x (attempts id x hx)⟩

theorem register {κ α : Type} [DecidableEq κ] {table : κ → Option α} {key : α → κ} {d : α}
    (h : ∀ id d, table id = some d → key d = id) (id : κ) (d' : α)
    (found : Function.update table (key d) (some d) id = some d') : key d' = id := by
  rw [Function.update_apply] at found
  split at found
  · rename_i hid
    cases found
    exact hid.symm
  · exact h id d' found

theorem apply (h : l.Filed) (r : Record) : (l.apply r).Filed := by
  have hflows : ∀ id d, (l.apply r).roster id = some d → d.flow = id := by
    intro id d' hd'
    rcases Ledger.roster_apply hd' with ⟨d, hd, rfl | ⟨signal, rfl⟩⟩ | ⟨hid, -⟩
    · exact h.flows id d' hd
    · exact h.flows id d hd
    · exact hid
  have hattempts : ∀ id x, (l.apply r).attempts id = some x → x.ticket.attempt = id := by
    intro id x hx
    rcases attempts_apply hx with ⟨y, hy, hticket, -⟩ | ⟨hid, -⟩
    · rw [hticket]
      exact h.attempts id y hy
    · exact hid
  have hregistry := l.registry_apply r
  have hresources := h.resources
  have hreservations := h.reservations
  have hpriorities := h.priorityClasses
  have hqos := h.qosClasses
  refine ⟨?_, ?_, ?_, ?_, hflows, hattempts⟩
  all_goals
    rw [hregistry]
    cases r <;> first | assumption | exact register ‹_›

end Filed

end Ledger

namespace Impl

/-- Every retained schedule is found under its own identity. -/
def SchedulesFiled (s : Impl) : Prop :=
  ∀ (id : ScheduleId) r, s.schedules[id]? = some r → r.schedule.schedule = id

variable {s s' : Impl}

theorem filed_iff : s.Filed ↔ s.ledger.Filed ∧ s.SchedulesFiled := by
  constructor
  · intro h
    refine ⟨⟨?_, ?_, h.priorityClasses, h.qosClasses, ?_, ?_⟩, h.schedules⟩
    · intro id d hd
      obtain ⟨r, hr, rfl⟩ := Option.map_eq_some_iff.mp hd
      exact h.resources id r hr
    · intro id d hd
      obtain ⟨r, hr, rfl⟩ := Option.map_eq_some_iff.mp hd
      exact h.reservations id r hr
    · intro id d hd
      obtain ⟨x, hx, rfl⟩ := Option.map_eq_some_iff.mp hd
      obtain ⟨r, hr, rfl⟩ := Option.map_eq_some_iff.mp hx
      exact h.flows id r hr
    · intro id x hx
      obtain ⟨r, hr, rfl⟩ := Option.map_eq_some_iff.mp hx
      exact h.attempts id r hr
  · rintro ⟨h, hschedules⟩
    refine ⟨?_, ?_, h.priorityClasses, h.qosClasses, ?_, ?_, hschedules⟩
    · exact fun id r hr => h.resources id r.descriptor (Option.map_eq_some_iff.mpr ⟨r, hr, rfl⟩)
    · exact fun id r hr => h.reservations id r.descriptor (Option.map_eq_some_iff.mpr ⟨r, hr, rfl⟩)
    · intro id r hr
      refine h.flows id r.descriptor (Option.map_eq_some_iff.mpr ⟨r.ledger, ?_, rfl⟩)
      exact Option.map_eq_some_iff.mpr ⟨r, hr, rfl⟩
    · exact fun id r hr => h.attempts id r.ledger (Option.map_eq_some_iff.mpr ⟨r, hr, rfl⟩)

namespace SchedulesFiled

theorem congr (h : s.SchedulesFiled) (schedules : s'.schedules = s.schedules) :
    s'.SchedulesFiled := by
  unfold SchedulesFiled
  rw [schedules]
  exact h

theorem narrows (h : s.SchedulesFiled) (narrow : Narrows s s') : s'.SchedulesFiled := by
  intro id t' ht'
  obtain ⟨t, ht, drained⟩ := narrow.schedule id t' ht'
  rw [drained.schedule]
  exact h id t ht

theorem applySchedule (h : s.SchedulesFiled) (schedule : Schedule) :
    (s.applySchedule schedule).SchedulesFiled := by
  intro id t' ht'
  rcases schedules_applySchedule ht' with ⟨rfl, hsame, -⟩ | ⟨-, ht⟩
  · rw [hsame]
  · exact h id t' ht

theorem empty (h : s.schedules = ∅) : s.SchedulesFiled := by
  intro id r hr
  simp [h] at hr

theorem move {c : Call} {r : Option Record} (h : s.SchedulesFiled) (move : Move c s r s') :
    s'.SchedulesFiled := by
  rcases move with move | ⟨now, -, move⟩
  · rcases Narrows.callMove move with narrow | hempty
    · exact h.narrows narrow
    · exact empty hempty
  · rcases Narrows.roundMove move with narrow | ⟨entries, -, rfl⟩
    · exact h.narrows narrow
    · refine congr ?_ schedules_advanceSchedule
      exact applySchedule (s := { s with provenanceSequence := s.provenanceSequence + 1 }) h _

theorem replay {r : Record} (h : s.SchedulesFiled) (hr : r.replay s = .ok s') :
    s'.SchedulesFiled := by
  cases r with
  | policyInstalled | resourceRegistered | reservationRegistered | priorityClassRegistered
  | qosClassRegistered =>
    obtain ⟨_, -, hr⟩ := bind_eq_ok.mp hr
    cases hr
    exact h
  | flowAdmitted d =>
    obtain ⟨_, -, hr⟩ := bind_eq_ok.mp hr
    exact h.narrows (.applyAdmit hr)
  | flowUpdated d =>
    obtain ⟨_, -, hr⟩ := bind_eq_ok.mp hr
    refine h.congr ?_
    unfold applyUpdate at hr
    split at hr
    · cases hr
    · split at hr <;> cases hr
      rfl
  | reservationRetired =>
    cases hr
    refine h.congr ?_
    unfold applyRetireReservation
    split
    · rfl
    · split <;> rfl
  | epochAdvanced => cases hr; exact empty rfl
  | flowReadinessChanged => cases hr; exact h.narrows .applyReadiness
  | flowCancelled => cases hr; exact h.narrows (Narrows.applyCancel.trans .normalizeTransientStates)
  | flowRetired => cases hr; exact h.narrows .applyRetireFlow
  | scheduleIssued schedule => cases hr; exact h.applySchedule schedule
  | scheduleReleased => cases hr; exact h.narrows .applyReleaseSchedule
  | attemptOpened => cases hr; exact h.narrows .applyAttemptOpened
  | attemptStarted => cases hr; exact h.narrows .applyAttemptStarted
  | attemptClosed =>
    cases hr
    exact h.narrows (Narrows.applyAttemptClosed.trans .normalizeTransientStates)
  | completionCommitted e credited lifecycle tick =>
    cases hr
    -- a recorded lifecycle may be any, so the windows are left out of it here
    unfold applyCompletion
    split
    · exact h
    · dsimp only
      split
      · exact h.narrows .endAttempt
      · exact (h.narrows .endAttempt).congr rfl
  | ambiguityResolved => cases hr; exact h.narrows .applyAmbiguityResolved

end SchedulesFiled

namespace Filed

theorem move {c : Call} {r : Option Record} (h : s.Filed) (move : Move c s r s') : s'.Filed := by
  obtain ⟨hledger, hschedules⟩ := filed_iff.mp h
  refine filed_iff.mpr ⟨?_, hschedules.move move⟩
  rcases move with move | ⟨now, -, move⟩
  · cases r with
    | none =>
      rw [move.quiet]
      exact hledger
    | some record =>
      rcases move.ledger with hl | ⟨-, rfl⟩
      · rw [hl]
        exact hledger.apply record
      · exact hledger
  · cases r with
    | none =>
      exact hledger.congr move.quiet.registry move.quiet.roster fun _ _ hx => move.quiet.attempts hx
    | some record =>
      rw [move.ledger]
      exact hledger.apply record

theorem ledger_applySchedule (h : s.ledger.Filed) (schedule : Schedule) :
    (s.applySchedule schedule).ledger.Filed := by
  obtain ⟨hregistry, hroster⟩ := registered_applySchedule (s := s) schedule
  refine h.congr hregistry hroster fun id x hx => ?_
  rw [show (s.applySchedule schedule).ledger.attempts = s.ledger.attempts from ?_] at hx
  · exact hx
  · funext a
    exact congrArg (fun t : Table DispatchAttemptId AttemptRuntime => t[a]?.map AttemptRuntime.ledger)
      (attempts_applySchedule schedule)

theorem replay {r : Record} (h : s.Filed) (hr : r.replay s = .ok s') : s'.Filed := by
  obtain ⟨hledger, hschedules⟩ := filed_iff.mp h
  refine filed_iff.mpr ⟨?_, hschedules.replay hr⟩
  rcases ledger_replay hr with hl | ⟨schedule, rfl⟩
  · rw [hl]
    exact hledger.apply r
  · cases hr
    exact ledger_applySchedule hledger schedule

end Filed

end Impl

end FlowScheduler

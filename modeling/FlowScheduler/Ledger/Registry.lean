import FlowScheduler.Ledger.Basic
import FlowScheduler.Library.OrderedMap

/-! # The registries of the ledger

The policy in force, the epoch and the registered definitions. Only the records
that register something change them.
-/

namespace FlowScheduler

/-- What is registered, whatever has been charged to it. -/
@[ext] structure Registry where
  policy : SchedulingPolicy
  epoch : FabricEpoch
  resources : ResourceId → Option ResourceDescriptor
  reservations : ReservationId → Option ReservationDescriptor
  priorityClasses : PriorityClassId → Option PriorityClassDescriptor
  qosClasses : QoSClassId → Option QoSClassDescriptor

def Registry.apply (x : Registry) : Record → Registry
  | .policyInstalled policy => { x with policy }
  | .resourceRegistered d => { x with resources := Function.update x.resources d.resource (some d) }
  | .reservationRegistered d =>
    { x with reservations := Function.update x.reservations d.reservation (some d) }
  | .priorityClassRegistered d =>
    { x with priorityClasses := Function.update x.priorityClasses d.priority (some d) }
  | .qosClassRegistered d => { x with qosClasses := Function.update x.qosClasses d.qos (some d) }
  | .epochAdvanced _ next _ _ => { x with epoch := next }
  | _ => x

namespace Ledger

variable {l : Ledger}

def registry (l : Ledger) : Registry where
  policy := l.policy
  epoch := l.epoch
  resources := l.resources
  reservations := fun id => (l.reservations id).map (·.descriptor)
  priorityClasses := l.priorityClasses
  qosClasses := l.qosClasses

@[simp] theorem registry_modifyFlow (id : FlowId) (f : LedgerFlow → LedgerFlow) :
    (l.modifyFlow id f).registry = l.registry := rfl

theorem registry_modifyReservation {id : ReservationId} {f : ReservationRuntime → ReservationRuntime}
    (h : ∀ r, (f r).descriptor = r.descriptor) :
    (l.modifyReservation id f).registry = l.registry := by
  refine Registry.ext rfl rfl rfl ?_ rfl rfl
  funext a
  simp only [registry, modifyReservation, Function.update_apply]
  split
  · rename_i ha
    subst ha
    cases l.reservations a <;> simp [h]
  · rfl

theorem registry_registerReservation (d : ReservationDescriptor) :
    (l.registerReservation d).registry = l.registry.apply (.reservationRegistered d) := by
  refine Registry.ext rfl rfl rfl ?_ rfl rfl
  funext a
  simp only [registry, registerReservation, Registry.apply, Function.update_apply]
  split <;> rfl

theorem registry_runEntry (e : ScheduleEntry) : (l.runEntry e).registry = l.registry := by
  unfold runEntry
  split
  · rfl
  · split
    · rfl
    · split
      · rfl
      · dsimp only
        split
        · refine (registry_modifyReservation fun r => ?_).trans rfl
          split <;> rfl
        · rfl

theorem registry_issue (schedule : Schedule) : (l.issue schedule).registry = l.registry := by
  refine OrderedMap.foldl_frame (fun l e => ?_) _ l
  split
  · rfl
  · exact registry_runEntry e

theorem registry_closeAttempt (attempt : DispatchAttemptId) (state : AttemptState) :
    (l.closeAttempt attempt state).registry = l.registry := by
  unfold closeAttempt
  split
  · rfl
  · split
    · rfl
    · dsimp only
      split
      · rfl
      · split <;> rfl

theorem registry_apply (r : Record) : (l.apply r).registry = l.registry.apply r := by
  cases r with
  | policyInstalled | resourceRegistered | priorityClassRegistered | qosClassRegistered
  | flowAdmitted | flowUpdated | scheduleReleased | epochAdvanced => rfl
  | reservationRegistered d => exact registry_registerReservation d
  | reservationRetired id generation =>
    refine registry_modifyReservation fun r => ?_
    split <;> rfl
  | flowReadinessChanged flow generation signal =>
    simp only [apply, notify, Registry.apply]
    split <;> rfl
  | flowCancelled flow generation =>
    simp only [apply, cancel, Registry.apply]
    split
    · rfl
    · dsimp only [setPhase]
      rw [registry_modifyFlow]
      split
      · exact registry_closeAttempt _ _
      · rfl
  | flowRetired flow generation =>
    simp only [apply, retireFlow, Registry.apply]
    split <;> rfl
  | scheduleIssued schedule => exact registry_issue schedule
  | attemptOpened ticket =>
    simp only [apply, openAttempt, Registry.apply]
    split <;> rfl
  | attemptStarted attempt =>
    simp only [apply, startAttempt, Registry.apply]
    split
    · rfl
    · split
      · rfl
      · split
        · rfl
        · split <;> rfl
  | attemptClosed attempt state => exact registry_closeAttempt attempt state
  | completionCommitted e =>
    simp only [apply, complete, Registry.apply]
    split
    · rfl
    · split <;> rfl
  | ambiguityResolved flow generation resolution =>
    simp only [apply, resolve, Registry.apply]
    split
    · rfl
    · split <;> rfl

def roster (l : Ledger) (id : FlowId) : Option FlowDescriptor := (l.flows id).map (·.descriptor)

theorem roster_modifyFlow {id : FlowId} {f : LedgerFlow → LedgerFlow}
    (h : ∀ r, (f r).descriptor = r.descriptor) : (l.modifyFlow id f).roster = l.roster := by
  funext a
  simp only [roster, modifyFlow, Function.update_apply]
  split
  · rename_i ha
    subst ha
    cases l.flows a <;> simp [h]
  · rfl

theorem roster_setPhase (id : FlowId) (phase : Phase) : (l.setPhase id phase).roster = l.roster :=
  roster_modifyFlow fun _ => rfl

theorem roster_runEntry (e : ScheduleEntry) : (l.runEntry e).roster = l.roster := by
  unfold runEntry
  split
  · rfl
  · split
    · rfl
    · split
      · rfl
      · dsimp only
        split <;> exact roster_modifyFlow fun _ => rfl

theorem roster_issue (schedule : Schedule) : (l.issue schedule).roster = l.roster := by
  refine OrderedMap.foldl_frame (fun l e => ?_) _ l
  split
  · rfl
  · exact roster_runEntry e

theorem roster_closeAttempt (attempt : DispatchAttemptId) (state : AttemptState) :
    (l.closeAttempt attempt state).roster = l.roster := by
  unfold closeAttempt
  split
  · rfl
  · split
    · rfl
    · dsimp only
      split
      · rfl
      · split
        · rfl
        · rw [roster_modifyFlow]
          · rfl
          · exact fun _ => rfl

theorem roster_advanceEpoch (next : FabricEpoch) : (l.advanceEpoch next).roster = l.roster := by
  funext a
  simp only [advanceEpoch, roster]
  cases l.flows a with
  | none => rfl
  | some r =>
    simp only [Option.map_some]
    split <;> rfl

end Ledger

/-- The flow goes to a later generation, or keeps the one it has with its path. -/
def FlowDescriptor.Follows (d d' : FlowDescriptor) : Prop :=
  d.generation.value < d'.generation.value ∨ (d'.generation = d.generation ∧ d'.path = d.path)

/-- The same descriptor, up to a readiness signal that has come in. -/
def FlowDescriptor.Signalled (d d' : FlowDescriptor) : Prop :=
  d' = d ∨ ∃ signal : ReadinessSignal, d' = { d with readinessSignal := signal.code }

theorem FlowDescriptor.Signalled.follows {d d' : FlowDescriptor} (h : d.Signalled d') :
    d.Follows d' := by
  rcases h with rfl | ⟨signal, rfl⟩ <;> exact .inr ⟨rfl, rfl⟩

theorem Ledger.roster_apply {l : Ledger} {r : Record} {id : FlowId} {d' : FlowDescriptor}
    (h : (l.apply r).roster id = some d') :
    (∃ d, l.roster id = some d ∧ d.Signalled d') ∨
      (d'.flow = id ∧ (r = .flowAdmitted d' ∨ r = .flowUpdated d')) := by
  have kept : ∀ {l' : Ledger}, l'.roster = l.roster → l'.roster id = some d' →
      ∃ d, l.roster id = some d ∧ d.Signalled d' := by
    intro l' hsame h
    rw [hsame] at h
    exact ⟨d', h, .inl rfl⟩
  cases r with
  | policyInstalled | resourceRegistered | reservationRegistered | priorityClassRegistered
  | qosClassRegistered | scheduleReleased | reservationRetired => exact .inl ⟨d', h, .inl rfl⟩
  | epochAdvanced previous next => exact .inl (kept (roster_advanceEpoch next) h)
  | flowAdmitted d =>
    simp only [apply, admitFlow, roster, Function.update_apply] at h
    split at h
    · rename_i ha
      cases h
      exact .inr ⟨ha.symm, .inl rfl⟩
    · exact .inl ⟨d', h, .inl rfl⟩
  | flowUpdated d =>
    simp only [apply, update, modifyFlow, roster, Function.update_apply] at h
    split at h
    · rename_i ha
      cases hr : l.flows d.flow with
      | none => simp [hr] at h
      | some r =>
        simp only [hr, Option.map_some, Option.some.injEq] at h
        subst h
        exact .inr ⟨ha.symm, .inr rfl⟩
    · exact .inl ⟨d', h, .inl rfl⟩
  | flowReadinessChanged flow generation signal =>
    simp only [apply, notify] at h
    split at h
    · exact .inl ⟨d', h, .inl rfl⟩
    · simp only [modifyFlow, roster, Function.update_apply] at h
      split at h
      · rename_i ha
        subst ha
        cases hr : l.flows id with
        | none => simp [hr] at h
        | some r =>
          simp only [hr, Option.map_some, Option.some.injEq] at h
          subst h
          exact .inl ⟨r.descriptor, by simp [roster, hr], .inr ⟨signal, rfl⟩⟩
      · exact .inl ⟨d', h, .inl rfl⟩
  | flowCancelled flow generation =>
    refine .inl (kept ?_ h)
    simp only [apply, cancel]
    split
    · rfl
    · rw [roster_setPhase]
      split
      · exact roster_closeAttempt _ _
      · rfl
  | flowRetired flow generation =>
    simp only [apply, retireFlow] at h
    split at h
    · exact .inl ⟨d', h, .inl rfl⟩
    · simp only [roster, Function.update_apply] at h
      split at h
      · cases h
      · exact .inl ⟨d', h, .inl rfl⟩
  | scheduleIssued schedule => exact .inl (kept (roster_issue schedule) h)
  | attemptOpened ticket =>
    refine .inl (kept ?_ h)
    simp only [apply, openAttempt]
    split
    · rfl
    · rw [roster_modifyFlow]
      · rfl
      · exact fun _ => rfl
  | attemptStarted attempt =>
    refine .inl (kept ?_ h)
    simp only [apply, startAttempt]
    split
    · rfl
    · split
      · rfl
      · split
        · rfl
        · split
          · rfl
          · rw [roster_setPhase]
            rfl
  | attemptClosed attempt state => exact .inl (kept (roster_closeAttempt _ _) h)
  | completionCommitted e =>
    refine .inl (kept ?_ h)
    simp only [apply, complete]
    split
    · rfl
    · split
      · rfl
      · rw [roster_modifyFlow]
        · rfl
        · exact fun _ => rfl
  | ambiguityResolved flow generation resolution =>
    refine .inl (kept ?_ h)
    simp only [apply, resolve]
    split
    · rfl
    · split
      · rfl
      · exact roster_setPhase _ _

end FlowScheduler

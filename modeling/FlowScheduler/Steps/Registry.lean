import FlowScheduler.Steps.Sound
import FlowScheduler.Ledger.Registry

/-! # Registrations only move forward

A call registers the first generation of a name or the one after the registered
one, and only one call installs a policy. So the epoch and every registered
generation grow along any run.
-/

namespace FlowScheduler

theorem generationGuard_eq_ok {current : Option Generation} {proposed : Generation} {full : Bool}
    {boundText newText stepText : String} {u : Unit}
    (h : generationGuard current proposed full boundText newText stepText = .ok u) :
    (current = none ∧ full = false ∧ proposed = ⟨1⟩) ∨
      ∃ g, current = some g ∧ g.advance = .ok proposed := by
  cases current with
  | none =>
    obtain ⟨_, hfull, h⟩ := bind_eq_ok.mp h
    rw [refuseIf_eq_ok] at hfull h
    exact .inl ⟨rfl, by simpa using hfull, Id.ext_value (not_not.mp h)⟩
  | some g =>
    obtain ⟨expected, hadvance, h⟩ := bind_eq_ok.mp h
    rw [refuseIf_eq_ok, not_not] at h
    exact .inr ⟨g, rfl, h ▸ hadvance⟩

/-- The name keeps its generation or is given a later one. -/
def LaterGeneration {α : Type} (generation : α → Generation) (before after : Option α) : Prop :=
  ∀ d, before = some d → ∃ d', after = some d' ∧ (generation d).value ≤ (generation d').value

structure Registry.Onward (x y : Registry) : Prop where
  epoch : x.epoch.value ≤ y.epoch.value
  resources : ∀ id, LaterGeneration (·.generation) (x.resources id) (y.resources id)
  reservations : ∀ id, LaterGeneration (·.generation) (x.reservations id) (y.reservations id)
  priorityClasses : ∀ id,
    LaterGeneration (·.generation) (x.priorityClasses id) (y.priorityClasses id)
  qosClasses : ∀ id, LaterGeneration (·.generation) (x.qosClasses id) (y.qosClasses id)

section Later

variable {α κ : Type} [DecidableEq κ] {generation : α → Generation}

theorem LaterGeneration.refl (o : Option α) : LaterGeneration generation o o :=
  fun d h => ⟨d, h, UInt64.le_refl _⟩

theorem LaterGeneration.register {table : κ → Option α} {current : Option Generation} {k : κ} {d : α}
    {full : Bool} {boundText newText stepText : String}
    (guard : generationGuard current (generation d) full boundText newText stepText = .ok ())
    (registered : current = (table k).map generation) (a : κ) :
    LaterGeneration generation (table a) (Function.update table k (some d) a) := by
  by_cases ha : a = k
  · subst ha
    intro d₀ hd₀
    rw [hd₀] at registered
    refine ⟨d, Function.update_self .., ?_⟩
    rcases generationGuard_eq_ok guard with ⟨hnone, -⟩ | ⟨g, hg, hadvance⟩
    · rw [registered] at hnone
      cases hnone
    · rw [registered] at hg
      cases hg
      exact UInt64.le_of_lt (Id.lt_of_advance hadvance)
  · rw [Function.update_of_ne ha]
    exact .refl _

end Later

namespace Registry.Onward

theorem refl (x : Registry) : x.Onward x :=
  ⟨UInt64.le_refl _, fun _ => .refl _, fun _ => .refl _, fun _ => .refl _, fun _ => .refl _⟩

end Registry.Onward

theorem Ledger.Quiet.registry {l l' : Ledger} (h : l.Quiet l') : l'.registry = l.registry := by
  cases h <;> rfl

theorem Ledger.Quiet.roster {l l' : Ledger} (h : l.Quiet l') : l'.roster = l.roster := by
  cases h with
  | same => rfl
  | fail => exact Ledger.roster_setPhase _ _
  | forget => rfl

section Moves

variable {c : Call} {s s' : Impl} {r : Option Record}

theorem Move.registry (move : Move c s r s') : s'.ledger.registry = s.ledger.registry ∨
    ∃ record, r = some record ∧ s'.ledger.registry = s.ledger.registry.apply record := by
  rcases move with move | ⟨now, rfl, move⟩
  · cases r with
    | none => exact .inl (by rw [move.quiet])
    | some record =>
      rcases move.ledger with h | ⟨-, rfl⟩
      · exact .inr ⟨record, rfl, by rw [h, Ledger.registry_apply]⟩
      · exact .inl rfl
  · cases r with
    | none => exact .inl move.quiet.registry
    | some record => exact .inr ⟨record, rfl, by rw [move.ledger, Ledger.registry_apply]⟩

theorem RoundMove.registry {now : Ticks} (move : RoundMove now s r s') :
    s'.ledger.registry = s.ledger.registry := by
  cases r with
  | none => exact move.quiet.registry
  | some record =>
    rw [move.ledger, Ledger.registry_apply]
    cases move with
    | common move => cases move <;> rfl
    | issue => rfl

theorem Move.policy (move : Move c s r s') (h : ∀ policy, c ≠ .installPolicy policy) :
    s'.policy = s.policy := by
  rcases move.registry with hsame | ⟨record, rfl, happly⟩
  · exact congrArg Registry.policy hsame
  · have hpolicy : s'.policy = (s.ledger.registry.apply record).policy :=
      congrArg Registry.policy happly
    rw [hpolicy]
    rcases move with move | ⟨now, rfl, move⟩
    · cases move with
      | common move => cases move <;> rfl
      | installPolicy => exact absurd rfl (h _)
      | _ => rfl
    · cases move with
      | common move => cases move <;> rfl
      | issue => rfl

theorem Move.onward (move : Move c s r s') : s.ledger.registry.Onward s'.ledger.registry := by
  rcases move.registry with hsame | ⟨record, rfl, happly⟩
  · rw [hsame]
    exact .refl _
  · rw [happly]
    rcases move with move | ⟨now, rfl, move⟩
    · cases move with
      | common move => cases move <;> exact .refl _
      | registerResource guard =>
        obtain ⟨_, -, guard⟩ := bind_eq_ok.mp guard
        exact { Registry.Onward.refl s.ledger.registry with
          resources := LaterGeneration.register guard (Option.map_map ..).symm }
      | registerReservation guard =>
        obtain ⟨_, -, guard⟩ := bind_eq_ok.mp guard
        obtain ⟨_, -, guard⟩ := bind_eq_ok.mp guard
        exact { Registry.Onward.refl s.ledger.registry with
          reservations := LaterGeneration.register guard (Option.map_map ..).symm }
      | registerPriorityClass guard =>
        obtain ⟨_, -, guard⟩ := bind_eq_ok.mp guard
        exact { Registry.Onward.refl s.ledger.registry with
          priorityClasses := LaterGeneration.register guard rfl }
      | registerQosClass guard =>
        obtain ⟨_, -, guard⟩ := bind_eq_ok.mp guard
        exact { Registry.Onward.refl s.ledger.registry with
          qosClasses := LaterGeneration.register guard rfl }
      | advanceEpoch advanced =>
        exact { Registry.Onward.refl s.ledger.registry with
          epoch := UInt64.le_of_lt (Id.lt_of_advance advanced) }
      | installPolicy => exact { Registry.Onward.refl s.ledger.registry with }
      | _ => exact .refl _
    · cases move with
      | common move => cases move <;> exact .refl _
      | issue => exact .refl _

theorem Impl.roster_eq {s : Impl} {id : FlowId} :
    s.ledger.roster id = s.flows[id]?.map (·.descriptor) := by
  simp only [Ledger.roster, Impl.ledger, Option.map_map]
  rfl

theorem RoundMove.roster {now : Ticks} (move : RoundMove now s r s') :
    s'.ledger.roster = s.ledger.roster := by
  cases r with
  | none => exact move.quiet.roster
  | some record =>
    rw [move.ledger]
    cases move with
    | common move =>
      cases move with
      | close => exact Ledger.roster_closeAttempt _ _
      | release => rfl
    | issue => exact Ledger.roster_issue _

/-- A descriptor found after a move follows the one found before, or was just admitted. -/
theorem Move.roster (move : Move c s r s') {id : FlowId} {d' : FlowDescriptor}
    (h : s'.ledger.roster id = some d') :
    (∃ d, s.ledger.roster id = some d ∧ d.Follows d') ∨ (d'.flow = id ∧ c = .admitFlow d') := by
  have kept : s'.ledger.roster = s.ledger.roster →
      ∃ d, s.ledger.roster id = some d ∧ d.Follows d' := by
    intro hsame
    rw [hsame] at h
    exact ⟨d', h, .inr ⟨rfl, rfl⟩⟩
  have applied : ∀ record, s'.ledger = s.ledger.apply record →
      (∃ d, s.ledger.roster id = some d ∧ d.Follows d') ∨
        (d'.flow = id ∧ (record = .flowAdmitted d' ∨ record = .flowUpdated d')) := by
    intro record hrecord
    rw [hrecord] at h
    rcases Ledger.roster_apply h with ⟨d, hd, hsame⟩ | hnew
    · exact .inl ⟨d, hd, hsame.follows⟩
    · exact .inr hnew
  rcases move with move | ⟨now, -, move⟩
  · cases r with
    | none => exact .inl (kept (by rw [move.quiet]))
    | some record =>
      rcases move.ledger with hrecord | ⟨-, rfl⟩
      · rcases applied record hrecord with hold | ⟨rfl, rfl | rfl⟩
        · exact .inl hold
        · cases move with
          | common move => cases move
          | admitFlow => exact .inr ⟨rfl, rfl⟩
          | admitRefused => exact .inr ⟨rfl, rfl⟩
        · cases move with
          | common move => cases move
          | update guard =>
            obtain ⟨r, hr, hlt⟩ := Impl.generation_lt_of_updateFlowGuard guard
            exact .inl ⟨r.descriptor, by simp [Ledger.roster, Impl.ledger, hr, FlowRuntime.ledger],
              .inl hlt⟩
          | updateRefused => exact .inl ⟨d', h, .inr ⟨rfl, rfl⟩⟩
      · exact .inl ⟨d', h, .inr ⟨rfl, rfl⟩⟩
  · cases r with
    | none => exact .inl (kept move.quiet.roster)
    | some record =>
      rcases applied record move.ledger with hold | ⟨-, rfl | rfl⟩
      · exact .inl hold
      · cases move with
        | common move => cases move
      · cases move with
        | common move => cases move

theorem RoundMove.binding {now : Ticks} (move : RoundMove now s r s') :
    s'.policyBinding = s.policyBinding ∧ s'.nextAttempt = s.nextAttempt := by
  cases move with
  | common move =>
    have h := move.setting
    exact ⟨congrArg Setting.policyBinding h, congrArg Setting.nextAttempt h⟩
  | tick | failDependency | failDeadline | roll | forget | retire => exact ⟨rfl, rfl⟩
  | @issue entries =>
    have hadvance := @setting_advanceSchedule
      ({ s with provenanceSequence := s.provenanceSequence + 1 }.applySchedule
        (s.makeSchedule entries now))
    rw [Impl.setting_applySchedule] at hadvance
    exact ⟨congrArg Setting.policyBinding hadvance, congrArg Setting.nextAttempt hadvance⟩

/-- The two schedule counters are advanced together, if at all. -/
def Impl.Ascends (s s' : Impl) : Prop :=
  s.nextSchedule.advance = .ok s'.nextSchedule ∧
    s.nextScheduleGeneration.advance = .ok s'.nextScheduleGeneration

/-- The schedule counters stand still where no schedule is issued, and where one has run out. -/
def Impl.Stalls (s : Impl) (r : Option Record) (s' : Impl) : Prop :=
  (s'.nextSchedule = s.nextSchedule ∧ s'.nextScheduleGeneration = s.nextScheduleGeneration) ∧
    ∀ schedule, r = some (.scheduleIssued schedule) →
      s.nextSchedule.value = u64Max ∨ s.nextScheduleGeneration.value = u64Max

theorem RoundMove.numbers {now : Ticks} (move : RoundMove now s r s') :
    s.Stalls r s' ∨ s.Ascends s' := by
  cases move with
  | common move =>
    have h := move.setting
    refine .inl ⟨⟨congrArg Setting.nextSchedule h, congrArg Setting.nextScheduleGeneration h⟩, ?_⟩
    cases move <;> nofun
  | tick | failDependency | failDeadline | roll | forget | retire => exact .inl ⟨⟨rfl, rfl⟩, nofun⟩
  | @issue entries =>
    have hsetting := Impl.setting_applySchedule
      (s := { s with provenanceSequence := s.provenanceSequence + 1 }) (s.makeSchedule entries now)
    generalize ({ s with provenanceSequence := s.provenanceSequence + 1 } : Impl).applySchedule
      (s.makeSchedule entries now) = issued at hsetting ⊢
    have hschedule : issued.nextSchedule = s.nextSchedule := congrArg Setting.nextSchedule hsetting
    have hgeneration : issued.nextScheduleGeneration = s.nextScheduleGeneration :=
      congrArg Setting.nextScheduleGeneration hsetting
    rw [Impl.Stalls, Impl.Ascends, ← hschedule, ← hgeneration]
    unfold Impl.advanceSchedule
    split
    · rename_i hnext hgen
      exact .inr ⟨hnext, hgen⟩
    · rename_i hfails
      refine .inl ⟨⟨rfl, rfl⟩, fun _ _ => ?_⟩
      by_contra hroom
      rw [not_or] at hroom
      exact hfails _ _ (Id.advance_eq_ok.mpr ⟨hroom.1, rfl⟩) (Id.advance_eq_ok.mpr ⟨hroom.2, rfl⟩)

/-- What a call other than a round does to the policy binding and the counters. -/
structure Counted (c : Call) (s s' : Impl) : Prop where
  nextSchedule : s'.nextSchedule = s.nextSchedule
  nextScheduleGeneration : s'.nextScheduleGeneration = s.nextScheduleGeneration
  policyBinding : s'.policyBinding = s.policyBinding ∨
    ∃ policy, c = .installPolicy policy ∧ s'.policyBinding = policy.binding
  nextAttempt : s'.nextAttempt = s.nextAttempt ∨ s.nextAttempt.advance = .ok s'.nextAttempt
  clock : s.lastTick ≤ s'.lastTick

theorem Counted.of_setting (h : s'.setting = s.setting) : Counted c s s' where
  nextSchedule := congrArg Setting.nextSchedule h
  nextScheduleGeneration := congrArg Setting.nextScheduleGeneration h
  policyBinding := .inl (congrArg Setting.policyBinding h)
  nextAttempt := .inl (congrArg Setting.nextAttempt h)
  clock := by
    rw [show s'.lastTick = s.lastTick from congrArg Setting.lastTick h]
    exact UInt64.le_refl _

theorem Counted.advanceAttempt (h : s'.setting = s.setting) : Counted c s s'.advanceAttempt := by
  have hnext : s'.nextAttempt = s.nextAttempt := congrArg Setting.nextAttempt h
  unfold Impl.advanceAttempt
  split
  · rename_i next hadvance
    exact { Counted.of_setting h with nextAttempt := .inr (hnext ▸ hadvance) }
  · exact .of_setting h

theorem CallMove.counted (move : CallMove c s r s') : Counted c s s' := by
  cases move with
  | common move => exact .of_setting move.setting
  | touch => exact ⟨rfl, rfl, .inl rfl, .inl rfl, le_max_tick _ _⟩
  | registerResource | registerReservation | registerPriorityClass | registerQosClass
  | admitRefused | updateRefused => exact ⟨rfl, rfl, .inl rfl, .inl rfl, UInt64.le_refl _⟩
  | retireReservation => exact .of_setting (Impl.setting_applyRetireReservation _ _)
  | admitFlow _ applied => exact .of_setting (Impl.setting_applyAdmit applied)
  | update _ applied =>
    exact .of_setting
      ((Impl.setting_releaseScheduledEntry _ _).trans (Impl.setting_applyUpdate applied))
  | cancel =>
    exact .of_setting
      ((Impl.setting_normalizeTransientStates _).trans (Impl.setting_applyCancel _ _ _))
  | notify => exact .of_setting (Impl.setting_applyReadiness _ _ _ _)
  | resolve => exact .of_setting (Impl.setting_applyAmbiguityResolved _ _ _ _)
  | retireFlow => exact .of_setting (Impl.setting_applyRetireFlow _ _)
  | installPolicy => exact ⟨rfl, rfl, .inr ⟨_, rfl, rfl⟩, .inl rfl, UInt64.le_refl _⟩
  | advanceEpoch => exact .of_setting (Impl.setting_applyEpochAdvance _ _)
  | dispatch => exact .advanceAttempt (Impl.setting_applyAttemptOpened _ _ _)
  | start => exact .of_setting (Impl.setting_applyAttemptStarted _ _)
  | complete => exact .of_setting (Impl.setting_applyCompletion _ _ _ _)

theorem Move.numbers (move : Move c s r s') : s.Stalls r s' ∨ s.Ascends s' := by
  rcases move with move | ⟨now, -, move⟩
  · refine .inl ⟨⟨move.counted.nextSchedule, move.counted.nextScheduleGeneration⟩, ?_⟩
    cases move with
    | common move => cases move <;> nofun
    | _ => nofun
  · exact move.numbers

theorem Move.nextAttempt (move : Move c s r s') : s'.nextAttempt = s.nextAttempt ∨
    s.nextAttempt.advance = .ok s'.nextAttempt := by
  rcases move with move | ⟨now, -, move⟩
  · exact move.counted.nextAttempt
  · exact .inl move.binding.2

theorem Move.nextAttempt_valid (move : Move c s r s') (valid : s.nextAttempt.valid) :
    s'.nextAttempt.valid := by
  rcases move.nextAttempt with hsame | hadvance
  · rw [hsame]
    exact valid
  · exact Id.valid_of_advance hadvance

theorem Move.policyBinding (move : Move c s r s') : s'.policyBinding = s.policyBinding ∨
    ∃ policy, c = .installPolicy policy ∧ s'.policyBinding = policy.binding := by
  rcases move with move | ⟨now, -, move⟩
  · exact move.counted.policyBinding
  · exact .inl move.binding.1

end Moves

end FlowScheduler

import FlowScheduler.Runtime.Transitions
import FlowScheduler.Library.OrderedMap

/-! # What the flow updates leave alone

A lifecycle change rewrites the lifecycle, the eligibility interval and the
fairness stamp of a flow; an explanation step rewrites its history. Everything
else of the flow is as before.
-/

namespace FlowScheduler

open ByteCodec (Bytes)
open OrderedMap

namespace FlowRuntime

variable (r : FlowRuntime)

section RecordStep

variable (now : Ticks) (lifecycle : FlowLifecycle) (reason : DecisionReason)
  (schedule : ScheduleId) (attempt : DispatchAttemptId) (detail : Bytes)

theorem recordStep_eq : ∃ history truncated,
    r.recordStep now lifecycle reason schedule attempt detail =
      { r with history := history, historyTruncated := truncated } := by
  unfold recordStep
  dsimp only
  split
  · exact ⟨_, _, rfl⟩
  · exact ⟨_, r.historyTruncated, rfl⟩

@[simp] theorem descriptor_recordStep :
    (r.recordStep now lifecycle reason schedule attempt detail).descriptor = r.descriptor := by
  obtain ⟨_, _, h⟩ := r.recordStep_eq now lifecycle reason schedule attempt detail
  rw [h]

@[simp] theorem servedWork_recordStep :
    (r.recordStep now lifecycle reason schedule attempt detail).servedWork = r.servedWork := by
  obtain ⟨_, _, h⟩ := r.recordStep_eq now lifecycle reason schedule attempt detail
  rw [h]

@[simp] theorem outstandingReserved_recordStep :
    (r.recordStep now lifecycle reason schedule attempt detail).outstandingReserved = r.outstandingReserved := by
  obtain ⟨_, _, h⟩ := r.recordStep_eq now lifecycle reason schedule attempt detail
  rw [h]

@[simp] theorem openAttempt_recordStep :
    (r.recordStep now lifecycle reason schedule attempt detail).openAttempt = r.openAttempt := by
  obtain ⟨_, _, h⟩ := r.recordStep_eq now lifecycle reason schedule attempt detail
  rw [h]

@[simp] theorem scheduledSchedule_recordStep :
    (r.recordStep now lifecycle reason schedule attempt detail).scheduledSchedule = r.scheduledSchedule := by
  obtain ⟨_, _, h⟩ := r.recordStep_eq now lifecycle reason schedule attempt detail
  rw [h]

@[simp] theorem scheduledGeneration_recordStep :
    (r.recordStep now lifecycle reason schedule attempt detail).scheduledGeneration = r.scheduledGeneration := by
  obtain ⟨_, _, h⟩ := r.recordStep_eq now lifecycle reason schedule attempt detail
  rw [h]

@[simp] theorem scheduledOrdinal_recordStep :
    (r.recordStep now lifecycle reason schedule attempt detail).scheduledOrdinal = r.scheduledOrdinal := by
  obtain ⟨_, _, h⟩ := r.recordStep_eq now lifecycle reason schedule attempt detail
  rw [h]

@[simp] theorem lifecycle_recordStep :
    (r.recordStep now lifecycle reason schedule attempt detail).lifecycle = r.lifecycle := by
  obtain ⟨_, _, h⟩ := r.recordStep_eq now lifecycle reason schedule attempt detail
  rw [h]

@[simp] theorem virtualFinish_recordStep :
    (r.recordStep now lifecycle reason schedule attempt detail).virtualFinish = r.virtualFinish := by
  obtain ⟨_, _, h⟩ := r.recordStep_eq now lifecycle reason schedule attempt detail
  rw [h]

end RecordStep

section SetLifecycle

variable (policy : SchedulingPolicy) (clock : UInt64) (next : FlowLifecycle) (now : Ticks)

theorem refreshMinServiceWindow_eq : ∃ start delivered,
    r.refreshMinServiceWindow now =
      { r with minServiceWindowStart := start, minServiceDelivered := delivered } := by
  unfold refreshMinServiceWindow
  split
  · exact ⟨r.minServiceWindowStart, r.minServiceDelivered, rfl⟩
  · split
    · exact ⟨now, 0, rfl⟩
    · exact ⟨r.minServiceWindowStart, r.minServiceDelivered, rfl⟩

theorem enterReady_eq : ∃ start delivered finish,
    r.enterReady policy clock now =
      { r with
        eligibleSinceTick := now, everReady := true, starvationCounted := false
        minServiceWindowStart := start, minServiceDelivered := delivered
        virtualFinish := finish } ∧
      (policy.weightedFairness = false → finish = r.virtualFinish) := by
  unfold enterReady
  dsimp only
  obtain ⟨start, delivered, h⟩ := refreshMinServiceWindow_eq _ now
  rw [h]
  split
  · rename_i hw
    exact ⟨start, delivered, _, rfl, fun hf => by simp [hf] at hw⟩
  · exact ⟨start, delivered, r.virtualFinish, rfl, fun _ => rfl⟩

theorem setLifecycle_eq : ∃ changed since ever start delivered finish starved waited,
    r.setLifecycle policy clock next now =
      { r with
        lifecycle := next, lastChangeTick := changed, eligibleSinceTick := since, everReady := ever
        minServiceWindowStart := start, minServiceDelivered := delivered
        virtualFinish := finish, starvationCounted := starved
        accounting.waitTicksTotal := waited } ∧
      (policy.weightedFairness = false → finish = r.virtualFinish) := by
  unfold setLifecycle
  split
  · rename_i h
    subst h
    exact ⟨r.lastChangeTick, r.eligibleSinceTick, r.everReady, r.minServiceWindowStart,
      r.minServiceDelivered, r.virtualFinish, r.starvationCounted, r.accounting.waitTicksTotal,
      rfl, fun _ => rfl⟩
  · dsimp only
    have hwait : ∃ waited, (if r.lifecycle = .ready ∧ r.everReady ∧ r.eligibleSinceTick ≤ now then
        { r with accounting.waitTicksTotal :=
            saturatingAdd r.accounting.waitTicksTotal (now - r.eligibleSinceTick) }
        else r) = { r with accounting.waitTicksTotal := waited } := by
      split
      · exact ⟨_, rfl⟩
      · exact ⟨r.accounting.waitTicksTotal, rfl⟩
    obtain ⟨waited, hw⟩ := hwait
    rw [hw]
    split
    · obtain ⟨start, delivered, finish, he, hf⟩ := enterReady_eq
        { r with lifecycle := next, lastChangeTick := now, accounting.waitTicksTotal := waited }
        policy clock now
      exact ⟨now, now, true, start, delivered, finish, false, waited, he, hf⟩
    · exact ⟨now, r.eligibleSinceTick, r.everReady, r.minServiceWindowStart,
        r.minServiceDelivered, r.virtualFinish, r.starvationCounted, waited, rfl, fun _ => rfl⟩

@[simp] theorem lifecycle_setLifecycle : (r.setLifecycle policy clock next now).lifecycle = next := by
  obtain ⟨_, _, _, _, _, _, _, _, h, -⟩ := r.setLifecycle_eq policy clock next now
  rw [h]

@[simp] theorem descriptor_setLifecycle :
    (r.setLifecycle policy clock next now).descriptor = r.descriptor := by
  obtain ⟨_, _, _, _, _, _, _, _, h, -⟩ := r.setLifecycle_eq policy clock next now
  rw [h]

@[simp] theorem servedWork_setLifecycle :
    (r.setLifecycle policy clock next now).servedWork = r.servedWork := by
  obtain ⟨_, _, _, _, _, _, _, _, h, -⟩ := r.setLifecycle_eq policy clock next now
  rw [h]

@[simp] theorem outstandingReserved_setLifecycle :
    (r.setLifecycle policy clock next now).outstandingReserved = r.outstandingReserved := by
  obtain ⟨_, _, _, _, _, _, _, _, h, -⟩ := r.setLifecycle_eq policy clock next now
  rw [h]

@[simp] theorem openAttempt_setLifecycle :
    (r.setLifecycle policy clock next now).openAttempt = r.openAttempt := by
  obtain ⟨_, _, _, _, _, _, _, _, h, -⟩ := r.setLifecycle_eq policy clock next now
  rw [h]

@[simp] theorem scheduledSchedule_setLifecycle :
    (r.setLifecycle policy clock next now).scheduledSchedule = r.scheduledSchedule := by
  obtain ⟨_, _, _, _, _, _, _, _, h, -⟩ := r.setLifecycle_eq policy clock next now
  rw [h]

@[simp] theorem scheduledGeneration_setLifecycle :
    (r.setLifecycle policy clock next now).scheduledGeneration = r.scheduledGeneration := by
  obtain ⟨_, _, _, _, _, _, _, _, h, -⟩ := r.setLifecycle_eq policy clock next now
  rw [h]

@[simp] theorem scheduledOrdinal_setLifecycle :
    (r.setLifecycle policy clock next now).scheduledOrdinal = r.scheduledOrdinal := by
  obtain ⟨_, _, _, _, _, _, _, _, h, -⟩ := r.setLifecycle_eq policy clock next now
  rw [h]

end SetLifecycle

end FlowRuntime

namespace Impl

variable {s : Impl}

theorem chargeReservation_eq (s : Impl) (e : ScheduleEntry) : ∃ reservations,
    s.chargeReservation e = { s with reservations := reservations } := by
  unfold chargeReservation
  split
  · exact ⟨_, rfl⟩
  · exact ⟨s.reservations, rfl⟩

theorem advanceGroupClock_eq (s : Impl) (id : FlowId) (r : FlowRuntime) : ∃ clocks,
    s.advanceGroupClock id r = { s with virtualTime := clocks } ∧
      (s.policy.weightedFairness = false → clocks = s.virtualTime) := by
  unfold advanceGroupClock
  split
  · rename_i h
    exact ⟨_, rfl, fun hf => by simp [hf] at h⟩
  · exact ⟨s.virtualTime, rfl, fun _ => rfl⟩

def Accepts (s : Impl) (e : ScheduleEntry) (r : FlowRuntime) : Prop :=
  s.flows[e.flow]? = some r ∧ r.descriptor.generation = e.flowGeneration ∧
    ¬ (r.lifecycle.isTerminal ∨ r.lifecycle.holdsOpenWork)

theorem applyRunEntry_cases (s : Impl) (schedule : Schedule) (e : ScheduleEntry) :
    ((∀ r, ¬ s.Accepts e r) ∧ s.applyRunEntry schedule e = s) ∨
    ∃ r reservations clocks, s.Accepts e r ∧
      s.applyRunEntry schedule e =
        { ((s.scheduleFlow schedule e).countPending schedule.schedule).chargeResource e with
          reservations := reservations, virtualTime := clocks } ∧
      (s.policy.weightedFairness = false → clocks = s.virtualTime) := by
  unfold applyRunEntry
  cases hr : s.flows[e.flow]? with
  | none => exact .inl ⟨fun r h => by simp [Accepts, hr] at h, rfl⟩
  | some r =>
    by_cases hg : r.descriptor.generation = e.flowGeneration
    · by_cases hl : r.lifecycle.isTerminal ∨ r.lifecycle.holdsOpenWork
      · refine .inl ⟨fun r' h => ?_, by simp [hg, hl]⟩
        obtain ⟨hr', -, hl'⟩ := h
        obtain rfl : r = r' := Option.some.inj (hr.symm.trans hr')
        exact hl' hl
      · right
        simp only [hg, hl, ne_eq, not_true_eq_false, if_false]
        obtain ⟨reservations, h₁⟩ := chargeReservation_eq
          (((s.scheduleFlow schedule e).countPending schedule.schedule).chargeResource e) e
        rw [h₁]
        obtain ⟨clocks, h₂, hc⟩ := advanceGroupClock_eq
          { ((s.scheduleFlow schedule e).countPending schedule.schedule).chargeResource e with
            reservations := reservations } e.flow r
        exact ⟨r, reservations, clocks, ⟨hr, hg, hl⟩, h₂, hc⟩
    · refine .inl ⟨fun r' h => ?_, by simp [hg]⟩
      obtain ⟨hr', hg', -⟩ := h
      obtain rfl : r = r' := Option.some.inj (hr.symm.trans hr')
      exact hg hg'

end Impl

/-- What no transition of flows, schedules or attempts touches. -/
structure Setting where
  policy : SchedulingPolicy
  policyBinding : PolicyBinding
  priorityClasses : Table PriorityClassId PriorityClassDescriptor
  qosClasses : Table QoSClassId QoSClassDescriptor
  nextAttempt : DispatchAttemptId
  nextSchedule : ScheduleId
  nextScheduleGeneration : Generation
  lastTick : Ticks

def Impl.setting (s : Impl) : Setting where
  policy := s.policy
  policyBinding := s.policyBinding
  priorityClasses := s.priorityClasses
  qosClasses := s.qosClasses
  nextAttempt := s.nextAttempt
  nextSchedule := s.nextSchedule
  nextScheduleGeneration := s.nextScheduleGeneration
  lastTick := s.lastTick

section SameBut

variable {s : Impl} {id : FlowId} {now : Ticks}

def SameBut (id : FlowId) (s s' : Impl) : Prop := ∀ k, k ≠ id → s'.flows[k]? = s.flows[k]?

theorem SameBut.refl : SameBut id s s := fun _ _ => rfl

theorem sameBut_setLifecycle {next : FlowLifecycle} : SameBut id s (s.setLifecycle id next now) :=
  fun k hk => by simp only [Impl.setLifecycle, get_modify, if_neg hk]

theorem sameBut_modifyFlow {f : FlowRuntime → FlowRuntime} : SameBut id s (s.modifyFlow id f) :=
  fun k hk => by simp only [Impl.modifyFlow, get_modify, if_neg hk]

theorem SameBut.trans {s₁ s₂ s₃ : Impl} (h : SameBut id s₁ s₂) (h' : SameBut id s₂ s₃) :
    SameBut id s₁ s₃ := fun k hk => (h' k hk).trans (h k hk)

theorem lifecycle_of_setLifecycle {next : FlowLifecycle} {r' : FlowRuntime}
    (h : (s.setLifecycle id next now).flows[id]? = some r') : r'.lifecycle = next := by
  simp only [Impl.setLifecycle, get_modify, if_true] at h
  obtain ⟨r, -, rfl⟩ := Option.map_eq_some_iff.mp h
  simp

theorem sameBut_creditFlow {credited : UInt64} : SameBut id s (s.creditFlow id credited) := by
  have hcount : SameBut id s { s with completionsApplied := s.completionsApplied + 1 } :=
    fun _ _ => rfl
  exact hcount.trans sameBut_modifyFlow

theorem sameBut_releaseAttempt {ticket : DispatchTicket} :
    SameBut id s (s.releaseAttempt id ticket) :=
  sameBut_modifyFlow

end SameBut

end FlowScheduler

import FlowScheduler.Authority.Dispatch
import FlowScheduler.Fairness.Sharing
import FlowScheduler.Recovery.Writable
import FlowScheduler.Steps.Edits

/-! # Clocks and stamps

The clock of a fairness group follows the stamps of the flows that are granted
windows, and a flow that becomes ready is stamped behind the clock of its group
and behind its own last stamp. So the clocks never go back while a scheduler is
up, and no clock is ahead of every stamp that has been given. Neither is in the
journal: whoever opens the directory again finds those of the last image.
-/

namespace FlowScheduler

open ByteCodec (Bytes)
open Failing SchedOp Impl OrderedMap

/-- The flow is stamped at least one cost after its last stamp and after the clock of its group. -/
def Impl.Outruns (s : Impl) (previous : ℕ) (r : FlowRuntime) : Prop :=
  min (max previous (s.groupClock r.descriptor.fairnessGroup) +
    (FlowRuntime.virtualCost s.policy r.descriptor).toNat) (2 ^ 64 - 1) ≤ r.virtualFinish.toNat

/-- The flow keeps what it is charged by. Unless it keeps its stamp and does not become ready, it is
stamped anew. -/
structure Impl.Restamps (s : Impl) (r r' : FlowRuntime) : Prop where
  group : r'.descriptor.fairnessGroup = r.descriptor.fairnessGroup
  cost : ∀ policy, FlowRuntime.virtualCost policy r'.descriptor =
    FlowRuntime.virtualCost policy r.descriptor
  grows : r.virtualFinish.toNat ≤ r'.virtualFinish.toNat
  stamped : s.policy.weightedFairness →
    r'.virtualFinish = r.virtualFinish ∧ (r'.lifecycle = .ready → r.lifecycle = .ready) ∨
      s.Outruns r.virtualFinish.toNat r'

/-- No clock goes back, none passes all stamps, and the flows are stamped as they become ready. -/
structure Impl.Stamps (s s' : Impl) : Prop where
  policy : s'.policy = s.policy
  clock : ∀ g, s.groupClock g ≤ s'.groupClock g
  flows : ∀ (id : FlowId) (r' : FlowRuntime), s'.flows[id]? = some r' →
    ∃ r : FlowRuntime, s.flows[id]? = some r ∧ s.Restamps r r'
  kept : ∀ (id : FlowId) (r : FlowRuntime), s.flows[id]? = some r →
    ∃ r' : FlowRuntime, s'.flows[id]? = some r'
  served : ∀ g, s'.groupClock g ≤ s.groupClock g ∨
    ∃ (id : FlowId) (r' : FlowRuntime), s'.flows[id]? = some r' ∧
      s'.groupClock g ≤ r'.virtualFinish.toNat

section Stamping

variable {s s' s'' : Impl} {r r' r'' : FlowRuntime} {now : Ticks}

theorem Impl.Restamps.of_pace (h : r'.pace = r.pace) : s.Restamps r r' where
  group := congrArg FlowPace.fairnessGroup h
  cost policy := by
    have hquantum : r'.descriptor.serviceQuantum = r.descriptor.serviceQuantum :=
      congrArg FlowPace.serviceQuantum h
    have hweight : r'.descriptor.weight = r.descriptor.weight := congrArg FlowPace.weight h
    unfold FlowRuntime.virtualCost effectiveWeight
    rw [hquantum, hweight]
  grows := by rw [show r'.virtualFinish = r.virtualFinish from congrArg FlowPace.virtualFinish h]
  stamped _ := by
    refine .inl ⟨congrArg FlowPace.virtualFinish h, fun hready => ?_⟩
    exact (congrArg FlowPace.lifecycle h).symm.trans hready

theorem Impl.Restamps.refl (r : FlowRuntime) : s.Restamps r r := .of_pace rfl

theorem Impl.Restamps.trans (h : s.Restamps r r') (h' : s'.Restamps r' r'')
    (policy : s'.policy = s.policy) (clock : ∀ g, s.groupClock g ≤ s'.groupClock g) :
    s.Restamps r r'' where
  group := h'.group.trans h.group
  cost p := (h'.cost p).trans (h.cost p)
  grows := h.grows.trans h'.grows
  stamped fair := by
    have hgrows := h.grows
    have hclock := clock r''.descriptor.fairnessGroup
    rcases h'.stamped (policy ▸ fair) with ⟨hsame', hready'⟩ | hout'
    · rcases h.stamped fair with ⟨hsame, hready⟩ | hout
      · exact .inl ⟨hsame'.trans hsame, fun h => hready (hready' h)⟩
      · right
        unfold Impl.Outruns at hout ⊢
        rw [hsame', h'.group, h'.cost]
        exact hout
    · right
      unfold Impl.Outruns at hout' ⊢
      rw [policy] at hout'
      omega

theorem virtualFinish_setLifecycle_unfair {policy : SchedulingPolicy} {clock : UInt64}
    {next : FlowLifecycle} (unfair : policy.weightedFairness = false) :
    (r.setLifecycle policy clock next now).virtualFinish = r.virtualFinish := by
  obtain ⟨_, _, _, _, _, finish, _, _, h, hfinish⟩ := r.setLifecycle_eq policy clock next now
  rw [h]
  exact hfinish unfair

theorem toNat_virtualFinish_ready {tick : Ticks} (fair : s.policy.weightedFairness = true)
    (other : r.lifecycle ≠ .ready) :
    (r.setLifecycle s.policy (s.clockOf r) .ready tick).virtualFinish.toNat =
      min (max r.virtualFinish.toNat (s.groupClock r.descriptor.fairnessGroup) +
        (FlowRuntime.virtualCost s.policy r.descriptor).toNat) (2 ^ 64 - 1) := by
  have hstart : (if r.virtualFinish < s.clockOf r then s.clockOf r else r.virtualFinish).toNat =
      max r.virtualFinish.toNat (s.groupClock r.descriptor.fairnessGroup) := by
    have hclock : (s.clockOf r).toNat = s.groupClock r.descriptor.fairnessGroup := rfl
    split <;> rename_i hlt <;> rw [UInt64.lt_iff_toNat_lt, hclock] at hlt <;> omega
  rw [virtualFinish_setLifecycle_ready fair other, toNat_saturatingAdd, hstart]

/-- A flow that becomes ready is stamped, and a flow that enters another lifecycle keeps its stamp. -/
theorem restamps_setLifecycle (s : Impl) (r : FlowRuntime) (next : FlowLifecycle) (tick : Ticks) :
    s.Restamps r (r.setLifecycle s.policy (s.clockOf r) next tick) := by
  by_cases hsame : r.lifecycle = next
  · rw [FlowRuntime.setLifecycle, if_pos hsame]
    exact .refl r
  by_cases hstamped : next = .ready ∧ s.policy.weightedFairness = true
  · obtain ⟨rfl, fair⟩ := hstamped
    have hnat := @toNat_virtualFinish_ready s r tick fair hsame
    have hbound := r.virtualFinish.toNat_lt
    refine ⟨by simp, by simp, by omega, fun _ => .inr ?_⟩
    unfold Impl.Outruns
    rw [FlowRuntime.descriptor_setLifecycle, hnat]
  · have hkept : (r.setLifecycle s.policy (s.clockOf r) next tick).virtualFinish = r.virtualFinish := by
      by_cases hready : next = .ready
      · exact virtualFinish_setLifecycle_unfair (by simpa [hready] using hstamped)
      · exact virtualFinish_setLifecycle hready
    refine ⟨by simp, by simp, by rw [hkept], fun fair => .inl ⟨hkept, fun hready => ?_⟩⟩
    rw [FlowRuntime.lifecycle_setLifecycle] at hready
    exact absurd ⟨hready, fair⟩ hstamped

namespace Impl.Stamps

theorem of_pace (h : s.SamePace s') : s.Stamps s' where
  policy := h.policy
  clock g := by rw [Impl.groupClock, Impl.groupClock, h.clocks]
  flows id r' hr' := by
    have hflow := h.flows id
    rw [hr', Option.map_some] at hflow
    obtain ⟨r, hr, hpace⟩ := Option.map_eq_some_iff.mp hflow.symm
    exact ⟨r, hr, .of_pace hpace.symm⟩
  kept id r hr := by
    have hflow := h.flows id
    rw [hr, Option.map_some] at hflow
    obtain ⟨r', hr', -⟩ := Option.map_eq_some_iff.mp hflow
    exact ⟨r', hr'⟩
  served g := .inl (by rw [Impl.groupClock, Impl.groupClock, h.clocks])

theorem trans (h : s.Stamps s') (h' : s'.Stamps s'') : s.Stamps s'' where
  policy := h'.policy.trans h.policy
  clock g := (h.clock g).trans (h'.clock g)
  flows id r'' hr'' := by
    obtain ⟨r', hr', hrestamps'⟩ := h'.flows id r'' hr''
    obtain ⟨r, hr, hrestamps⟩ := h.flows id r' hr'
    exact ⟨r, hr, hrestamps.trans hrestamps' h.policy h.clock⟩
  kept id r hr := by
    obtain ⟨r', hr'⟩ := h.kept id r hr
    exact h'.kept id r' hr'
  served g := by
    rcases h'.served g with hsame' | hserved'
    · rcases h.served g with hsame | ⟨id, r', hr', hle⟩
      · exact .inl (hsame'.trans hsame)
      · obtain ⟨r'', hr''⟩ := h'.kept id r' hr'
        obtain ⟨r₀, hr₀, hrestamps⟩ := h'.flows id r'' hr''
        obtain rfl := Option.some.inj (hr'.symm.trans hr₀)
        exact .inr ⟨id, r'', hr'', (hsame'.trans hle).trans hrestamps.grows⟩
    · exact .inr hserved'

instance : IsPreorder Impl Stamps where
  refl _ := .of_pace (SameTempo.of_eq rfl rfl rfl rfl).pace
  trans _ _ _ := .trans

theorem setLifecycle {id : FlowId} {next : FlowLifecycle} {tick : Ticks} :
    s.Stamps (s.setLifecycle id next tick) where
  policy := rfl
  clock _ := Nat.le_refl _
  flows k r' hr' := by
    simp only [Impl.setLifecycle, get_modify] at hr'
    split at hr'
    · obtain ⟨r, hr, rfl⟩ := Option.map_eq_some_iff.mp hr'
      exact ⟨r, hr, restamps_setLifecycle s r next tick⟩
    · exact ⟨r', hr', .refl r'⟩
  kept k r hr := by
    simp only [Impl.setLifecycle, get_modify, hr, Option.map_some]
    split <;> exact ⟨_, rfl⟩
  served _ := .inl (Nat.le_refl _)

theorem advanceGroupClock {id : FlowId} (mem : id ∈ s.flows) :
    s.Stamps (s.advanceGroupClock id r) := by
  obtain ⟨found, hfound⟩ : ∃ found, s.flows[id]? = some found :=
    Option.isSome_iff_exists.mp (Std.ExtTreeMap.mem_iff_isSome_getElem?.mp mem)
  have hle := fun g => @advanceGroupClock_le s r id found hfound g
  have hge : ∀ g, s.groupClock g ≤ (s.advanceGroupClock id r).groupClock g := by
    intro g
    unfold Impl.advanceGroupClock
    split
    · simp only [Impl.groupClock, Std.ExtTreeMap.getD_insert]
      split
      · rename_i hgroup
        obtain rfl := Std.LawfulEqCmp.eq_of_compare hgroup
        split
        · rename_i hlt
          exact Nat.le_of_lt (UInt64.lt_iff_toNat_lt.mp hlt)
        · exact Nat.le_refl _
      · exact Nat.le_refl _
    · exact Nat.le_refl _
  have hflows : (s.advanceGroupClock id r).flows = s.flows ∧
      (s.advanceGroupClock id r).policy = s.policy := by
    unfold Impl.advanceGroupClock
    split <;> exact ⟨rfl, rfl⟩
  obtain ⟨hflows, hpolicy⟩ := hflows
  refine ⟨hpolicy, hge, fun k r' hr' => ⟨r', hflows ▸ hr', .refl r'⟩,
    fun k r hr => ⟨r, hflows ▸ hr⟩, fun g => ?_⟩
  rcases Nat.le_total (s.groupClock g) found.virtualFinish.toNat with hclock | hclock
  · refine .inr ⟨id, found, hflows ▸ hfound, (hle g).trans ?_⟩
    rw [max_eq_right hclock]
  · refine .inl ((hle g).trans ?_)
    rw [max_eq_left hclock]

theorem edits : RoundEdits now Stamps where
  quiet h _ := .of_pace h.pace
  lifecycle _ _ := setLifecycle
  clock mem := advanceGroupClock mem
  recount h := .of_pace h.pace

end Impl.Stamps

end Stamping

/-- The last stamp of the flow, zero as long as it is not registered. -/
def Impl.stampOf (s : Impl) (id : FlowId) : ℕ :=
  s.flows[id]?.elim 0 fun r => r.virtualFinish.toNat

/-- What one call does to the clocks and to the stamps. -/
structure Impl.Paces (s s' : Impl) : Prop where
  clock : ∀ g, s.groupClock g ≤ s'.groupClock g
  stamped : s.policy.weightedFairness → ∀ (id : FlowId) (r' : FlowRuntime),
    s'.flows[id]? = some r' → r'.lifecycle = .ready → ¬ s.IsReady id → s.Outruns (s.stampOf id) r'
  served : ∀ g, s'.groupClock g ≤ s.groupClock g ∨
    ∃ (id : FlowId) (r' : FlowRuntime), s'.flows[id]? = some r' ∧
      s'.groupClock g ≤ r'.virtualFinish.toNat

section Pacing

variable {s t : Impl} {d : FlowDescriptor}

theorem stampOf_of_get {id : FlowId} {r : FlowRuntime} (h : s.flows[id]? = some r) :
    s.stampOf id = r.virtualFinish.toNat := by
  rw [Impl.stampOf, h, Option.elim_some]

theorem stampOf_of_none {id : FlowId} (h : s.flows[id]? = none) : s.stampOf id = 0 := by
  rw [Impl.stampOf, h, Option.elim_none]

namespace Impl.Redefines

/-- Neither does a stamp change nor does a flow become ready. -/
theorem stamp (h : s.Redefines t) {id : FlowId} {r : FlowRuntime} (found : t.flows[id]? = some r) :
    r.virtualFinish.toNat = s.stampOf id ∧ (r.lifecycle = .ready → s.IsReady id) := by
  rcases h.flows id r found with ⟨r₀, hr₀, hsame⟩ | ⟨habsent, hwaits, hstamp⟩
  · rw [stampOf_of_get hr₀]
    exact ⟨by rw [hsame], fun hready => ⟨r₀, hr₀, by rw [hsame] at hready; exact hready⟩⟩
  · rw [stampOf_of_none habsent, hstamp, hwaits]
    exact ⟨rfl, nofun⟩

theorem groupClock (h : s.Redefines t) (g : FairnessGroupId) : t.groupClock g = s.groupClock g := by
  rw [Impl.groupClock, Impl.groupClock, h.clocks]

theorem paces (h : s.Redefines t) : s.Paces t where
  clock g := by rw [h.groupClock]
  stamped _ id r' hr' hready other := absurd ((h.stamp hr').2 hready) other
  served g := .inl (by rw [h.groupClock])

/-- What is redefined first under the policy in force paces the clocks as the rest does. -/
theorem then_stamps {i : Impl} (h : s.Redefines i) (policy : i.policy = s.policy) (h' : i.Stamps t) :
    s.Paces t := by
  refine ⟨fun g => h.groupClock g ▸ h'.clock g, fun fair id r' hr' hready other => ?_,
    fun g => h.groupClock g ▸ h'.served g⟩
  obtain ⟨r, hr, hrestamps⟩ := h'.flows id r' hr'
  obtain ⟨hstamp, hwas⟩ := h.stamp hr
  rcases hrestamps.stamped (policy ▸ fair) with ⟨-, hkept⟩ | hout
  · exact absurd (hwas (hkept hready)) other
  · unfold Impl.Outruns at hout ⊢
    rwa [hstamp, h.groupClock, policy] at hout

end Impl.Redefines

theorem Impl.Stamps.paces (h : s.Stamps t) : s.Paces t := (Redefines.refl s).then_stamps rfl h

end Pacing

section Calls

/-- What every call, accepted or refused, does to the clocks and to the stamps. -/
theorem paces_call (s : Scheduler) (c : Call) : s.impl.Paces (s.call c).2.impl := by
  have hedits : ∀ tick, RoundEdits tick Stamps := fun _ => Stamps.edits
  cases plain : c.defines with
  | false =>
    exact ((hedits _).call plain fun _ s id n => .of_pace (s.samePace_creditFlow id n)).paces
  | true =>
    obtain ⟨i, hdefines, hsame | ⟨hpolicy, -, id, hreleased⟩⟩ := redefines_call s plain
    · rw [hsame]
      exact hdefines.paces
    · rw [hreleased]
      exact hdefines.then_stamps hpolicy (hedits _).releaseScheduledEntry

end Calls

/-- The stamp due to a flow that becomes ready: one cost after its last stamp and after the clock of
its group, whichever is later, or the last stamp of all. -/
def dueStamp (policy : SchedulingPolicy) (d : FlowDescriptor) (previous clock : ℕ) : ℕ :=
  min (max previous clock +
    min d.serviceQuantum.toNat policy.maxQuantum.toNat * 2 ^ 20 / d.weight.toNat) (2 ^ 64 - 1)

section Runs

variable {policy : SchedulingPolicy} {d : FlowDescriptor} {s : Scheduler} {cs : List Call}

theorem dueStamp_eq (checked : policy.validate = .ok ()) (valid : d.validate = .ok ())
    (previous clock : ℕ) :
    dueStamp policy d previous clock =
      min (max previous clock + (FlowRuntime.virtualCost policy d).toNat) (2 ^ 64 - 1) := by
  have hweight : d.weight ≠ 0 := by
    simp only [FlowDescriptor.validate, bind_eq_ok, refuseIf_eq_ok] at valid
    tauto
  rw [toNat_virtualCost checked, shareCost, effectiveWeight, if_neg hweight, dueStamp]

theorem quantum_no_wrap (checked : policy.validate = .ok ()) :
    min d.serviceQuantum.toNat policy.maxQuantum.toNat * 2 ^ 20 < 2 ^ 64 := by
  have hbound : ¬ (policy.maxQuantum = 0 ∨ kMaxQuantum < policy.maxQuantum) := by
    simp only [SchedulingPolicy.validate, bind_eq_ok, refuseIf_eq_ok] at checked
    tauto
  have hmax : policy.maxQuantum.toNat ≤ 2 ^ 40 :=
    UInt64.le_iff_toNat_le.mp (UInt64.not_lt.mp (not_or.mp hbound).2)
  omega

theorem Lived.calls {past : List Record}
    (h : Lived (fun _ _ => True) (fun _ => True) past s) (cs : List Call) :
    Lived (fun _ _ => True) (fun _ => True) past (s.calls cs) := by
  induction cs generalizing s with
  | nil => exact h
  | cons c cs ih => exact ih (h.called c trivial)

theorem calls_concat (s : Scheduler) (cs : List Call) (c : Call) :
    s.calls (cs ++ [c]) = ((s.calls cs).call c).2 := by
  simp [Scheduler.calls]

theorem groupClock_calls_le (s : Scheduler) (cs : List Call) (g : FairnessGroupId) :
    (s.calls cs).impl.groupClock g ≤ s.impl.groupClock g ∨
      ∃ earlier, earlier <+: cs ∧ ∃ (id : FlowId) (r : FlowRuntime),
        (s.calls earlier).impl.flows[id]? = some r ∧
        (s.calls cs).impl.groupClock g ≤ r.virtualFinish.toNat := by
  induction cs using List.reverseRecOn with
  | nil => exact .inl (Nat.le_refl _)
  | append_singleton cs c ih =>
    have hpaces := paces_call (s.calls cs) c
    rw [← calls_concat] at hpaces
    rcases hpaces.served g with hsame | ⟨id, r, hr, hle⟩
    · -- the clock stands still in this call, so an earlier call accounts for it
      refine ih.imp hsame.trans ?_
      rintro ⟨earlier, hearlier, id, r, hr, hle⟩
      exact ⟨earlier, hearlier.trans (List.prefix_append _ _), id, r, hr, hsame.trans hle⟩
    · exact .inr ⟨cs ++ [c], List.prefix_refl _, id, r, hr, hle⟩

theorem groupClock_create {options : SchedulerOptions} {s : Scheduler}
    (h : create options {} = .ok s) (g : FairnessGroupId) : s.impl.groupClock g = 0 := by
  apply groupClock_of_isEmpty
  by_cases durable : options.stateDirectory = ""
  · obtain ⟨_, -, h⟩ := bind_eq_ok.mp h
    rw [if_pos durable] at h
    cases h
    rfl
  · have hempty : Readable [] [] := ⟨by simp, [], rfl, .inl rfl⟩
    obtain ⟨i, P, hi, hP, opened⟩ := create_durable durable hempty h
    cases hi
    cases hP
    obtain ⟨before, after, hmemory⟩ := opened.memory
    rw [hmemory]
    rfl

theorem dueStamp_setLifecycle {i : Impl} {id : FlowId} {r : FlowRuntime} {now : Ticks}
    (checked : i.policy.validate = .ok ()) (fair : i.policy.weightedFairness = true)
    (valid : r.descriptor.validate = .ok ()) (found : i.flows[id]? = some r)
    (other : r.lifecycle ≠ .ready) :
    (i.setLifecycle id .ready now).stampOf id = dueStamp i.policy r.descriptor r.virtualFinish.toNat
      (i.groupClock r.descriptor.fairnessGroup) := by
  have hget : (i.setLifecycle id .ready now).flows[id]? =
      some (r.setLifecycle i.policy (i.clockOf r) .ready now) := by
    simp only [Impl.setLifecycle, get_modify, found, Option.map_some, if_pos]
  rw [stampOf_of_get hget, dueStamp_eq checked valid]
  exact toNat_virtualFinish_ready fair other

/-- While a scheduler is up and fairness is in force, the clocks never go back, every flow that
becomes ready is stamped as is due, and no clock that has moved is ahead of the largest stamp
given. -/
theorem stamped_as_due (past : List Record) (s : Scheduler) (cs : List Call)
    (lived : Lived (fun _ _ => True) (fun _ => True) past s)
    (fair : ∀ before, before <+: cs → (s.calls before).impl.policy.weightedFairness = true) :
    (∀ before c, before ++ [c] <+: cs →
      (∀ g, (s.calls before).impl.groupClock g ≤ (s.calls (before ++ [c])).impl.groupClock g) ∧
      ∀ (id : FlowId) (r : FlowRuntime), (s.calls (before ++ [c])).impl.flows[id]? = some r →
        r.lifecycle = .ready → ¬ (s.calls before).impl.IsReady id →
        dueStamp (s.calls before).impl.policy r.descriptor ((s.calls before).impl.stampOf id)
          ((s.calls before).impl.groupClock r.descriptor.fairnessGroup) ≤ r.virtualFinish.toNat) ∧
    (∀ before g, before <+: cs →
      (s.calls before).impl.groupClock g ≤ s.impl.groupClock g ∨
      ∃ earlier, earlier <+: before ∧ ∃ (id : FlowId) (r : FlowRuntime),
        (s.calls earlier).impl.flows[id]? = some r ∧
        (s.calls before).impl.groupClock g ≤ r.virtualFinish.toNat) ∧
    (∀ options, create options {} = .ok s → ∀ g, s.impl.groupClock g = 0) ∧
    (∀ (i : Impl) (id : FlowId) (r : FlowRuntime) (now : Ticks), i.policy.validate = .ok () →
      i.policy.weightedFairness = true → r.descriptor.validate = .ok () → i.flows[id]? = some r →
      r.lifecycle ≠ .ready →
      (i.setLifecycle id .ready now).stampOf id = dueStamp i.policy r.descriptor
        r.virtualFinish.toNat (i.groupClock r.descriptor.fairnessGroup)) ∧
    (∀ (policy : SchedulingPolicy) (d : FlowDescriptor), policy.validate = .ok () →
      d.validate = .ok () →
      min d.serviceQuantum.toNat policy.maxQuantum.toNat * 2 ^ 20 < 2 ^ 64) := by
  refine ⟨fun before c hrun => ?_, fun before g _ => groupClock_calls_le s before g,
    fun _ => groupClock_create, fun i id r now checked fair valid found other =>
      dueStamp_setLifecycle checked fair valid found other, fun _ _ checked _ => quantum_no_wrap checked⟩
  have hpaces := paces_call (s.calls before) c
  rw [← calls_concat] at hpaces
  refine ⟨hpaces.clock, fun id r hr hready other => ?_⟩
  -- the stamp is counted by the policy before the call and the descriptor after it, both checked
  have hchecked : (s.calls before).impl.policy.validate = .ok () :=
    (lived.calls before).numbered.valid.policy
  have hvalid : r.descriptor.validate = .ok () := by
    refine (lived.calls (before ++ [c])).numbered.valid.flows id _ ?_
    rw [Impl.roster_eq, hr, Option.map_some]
  rw [dueStamp_eq hchecked hvalid]
  exact hpaces.stamped (fair before ((List.prefix_append _ _).trans hrun)) id r hr hready other

end Runs

namespace Sample

set_option maxRecDepth 100000 in
/-- The second of two rivals is stamped in a round and stays ready. -/
theorem stamped_as_due_rivals : ∃ (s : Scheduler) (r : FlowRuntime),
    Lived (fun _ _ => True) (fun _ => True) [] s ∧
    (s.calls [.arbitrate 1]).impl.flows[(⟨2⟩ : FlowId)]? = some r ∧ r.lifecycle = .ready ∧
    ¬ s.impl.IsReady ⟨2⟩ ∧ 0 < r.virtualFinish.toNat ∧
    dueStamp s.impl.policy r.descriptor (s.impl.stampOf ⟨2⟩)
      (s.impl.groupClock r.descriptor.fairnessGroup) ≤ r.virtualFinish.toNat := by
  obtain ⟨s, lived, hfair, hfair', r₀, hr₀, hwaits, r, hr, hready, hpos⟩ : ∃ s,
      Lived (fun _ _ => True) (fun _ => True) [] s ∧
      s.impl.policy.weightedFairness = true ∧
      (s.calls [.arbitrate 1]).impl.policy.weightedFairness = true ∧
      ∃ r₀ ∈ s.impl.flows[(⟨2⟩ : FlowId)]?, r₀.lifecycle = .waiting ∧
      ∃ r ∈ (s.calls [.arbitrate 1]).impl.flows[(⟨2⟩ : FlowId)]?, r.lifecycle = .ready ∧
        0 < r.virtualFinish.toNat :=
    @exists_lived _ _ rivals settled _ (by decide +kernel)
  have hother : ¬ s.impl.IsReady ⟨2⟩ := by
    rintro ⟨r₁, hr₁, hready₁⟩
    obtain rfl := Option.some.inj (hr₀.symm.trans hr₁)
    rw [hwaits] at hready₁
    cases hready₁
  have hall : ∀ before, before <+: [Call.arbitrate 1] →
      (s.calls before).impl.policy.weightedFairness = true := by
    intro before hbefore
    rcases List.prefix_concat_iff.mp (show before <+: [] ++ [Call.arbitrate 1] from hbefore) with
      rfl | hnil
    · exact hfair'
    · obtain rfl := List.prefix_nil.mp hnil
      exact hfair
  have hdue := stamped_as_due [] s [.arbitrate 1] lived hall
  exact ⟨s, r, lived, hr, hready, hother, hpos,
    (hdue.1 [] (.arbitrate 1) (List.prefix_refl _)).2 ⟨2⟩ r hr hready hother⟩

set_option maxRecDepth 100000 in
/-- The directory is opened again without an image, and clock and stamp start anew. -/
theorem not_stamped_as_due : ∃ past s d t,
    Lived (fun _ _ => True) (fun _ => True) past s ∧ s.store = some d ∧
    create durable d.files = .ok t ∧
    Lived (fun _ _ => True) (fun _ => True) (past ++ s.accepted) t ∧
    s.impl.policy.weightedFairness = true ∧ t.impl.policy.weightedFairness = true ∧
    t.impl.groupClock ⟨1⟩ < s.impl.groupClock ⟨1⟩ ∧ t.impl.stampOf ⟨1⟩ < s.impl.stampOf ⟨1⟩ := by
  obtain ⟨s, lived, d, hd, hpath, hfair, t, ht, hfair', hclock, hstamp⟩ : ∃ s,
      Lived (fun _ _ => True) (fun _ => True) [] s ∧ ∃ d ∈ s.store,
        durable.stateDirectory = d.path ∧ s.impl.policy.weightedFairness = true ∧
        ∃ t ∈ (create durable d.files).toOption, t.impl.policy.weightedFairness = true ∧
          t.impl.groupClock ⟨1⟩ < s.impl.groupClock ⟨1⟩ ∧
          t.impl.stampOf ⟨1⟩ < s.impl.stampOf ⟨1⟩ :=
    @exists_lived _ _ (setup ++ [.arbitrate 5, dispatch 5]) durable _ (by decide +kernel)
  exact ⟨[], s, d, t, lived, hd, eq_ok_of_mem ht,
    .reopened lived trivial hd hpath (eq_ok_of_mem ht), hfair, hfair', hclock, hstamp⟩

end Sample

end FlowScheduler

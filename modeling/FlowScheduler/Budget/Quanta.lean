import FlowScheduler.Steps.Reachable

/-! # What a round grants

A window is granted to a flow that may run now, within every bound on it. The
candidates considered afterwards fail, displace incumbents and are granted
windows of their own; none of this takes anything away from the flow.
-/

namespace FlowScheduler

open Failing SchedOp Impl

variable {s s' : Impl} {now : Ticks}

/-- The flow of the entry is ready and may be arbitrated, and the window is within every bound. -/
structure Impl.Serves (s : Impl) (now : Ticks) (e : ScheduleEntry) (r : FlowRuntime) : Prop where
  found : s.flows[e.flow]? = some r
  ready : r.lifecycle = .ready
  derived : s.derivedReadiness r now = .ok ()
  positive : 0 < e.quantum
  work : e.quantum ≤ remainingWork r
  service : e.quantum ≤ r.descriptor.serviceQuantum
  policy : e.quantum ≤ s.policy.maxQuantum
  qos : ∀ qos, s.qosClasses[r.descriptor.qos.id]? = some qos →
    qos.generation = r.descriptor.qos.generation → 0 < qos.maxServicePerDispatch →
    e.quantum ≤ qos.maxServicePerDispatch
  slack : s.policy.strictDeadlines → hasDeadline r.descriptor.deadlineTick →
    e.quantum ≤ if now < r.descriptor.deadlineTick then r.descriptor.deadlineTick - now else 0

theorem Impl.Serves.frame {e : ScheduleEntry} {r : FlowRuntime} (h : s.Serves now e r)
    (found : s'.flows[e.flow]? = some r)
    (completed : ∀ (id : FlowId) (r : FlowRuntime), s.flows[id]? = some r →
      r.lifecycle = .completed → s'.flows[id]? = some r)
    (reservations : s'.reservations = s.reservations) (setting : s'.setting = s.setting) :
    s'.Serves now e r where
  found := found
  ready := h.ready
  derived := derivedReadiness_frame h.derived completed reservations
  positive := h.positive
  work := h.work
  service := h.service
  policy := by
    rw [show s'.policy = s.policy from congrArg Setting.policy setting]
    exact h.policy
  qos := by
    rw [show s'.qosClasses = s.qosClasses from congrArg Setting.qosClasses setting]
    exact h.qos
  slack := by
    rw [show s'.policy = s.policy from congrArg Setting.policy setting]
    exact h.slack

/-- The run entries made so far serve flows that are not considered again. -/
def Round.Serving (round : Round) (s : Impl) (now : Ticks) (rest : List FlowId) : Prop :=
  ∀ e ∈ round.entries, e.kind = .run → e.flow ∉ rest ∧ ∃ r, s.Serves now e r

namespace Round.Serving

variable {round : Round} {rest rest' : List FlowId}

theorem frame (h : round.Serving s now rest) (sub : ∀ id ∈ rest', id ∈ rest)
    (ready : ∀ (id : FlowId) (r : FlowRuntime), id ∉ rest → s.flows[id]? = some r →
      r.lifecycle = .ready → s'.flows[id]? = some r)
    (completed : ∀ (id : FlowId) (r : FlowRuntime), s.flows[id]? = some r →
      r.lifecycle = .completed → s'.flows[id]? = some r)
    (reservations : s'.reservations = s.reservations) (setting : s'.setting = s.setting) :
    round.Serving s' now rest' := by
  intro e he hk
  obtain ⟨hrest, r, hr⟩ := h e he hk
  have hfound := ready _ r hrest hr.found hr.ready
  exact ⟨fun hmem => hrest (sub _ hmem), r, hr.frame hfound completed reservations setting⟩

end Round.Serving

theorem servingInvariant (now : Ticks) :
    RoundInvariant now (fun rest s round => round.Serving s now rest) fun _ _ _ => True where
  skip h e he hk := by
    obtain ⟨hrest, hserves⟩ := h e he hk
    exact ⟨fun hmem => hrest (List.mem_cons_of_mem _ hmem), hserves⟩
  outcome h := h
  unready {id rest s round flow reason o} found ready _ h := by
    have hsame : SameBut id s (s.deferUnready id flow reason now o).1 := sameBut_deferUnready
    refine h.frame (fun _ => List.mem_cons_of_mem _) (fun a r ha hr _ => ?_) (fun a r hr hl => ?_)
      reservations_deferUnready setting_deferUnready
    · exact (hsame a fun he => ha (he ▸ List.mem_cons_self)).trans hr
    · -- the flow that is passed over was ready, so it is nobody's completed dependency
      refine (hsame a ?_).trans hr
      rintro rfl
      obtain rfl := Option.some.inj (found.symm.trans hr)
      rw [ready] at hl
      cases hl
  roll _ h := h.frame (fun _ hid => hid) (fun _ _ _ hr _ => hr) (fun _ _ hr _ => hr) rfl rfl
  room _ _ _ := trivial
  displace {rest s round candidate flow victim} sound _ _ _ chosen h := by
    refine ⟨fun e he hk => ?_, trivial⟩
    have hkept : round.Serving (s.displace victim flow.descriptor.resource.id now) now rest :=
      h.frame (fun _ hid => hid) (fun _ _ _ hr hl => idle_displace sound chosen hr (idle_of_ready hl))
        (fun _ _ hr hl => idle_displace sound chosen hr (idle_of_completed hl))
        reservations_displace (setting_applyAttemptClosed ..)
    rcases List.mem_append.mp he with he | he
    · exact hkept e he hk
    · rw [List.mem_singleton.mp he] at hk
      cases hk
  grant {rest s round candidate flow resource quantum} sound _ fresh eligible _ legal _ h := by
    intro e he hk
    rcases List.mem_append.mp he with he | he
    · obtain ⟨hrest, hserves⟩ := h e he hk
      exact ⟨fun hmem => hrest (List.mem_cons_of_mem _ hmem), hserves⟩
    · obtain rfl := List.mem_singleton.mp he
      have hkey : flow.descriptor.flow = candidate.flow := sound.keyed.key _ _ eligible.found
      obtain ⟨hpos, hwork, -⟩ := legalQuantum_spec legal
      obtain ⟨hservice, hpolicy, hqos, hslack⟩ := legalQuantum_bounds legal
      refine ⟨?_, flow, ?_, eligible.ready, eligible.derived, hpos, hwork, hservice, hpolicy, hqos,
        hslack⟩
      · rw [runEntry, hkey]
        exact fresh
      · rw [runEntry, hkey]
        exact eligible.found

theorem entries_issueSchedule {entries : List ScheduleEntry} {u t : Scheduler} {schedule : Schedule}
    (h : exec (issueSchedule entries now) u = (.ok schedule, t)) : schedule.entries = entries := by
  unfold issueSchedule at h
  rw [exec_readImpl_bind, exec_modifyImpl_bind] at h
  obtain ⟨_, v, -, h⟩ := exec_bind_ok.mp h
  rw [exec_modifyImpl_bind, exec_readImpl_bind] at h
  obtain ⟨_, v, -, h⟩ := exec_bind_ok.mp h
  rw [exec_readImpl_bind] at h
  obtain ⟨_, v, -, h⟩ := exec_bind_ok.mp h
  rw [exec_modifyImpl_bind] at h
  cases h
  rfl

theorem entries_concludeRound {round : Round} {u t : Scheduler} {o : ArbitrationOutcome}
    (h : exec (concludeRound now round) u = (.ok o, t)) : o.schedule.entries = round.entries := by
  unfold concludeRound at h
  split at h
  · rename_i hempty
    rw [exec_readImpl_bind] at h
    cases h
    exact hempty.symm
  · obtain ⟨schedule, v, hissue, h⟩ := exec_bind_ok.mp h
    cases h
    exact entries_issueSchedule hissue

/-- Where the loop of a successful round has ended, the flow of each run entry is released, not
withheld, finds its dependencies completed and its reservation usable, is within its deadline and is
live, and the window is positive and within every bound. -/
theorem run_entries_served (s t : Scheduler) (now : Ticks) (o : ArbitrationOutcome)
    (reachable : Reachable s) (round : exec (arbitrate now) s = (.ok o, t)) :
    ∃ decided u, exec (decideGrants now) s = (.ok decided, u) ∧
      exec (concludeRound now decided) u = (.ok o, t) ∧
      ∀ e ∈ o.schedule.entries, e.kind = .run → ∃ r, u.impl.flows[e.flow]? = some r ∧
        r.descriptor.releaseTick ≤ now ∧
        r.descriptor.readinessSignal ≠ 2 ∧
        (r.descriptor.autoReady ∨ r.descriptor.readinessSignal = 1) ∧
        (∀ dependency ∈ r.descriptor.dependencies, ∃ found,
          u.impl.flows[dependency]? = some found ∧ found.lifecycle = .completed) ∧
        u.impl.reservationUsable r now = .ok () ∧
        (hasDeadline r.descriptor.deadlineTick → now < r.descriptor.deadlineTick) ∧
        r.lifecycle ≠ .ambiguous ∧ r.lifecycle.isTerminal = false ∧
        1 ≤ e.quantum ∧ e.quantum ≤ remainingWork r ∧ e.quantum ≤ r.descriptor.serviceQuantum ∧
        e.quantum ≤ u.impl.policy.maxQuantum ∧
        (∀ qos, u.impl.qosClasses[r.descriptor.qos.id]? = some qos →
          qos.generation = r.descriptor.qos.generation → 0 < qos.maxServicePerDispatch →
          e.quantum ≤ qos.maxServicePerDispatch) ∧
        (u.impl.policy.strictDeadlines → hasDeadline r.descriptor.deadlineTick →
          e.quantum ≤ r.descriptor.deadlineTick - now) := by
  rw [arbitrate_eq] at round
  obtain ⟨decided, u, hdecide, hconclude⟩ := exec_bind_ok.mp round
  have hserving : decided.Serving u.impl now [] := by
    have hrun := runs_decideGrants (servingInvariant now) reachable.sound
      fun _ _ _ _ _ e he => by cases he
    rw [Runs, hdecide] at hrun
    exact (hrun.2 decided rfl).1
  refine ⟨decided, u, hdecide, hconclude, fun e he hk => ?_⟩
  rw [entries_concludeRound hconclude] at he
  obtain ⟨-, r, hserves⟩ := hserving e he hk
  obtain ⟨hlive, hresolved, hopen, hsignal, hreleased, hsatisfied, husable, htimely⟩ :=
    derivedReadiness_eq_ok.mp hserves.derived
  have hbefore : hasDeadline r.descriptor.deadlineTick → now < r.descriptor.deadlineTick :=
    fun hdeadline => UInt64.not_le.mp fun hle => htimely ⟨hdeadline, hle⟩
  refine ⟨r, hserves.found, hreleased, hopen, hsignal, dependenciesSatisfied_iff.mp hsatisfied,
    husable, hbefore, hresolved, hlive, ?_, hserves.work,
    hserves.service, hserves.policy, hserves.qos, fun hstrict hdeadline => ?_⟩
  · have hpositive := hserves.positive
    rw [UInt64.lt_iff_toNat_lt] at hpositive
    rw [UInt64.le_iff_toNat_le]
    exact hpositive
  · have hslack := hserves.slack hstrict hdeadline
    rwa [if_pos (hbefore hdeadline)] at hslack

namespace Sample

set_option maxRecDepth 100000 in
/-- The first round of the deployment grants a window. -/
theorem run_entries_served_first : ∃ (s u : Scheduler) (o : ArbitrationOutcome) (decided : Round)
    (e : ScheduleEntry) (r : FlowRuntime), Reachable s ∧ e ∈ o.schedule.entries ∧
    exec (decideGrants 5) s = (.ok decided, u) ∧ u.impl.flows[e.flow]? = some r ∧
    r.descriptor.releaseTick ≤ 5 ∧ 1 ≤ e.quantum ∧ e.quantum ≤ remainingWork r := by
  obtain ⟨s, reachable, o, ho, e, he, hk⟩ : ∃ s, Reachable s ∧
      ∃ o ∈ (exec (arbitrate 5) s).1.toOption, ∃ e ∈ o.schedule.entries, e.kind = .run :=
    @exists_reachable transient setup _ (by decide +kernel)
  obtain ⟨decided, u, hdecide, -, hserved⟩ :=
    run_entries_served s _ 5 o reachable (exec_eq_of_mem ho)
  obtain ⟨r, hr, hreleased, -, -, -, -, -, -, -, hpositive, hwork, -⟩ := hserved e he hk
  exact ⟨s, u, o, decided, e, r, reachable, he, hdecide, hr, hreleased, hpositive, hwork⟩

end Sample

end FlowScheduler

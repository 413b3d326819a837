import FlowScheduler.Steps.Reachable
import FlowScheduler.Steps.Registry
import FlowScheduler.Steps.Windows

/-! # What a dispatch is backed by

A ticket is handed out for an undelivered entry whose whole authority is
current. The policy the schedule was issued under is not looked at again: it is
the current one as long as no policy is installed over scheduled flows.
-/

namespace FlowScheduler

open Failing SchedOp OrderedMap

def DispatchTicket.authority (t : DispatchTicket) : Authority where
  flow := t.flow
  flowGeneration := t.flowGeneration
  resource := t.resource
  resourceGeneration := t.resourceGeneration
  path := t.path
  pathGeneration := t.pathGeneration
  reservation := t.reservation
  reservationGeneration := t.reservationGeneration
  qos := t.qos
  qosGeneration := t.qosGeneration
  priority := t.priority
  priorityGeneration := t.priorityGeneration
  policy := t.policy
  policyGeneration := t.policyGeneration
  epoch := t.epoch
  deadline := t.deadlineTick
  reservationEnd := t.reservationEnd

/-- Everything that must be current when a ticket is handed out. -/
structure Backed (s : Impl) (schedule : ScheduleId) (generation : Generation) (ordinal : UInt32)
    (now : Ticks) (ticket : DispatchTicket) (runtime : ScheduleRuntime) (entry : ScheduleEntry)
    (flow : FlowRuntime) : Prop where
  authority : ticket.authority = s.entryAuthority entry
  names : ticket.schedule = schedule ∧ ticket.scheduleGeneration = generation
  retained : s.schedules[schedule]? = some runtime
  generation : runtime.schedule.generation = generation
  epoch : runtime.schedule.epoch = s.epoch
  policy : runtime.schedule.policy = s.policy.policy
  policyGeneration : runtime.schedule.policyGeneration = s.policy.generation
  named : runtime.schedule.entries[ordinal.toNat]? = some entry
  undelivered : runtime.consumed[ordinal.toNat]? = some 0
  run : entry.kind = .run
  found : s.flows[entry.flow]? = some flow
  scheduled : flow.lifecycle = .scheduled
  holds : flow.scheduledSchedule = schedule
  current : s.AuthorityCurrent (s.entryAuthority entry) now

section Dispatch

variable {s t : Scheduler} {schedule : ScheduleId} {generation : Generation} {ordinal : UInt32}
  {worker : WorkerId} {boot : BootId} {now : Ticks} {response : Response}

theorem dispatches_of_call
    (h : s.call (.beginDispatch schedule generation ordinal worker boot now) = (.ok response, t)) :
    ∃ entry flow, s.impl.Dispatches schedule generation ordinal worker boot now entry flow ∧
      response = .ticket (s.impl.issueTicket schedule generation entry worker boot now) := by
  obtain ⟨ticket, u, hdispatch, hresponse⟩ := exec_bind_ok.mp h
  cases hresponse
  rw [beginDispatch, exec_touch_bind, exec_readImpl_bind, exec_lift_bind] at hdispatch
  cases hguard : s.impl.beginDispatchGuard schedule generation ordinal worker boot now with
  | error e =>
    have hrefused : ({ s.impl with lastTick := max s.impl.lastTick now } : Impl).beginDispatchGuard
        schedule generation ordinal worker boot now = .error e := hguard
    rw [hrefused] at hdispatch
    cases hdispatch
  | ok p =>
    obtain ⟨entry, flow⟩ := p
    have hpassed : ({ s.impl with lastTick := max s.impl.lastTick now } : Impl).beginDispatchGuard
        schedule generation ordinal worker boot now = .ok (entry, flow) := hguard
    rw [hpassed] at hdispatch
    obtain ⟨_, u₁, -, hdispatch⟩ := exec_bind_ok.mp hdispatch
    rw [exec_modifyImpl_bind, exec_readImpl_bind, exec_lift_bind] at hdispatch
    split at hdispatch
    · cases hdispatch
      exact ⟨entry, flow, Impl.beginDispatchGuard_eq_ok.mp hguard, rfl⟩
    · cases hdispatch

end Dispatch

/-- Every scheduled flow was scheduled under the policy in force. -/
def PolicyKept (s : Impl) : Prop :=
  s.EachWindow fun _ _ schedule =>
    schedule.policy = s.policy.policy ∧ schedule.policyGeneration = s.policy.generation

namespace PolicyKept

variable {s s' : Impl}

theorem move {c : Call} {r : Option Record} (h : PolicyKept s) (m : Move c s r s')
    (keeps : ∀ policy, c ≠ .installPolicy policy) : PolicyKept s' := by
  have policy : s'.policy = s.policy := m.policy keeps
  unfold PolicyKept
  rw [policy]
  rcases m with m | ⟨now, -, m⟩
  · exact Impl.EachWindow.callMove h (fun _ _ _ _ _ hkept => hkept) m
  · refine Impl.EachWindow.roundMove h (fun _ _ _ _ _ hkept => hkept) m ?_
    exact fun _ _ _ _ _ _ => ⟨rfl, rfl⟩

end PolicyKept

def NoneScheduled (s : Impl) : Prop := ∀ entry ∈ s.flows.toList, entry.2.lifecycle ≠ .scheduled

instance (s : Impl) : Decidable (NoneScheduled s) :=
  inferInstanceAs (Decidable (∀ entry ∈ s.flows.toList, entry.2.lifecycle ≠ .scheduled))

/-- A policy is accepted only while no flow is scheduled. -/
def KeepsPolicy (s : Scheduler) : Call → Prop
  | .installPolicy policy => s.impl.installPolicyGuard policy = .ok () → NoneScheduled s.impl
  | _ => True

instance : ∀ s c, Decidable (KeepsPolicy s c) := by
  intro s c
  cases c <;> unfold KeepsPolicy <;> infer_instance

theorem impl_installPolicy (s : Scheduler) (policy : SchedulingPolicy) :
    (s.call (.installPolicy policy)).2.impl = s.impl ∨
      (s.impl.installPolicyGuard policy = .ok () ∧
        (s.call (.installPolicy policy)).2.impl = s.impl.applyPolicy policy) := by
  have h : (exec (installPolicy policy) s).2.impl = s.impl ∨
      (s.impl.installPolicyGuard policy = .ok () ∧
        (exec (installPolicy policy) s).2.impl = s.impl.applyPolicy policy) := impl_guarded
  rwa [← exec_done] at h

theorem policyKept_of_reachableBy {s : Scheduler} (h : ReachableBy KeepsPolicy s) :
    PolicyKept s.impl := by
  refine h.invariant (fun _ _ _ hs => Impl.EachWindow.of_schedules_empty (schedules_create hs)) ?_
  intro s c sound ok kept
  by_cases hc : ∃ policy, c = .installPolicy policy
  · obtain ⟨policy, rfl⟩ := hc
    rcases impl_installPolicy s policy with hsame | ⟨hguard, hinstalled⟩
    · rw [hsame]
      exact kept
    · rw [hinstalled]
      intro id r hr hl
      exact absurd hl (ok hguard _ (mem_toList.mpr hr))
  · exact preserves_call (fun _ _ _ m hk => hk.move m fun policy hp => hc ⟨policy, hp⟩) sound kept

/-- A ticket is handed out only for an undelivered entry of a retained schedule whose whole
authority, its own epoch and policy included, is current. -/
theorem beginDispatch_backed {s t : Scheduler} {schedule : ScheduleId} {generation : Generation}
    {ordinal : UInt32} {worker : WorkerId} {boot : BootId} {now : Ticks} {response : Response}
    (reachable : ReachableBy KeepsPolicy s)
    (h : s.call (.beginDispatch schedule generation ordinal worker boot now) = (.ok response, t)) :
    ∃ ticket runtime entry flow, response = .ticket ticket ∧
      Backed s.impl schedule generation ordinal now ticket runtime entry flow := by
  obtain ⟨entry, flow, hd, rfl⟩ := dispatches_of_call h
  obtain ⟨runtime, hretained, hgeneration, hepoch, hnamed, hundelivered⟩ := hd.retained
  have hkept := policyKept_of_reachableBy reachable entry.flow flow hd.found hd.scheduled runtime
  rw [hd.holds] at hkept
  obtain ⟨hpolicy, hpolicyGeneration⟩ := hkept hretained
  exact ⟨_, runtime, entry, flow, rfl, rfl, ⟨rfl, rfl⟩, hretained, hgeneration, hepoch, hpolicy,
    hpolicyGeneration, hnamed, hundelivered, hd.run, hd.found, hd.scheduled, hd.holds, hd.authority⟩

section Sample

open Sample

/-- A second policy, installed while the flow is scheduled. -/
def otherPolicy : SchedulingPolicy := { policy with policy := ⟨2⟩ }

set_option maxRecDepth 100000 in
theorem beginDispatch_backed_deployed : ∃ s response t, ReachableBy KeepsPolicy s ∧
    s.call (dispatch 5) = (.ok response, t) ∧ ∃ ticket runtime entry flow,
      response = .ticket ticket ∧ Backed s.impl ⟨1⟩ ⟨1⟩ 0 5 ticket runtime entry flow := by
  obtain ⟨s, reachable, hok⟩ : ∃ s, ReachableBy KeepsPolicy s ∧
      (s.call (dispatch 5)).1.toOption.isSome :=
    @exists_reachableBy transient (.installPolicy otherPolicy :: setup ++ [.arbitrate 5]) _ _
      (by decide +kernel)
  obtain ⟨response, t, hcall⟩ := call_of_isSome hok
  exact ⟨s, response, t, reachable, hcall, beginDispatch_backed reachable hcall⟩

set_option maxRecDepth 100000 in
/-- A schedule issued under one policy is dispatched under the next. -/
theorem not_beginDispatch_backed : ∃ s response t, Reachable s ∧
    s.call (dispatch 5) = (.ok response, t) ∧ ¬ ∃ ticket runtime entry flow,
      response = .ticket ticket ∧ Backed s.impl ⟨1⟩ ⟨1⟩ 0 5 ticket runtime entry flow := by
  obtain ⟨s, reachable, hok, hpolicy⟩ : ∃ s, Reachable s ∧
      (s.call (dispatch 5)).1.toOption.isSome ∧
      ∀ runtime ∈ s.impl.schedules[(⟨1⟩ : ScheduleId)]?,
        runtime.schedule.policy ≠ s.impl.policy.policy :=
    @exists_reachable transient (setup ++ [.arbitrate 5, .installPolicy otherPolicy]) _
      (by decide +kernel)
  obtain ⟨response, t, hcall⟩ := call_of_isSome hok
  refine ⟨s, response, t, reachable, hcall, ?_⟩
  rintro ⟨ticket, runtime, entry, flow, -, hbacked⟩
  exact hpolicy runtime hbacked.retained hbacked.policy

end Sample

end FlowScheduler

import FlowScheduler.Fairness.Turns

/-! # Shares of service

Backlogged flows that became ready together are served in proportion to their
weights, whatever their fairness groups. Stamps of different groups are compared
although their clocks differ. Flows that come from different pasts are served
evenly only if their stamps begin close together.
-/

namespace FlowScheduler

open ByteCodec (Bytes)
open Failing SchedOp Impl OrderedMap

/-- The cost of one window of the flow in units of virtual time. -/
def shareCost (policy : SchedulingPolicy) (d : FlowDescriptor) : ℕ :=
  min d.serviceQuantum.toNat policy.maxQuantum.toNat * 2 ^ 20 / (effectiveWeight d).toNat

theorem toNat_virtualCost {policy : SchedulingPolicy} {d : FlowDescriptor}
    (checked : policy.validate = .ok ()) :
    (FlowRuntime.virtualCost policy d).toNat = shareCost policy d := by
  have hmax : policy.maxQuantum.toNat ≤ 2 ^ 40 := by
    have hbound : ¬ (policy.maxQuantum = 0 ∨ kMaxQuantum < policy.maxQuantum) := by
      simp only [SchedulingPolicy.validate, bind_eq_ok, refuseIf_eq_ok] at checked
      tauto
    have hle := UInt64.le_iff_toNat_le.mp (UInt64.not_lt.mp (not_or.mp hbound).2)
    exact hle
  have hquantum : (if policy.maxQuantum < d.serviceQuantum then policy.maxQuantum
      else d.serviceQuantum).toNat = min d.serviceQuantum.toNat policy.maxQuantum.toNat := by
    split <;> rename_i h <;> rw [UInt64.lt_iff_toNat_lt] at h <;> omega
  have hscale : kVirtualTimeScale.toNat = 2 ^ 20 := rfl
  unfold FlowRuntime.virtualCost shareCost
  dsimp only
  rw [UInt64.toNat_div, UInt64.toNat_mul, hquantum, hscale, Nat.mod_eq_of_lt]
  have : min d.serviceQuantum.toNat policy.maxQuantum.toNat ≤ 2 ^ 40 := (min_le_right _ _).trans hmax
  omega

section Shares

variable {s : Impl} {K : Set FlowId} {id : FlowId} {r : FlowRuntime}

def Impl.descriptorOf (s : Impl) (id : FlowId) : FlowDescriptor :=
  (s.flows[id]?.map FlowRuntime.descriptor).getD {}

theorem descriptorOf_eq (found : s.flows[id]? = some r) : s.descriptorOf id = r.descriptor := by
  simp only [Impl.descriptorOf, found, Option.map_some, Option.getD_some]

theorem holds_descriptorOf (found : ∀ id ∈ K, ∃ r, s.flows[id]? = some r) :
    s.Holds s.policy K s.descriptorOf := by
  refine ⟨rfl, fun id hid => ?_⟩
  obtain ⟨r, hr⟩ := found id hid
  exact ⟨r, hr, (descriptorOf_eq hr).symm⟩

end Shares

/-- Flows that become ready together and may be arbitrated in every round are served in proportion. -/
theorem served_in_proportion (s t : Scheduler) (K : Set FlowId) (resource : Binding .resource)
    (rank : UInt32) (served : List FlowId) (i j : FlowId) (rᵢ rⱼ : FlowRuntime)
    (reachable : Reachable s) (checked : s.impl.policy.validate = .ok ())
    (fair : s.impl.policy.weightedFairness = true) (clocks : ∀ g, s.impl.groupClock g = 0)
    (fresh : ∀ id ∈ K, ∃ r, s.impl.flows[id]? = some r ∧ r.lifecycle = .waiting ∧
      r.virtualFinish = 0)
    (stretch : Stretch (Contested K resource rank) s served t) (hi : i ∈ K) (hj : j ∈ K)
    (foundᵢ : s.impl.flows[i]? = some rᵢ) (foundⱼ : s.impl.flows[j]? = some rⱼ) :
    served.count i * shareCost s.impl.policy rᵢ.descriptor ≤
      (served.count j + 1) * shareCost s.impl.policy rⱼ.descriptor := by
  have hfirst : ∀ id ∈ K, (s.impl.queues fun _ => 0).stamp id =
      (FlowRuntime.virtualCost s.impl.policy (s.impl.descriptorOf id)).toNat := by
    intro id hid
    obtain ⟨r, hr, hwaiting, hzero⟩ := fresh id hid
    have hclock : (s.impl.clockOf r).toNat = 0 := clocks _
    have hcost := (FlowRuntime.virtualCost s.impl.policy r.descriptor).toNat_lt
    rw [stamp_queues hr, descriptorOf_eq hr, nextFinish_of_waiting hwaiting, hzero,
      if_neg (by rw [UInt64.lt_iff_toNat_lt, hclock]; exact Nat.not_lt_zero _), toNat_saturatingAdd]
    simp only [UInt64.toNat_zero, Nat.zero_add]
    omega
  have hend := stretch.fair reachable.sound fair
    (holds_descriptorOf fun id hid => (fresh id hid).imp fun _ h => h.1)
    (FairQueueing.Fair.start (fun id hid => (clocks _).le.trans (Nat.zero_le _)) (fun _ => rfl) hfirst)
  have hshare := hend.share hi hj
  simp only [Impl.queues, Nat.zero_add, descriptorOf_eq foundᵢ, descriptorOf_eq foundⱼ,
    toNat_virtualCost checked] at hshare
  exact hshare

theorem groupClock_of_isEmpty {s : Impl} (h : s.virtualTime.isEmpty = true) (g : FairnessGroupId) :
    s.groupClock g = 0 := by
  rw [Impl.groupClock, Std.ExtTreeMap.isEmpty_iff.mp h, Std.ExtTreeMap.getD_empty]
  rfl

namespace Sample

/-- Evidence that the whole quantum of the ticket was served. -/
def evidence (t : DispatchTicket) : CompletionEvidence :=
  { schedule := t.schedule, scheduleGeneration := t.scheduleGeneration, attempt := t.attempt
    epoch := t.epoch, flow := t.flow, flowGeneration := t.flowGeneration, worker := t.worker
    boot := t.boot, served := t.quantum, provenance }

def turn (now : Ticks) (s : Scheduler) : Option (ScheduleEntry × Scheduler) :=
  match exec (arbitrate now) s with
  | (.ok o, issued) => match o.schedule.entries with
    | [e] => match exec (beginDispatch o.schedule.schedule o.schedule.generation e.ordinal ⟨7⟩ ⟨8⟩
        now) issued with
      | (.ok ticket, begun) => match exec (complete (evidence ticket) now) begun with
        | (.ok outcome, t) => match t.impl.flows[e.flow]? with
          | some r => if e.kind = .run ∧ ticket.flow = e.flow ∧ outcome.disposition = .applied ∧
              (r.lifecycle = .waiting ∨ r.lifecycle = .ready) then some (e, t) else none
          | none => none
        | _ => none
      | _ => none
    | _ => none
  | _ => none

theorem turn_of_eq {now : Ticks} {s t : Scheduler} {e : ScheduleEntry}
    (h : turn now s = some (e, t)) : Turn s now e t := by
  unfold turn at h
  split at h
  · rename_i o issued arbitrated
    split at h
    · rename_i entry single
      split at h
      · rename_i ticket begun dispatched
        split at h
        · rename_i outcome after completed
          split at h
          · rename_i r found
            split at h
            · rename_i hall
              cases h
              exact .intro arbitrated single hall.1 dispatched hall.2.1 completed ⟨rfl, rfl⟩
                hall.2.2.1 found hall.2.2.2
            · cases h
          · cases h
        · cases h
      · cases h
    · cases h
  · cases h

/-- The flows served by a number of turns at the tick, each as allowed. -/
def turns (allowed : Scheduler → Ticks → ScheduleEntry → Scheduler → Prop)
    [∀ s now e t, Decidable (allowed s now e t)] (now : Ticks) :
    ℕ → Scheduler → Option (List FlowId × Scheduler)
  | 0, s => some ([], s)
  | n + 1, s => match turn now s with
    | some (e, u) =>
      if allowed s now e u then
        (turns allowed now n u).map fun (served, t) => (e.flow :: served, t)
      else none
    | none => none

theorem stretch_of_turns {allowed : Scheduler → Ticks → ScheduleEntry → Scheduler → Prop}
    [∀ s now e t, Decidable (allowed s now e t)] {now : Ticks} {n : ℕ} {s t : Scheduler}
    {served : List FlowId} (h : turns allowed now n s = some (served, t)) :
    Stretch allowed s served t := by
  induction n generalizing s served with
  | zero =>
    cases h
    exact .nil
  | succ n ih =>
    unfold turns at h
    split at h
    · rename_i e u hturn
      split at h
      · obtain ⟨⟨rest, t'⟩, hrest, hpair⟩ := Option.map_eq_some_iff.mp h
        cases hpair
        exact .cons (turn_of_eq hturn) ‹_› (ih hrest)
      · cases h
    · cases h

def settled : SchedulerOptions := { policy := { policy with preemption := .none } }

def busy (n : UInt64) : FlowDescriptor := { flow n with estimatedWork := 1000 }

abbrev two : List FlowId := [⟨1⟩, ⟨2⟩]

abbrev both : Set FlowId := {id | id ∈ two}

theorem first_mem : ⟨1⟩ ∈ both := List.mem_cons_self

theorem second_mem : ⟨2⟩ ∈ both := List.mem_cons_of_mem _ List.mem_cons_self

theorem both_eq : both = {⟨1⟩, ⟨2⟩} := by
  ext id
  simp [both, two]

def rivals : List Call :=
  [.registerResource resource, .registerPriorityClass priority, .registerQosClass qos,
    .admitFlow (busy 1), .admitFlow (busy 2)]

set_option maxRecDepth 100000 in
theorem served_in_proportion_rivals : ∃ s t served r₁ r₂, Reachable s ∧
    Stretch (Contested both ⟨⟨1⟩, ⟨1⟩⟩ 1) s served t ∧
    s.impl.flows[(⟨1⟩ : FlowId)]? = some r₁ ∧ s.impl.flows[(⟨2⟩ : FlowId)]? = some r₂ ∧
    served = [⟨1⟩, ⟨2⟩] ∧ served.count ⟨1⟩ * shareCost s.impl.policy r₁.descriptor ≤
      (served.count ⟨2⟩ + 1) * shareCost s.impl.policy r₂.descriptor := by
  obtain ⟨s, reachable, hchecked, hfair, hclocks, hfresh, r₁, hr₁, r₂, hr₂, ⟨served, t⟩, hturns,
      hserved⟩ : ∃ s, Reachable s ∧ s.impl.policy.validate = .ok () ∧
      s.impl.policy.weightedFairness = true ∧ s.impl.virtualTime.isEmpty = true ∧
      (∀ id ∈ two, ∃ r ∈ s.impl.flows[id]?, r.lifecycle = .waiting ∧
        r.virtualFinish = 0) ∧
      ∃ r₁ ∈ s.impl.flows[(⟨1⟩ : FlowId)]?, ∃ r₂ ∈ s.impl.flows[(⟨2⟩ : FlowId)]?,
      ∃ p ∈ turns (Contested both ⟨⟨1⟩, ⟨1⟩⟩ 1) 1 2 s,
        p.1 = [⟨1⟩, ⟨2⟩] :=
    @exists_reachable settled rivals _ (by decide +kernel)
  have hstretch := stretch_of_turns hturns
  exact ⟨s, t, served, r₁, r₂, reachable, hstretch, hr₁, hr₂, hserved,
    served_in_proportion s t _ ⟨⟨1⟩, ⟨1⟩⟩ 1 served ⟨1⟩ ⟨2⟩ r₁ r₂ reachable hchecked hfair
      (groupClock_of_isEmpty hclocks) hfresh hstretch first_mem second_mem hr₁ hr₂⟩

/-- The second flow is bound to a reservation that covers one window. -/
def reserved : List Call :=
  [.registerResource resource, .registerPriorityClass priority, .registerQosClass qos,
    .registerReservation
      { reservation := ⟨1⟩, generation := ⟨1⟩, resource := ⟨1⟩, resourceGeneration := ⟨1⟩
        windowEnd := 100, capacity := 5, provenance },
    .admitFlow (busy 1), .admitFlow { busy 2 with reservation := ⟨⟨1⟩, ⟨1⟩⟩ }]

set_option maxRecDepth 100000 in
/-- Once its reservation is used up the flow waits, and the other one is served alone. -/
theorem not_served_in_proportion : ¬ ∀ (s u t : Scheduler) (K : Set FlowId)
    (resource : Binding .resource) (rank : UInt32) (now : Ticks) (e : ScheduleEntry)
    (served : List FlowId) (i j : FlowId) (rᵢ rⱼ : FlowRuntime), Reachable s →
    s.impl.policy.validate = .ok () → s.impl.policy.weightedFairness = true →
    s.impl.policy.preemption = .none →
    (∃ x, s.impl.resources[resource.id]? = some x ∧ x.descriptor.maxOverlap = 1) →
    (∀ g, s.impl.groupClock g = 0) →
    (∀ id ∈ K, ∃ r, s.impl.flows[id]? = some r ∧ r.lifecycle = .waiting ∧ r.virtualFinish = 0 ∧
      r.descriptor.minService = 0) →
    s.impl.Contend K resource rank now → Turn s now e u → Plain resource rank s e u →
    Stretch (fun s _ e t => Plain resource rank s e t) u served t →
    (∀ id ∈ e.flow :: served, id ∈ K) → i ∈ K → j ∈ K →
    s.impl.flows[i]? = some rᵢ → s.impl.flows[j]? = some rⱼ →
    (e.flow :: served).count i * shareCost s.impl.policy rᵢ.descriptor ≤
      ((e.flow :: served).count j + 1) * shareCost s.impl.policy rⱼ.descriptor := by
  intro h
  obtain ⟨s, reachable, hchecked, hfair, hnone, hresource, hclocks, hfresh, hcontend, r₁, hr₁, r₂,
      hr₂, hcost₁, hcost₂, ⟨e, u⟩, hturn, hplain, ⟨served, t⟩, hturns, hfirst, hserved⟩ : ∃ s,
      Reachable s ∧ s.impl.policy.validate = .ok () ∧ s.impl.policy.weightedFairness = true ∧
      s.impl.policy.preemption = .none ∧
      (∃ x ∈ s.impl.resources[(⟨1⟩ : ResourceId)]?, x.descriptor.maxOverlap = 1) ∧
      s.impl.virtualTime.isEmpty = true ∧
      (∀ id ∈ two, ∃ r ∈ s.impl.flows[id]?, r.lifecycle = .waiting ∧
        r.virtualFinish = 0 ∧ r.descriptor.minService = 0) ∧
      s.impl.Contend both ⟨⟨1⟩, ⟨1⟩⟩ 1 1 ∧
      ∃ r₁ ∈ s.impl.flows[(⟨1⟩ : FlowId)]?, ∃ r₂ ∈ s.impl.flows[(⟨2⟩ : FlowId)]?,
        shareCost s.impl.policy r₁.descriptor = 5242880 ∧
        shareCost s.impl.policy r₂.descriptor = 5242880 ∧
        ∃ p ∈ turn 1 s, Plain ⟨⟨1⟩, ⟨1⟩⟩ 1 s p.1 p.2 ∧
          ∃ q ∈ turns (fun s _ e t => Plain ⟨⟨1⟩, ⟨1⟩⟩ 1 s e t) 1 3 p.2,
            p.1.flow = ⟨1⟩ ∧ q.1 = [⟨2⟩, ⟨1⟩, ⟨1⟩] :=
    @exists_reachable settled reserved _ (by decide +kernel)
  dsimp only at hplain hturns hfirst hserved
  have hmem : ∀ id ∈ ([⟨1⟩, ⟨2⟩, ⟨1⟩, ⟨1⟩] : List FlowId), id ∈ two := by decide
  have hle := h s u t _ ⟨⟨1⟩, ⟨1⟩⟩ 1 1 e served ⟨1⟩ ⟨2⟩ r₁ r₂ reachable hchecked hfair hnone
    hresource (groupClock_of_isEmpty hclocks) hfresh hcontend (turn_of_eq hturn) hplain
    (stretch_of_turns hturns) (hfirst ▸ hserved ▸ hmem) first_mem second_mem hr₁ hr₂
  rw [hfirst, hserved, hcost₁, hcost₂] at hle
  revert hle
  decide

end Sample

/-- Two flows of one cost are served evenly if neither stamp is behind its clock and the stamps begin
less than two costs apart. -/
theorem served_evenly (s t : Scheduler) (resource : Binding .resource) (rank : UInt32)
    (served : List FlowId) (i j : FlowId) (rᵢ rⱼ : FlowRuntime) (reachable : Reachable s)
    (fair : s.impl.policy.weightedFairness = true) (foundᵢ : s.impl.flows[i]? = some rᵢ)
    (foundⱼ : s.impl.flows[j]? = some rⱼ) (weight : rᵢ.descriptor.weight = rⱼ.descriptor.weight)
    (quantum : rᵢ.descriptor.serviceQuantum = rⱼ.descriptor.serviceQuantum)
    (behind : s.impl.groupClock rᵢ.descriptor.fairnessGroup ≤ (s.impl.nextFinish rᵢ).toNat ∧
      s.impl.groupClock rⱼ.descriptor.fairnessGroup ≤ (s.impl.nextFinish rⱼ).toNat)
    (near : (s.impl.nextFinish rᵢ).toNat < (s.impl.nextFinish rⱼ).toNat +
        2 * (FlowRuntime.virtualCost s.impl.policy rⱼ.descriptor).toNat ∧
      (s.impl.nextFinish rⱼ).toNat < (s.impl.nextFinish rᵢ).toNat +
        2 * (FlowRuntime.virtualCost s.impl.policy rᵢ.descriptor).toNat)
    (stretch : Stretch (Contested {i, j} resource rank) s served t) :
    served.count i ≤ served.count j + 2 ∧ served.count j ≤ served.count i + 2 := by
  have hcost : FlowRuntime.virtualCost s.impl.policy rᵢ.descriptor =
      FlowRuntime.virtualCost s.impl.policy rⱼ.descriptor := by
    unfold FlowRuntime.virtualCost effectiveWeight
    rw [weight, quantum]
  have hfound : ∀ id ∈ ({i, j} : Set FlowId), ∃ r, s.impl.flows[id]? = some r := by
    rintro id (rfl | rfl)
    · exact ⟨rᵢ, foundᵢ⟩
    · exact ⟨rⱼ, foundⱼ⟩
  have hend := stretch.fair (n := fun _ => 0) reachable.sound fair (holds_descriptorOf hfound)
    (FairQueueing.Fair.start (by
      rintro id (rfl | rfl)
      · rw [descriptorOf_eq foundᵢ, stamp_queues foundᵢ]
        exact behind.1
      · rw [descriptorOf_eq foundⱼ, stamp_queues foundⱼ]
        exact behind.2) (fun _ => rfl) fun _ _ => rfl)
  have hi : i ∈ ({i, j} : Set FlowId) := .inl rfl
  have hj : j ∈ ({i, j} : Set FlowId) := .inr rfl
  have hle := hend.served_le hi hj (by rw [descriptorOf_eq foundᵢ, descriptorOf_eq foundⱼ, hcost])
    (by rw [descriptorOf_eq foundᵢ, stamp_queues foundᵢ, stamp_queues foundⱼ]; exact near.2)
  have hge := hend.served_le hj hi (by rw [descriptorOf_eq foundᵢ, descriptorOf_eq foundⱼ, hcost])
    (by rw [descriptorOf_eq foundⱼ, stamp_queues foundᵢ, stamp_queues foundⱼ]; exact near.1)
  simp only [Impl.queues, Nat.zero_add] at hle hge
  exact ⟨hle, hge⟩

namespace Sample

set_option maxRecDepth 100000 in
theorem served_evenly_rivals : ∃ s t served, Reachable s ∧
    Stretch (Contested {⟨1⟩, ⟨2⟩} ⟨⟨1⟩, ⟨1⟩⟩ 1) s served t ∧ served = [⟨1⟩, ⟨2⟩] ∧
    served.count ⟨1⟩ ≤ served.count ⟨2⟩ + 2 ∧ served.count ⟨2⟩ ≤ served.count ⟨1⟩ + 2 := by
  obtain ⟨s, reachable, hfair, r₁, hr₁, r₂, hr₂, hweight, hquantum, hbehind, hnear,
      ⟨served, t⟩, hturns, hserved⟩ : ∃ s, Reachable s ∧ s.impl.policy.weightedFairness = true ∧
      ∃ r₁ ∈ s.impl.flows[(⟨1⟩ : FlowId)]?, ∃ r₂ ∈ s.impl.flows[(⟨2⟩ : FlowId)]?,
        r₁.descriptor.weight = r₂.descriptor.weight ∧
        r₁.descriptor.serviceQuantum = r₂.descriptor.serviceQuantum ∧
        (s.impl.groupClock r₁.descriptor.fairnessGroup ≤ (s.impl.nextFinish r₁).toNat ∧
          s.impl.groupClock r₂.descriptor.fairnessGroup ≤ (s.impl.nextFinish r₂).toNat) ∧
        ((s.impl.nextFinish r₁).toNat < (s.impl.nextFinish r₂).toNat +
            2 * (FlowRuntime.virtualCost s.impl.policy r₂.descriptor).toNat ∧
          (s.impl.nextFinish r₂).toNat < (s.impl.nextFinish r₁).toNat +
            2 * (FlowRuntime.virtualCost s.impl.policy r₁.descriptor).toNat) ∧
        ∃ p ∈ turns (Contested both ⟨⟨1⟩, ⟨1⟩⟩ 1) 1 2 s, p.1 = [⟨1⟩, ⟨2⟩] :=
    @exists_reachable settled rivals _ (by decide +kernel)
  have hstretch := stretch_of_turns hturns
  rw [both_eq] at hstretch
  exact ⟨s, t, served, reachable, hstretch, hserved, served_evenly s t ⟨⟨1⟩, ⟨1⟩⟩ 1 served ⟨1⟩ ⟨2⟩
    r₁ r₂ reachable hfair hr₁ hr₂ hweight hquantum hbehind hnear hstretch⟩

def round (n : UInt64) : List Call :=
  [.arbitrate 1, .beginDispatch ⟨n⟩ ⟨n⟩ 0 ⟨7⟩ ⟨8⟩ 1,
    .complete
      { schedule := ⟨n⟩, scheduleGeneration := ⟨n⟩, attempt := ⟨n⟩, epoch := ⟨1⟩, flow := ⟨1⟩
        flowGeneration := ⟨1⟩, worker := ⟨7⟩, boot := ⟨8⟩, served := 5, provenance } 1]

/-- The second flow comes after three turns of the first, in a group of its own. -/
def latecomer : List Call :=
  [.registerResource resource, .registerPriorityClass priority, .registerQosClass qos,
    .admitFlow (busy 1)] ++ round 1 ++ round 2 ++ round 3 ++
    [.admitFlow { busy 2 with fairnessGroup := ⟨2⟩ }]

set_option maxRecDepth 100000 in
/-- The clock of the new group is behind, and the flow that comes late is served again and again
before the other one. -/
theorem not_served_evenly : ¬ ∀ (s t : Scheduler) (resource : Binding .resource) (rank : UInt32)
    (served : List FlowId) (i j : FlowId) (rᵢ rⱼ : FlowRuntime), Reachable s →
    s.impl.policy.weightedFairness = true → s.impl.policy.preemption = .none →
    (∃ x, s.impl.resources[resource.id]? = some x ∧ x.descriptor.maxOverlap = 1) →
    s.impl.flows[i]? = some rᵢ → s.impl.flows[j]? = some rⱼ →
    rᵢ.descriptor.weight = rⱼ.descriptor.weight →
    rᵢ.descriptor.serviceQuantum = rⱼ.descriptor.serviceQuantum →
    rᵢ.descriptor.minService = 0 → rⱼ.descriptor.minService = 0 →
    s.impl.nextFinish rᵢ ≠ u64Max → s.impl.nextFinish rⱼ ≠ u64Max →
    Stretch (Contested {i, j} resource rank) s served t →
    served.count i ≤ served.count j + 2 ∧ served.count j ≤ served.count i + 2 := by
  intro h
  obtain ⟨s, reachable, hfair, hnone, hresource, r₁, hr₁, r₂, hr₂, hweight, hquantum, hmin₁, hmin₂,
      hunsaturated₁, hunsaturated₂, ⟨served, t⟩, hturns, hserved⟩ : ∃ s, Reachable s ∧
      s.impl.policy.weightedFairness = true ∧ s.impl.policy.preemption = .none ∧
      (∃ x ∈ s.impl.resources[(⟨1⟩ : ResourceId)]?, x.descriptor.maxOverlap = 1) ∧
      ∃ r₁ ∈ s.impl.flows[(⟨1⟩ : FlowId)]?, ∃ r₂ ∈ s.impl.flows[(⟨2⟩ : FlowId)]?,
        r₁.descriptor.weight = r₂.descriptor.weight ∧
        r₁.descriptor.serviceQuantum = r₂.descriptor.serviceQuantum ∧
        r₁.descriptor.minService = 0 ∧ r₂.descriptor.minService = 0 ∧
        s.impl.nextFinish r₁ ≠ u64Max ∧ s.impl.nextFinish r₂ ≠ u64Max ∧
        ∃ p ∈ turns (Contested both ⟨⟨1⟩, ⟨1⟩⟩ 1) 1 3 s, p.1 = [⟨2⟩, ⟨2⟩, ⟨2⟩] :=
    @exists_reachable settled latecomer _ (by decide +kernel)
  have hstretch := stretch_of_turns hturns
  rw [both_eq] at hstretch
  have heven := h s t ⟨⟨1⟩, ⟨1⟩⟩ 1 served ⟨1⟩ ⟨2⟩ r₁ r₂ reachable hfair hnone hresource hr₁ hr₂
    hweight hquantum hmin₁ hmin₂ hunsaturated₁ hunsaturated₂ hstretch
  rw [show served = _ from hserved] at heven
  revert heven
  decide

end Sample

end FlowScheduler

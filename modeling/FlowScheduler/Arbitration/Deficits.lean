import FlowScheduler.Arbitration.Misses
import FlowScheduler.Lifecycle.Ages

/-! # Minimum service

A flow that is owed minimum service is ordered before the flows of the normal
tier. What has been delivered to it is counted per window, and a new window is
begun only when the flow becomes ready, not while it stays ready. So it is the
window and the count of that moment that a round goes by, however long ago it
was.
-/

namespace FlowScheduler

open ByteCodec (Bytes)
open Failing SchedOp Impl OrderedMap

section Tiers

variable {s : Impl} {r : FlowRuntime} {now : Ticks}

/-- The deadline of the flow is so near that it is served first. -/
def Impl.Urgent (s : Impl) (r : FlowRuntime) (now : Ticks) : Prop :=
  hasDeadline r.descriptor.deadlineTick ∧ s.policy.deadlineOrdering ∧
    r.descriptor.deadlineTick.toNat ≤ now.toNat + s.policy.deadlineUrgencyTicks.toNat

/-- The flow has been ready for the starvation bound. -/
def Impl.Starves (s : Impl) (r : FlowRuntime) (now : Ticks) : Prop :=
  r.everReady ∧ s.policy.starvationBoundTicks.toNat ≤ now.toNat - r.eligibleSinceTick.toNat

theorem slack_le_iff {deadline urgency : Ticks} :
    (if now < deadline then deadline - now else 0) ≤ urgency ↔
      deadline.toNat ≤ now.toNat + urgency.toNat := by
  split
  · rename_i hlt
    rw [UInt64.le_iff_toNat_le, UInt64.toNat_sub_of_le _ _ (UInt64.le_of_lt hlt)]
    rw [UInt64.lt_iff_toNat_lt] at hlt
    omega
  · rename_i hlt
    rw [UInt64.lt_iff_toNat_lt] at hlt
    simp only [UInt64.le_iff_toNat_le, UInt64.toNat_zero]
    omega

theorem toNat_waited {since : Ticks} :
    (if since ≤ now then now - since else 0).toNat = now.toNat - since.toNat := by
  split
  · rename_i hle
    exact UInt64.toNat_sub_of_le _ _ hle
  · rename_i hle
    rw [UInt64.le_iff_toNat_le] at hle
    simp only [UInt64.toNat_zero]
    omega

/-- Which flows are ordered before the normal tier. -/
theorem tierOf_le_minService_iff : s.tierOf r now ≤ kTierMinServiceDeficient ↔
    s.Urgent r now ∨ s.Starves r now ∨ (s.policy.minServiceGuarantee ∧
      0 < r.descriptor.minService ∧ r.minServiceDelivered < r.descriptor.minService) := by
  unfold tierOf Impl.Urgent Impl.Starves
  dsimp only
  rw [← toNat_waited, ← UInt64.le_iff_toNat_le, ← slack_le_iff]
  generalize (if now < r.descriptor.deadlineTick then r.descriptor.deadlineTick - now else 0) = slack
  generalize (if r.eligibleSinceTick ≤ now then now - r.eligibleSinceTick else 0) = waited
  split
  · rename_i hurgent
    exact iff_of_true (by decide) (.inl hurgent)
  · rename_i hurgent
    split
    · rename_i hstarves
      exact iff_of_true (by decide) (.inr (.inl hstarves))
    · rename_i hstarves
      split
      · rename_i hdeficient
        exact iff_of_true (by decide) (.inr (.inr hdeficient))
      · rename_i hdeficient
        refine iff_of_false (by decide) ?_
        rintro (h | h | h)
        · exact hurgent h
        · exact hstarves h
        · exact hdeficient h

end Tiers

section Rounds

variable {s u : Scheduler} {now : Ticks} {p : List Candidate × ArbitrationOutcome} {c : Candidate}
  {r : FlowRuntime}

/-- A ready flow is ranked as it stood before the round. -/
theorem tier_of_ranked (sound : Sound s.impl) (h : exec (openRound now) s = (.ok p, u))
    (listed : c ∈ p.1) (found : s.impl.flows[c.flow]? = some r) (ready : r.lifecycle = .ready) :
    c.key.tier = s.impl.tierOf r now := by
  obtain ⟨-, -, hranks⟩ := openRound_ok sound h
  obtain ⟨x, hx, -, hkey⟩ := hranks.ranks c listed
  have hspares := openRound_spares_ready sound h
  obtain ⟨r', hr', starved, accounting, hstands⟩ := hspares.stands c.flow r
    (fun hall => (hall r found).1 ready) found (unengaged_of_pending (.inr ready))
  obtain rfl := Option.some.inj (hx.symm.trans hr')
  have htier : c.key.tier = u.impl.tierOf x now := by rw [hkey]; rfl
  rw [htier, hstands]
  unfold tierOf
  rw [hspares.policy]

theorem tier_le_minService_iff (sound : Sound s.impl)
    (guaranteed : s.impl.policy.minServiceGuarantee = true)
    (opened : exec (openRound now) s = (.ok p, u)) (listed : c ∈ p.1)
    (found : s.impl.flows[c.flow]? = some r) (ready : r.lifecycle = .ready)
    (due : 0 < r.descriptor.minService) :
    c.key.tier ≤ kTierMinServiceDeficient ↔ s.impl.Urgent r now ∨ s.impl.Starves r now ∨
      r.meter.delivered < r.descriptor.minService := by
  rw [tier_of_ranked sound opened listed found ready, tierOf_le_minService_iff]
  simp only [guaranteed, due, true_and]
  rfl

end Rounds

section Runs

variable {allowed : Scheduler → Call → Prop} {s t : Scheduler} {id : FlowId} {r : FlowRuntime}

/-- The flow is ready before and after the call, which leaves its age and its meter alone. -/
def Dwelling (id : FlowId) (s : Scheduler) (c : Call) : Prop :=
  ∃ r r', s.impl.flows[id]? = some r ∧ (s.call c).2.impl.flows[id]? = some r' ∧
    r'.lifecycle = .ready ∧ r.Dwells r'

theorem LaterBy.isReady (h : LaterBy (Dwelling id) t s) (ready : s.impl.IsReady id) :
    t.impl.IsReady id := by
  induction h with
  | refl => exact ready
  | called _ c ok ih =>
    obtain ⟨r, -, hr, -, -, hready, -⟩ := ok
    exact ih ⟨r, hr, hready⟩
  | faulty _ io ih => exact ih ready

/-- A flow that is ready has been so since the run began, or since the last call in it that did not
leave it so. Its meter is that of the beginning, or the one the call has refreshed. -/
theorem ready_since (h : LaterBy allowed t s) (sound : Sound t.impl)
    (found : s.impl.flows[id]? = some r) (ready : r.lifecycle = .ready) :
    (LaterBy (Dwelling id) t s ∧ ∃ r₀, t.impl.flows[id]? = some r₀ ∧ r.meter = r₀.meter) ∨
      ∃ w call r₀ r₁, LaterBy allowed t w ∧ ¬ Dwelling id w call ∧
        LaterBy (Dwelling id) (w.call call).2 s ∧ w.impl.flows[id]? = some r₀ ∧
        (w.call call).2.impl.flows[id]? = some r₁ ∧
        r.eligibleSinceTick = call.tick w.impl.lastTick ∧
        r.meter = (call.credit id r₀.meter).refresh r₁.descriptor r.eligibleSinceTick := by
  induction h generalizing r with
  | refl => exact .inl ⟨.refl, r, found, rfl⟩
  | @called v h c ok ih =>
    by_cases hdwells : Dwelling id v c
    · have ⟨x, x', hx, hx', _, hready, hsince, hmeter⟩ := hdwells
      obtain rfl := Option.some.inj (hx'.symm.trans found)
      rw [hsince, hmeter]
      rcases ih hx hready with ⟨hbegan, hsame⟩ | ⟨w, call, r₀, r₁, hw, hnew, hlater, hrest⟩
      · exact .inl ⟨.called hbegan c hdwells, hsame⟩
      · exact .inr ⟨w, call, r₀, r₁, hw, hnew, .called hlater c hdwells, hrest⟩
    · have hsound := (h.preserves sound (fun _ _ _ _ _ _ _ _ => trivial) trivial).1
      obtain ⟨r₀, hr₀, hkept | ⟨hsince, hmeter⟩⟩ := ready_call hsound c found ready
      · exact absurd ⟨r₀, r, hr₀, found, ready, hkept⟩ hdwells
      · exact .inr ⟨v, c, r₀, r, h, hdwells, .refl, hr₀, found, hsince, hsince ▸ hmeter⟩
  | faulty h io ih =>
    rcases ih found ready with ⟨hbegan, hsame⟩ | ⟨w, call, r₀, r₁, hw, hnew, hlater, hrest⟩
    · exact .inl ⟨.faulty hbegan io, hsame⟩
    · exact .inr ⟨w, call, r₀, r₁, hw, hnew, .faulty hlater io, hrest⟩

/-- A ready flow that is due a minimum is ordered before the normal tier exactly if its deadline is
urgent, it has waited for the starvation bound, or when it last became ready its window was over or
left it short. A flow that was ready when the run began goes by what had been delivered then. -/
theorem minService_tier_iff (t s u : Scheduler) (now : Ticks)
    (p : List Candidate × ArbitrationOutcome) (c : Candidate) (r : FlowRuntime)
    (reachable : Reachable t) (later : LaterBy (fun _ _ => True) t s)
    (guaranteed : s.impl.policy.minServiceGuarantee = true)
    (opened : exec (openRound now) s = (.ok p, u)) (listed : c ∈ p.1)
    (found : s.impl.flows[c.flow]? = some r) (ready : r.lifecycle = .ready)
    (due : 0 < r.descriptor.minService) :
    (LaterBy (Dwelling c.flow) t s ∧ ∃ r₀, t.impl.flows[c.flow]? = some r₀ ∧
      (c.key.tier ≤ kTierMinServiceDeficient ↔ s.impl.Urgent r now ∨ s.impl.Starves r now ∨
        r₀.minServiceDelivered < r.descriptor.minService)) ∨
    ∃ (w : Scheduler) (call : Call) (r₀ r₁ : FlowRuntime), LaterBy (fun _ _ => True) t w ∧
      ¬ Dwelling c.flow w call ∧ LaterBy (Dwelling c.flow) (w.call call).2 s ∧
      w.impl.flows[c.flow]? = some r₀ ∧ (w.call call).2.impl.flows[c.flow]? = some r₁ ∧
      r.eligibleSinceTick = call.tick w.impl.lastTick ∧
      (c.key.tier ≤ kTierMinServiceDeficient ↔ s.impl.Urgent r now ∨ s.impl.Starves r now ∨
        (call.credit c.flow r₀.meter).Lapsed r₁.descriptor r.eligibleSinceTick ∨
        (call.credit c.flow r₀.meter).delivered < r.descriptor.minService) := by
  have hsound := (later.preserves reachable.sound (fun _ _ _ _ _ _ _ _ => trivial) trivial).1
  have htier := tier_le_minService_iff hsound guaranteed opened listed found ready due
  rcases ready_since later reachable.sound found ready with
    ⟨hbegan, r₀, hr₀, hmeter⟩ | ⟨w, call, r₀, r₁, hw, hnew, hlater, hr₀, hr₁, hsince, hmeter⟩
  · exact .inl ⟨hbegan, r₀, hr₀, by rw [htier, hmeter]; rfl⟩
  · refine .inr ⟨w, call, r₀, r₁, hw, hnew, hlater, hr₀, hr₁, hsince, ?_⟩
    rw [htier, hmeter]
    generalize call.credit c.flow r₀.meter = m
    by_cases hlapsed : m.Lapsed r₁.descriptor r.eligibleSinceTick
    · simp only [Meter.refresh, hlapsed, if_true, due, true_or, or_true]
    · simp only [Meter.refresh, hlapsed, if_false, false_or]

end Runs

namespace Sample

/-- The first flow is due a minimum every ten ticks, and is dispatched at once. -/
def due (minimum : UInt64) : List Call :=
  [.registerResource resource, .registerPriorityClass priority, .registerQosClass qos,
    .admitFlow { flow 1 with minService := minimum, minServiceWindow := 10 }, .arbitrate 5, dispatch 5]

/-- Five of its ten units are delivered, after which it is ready again. -/
def delivery : Call :=
  .complete { schedule := ⟨1⟩, scheduleGeneration := ⟨1⟩, attempt := ⟨1⟩, epoch := ⟨1⟩
              flow := ⟨1⟩, flowGeneration := ⟨1⟩, worker := ⟨7⟩, boot := ⟨8⟩
              served := 5, observedTick := 6, provenance } 6

set_option maxRecDepth 100000 in
theorem minService_tier_iff_due : ∃ t s u p c r, Reachable t ∧ ¬ t.impl.IsReady c.flow ∧
    s = (t.call delivery).2 ∧ exec (openRound 20) s = (.ok p, u) ∧ c ∈ p.1 ∧
    s.impl.flows[c.flow]? = some r ∧ ∃ (w : Scheduler) (call : Call) (r₀ r₁ : FlowRuntime),
      LaterBy (Dwelling c.flow) (w.call call).2 s ∧ w.impl.flows[c.flow]? = some r₀ ∧
      (w.call call).2.impl.flows[c.flow]? = some r₁ ∧
      (c.key.tier ≤ kTierMinServiceDeficient ↔ s.impl.Urgent r 20 ∨ s.impl.Starves r 20 ∨
        (call.credit c.flow r₀.meter).Lapsed r₁.descriptor r.eligibleSinceTick ∨
        (call.credit c.flow r₀.meter).delivered < r.descriptor.minService) := by
  obtain ⟨t, reachable, hguaranteed, p, hp, c, hc, hidle, r, hr, hready, hdue⟩ : ∃ t, Reachable t ∧
      (t.call delivery).2.impl.policy.minServiceGuarantee = true ∧
      ∃ p ∈ (exec (openRound 20) (t.call delivery).2).1.toOption, ∃ c ∈ p.1,
        (∀ r ∈ t.impl.flows[c.flow]?, r.lifecycle ≠ .ready) ∧
        ∃ r ∈ (t.call delivery).2.impl.flows[c.flow]?, r.lifecycle = .ready ∧
          0 < r.descriptor.minService :=
    @exists_reachable transient (due 8) _ (by decide +kernel)
  have hidle : ¬ t.impl.IsReady c.flow := fun ⟨r, hr, hready⟩ => hidle r hr hready
  refine ⟨t, _, _, p, c, r, reachable, hidle, rfl, exec_eq_of_mem hp, hc, hr, ?_⟩
  rcases minService_tier_iff t _ _ 20 p c r reachable (.called .refl delivery trivial) hguaranteed
    (exec_eq_of_mem hp) hc hr hready hdue with
    ⟨hbegan, -⟩ | ⟨w, call, r₀, r₁, -, -, hlater, hr₀, hr₁, -, htier⟩
  · exact absurd (hbegan.isReady ⟨r, hr, hready⟩) hidle
  · exact ⟨w, call, r₀, r₁, hlater, hr₀, hr₁, htier⟩

set_option maxRecDepth 100000 in
/-- Ready from the sixth tick on, the flow is in the normal tier at the twentieth: what it received
before still counts. -/
theorem not_minService_tier : ¬ ∀ (s u : Scheduler) (cs : List Call) (now : Ticks) (id : FlowId)
    (p : List Candidate × ArbitrationOutcome) (c : Candidate) (r : FlowRuntime), Reachable s →
    (∀ k ≤ cs.length, ∃ x, (s.calls (cs.take k)).impl.flows[id]? = some x ∧ x.lifecycle = .ready) →
    (s.calls cs).impl.policy.minServiceGuarantee = true →
    exec (openRound now) (s.calls cs) = (.ok p, u) → c ∈ p.1 → c.flow = id →
    (s.calls cs).impl.flows[id]? = some r → 0 < r.descriptor.minService →
    s.impl.lastTick.toNat + r.descriptor.minServiceWindow.toNat ≤ now.toNat →
    c.key.tier ≤ kTierMinServiceDeficient := by
  intro h
  obtain ⟨s, reachable, hguaranteed, p, hp, c, hc, r, hr, hready, hdue, hlong, htier⟩ : ∃ s,
      Reachable s ∧ s.impl.policy.minServiceGuarantee = true ∧
      ∃ p ∈ (exec (openRound 20) s).1.toOption, ∃ c ∈ p.1, ∃ r ∈ s.impl.flows[c.flow]?,
        r.lifecycle = .ready ∧ 0 < r.descriptor.minService ∧
        s.impl.lastTick.toNat + r.descriptor.minServiceWindow.toNat ≤ 20 ∧
        ¬ c.key.tier ≤ kTierMinServiceDeficient :=
    @exists_reachable transient (due 5 ++ [delivery]) _ (by decide +kernel)
  refine htier (h s _ [] 20 c.flow p c r reachable (fun k _ => ?_) hguaranteed (exec_eq_of_mem hp) hc
    rfl hr hdue hlong)
  rw [List.take_nil]
  exact ⟨r, hr, hready⟩

end Sample

end FlowScheduler

import FlowScheduler.Arbitration.Deficits
import FlowScheduler.Lifecycle.Ages

/-! # Eligibility

A call whose tick is not behind the clock makes no flow ready at an earlier
tick. Hence a candidate that starves has been ready for as long as the policy
asks for, provided that the clock never went back.
-/

namespace FlowScheduler

open ByteCodec (Bytes)
open Failing SchedOp Impl OrderedMap

/-- Whatever flow is ready was so before, since the same tick, unless it has become so at the tick `b`
or later. -/
def Impl.Aged (b : Ticks) (s s' : Impl) : Prop :=
  ∀ (id : FlowId) (r' : FlowRuntime), s'.flows[id]? = some r' → r'.lifecycle = .ready →
    b ≤ r'.eligibleSinceTick ∨
      ∃ r, s.flows[id]? = some r ∧ r.lifecycle = .ready ∧ r.eligibleSinceTick = r'.eligibleSinceTick

section Calls

variable {b now : Ticks} {s : Scheduler}

theorem Impl.Aged.trans {i i' i'' : Impl} (h : i.Aged b i') (h' : i'.Aged b i'') : i.Aged b i'' := by
  intro id r'' hr'' hready
  rcases h' id r'' hr'' hready with hlate | ⟨r', hr', hready', hsame⟩
  · exact .inl hlate
  · rcases h id r' hr' hready' with hlate | ⟨r, hr, hready, hsame'⟩
    · exact .inl (hsame ▸ hlate)
    · exact .inr ⟨r, hr, hready, hsame'.trans hsame⟩

theorem aged_openRound (prompt : b ≤ now) : s.impl.Aged b (exec (openRound now) s).2.impl := by
  intro id r' hr' hready
  have hedits : RoundEdits now (Ages now) := Ages.edits
  obtain ⟨r, hr, haged⟩ := hedits.toEdits.openRound hedits.rollPreemptionWindow id r' hr'
  rcases haged.ready hready with ⟨hready, hsince, -⟩ | ⟨hsince, -⟩
  · exact .inr ⟨r, hr, hready, hsince.symm⟩
  · exact .inl (hsince ▸ prompt)

theorem aged_call (sound : Sound s.impl) (c : Call) (prompt : b ≤ c.tick s.impl.lastTick) :
    s.impl.Aged b (s.call c).2.impl := by
  intro id r' hr' hready
  obtain ⟨r, hr, ⟨hready, hsince, -⟩ | ⟨hsince, -⟩⟩ := ready_call sound c hr' hready
  · exact .inr ⟨r, hr, hready, hsince.symm⟩
  · exact .inl (hsince ▸ prompt)

theorem le_clock_arbitrate (onTime : s.impl.lastTick ≤ now) :
    now ≤ (s.call (.arbitrate now)).2.impl.lastTick := by
  -- the round sets the clock at once, so it might as well have been there already
  have hset : ∀ clock ≤ now,
      exec (arbitrate now) { s with impl := { s.impl with lastTick := clock } } =
        exec (arbitrate now) { s with impl := { s.impl with lastTick := now } } := by
    intro clock hclock
    unfold arbitrate
    simp only [exec_readImpl_bind, exec_lift_bind, refuseIf, if_neg (UInt64.not_lt.mpr hclock),
      if_neg (UInt64.lt_irrefl now)]
    rfl
  have hrun : Relates Onward (arbitrate now) { s with impl := { s.impl with lastTick := now } } :=
    Onward.edits.arbitrate
  have hclock : now ≤ (exec (arbitrate now) s).2.impl.lastTick := hset _ onTime ▸ hrun
  rw [Scheduler.call, Call.op, exec_done]
  exact hclock

end Calls

section Runs

variable {b now : Ticks} {s t : Scheduler} {id : FlowId}

/-- The tick of the call is not behind the clock; a round finds the flow waiting for nothing if it is
ready. -/
def Unlapsed (id : FlowId) (s : Scheduler) (c : Call) : Prop :=
  s.impl.lastTick ≤ c.tick s.impl.lastTick ∧ match c with
    | .arbitrate now => ∀ r ∈ s.impl.flows[id]?, r.lifecycle = .ready →
        s.impl.derivedReadiness r now = .ok ()
    | _ => True

instance : ∀ {c : Call}, Decidable (Unlapsed id s c)
  | .arbitrate now => inferInstanceAs (Decidable (s.impl.lastTick ≤ now ∧
      ∀ r ∈ s.impl.flows[id]?, r.lifecycle = .ready → s.impl.derivedReadiness r now = .ok ()))
  | .cancelFlow _ _ _ now | .notifyReadiness _ _ _ now | .resolveAmbiguous _ _ _ now
  | .advanceEpoch _ now | .releaseSchedule _ _ now | .beginDispatch _ _ _ _ _ now
  | .markStarted _ now | .abandonAttempt _ _ now | .preemptAttempt _ _ now | .complete _ now =>
    inferInstanceAs (Decidable (s.impl.lastTick ≤ now ∧ True))
  | .registerResource _ | .registerReservation _ | .retireReservation _ _ | .registerPriorityClass _
  | .registerQosClass _ | .admitFlow _ | .updateFlow _ | .retireFlow _ _ | .installPolicy _
  | .revalidate _ _ | .checkpoint => inferInstanceAs (Decidable (s.impl.lastTick ≤ s.impl.lastTick ∧ True))

theorem LaterBy.aged (h : LaterBy (Unlapsed id) t s) (sound : Sound t.impl) (begun : b ≤ t.impl.lastTick) :
    Sound s.impl ∧ t.impl.lastTick ≤ s.impl.lastTick ∧ t.impl.Aged b s.impl := by
  induction h with
  | refl => exact ⟨sound, UInt64.le_refl _, fun id r hr hready => .inr ⟨r, hr, hready, rfl⟩⟩
  | called _ c ok ih =>
    obtain ⟨hsound, hclock, haged⟩ := ih
    refine ⟨sound_call hsound c, UInt64.le_trans hclock (lastTick_le_call _ c), haged.trans ?_⟩
    exact aged_call hsound c (UInt64.le_trans (UInt64.le_trans begun hclock) ok.1)
  | faulty _ io ih => exact ih

theorem starves_of_tier {i : Impl} {r : FlowRuntime} (h : i.tierOf r now = kTierStarvation) :
    i.Starves r now := by
  unfold tierOf at h
  unfold Impl.Starves
  rw [← toNat_waited, ← UInt64.le_iff_toNat_le]
  dsimp only at h
  generalize (if now < r.descriptor.deadlineTick then r.descriptor.deadlineTick - now else 0) = slack at h
  generalize (if r.eligibleSinceTick ≤ now then now - r.eligibleSinceTick else 0) = waited at h ⊢
  split at h
  · exact absurd h (by decide)
  · split at h
    · assumption
    · split at h <;> exact absurd h (by decide)

/-- A candidate that starves has been ready, without an attempt of its own, in every state of the
last ticks up to the starvation bound, and every round in that time found that it may run. -/
theorem starving_eligible (s u : Scheduler) (now : Ticks) (p : List Candidate × ArbitrationOutcome)
    (c : Candidate) (reachable : Reachable s) (opened : exec (openRound now) s = (.ok p, u))
    (listed : c ∈ p.1) (starving : c.key.tier = kTierStarvation)
    (unlapsed : Unlapsed c.flow s (.arbitrate now)) :
    (∀ t, Reachable t → LaterBy (Unlapsed c.flow) t s →
      now.toNat < t.impl.lastTick.toNat + s.impl.policy.starvationBoundTicks.toNat →
      ∃ r, t.impl.Eligible c.flow r) ∧
    ∀ t now', Reachable t → Unlapsed c.flow t (.arbitrate now') →
      (t = s ∧ now' = now ∨ LaterBy (Unlapsed c.flow) (t.call (.arbitrate now')).2 s) →
      now.toNat < now'.toNat + s.impl.policy.starvationBoundTicks.toNat →
      ∃ r, t.impl.Eligible c.flow r ∧ t.impl.derivedReadiness r now' = .ok () := by
  obtain ⟨hmakes, -, hranks⟩ := openRound_ok reachable.sound opened
  obtain ⟨r, hr, hready, hkey⟩ := hranks.ranks c listed
  have hpolicy : u.impl.policy = s.impl.policy :=
    (openRound_spares_ready reachable.sound opened).policy
  have hwaited : s.impl.policy.starvationBoundTicks.toNat ≤ now.toNat - r.eligibleSinceTick.toNat := by
    rw [hkey] at starving
    exact hpolicy ▸ (starves_of_tier starving).2
  have hopen : ∀ {b}, b ≤ now → s.impl.Aged b u.impl := fun {b} hb => by
    have h : s.impl.Aged b (exec (openRound now) s).2.impl := aged_openRound hb
    rwa [opened] at h
  -- ready since before the tick, the flow was so in the state the run started from
  have hback : ∀ {b t}, Reachable t → b ≤ now → t.impl.Aged b u.impl →
      now.toNat < b.toNat + s.impl.policy.starvationBoundTicks.toNat →
      ∃ r, t.impl.Eligible c.flow r := by
    intro b t ht hb haged hspan
    rcases haged c.flow r hr hready with hlate | ⟨r', hr', hready', -⟩
    · rw [UInt64.le_iff_toNat_le] at hlate hb
      omega
    · exact ⟨r', eligible_of_ready ht.sound hr' hready'⟩
  refine ⟨fun t ht hlater hspan => ?_, fun t now' ht hunlapsed hthen hspan => ?_⟩
  · obtain ⟨-, hclock, haged⟩ := hlater.aged ht.sound (UInt64.le_refl _)
    have hb := UInt64.le_trans hclock unlapsed.1
    exact hback ht hb (haged.trans (hopen hb)) hspan
  · have hfound : ∃ r, t.impl.Eligible c.flow r := by
      rcases hthen with ⟨rfl, rfl⟩ | hlater
      · exact hback ht (UInt64.le_refl _) (hopen (UInt64.le_refl _)) hspan
      · have hbegun := le_clock_arbitrate hunlapsed.1
        obtain ⟨-, hclock, haged⟩ := hlater.aged (sound_call ht.sound _) hbegun
        have hb := UInt64.le_trans (UInt64.le_trans hbegun hclock) unlapsed.1
        have hround := aged_call ht.sound (.arbitrate now') (UInt64.le_refl _)
        exact hback ht hb ((hround.trans haged).trans (hopen hb)) hspan
    obtain ⟨r, hr⟩ := hfound
    exact ⟨r, hr, hunlapsed.2 r hr.1 hr.2.1⟩

end Runs

namespace Sample

/-- While the first flow runs, the second one is signalled ready and found so at the sixth tick. -/
def signalled : List Call :=
  [.registerResource resource, .registerPriorityClass priority, .registerQosClass qos,
    .admitFlow (flow 1), .arbitrate 5, dispatch 5, .admitFlow { flow 2 with autoReady := false },
    .notifyReadiness ⟨2⟩ ⟨1⟩ .ready 5, .arbitrate 6]

set_option maxRecDepth 100000 in
theorem starving_eligible_signalled : ∃ t s u p c r, Reachable t ∧
    s = (t.call (.arbitrate 8)).2 ∧ exec (openRound 9) s = (.ok p, u) ∧ c ∈ p.1 ∧
    c.key.tier = kTierStarvation ∧ t.impl.Eligible c.flow r ∧
    t.impl.derivedReadiness r 8 = .ok () := by
  obtain ⟨t, reachable, p, hp, c, hc, hstarving, hunlapsed, hround, hspan⟩ : ∃ t, Reachable t ∧
      ∃ p ∈ (exec (openRound 9) (t.call (.arbitrate 8)).2).1.toOption, ∃ c ∈ p.1,
        c.key.tier = kTierStarvation ∧ Unlapsed c.flow (t.call (.arbitrate 8)).2 (.arbitrate 9) ∧
        Unlapsed c.flow t (.arbitrate 8) ∧
        9 < 8 + (t.call (.arbitrate 8)).2.impl.policy.starvationBoundTicks.toNat :=
    @exists_reachable (displacing .none 3) signalled _ (by decide +kernel)
  obtain ⟨-, hrounds⟩ := starving_eligible (t.call (.arbitrate 8)).2 _ 9 p c
    (reachable.called (.arbitrate 8) trivial) (exec_eq_of_mem hp) hc hstarving hunlapsed
  obtain ⟨r, hr, hderived⟩ := hrounds t 8 reachable hround (.inr .refl) hspan
  exact ⟨t, _, _, p, c, r, reachable, rfl, exec_eq_of_mem hp, hc, hstarving, hr, hderived⟩

set_option maxRecDepth 100000 in
/-- The signal of the second flow is withdrawn before a round at the eighth tick and given again
before one at the ninth, which takes the flow to have waited since the sixth. And an incumbent is
ordered by the time it became ready at before it was dispatched. -/
theorem not_starving_eligible :
    (¬ ∀ (s t u : Scheduler) (now now' : Ticks) (p : List Candidate × ArbitrationOutcome)
      (c : Candidate), Reachable t → LaterBy (fun _ _ => True) (t.call (.arbitrate now')).2 s →
      exec (openRound now) s = (.ok p, u) → c ∈ p.1 → c.key.tier = kTierStarvation →
      now.toNat < now'.toNat + s.impl.policy.starvationBoundTicks.toNat →
      ∃ r, t.impl.Eligible c.flow r ∧ t.impl.derivedReadiness r now' = .ok ()) ∧
    ∃ (s u : Scheduler) (p : List Candidate × ArbitrationOutcome) (k : ResourceId) (id : FlowId)
      (r : FlowRuntime), Reachable s ∧ exec (openRound 6) s = (.ok p, u) ∧ p.1 ≠ [] ∧
      u.impl.Incumbent k id r ∧ (u.impl.computeKey r 6).tier = kTierStarvation := by
  constructor
  · intro claim
    obtain ⟨t, reachable, p, hp, c, hc, hstarving, hspan, hlapsed⟩ : ∃ t, Reachable t ∧
        ∃ p ∈ (exec (openRound 9) ((t.call (.arbitrate 8)).2.call
          (.notifyReadiness ⟨2⟩ ⟨1⟩ .ready 9)).2).1.toOption, ∃ c ∈ p.1,
          c.key.tier = kTierStarvation ∧ 9 < 8 + ((t.call (.arbitrate 8)).2.call
            (.notifyReadiness ⟨2⟩ ⟨1⟩ .ready 9)).2.impl.policy.starvationBoundTicks.toNat ∧
          ∀ r ∈ t.impl.flows[c.flow]?, t.impl.derivedReadiness r 8 ≠ .ok () :=
      @exists_reachable (displacing .none 3) (signalled ++ [.notifyReadiness ⟨2⟩ ⟨1⟩ .notReady 7]) _
        (by decide +kernel)
    obtain ⟨r, hr, hderived⟩ := claim _ t _ 9 8 p c reachable (.called .refl _ trivial)
      (exec_eq_of_mem hp) hc hstarving hspan
    exact hlapsed r hr.1 hderived
  · obtain ⟨s, reachable, p, hp, hsome, r, hr, hbusy, hopen, hstarving⟩ : ∃ s, Reachable s ∧
        ∃ p ∈ (exec (openRound 6) s).1.toOption, p.1 ≠ [] ∧
        ∃ r ∈ (exec (openRound 6) s).2.impl.flows[(⟨1⟩ : FlowId)]?, r.lifecycle.slot = .inflight ∧
          r.openAttempt.valid ∧ ((exec (openRound 6) s).2.impl.computeKey r 6).tier = kTierStarvation :=
      @exists_reachable (displacing .strictPriority 1) arrival _ (by decide +kernel)
    exact ⟨s, _, p, _, ⟨1⟩, r, reachable, exec_eq_of_mem hp, hsome, ⟨hr, hbusy, hopen, rfl⟩,
      hstarving⟩

end Sample

end FlowScheduler

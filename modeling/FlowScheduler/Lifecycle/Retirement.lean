import FlowScheduler.Steps.Reachable

/-! # Retiring a dependency

The readiness of a flow is read off the flow table through the list of its
dependencies. A retired flow is gone from the table, and a dependency that is
not found is neither completed nor failed: the flows that relied on it wait.
-/

namespace FlowScheduler

open Failing SchedOp OrderedMap Impl

section Dependencies

variable {s s' : Impl} {r : FlowRuntime} {now : Ticks}

def Impl.Fulfilled (s : Impl) (dependency : FlowId) : Prop :=
  ∃ found, s.flows[dependency]? = some found ∧ found.lifecycle = .completed

def Impl.Broken (s : Impl) (dependency : FlowId) : Prop :=
  ∃ found, s.flows[dependency]? = some found ∧ found.lifecycle.isTerminal ∧
    found.lifecycle ≠ .completed

theorem dependencyFailed_iff :
    s.dependencyFailed r ↔ ∃ d ∈ r.descriptor.dependencies, s.Broken d := by
  unfold dependencyFailed
  rw [List.any_eq_true]
  refine exists_congr fun d => and_congr_right fun _ => ?_
  unfold Impl.Broken
  cases s.flows[d]? with
  | none => simp
  | some found => simp

/-- Nothing but its dependencies, its release, its reservation and its deadline holds the flow
back. -/
structure FlowRuntime.Heard (r : FlowRuntime) : Prop where
  live : r.lifecycle.isTerminal = false
  resolved : r.lifecycle ≠ .ambiguous
  permitted : r.descriptor.readinessSignal ≠ 2
  signal : r.descriptor.autoReady ∨ r.descriptor.readinessSignal = 1

theorem reservationUsable_ne {reason : DecisionReason}
    (h : reason = .dependencyFailed ∨ reason = .awaitingDependency) :
    s.reservationUsable r now ≠ .error reason := by
  unfold reservationUsable
  intro husable
  dsimp only at husable
  split at husable
  · split at husable <;> cases husable
    simp at h
  · split at husable
    · cases husable
      simp at h
    · split_ifs at husable <;> cases husable <;> simp at h

theorem derivedReadiness_heard (heard : r.Heard) (released : r.descriptor.releaseTick ≤ now) :
    (s.derivedReadiness r now = .error .dependencyFailed ↔
      ¬ s.dependenciesSatisfied r ∧ s.dependencyFailed r) ∧
    (s.derivedReadiness r now = .error .awaitingDependency ↔
      ¬ s.dependenciesSatisfied r ∧ ¬ s.dependencyFailed r) := by
  have hsignal : ¬ (¬ r.descriptor.autoReady ∧ r.descriptor.readinessSignal ≠ 1) := by
    rintro ⟨hauto, hone⟩
    exact heard.signal.elim hauto hone
  unfold derivedReadiness
  rw [if_neg (by rw [heard.live]; decide), if_neg heard.resolved, if_neg heard.permitted,
    if_neg hsignal, if_neg (UInt64.not_lt.mpr released)]
  by_cases hsatisfied : s.dependenciesSatisfied r
  · rw [if_neg (not_not.mpr hsatisfied)]
    have hfailed := @reservationUsable_ne s r now .dependencyFailed (.inl rfl)
    have hawaiting := @reservationUsable_ne s r now .awaitingDependency (.inr rfl)
    cases husable : s.reservationUsable r now with
    | error reason =>
      rw [husable] at hfailed hawaiting
      simp_all
    | ok _ => split_ifs <;> simp_all
  · rw [if_pos hsatisfied]
    by_cases hfailed : s.dependencyFailed r <;> simp [hsatisfied, hfailed]

/-- A change of the flow table alone keeps the readiness at every tick exactly when it keeps what the
dependencies say, as far as that is asked. -/
theorem derivedReadiness_eq_iff (reservations : s'.reservations = s.reservations) :
    (∀ now, s'.derivedReadiness r now = s.derivedReadiness r now) ↔
      (r.Heard → (s'.dependenciesSatisfied r ↔ s.dependenciesSatisfied r) ∧
        (¬ s.dependenciesSatisfied r → (s'.dependencyFailed r ↔ s.dependencyFailed r))) := by
  constructor
  · intro h heard
    obtain ⟨hfailed, hawaiting⟩ :=
      @derivedReadiness_heard s r r.descriptor.releaseTick heard (UInt64.le_refl _)
    obtain ⟨hfailed', hawaiting'⟩ :=
      @derivedReadiness_heard s' r r.descriptor.releaseTick heard (UInt64.le_refl _)
    rw [h] at hfailed' hawaiting'
    have hboth := hfailed.symm.trans hfailed'
    have hnone := hawaiting.symm.trans hawaiting'
    revert hboth hnone
    cases s.dependenciesSatisfied r <;> cases s'.dependenciesSatisfied r <;>
      cases s.dependencyFailed r <;> cases s'.dependencyFailed r <;> simp
  · intro h now
    have husable : s'.reservationUsable r now = s.reservationUsable r now := by
      unfold reservationUsable
      rw [reservations]
    unfold derivedReadiness
    rw [husable]
    by_cases hterminal : r.lifecycle.isTerminal
    · simp [hterminal]
    by_cases hambiguous : r.lifecycle = .ambiguous
    · simp [hambiguous]
    by_cases hwithheld : r.descriptor.readinessSignal = 2
    · simp [hwithheld]
    by_cases hsilent : ¬ r.descriptor.autoReady ∧ r.descriptor.readinessSignal ≠ 1
    · simp [hsilent]
    have heard : r.Heard := ⟨by simpa using hterminal, hambiguous, hwithheld, by tauto⟩
    obtain ⟨hsatisfied, hfailed⟩ := h heard
    have hsame : s'.dependenciesSatisfied r = s.dependenciesSatisfied r :=
      Bool.eq_iff_iff.mpr hsatisfied
    rw [hsame]
    by_cases hsat : s.dependenciesSatisfied r
    · rw [hsat]
      simp
    · rw [Bool.eq_iff_iff.mpr (hfailed hsat)]

end Dependencies

/-- What the flow says of its readiness hangs on the dependency alone: every other one is completed,
where it is completed itself, and none of them has failed, where it has. -/
def FlowRuntime.ReliesOn (s : Impl) (r : FlowRuntime) (dependency : FlowId) : Prop :=
  r.Heard ∧ dependency ∈ r.descriptor.dependencies ∧
    (s.Fulfilled dependency → ∀ d ∈ r.descriptor.dependencies, d ≠ dependency → s.Fulfilled d) ∧
    (s.Broken dependency → ∀ d ∈ r.descriptor.dependencies, d ≠ dependency → ¬ s.Broken d)

section Retire

variable {s t : Scheduler} {f g : FlowId} {generation : Generation} {r : FlowRuntime}

theorem retireFlow_ok {response : Response}
    (h : s.call (.retireFlow f generation) = (.ok response, t)) :
    ∃ ended, s.impl.flows[f]? = some ended ∧ ended.lifecycle.isTerminal ∧
      t.impl.reservations = s.impl.reservations ∧
      ∀ id, t.impl.flows[id]? = if id = f then none else s.impl.flows[id]? := by
  unfold Scheduler.call at h
  obtain ⟨_, u, hop, hret⟩ := exec_bind_ok.mp h
  cases hret
  rw [retireFlow, exec_readImpl_bind, exec_lift_bind] at hop
  cases hguard : s.impl.retireFlowGuard f generation with
  | error e =>
    rw [hguard] at hop
    cases hop
  | ok _ =>
    rw [hguard] at hop
    obtain ⟨_, v, happend, happly⟩ := exec_bind_ok.mp hop
    rw [exec_modifyImpl] at happly
    cases happly
    obtain ⟨ended, hnamed, hterminal⟩ := bind_eq_ok.mp hguard
    obtain ⟨hended, hgeneration⟩ := namedFlow_eq_ok.mp hnamed
    rw [refuseIf_eq_ok, not_not] at hterminal
    refine ⟨ended, hended, hterminal, ?_⟩
    rw [impl_of_append happend, applyRetireFlow, current_eq_some.mpr ⟨hended, hgeneration⟩]
    exact ⟨rfl, fun id => get_erase⟩

theorem retireFlow_readiness {response : Response}
    (h : s.call (.retireFlow f generation) = (.ok response, t)) (other : g ≠ f)
    (found : s.impl.flows[g]? = some r) :
    t.impl.flows[g]? = some r ∧
      ((∀ now, t.impl.derivedReadiness r now = s.impl.derivedReadiness r now) ↔
        ¬ r.ReliesOn s.impl f) := by
  obtain ⟨ended, hended, hterminal, hreservations, hflows⟩ := retireFlow_ok h
  refine ⟨by rw [hflows, if_neg other, found], ?_⟩
  have hfulfilled : ∀ d, t.impl.Fulfilled d ↔ d ≠ f ∧ s.impl.Fulfilled d := by
    intro d
    unfold Impl.Fulfilled
    rw [hflows]
    by_cases hd : d = f <;> simp [hd]
  have hbroken : ∀ d, t.impl.Broken d ↔ d ≠ f ∧ s.impl.Broken d := by
    intro d
    unfold Impl.Broken
    rw [hflows]
    by_cases hd : d = f <;> simp [hd]
  have hexclusive : s.impl.Fulfilled f ↔ ¬ s.impl.Broken f := by
    unfold Impl.Fulfilled Impl.Broken
    rw [hended]
    simp [hterminal]
  have hsatisfied : ∀ i : Impl, i.dependenciesSatisfied r ↔
      ∀ d ∈ r.descriptor.dependencies, i.Fulfilled d := fun i => dependenciesSatisfied_iff
  rw [derivedReadiness_eq_iff hreservations]
  simp only [hsatisfied, dependencyFailed_iff, hfulfilled, hbroken]
  constructor
  · rintro hsame ⟨heard, hmem, hfirst, hsecond⟩
    obtain ⟨hall, hany⟩ := hsame heard
    by_cases hf : s.impl.Broken f
    · have hunsatisfied : ¬ ∀ d ∈ r.descriptor.dependencies, s.impl.Fulfilled d := fun hd =>
        hexclusive.mp (hd f hmem) hf
      obtain ⟨d, hd, hne, hbad⟩ := (hany hunsatisfied).mpr ⟨f, hmem, hf⟩
      exact hsecond hf d hd hne hbad
    · have hdone := hexclusive.mpr hf
      refine (hall.mpr (fun d hd => ?_) f hmem).1 rfl
      by_cases hne : d = f
      · exact hne ▸ hdone
      · exact hfirst hdone d hd hne
  · intro hrelies heard
    by_cases hmem : f ∈ r.descriptor.dependencies
    · by_cases hf : s.impl.Broken f
      · -- another dependency has failed as well
        obtain ⟨d, hd, hne, hbad⟩ : ∃ d ∈ r.descriptor.dependencies, d ≠ f ∧ s.impl.Broken d := by
          by_contra hnone
          exact hrelies ⟨heard, hmem, fun hdone => absurd hf (hexclusive.mp hdone),
            fun _ d hd hne hbad => hnone ⟨d, hd, hne, hbad⟩⟩
        refine ⟨⟨fun hall => absurd rfl (hall f hmem).1, fun hall => ?_⟩, fun _ => ?_⟩
        · exact absurd hf (hexclusive.mp (hall f hmem))
        · exact ⟨fun _ => ⟨f, hmem, hf⟩, fun _ => ⟨d, hd, hne, hbad⟩⟩
      · -- another dependency is still to complete
        obtain ⟨d, hd, hne, hopen⟩ :
            ∃ d ∈ r.descriptor.dependencies, d ≠ f ∧ ¬ s.impl.Fulfilled d := by
          by_contra hnone
          refine hrelies ⟨heard, hmem, fun _ d hd hne => ?_, fun hbad => absurd hbad hf⟩
          by_contra hopen
          exact hnone ⟨d, hd, hne, hopen⟩
        refine ⟨⟨fun hall => absurd (hall d hd).2 hopen, fun hall => absurd (hall d hd) hopen⟩,
          fun _ => ⟨?_, ?_⟩⟩
        · rintro ⟨d', hd', -, hbad⟩
          exact ⟨d', hd', hbad⟩
        · rintro ⟨d', hd', hbad⟩
          exact ⟨d', hd', fun heq => hf (heq ▸ hbad), hbad⟩
    · have hne : ∀ d ∈ r.descriptor.dependencies, d ≠ f := fun d hd heq => hmem (heq ▸ hd)
      refine ⟨⟨fun hall d hd => (hall d hd).2, fun hall d hd => ⟨hne d hd, hall d hd⟩⟩, fun _ => ?_⟩
      constructor
      · rintro ⟨d, hd, -, hbad⟩
        exact ⟨d, hd, hbad⟩
      · rintro ⟨d, hd, hbad⟩
        exact ⟨d, hd, hne d hd, hbad⟩

end Retire

namespace Sample

/-- A second flow waits for the first, which is served and completes; a third waits for both. -/
def succession : List Call :=
  [.registerResource resource, .registerPriorityClass priority, .registerQosClass qos,
    .admitFlow { flow 1 with estimatedWork := 5 }, .admitFlow { flow 2 with dependencies := [⟨1⟩] },
    .admitFlow { flow 3 with dependencies := [⟨1⟩, ⟨2⟩] }, .arbitrate 5, dispatch 5,
    .complete { schedule := ⟨1⟩, scheduleGeneration := ⟨1⟩, attempt := ⟨1⟩, epoch := ⟨1⟩
                flow := ⟨1⟩, flowGeneration := ⟨1⟩, worker := ⟨7⟩, boot := ⟨8⟩
                served := 5, observedTick := 6, provenance } 6]

set_option maxRecDepth 100000 in
/-- The third flow has the second still to wait for. -/
theorem retireFlow_readiness_unrelated : ∃ s, Reachable s ∧ ∃ response t r,
    s.call (.retireFlow ⟨1⟩ ⟨1⟩) = (.ok response, t) ∧ s.impl.flows[(⟨3⟩ : FlowId)]? = some r ∧
      ⟨1⟩ ∈ r.descriptor.dependencies ∧
      ∀ now, t.impl.derivedReadiness r now = s.impl.derivedReadiness r now := by
  obtain ⟨s, reachable, hcall, r, hr, hfirst, hsecond, r₁, hr₁, hdone, r₂, hr₂, hopen⟩ : ∃ s,
      Reachable s ∧ (s.call (.retireFlow ⟨1⟩ ⟨1⟩)).1.toOption.isSome ∧
      ∃ r ∈ s.impl.flows[(⟨3⟩ : FlowId)]?, (⟨1⟩ : FlowId) ∈ r.descriptor.dependencies ∧
        (⟨2⟩ : FlowId) ∈ r.descriptor.dependencies ∧
        ∃ r₁ ∈ s.impl.flows[(⟨1⟩ : FlowId)]?, r₁.lifecycle = .completed ∧
        ∃ r₂ ∈ s.impl.flows[(⟨2⟩ : FlowId)]?, r₂.lifecycle ≠ .completed :=
    @exists_reachable transient succession _ (by decide +kernel)
  obtain ⟨response, t, h⟩ := call_of_isSome hcall
  refine ⟨s, reachable, response, t, r, h, hr, hfirst, ?_⟩
  refine (retireFlow_readiness h (by decide) hr).2.mpr fun hrelies => ?_
  obtain ⟨found, hfound, hcompleted⟩ := hrelies.2.2.1 ⟨r₁, hr₁, hdone⟩ ⟨2⟩ hsecond (by decide)
  obtain rfl := Option.some.inj (hfound.symm.trans hr₂)
  exact hopen hcompleted

set_option maxRecDepth 100000 in
/-- The dependent of a completed flow could run at the seventh tick; with the flow retired it waits.
The dependent of a cancelled flow was to fail; it waits too. -/
theorem not_retireFlow_readiness :
    (∃ s, Reachable s ∧ (s.call (.retireFlow ⟨1⟩ ⟨1⟩)).1.toOption = some .done ∧
      ∃ r ∈ s.impl.flows[(⟨2⟩ : FlowId)]?, s.impl.derivedReadiness r 7 = .ok () ∧
        (s.call (.retireFlow ⟨1⟩ ⟨1⟩)).2.impl.derivedReadiness r 7 = .error .awaitingDependency) ∧
    ∃ s, Reachable s ∧ (s.call (.retireFlow ⟨1⟩ ⟨1⟩)).1.toOption = some .done ∧
      ∃ r ∈ s.impl.flows[(⟨2⟩ : FlowId)]?, s.impl.derivedReadiness r 7 = .error .dependencyFailed ∧
        (s.call (.retireFlow ⟨1⟩ ⟨1⟩)).2.impl.derivedReadiness r 7 = .error .awaitingDependency :=
  ⟨@exists_reachable transient succession _ (by decide +kernel),
    @exists_reachable transient (succession.take 6 ++ [.cancelFlow ⟨1⟩ ⟨1⟩ [] 5]) _
      (by decide +kernel)⟩

end Sample

end FlowScheduler

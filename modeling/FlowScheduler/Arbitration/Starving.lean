import FlowScheduler.Arbitration.Replacement

/-! # Starving flows

A starving flow that finds its resource full, and may displace nobody there,
keeps later candidates off the resource as well, unless the policy goes by a rank
that one of them has and the starving flow has not.
-/

namespace FlowScheduler

open ByteCodec (Bytes)
open Failing SchedOp Impl OrderedMap

section Blocking

variable {i i' : Impl} {now : Ticks} {limit : ℕ} {c : Candidate} {round round' : Round}
  {k : ResourceId} {key key' : OrderKey}

/-- The other key is authorized to displace only where the first one is. -/
def Impl.Trails (i : Impl) (key key' : OrderKey) : Prop :=
  key.tier ≤ key'.tier ∧ (i.policy.preemption = .none ∨ i.policy.preemption = .deadline ∨
    key.priorityRank ≤ key'.priorityRank)

theorem Impl.Trails.authorizes {incumbent : OrderKey} {overdue : Bool} (h : i.Trails key key')
    (starving : key.tier ≠ kTierDeadlineUrgent) (authorized : i.Authorizes key' incumbent overdue) :
    i.Authorizes key incumbent overdue := by
  obtain ⟨htier, hmode⟩ := h
  unfold Impl.Authorizes at authorized ⊢
  cases hpreemption : i.policy.preemption with
  | none => simp [hpreemption] at authorized
  | deadline =>
    simp only [hpreemption] at authorized ⊢
    refine authorized.imp_left fun hurgent => ?_
    rw [hurgent.1] at htier
    exact absurd (UInt32.le_zero_iff.mp htier) starving
  | strictPriority =>
    have hrank : key.priorityRank ≤ key'.priorityRank := by simpa [hpreemption] using hmode
    simp only [hpreemption] at authorized ⊢
    exact authorized.imp_left fun hbetter => UInt32.lt_of_le_of_lt hrank hbetter
  | tiered =>
    have hrank : key.priorityRank ≤ key'.priorityRank := by simpa [hpreemption] using hmode
    simp only [hpreemption] at authorized ⊢
    exact authorized.imp (UInt32.lt_of_le_of_lt htier)
      (Or.imp_left fun hbetter => UInt32.lt_of_le_of_lt hrank hbetter)

/-- The resource is full, and the key is authorized to displace nobody there. -/
structure Jammed (k : ResourceId) (key : OrderKey) (now : Ticks) (i : Impl) (round : Round) :
    Prop where
  full : ∀ resource, i.resources[k]? = some resource → resource.descriptor.maxOverlap ≤
    resource.inFlight + round.pendingInFlight.getD k 0
  stuck : ∀ id r, i.Incumbent k id r →
    (∀ id' r', i.Incumbent k id' r' → ¬ (i.computeKey r now).before (i.computeKey r' now)) →
    i.attempts[r.openAttempt]?.isSome → i.Displaceable r →
    ¬ i.Authorizes key (i.computeKey r now) (isOverdue r now)

/-- A candidate that was refused at the ceiling has found the resource jammed. -/
theorem jammed_of_refused {flow : FlowRuntime} {e : DecisionReason × String} (keyed : Keyed i)
    (anchored : i.ledger.Anchored)
    (full : ∀ resource, i.resources[flow.descriptor.resource.id]? = some resource →
      resource.descriptor.maxOverlap ≤
        resource.inFlight + round.pendingInFlight.getD flow.descriptor.resource.id 0)
    (refused : i.chooseVictim c flow.descriptor now = .error e) :
    Jammed flow.descriptor.resource.id c.key now i round := by
  refine ⟨full, fun id r hr hworst hfiled hdisplaceable hauthorized => ?_⟩
  obtain ⟨record, hrecord⟩ := Option.isSome_iff_exists.mp hfiled
  obtain ⟨-, hflow, -⟩ := anchored.incumbent hr hrecord
  unfold chooseVictim at refused
  rw [worstIncumbent_of_worst keyed hr hworst] at refused
  dsimp only at refused
  rw [hrecord] at refused
  dsimp only at refused
  rw [hflow, hr.found] at refused
  dsimp only at refused
  rw [preemptionAllowed_ok_iff.mpr ⟨hdisplaceable, hauthorized⟩] at refused
  cases refused

theorem Jammed.frame (h : Jammed k key now i round) (keys : SameKeys i i')
    (full : ∀ resource, i'.resources[k]? = some resource → resource.descriptor.maxOverlap ≤
      resource.inFlight + round'.pendingInFlight.getD k 0)
    (incumbents : ∀ id r, i'.Incumbent k id r ↔ i.Incumbent k id r)
    (attempts : ∀ a : DispatchAttemptId, i'.attempts[a]?.isSome → i.attempts[a]?.isSome)
    (throttle : ∀ r, i'.Displaceable r → i.preemptionsInWindow < i.policy.maxPreemptionsPerInterval) :
    Jammed k key now i' round' := by
  have hpolicy : i'.policy = i.policy := congrArg Setting.policy keys.setting
  have hclasses : i'.qosClasses = i.qosClasses := congrArg Setting.qosClasses keys.setting
  have hkey : ∀ r, i'.computeKey r now = i.computeKey r now :=
    fun r => computeKey_congr keys.setting rfl
  refine ⟨full, fun id r hr hworst hfiled hdisplaceable hauthorized => ?_⟩
  refine h.stuck id r ((incumbents id r).mp hr) (fun id' r' hr' => ?_) (attempts _ hfiled) ?_ ?_
  · rw [← hkey, ← hkey]
    exact hworst id' r' ((incumbents id' r').mpr hr')
  · have hthrottle := throttle r hdisplaceable
    obtain ⟨henabled, hunprotected, hpreemptible, hserved, -⟩ := hdisplaceable
    rw [hpolicy] at henabled hserved
    rw [hclasses] at hunprotected
    exact ⟨henabled, hunprotected, hpreemptible, hserved, hthrottle⟩
  · rw [hkey] at hauthorized
    unfold Impl.Authorizes at hauthorized ⊢
    rwa [hpolicy] at hauthorized

/-- Nobody the key is not behind displaces an incumbent of a jammed resource. -/
theorem Jammed.refuses {flow : FlowRuntime} {victim : Victim} (h : Jammed k key now i round)
    (keyed : Keyed i) (anchored : i.ledger.Anchored) (starving : key.tier ≠ kTierDeadlineUrgent)
    (trails : i.Trails key c.key)
    (chosen : i.chooseVictim c flow.descriptor now = .ok victim) :
    flow.descriptor.resource.id ≠ k := by
  rintro rfl
  obtain ⟨hworst, hfiled, hflow, hdisplaceable, hauthorizes⟩ := chooseVictim_ok chosen
  obtain ⟨id, r, hr, hopen, hlast⟩ := worstIncumbent_worst keyed hworst
  rw [← hopen] at hfiled
  obtain ⟨-, rfl, -⟩ := anchored.incumbent hr hfiled
  obtain rfl := Option.some.inj (hr.found.symm.trans hflow)
  exact h.stuck _ _ hr hlast (by rw [hfiled]; rfl) hdisplaceable
    (trails.authorizes starving hauthorizes)

theorem inFlight_rollInterval (r : ResourceRuntime) (now : Ticks) :
    (r.rollInterval now).inFlight = r.inFlight := by
  unfold ResourceRuntime.rollInterval
  dsimp only
  split <;> rfl

theorem Jammed.rolled {d : FlowDescriptor} (h : Jammed k key now i round) :
    Jammed k key now (i.rolled d now) round := by
  refine h.frame .modifyResource (fun resource hresource => ?_) (fun id r => ⟨?_, ?_⟩)
    (fun _ hfiled => hfiled) fun _ hr => hr.unthrottled
  · simp only [Impl.rolled, modifyResource, get_modify] at hresource
    split at hresource
    · obtain ⟨resource, hfound, rfl⟩ := Option.map_eq_some_iff.mp hresource
      rw [Impl.descriptor_rollInterval, inFlight_rollInterval]
      exact h.full resource hfound
    · exact h.full resource hresource
  · rintro ⟨hfound, hbusy, hholds, hserves⟩
    exact ⟨hfound, hbusy, hholds, hserves⟩
  · rintro ⟨hfound, hbusy, hholds, hserves⟩
    exact ⟨hfound, hbusy, hholds, hserves⟩

theorem Jammed.displace {victim : Victim} (h : Jammed k key now i round)
    (keyed : Keyed i) (anchored : i.ledger.Anchored) {flow : FlowRuntime}
    (chosen : i.chooseVictim c flow.descriptor now = .ok victim)
    (elsewhere : flow.descriptor.resource.id ≠ k)
    (pending : round'.pendingInFlight.getD k 0 = round.pendingInFlight.getD k 0) :
    Jammed k key now (i.displace victim flow.descriptor.resource.id now) round' := by
  have hserves := chooseVictim_serves keyed anchored chosen
  obtain ⟨-, -, -, hdisplaceable, -⟩ := chooseVictim_ok chosen
  refine h.frame .displace (fun resource hresource => ?_) (fun id r => ?_) (fun a ha => ?_)
    fun _ _ => hdisplaceable.unthrottled
  · rw [hserves.inFlight_of_ne elsewhere.symm] at hresource
    rw [pending]
    exact h.full resource hresource
  · rw [hserves.incumbent_iff, and_iff_left_iff_imp]
    rintro hr rfl
    obtain rfl := Option.some.inj (hr.found.symm.trans hserves.incumbent.found)
    exact elsewhere (hserves.incumbent.serves.symm.trans hr.serves)
  · exact hserves.filed_of ha

/-- Turning a flow away takes no slot, files no attempt and counts no displacement. -/
theorem slots_deferUnready {id : FlowId} {flow : FlowRuntime} {reason : DecisionReason}
    {o : ArbitrationOutcome} : (i.deferUnready id flow reason now o).1.resources = i.resources ∧
      (i.deferUnready id flow reason now o).1.attempts = i.attempts ∧
      (i.deferUnready id flow reason now o).1.preemptionsInWindow = i.preemptionsInWindow := by
  unfold deferUnready
  split
  · unfold handleDeadlineMiss
    split
    · exact ⟨rfl, rfl, rfl⟩
    · dsimp only
      split <;> exact ⟨rfl, rfl, rfl⟩
  · split <;> exact ⟨rfl, rfl, rfl⟩

theorem pendingInFlight_grant {e : ScheduleEntry} (elsewhere : e.resource ≠ k) :
    (round.grant e).pendingInFlight.getD k 0 = round.pendingInFlight.getD k 0 := by
  rw [Round.grant, getD_insert, if_neg elsewhere.symm]

theorem Jammed.step (h : Jammed k key now i round) (sound : Sound i) (anchored : i.ledger.Anchored)
    (starving : key.tier ≠ kTierDeadlineUrgent)
    (trails : ∀ flow, Eligible i now c flow → flow.descriptor.resource.id = k → i.Trails key c.key)
    (decides : Decides now limit c i round i' round') :
    Jammed k key now i' round' ∧ ∃ added, round'.entries = round.entries ++ added ∧
      ∀ e ∈ added, e.kind = .run → e.resource ≠ k := by
  have hrolled : ∀ d, Jammed k key now (i.rolled d now) round := fun _ => h.rolled
  have hanchored : ∀ d, (i.rolled d now).ledger.Anchored := fun _ =>
    anchored.mono (fun id f hf _ => ⟨f, hf, rfl, rfl⟩) fun _ _ _ _ _ hx => hx
  have helsewhere : ∀ {flow victim}, Eligible i now c flow →
      (i.rolled flow.descriptor now).chooseVictim c flow.descriptor now = .ok victim →
      flow.descriptor.resource.id ≠ k := by
    intro flow victim eligible chosen hk
    exact (hrolled _).refuses (rolled_keyed sound.keyed) (hanchored _) starving
      (trails flow eligible hk) chosen hk
  have hnothing : ∃ added, round.entries = round.entries ++ added ∧
      ∀ e ∈ added, e.kind = .run → e.resource ≠ k := ⟨[], (List.append_nil _).symm, by simp⟩
  cases decides with
  | passed | deferred => exact ⟨⟨h.full, h.stuck⟩, hnothing⟩
  | unready found ready derived =>
    refine ⟨h.frame .deferUnready (fun resource hresource => ?_)
      (fun id r => incumbent_deferUnready found ready) (fun a ha => ?_) fun r hr => ?_, hnothing⟩
    · exact h.full resource (slots_deferUnready.1 ▸ hresource)
    · rwa [slots_deferUnready.2.1] at ha
    · have hthrottle := hr.unthrottled
      rwa [slots_deferUnready.2.2, show (i.deferUnready c.flow _ _ now round.outcome).1.policy =
        i.policy from congrArg Setting.policy setting_deferUnready] at hthrottle
  | blocked | windowless => exact ⟨⟨(hrolled _).full, (hrolled _).stuck⟩, hnothing⟩
  | granted eligible free within registered room =>
    rename_i flow resource quantum legal
    have hk : flow.descriptor.resource.id ≠ k := by
      rintro rfl
      exact room (h.full resource registered)
    refine ⟨⟨fun found hfound => ?_, (hrolled _).stuck⟩, _, rfl, fun e he _ => ?_⟩
    · rw [pendingInFlight_grant hk]
      exact (hrolled _).full found hfound
    · rw [List.mem_singleton.mp he]
      exact hk
  | displaced eligible free within registered full chosen after entered registered' none =>
    subst after entered
    have hk := helsewhere eligible chosen
    have hsame : round.pendingInFlight.getD k 0 = round.pendingInFlight.getD k 0 := rfl
    have hjammed := (hrolled _).displace (rolled_keyed sound.keyed) (hanchored _) chosen hk hsame
    refine ⟨⟨hjammed.full, hjammed.stuck⟩, _, rfl, fun e he hkind => ?_⟩
    rw [List.mem_singleton.mp he] at hkind
    cases hkind
  | replaced eligible free within registered full chosen after entered registered' legal =>
    subst after entered
    have hk := helsewhere eligible chosen
    refine ⟨(hrolled _).displace (rolled_keyed sound.keyed) (hanchored _) chosen hk
      (pendingInFlight_grant hk), [_, _], List.append_assoc _ _ _, fun e he hkind => ?_⟩
    rcases List.mem_pair.mp he with rfl | rfl
    · cases hkind
    · exact hk

/-- The candidate may run but for the ceiling of its resource, and was refused a displacement. -/
structure Impl.Refused (i : Impl) (round : Round) (c : Candidate) (flow : FlowRuntime)
    (now : Ticks) : Prop where
  eligible : FlowScheduler.Eligible i now c flow
  full : ∀ resource, i.resources[flow.descriptor.resource.id]? = some resource →
    resource.descriptor.maxOverlap ≤
      resource.inFlight + round.pendingInFlight.getD flow.descriptor.resource.id 0
  refused : ∃ e, (i.rolled flow.descriptor now).chooseVictim c flow.descriptor now = .error e

theorem Impl.Refused.jammed {flow : FlowRuntime} (h : i.Refused round c flow now) (keyed : Keyed i)
    (anchored : i.ledger.Anchored) : Jammed flow.descriptor.resource.id c.key now i round := by
  obtain ⟨e, he⟩ := h.refused
  exact jammed_of_refused keyed anchored h.full he

end Blocking

section Overtaking

variable {s t u : Scheduler} {now : Ticks} {limit : ℕ} {before after : List Candidate}
  {round round' : Round}

theorem considerCandidates_after {final : Round}
    (h : exec (considerCandidates now limit (before ++ after) round) s = (.ok final, t))
    (first : exec (considerCandidates now limit before round) s = (.ok round', u)) :
    exec (considerCandidates now limit after round') u = (.ok final, t) := by
  induction before generalizing s round with
  | nil =>
    cases first
    exact h
  | cons c before ih =>
    obtain ⟨round₁, u₁, hstep, h⟩ := exec_bind_ok.mp h
    obtain ⟨round₂, u₂, hstep', first⟩ := exec_bind_ok.mp first
    rw [hstep] at hstep'
    cases hstep'
    exact ih h first

theorem OrderKey.tier_le {a b : OrderKey} (h : a = b ∨ a.before b) :
    a.tier ≤ b.tier ∧ (a.tier = b.tier → a.priorityRank ≤ b.priorityRank) := by
  rcases h with rfl | h
  · exact ⟨UInt32.le_refl _, fun _ => UInt32.le_refl _⟩
  · rw [OrderKey.before_iff, OrderKey.ranks, OrderKey.ranks, List.cons_lt_cons_iff,
      List.cons_lt_cons_iff] at h
    rw [UInt32.le_iff_toNat_le, UInt32.le_iff_toNat_le, ← UInt32.toNat_inj]
    omega

/-- What the rest of a round cannot undo once a starving flow was refused. -/
structure Guarded (u : Impl) (key : OrderKey) (k : ResourceId) (now : Ticks)
    (entries : List ScheduleEntry) (i : Impl) (round : Round) : Prop where
  keys : SameKeys u i
  ready : ∀ (id : FlowId) (r : FlowRuntime), i.flows[id]? = some r → r.lifecycle = .ready →
    ∃ r₀ : FlowRuntime, u.flows[id]? = some r₀ ∧ r₀.lifecycle = .ready
  jammed : Jammed k key now i round
  windows : ∀ e ∈ round.entries, e ∈ entries ∨ e.kind ≠ .run ∨ e.resource ≠ k

theorem Guarded.step {v i i' : Impl} {key : OrderKey} {k : ResourceId} {c : Candidate}
    {entries : List ScheduleEntry} (h : Guarded v key k now entries i round) (sound : Sound i)
    (anchored : i.ledger.Anchored) (starving : key.tier ≠ kTierDeadlineUrgent)
    (trails : ∀ r : FlowRuntime, v.flows[c.flow]? = some r → r.lifecycle = .ready →
      r.descriptor.resource.id = k → v.Trails key c.key)
    (decides : Decides now limit c i round i' round') : Guarded v key k now entries i' round' := by
  have htrails : ∀ flow, Eligible i now c flow → flow.descriptor.resource.id = k →
      i.Trails key c.key := by
    intro flow eligible hk
    obtain ⟨r, hr, hready⟩ := h.ready _ _ eligible.found eligible.ready
    obtain ⟨flow', hflow', hstamp, -⟩ := h.keys.kept now hr
    obtain rfl := Option.some.inj (eligible.found.symm.trans hflow')
    have hdescriptor : flow.descriptor = r.descriptor := congrArg Prod.fst hstamp
    have hpolicy : i.policy = v.policy := congrArg Setting.policy h.keys.setting
    unfold Impl.Trails
    rw [hpolicy]
    exact trails r hr hready (hdescriptor ▸ hk)
  obtain ⟨hjammed, added, hadded, hwindows⟩ := h.jammed.step sound anchored starving htrails decides
  refine ⟨h.keys.trans decides.sameKeys, fun id r hr hready => ?_, hjammed, fun e he => ?_⟩
  · obtain ⟨r₀, hr₀, hready₀⟩ := decides.ready_of sound.keyed anchored hr hready
    exact h.ready id r₀ hr₀ hready₀
  · rw [hadded] at he
    rcases List.mem_append.mp he with he | he
    · exact h.windows e he
    · right
      by_cases hkind : e.kind = .run
      · exact .inr (hwindows e he hkind)
      · exact .inl hkind

/-- While a starving flow is refused at the ceiling of a resource, nobody of the minimum-service or
the normal tier gets a window there, unless the policy goes by rank and one of them has a better
one. -/
theorem starving_not_overtaken (s t u u' : Scheduler) (now : Ticks) (o : ArbitrationOutcome)
    (c : Candidate) (round round' : Round) (flow : FlowRuntime) (reachable : Reachable s)
    (anchored : s.impl.ledger.Anchored) (arbitrated : exec (arbitrate now) s = (.ok o, t))
    (considered : Considered now s c u round u' round') (refused : u.impl.Refused round c flow now)
    (starving : u.impl.tierOf flow now = kTierStarvation)
    (fair : u.impl.policy.preemption = .none ∨ u.impl.policy.preemption = .deadline ∨
      ∀ (id : FlowId) (b : FlowRuntime), u.impl.flows[id]? = some b → b.lifecycle = .ready →
        b.descriptor.resource.id = flow.descriptor.resource.id →
        kTierMinServiceDeficient ≤ u.impl.tierOf b now →
        ¬ (u.impl.computeKey b now).priorityRank < (u.impl.computeKey flow now).priorityRank) :
    ∀ e ∈ o.schedule.entries, e.kind = .run → e.resource = flow.descriptor.resource.id →
      ∃ b, u.impl.flows[e.flow]? = some b ∧ u.impl.tierOf b now ≠ kTierMinServiceDeficient ∧
        u.impl.tierOf b now ≠ kTierNormal := by
  obtain ⟨final, t', hdecide, hentries⟩ := arbitrate_entries arbitrated
  obtain ⟨p, u₀, before, after, hopen, hp, hbefore, hstep⟩ := considered
  rw [decideGrants_eq] at hdecide
  obtain ⟨p', u₀', hopen', hdecide⟩ := exec_bind_ok.mp hdecide
  rw [hopen] at hopen'
  cases hopen'
  rw [exec_readImpl_bind, hp] at hdecide
  obtain ⟨hmakes, hopened, hranks⟩ := openRound_ok reachable.sound hopen
  have hbounded : u₀.impl.entryLimit ≤ kEntryBound := min_le_right _ _
  have hsound₀ : Sound u₀.impl := hmakes.round.sound reachable.sound
  have hfirst := considerCandidates_ok hbounded hsound₀ hopened.clock hbefore
  have hsound : Sound u.impl := hfirst.makes.round.sound hsound₀
  have hanchored : u.impl.ledger.Anchored := hfirst.makes.anchored (hmakes.anchored anchored)
  have hrest := considerCandidates_ok hbounded hsound (hfirst.makes.round.clock hopened.clock)
    (considerCandidates_after hdecide hbefore)
  -- the keys of the round, as they are when the starving flow is considered
  have hkeys : ∀ c' ∈ before ++ c :: after, ∃ r, u.impl.flows[c'.flow]? = some r ∧
      c'.key = u.impl.computeKey r now := by
    intro c' hc'
    obtain ⟨r₀, hr₀, -, hkey⟩ := hranks.ranks c' (hp ▸ hc')
    obtain ⟨r, hr, -, hsame⟩ := hfirst.sameKeys.kept now hr₀
    exact ⟨r, hr, hkey.trans hsame.symm⟩
  have hordered := hranks.ordered
  rw [hp] at hordered
  obtain ⟨-, hlater, hearlier⟩ := List.pairwise_append.mp hordered
  obtain ⟨r, hr, hkey⟩ := hkeys c (by simp)
  obtain rfl := Option.some.inj (hr.symm.trans refused.eligible.found)
  have htier : c.key.tier = kTierStarvation := (congrArg OrderKey.tier hkey).trans starving
  have htrails : ∀ c' ∈ c :: after, ∀ r' : FlowRuntime, u.impl.flows[c'.flow]? = some r' →
      r'.lifecycle = .ready → r'.descriptor.resource.id = r.descriptor.resource.id →
      u.impl.Trails c.key c'.key := by
    intro c' hc' r' hr' hready hresource
    obtain ⟨r'', hr'', hkey'⟩ := hkeys c' (List.mem_append_right _ hc')
    obtain rfl := Option.some.inj (hr'.symm.trans hr'')
    have horder : c.key = c'.key ∨ c.key.before c'.key := by
      rcases List.mem_cons.mp hc' with rfl | hc'
      · exact .inl rfl
      · exact .inr ((List.pairwise_cons.mp hlater).1 c' hc')
    obtain ⟨hle, hrank⟩ := OrderKey.tier_le horder
    refine ⟨hle, fair.imp_right (Or.imp_right fun hfair => ?_)⟩
    by_cases hsame : c.key.tier = c'.key.tier
    · exact hrank hsame
    · have hworse : kTierMinServiceDeficient ≤ u.impl.tierOf r' now := by
        have htier' : u.impl.tierOf r' now = c'.key.tier := (congrArg OrderKey.tier hkey').symm
        rw [htier] at hle hsame
        rw [← UInt32.toNat_inj] at hsame
        rw [UInt32.le_iff_toNat_le] at hle
        rw [htier', UInt32.le_iff_toNat_le]
        exact Nat.lt_of_le_of_ne hle hsame
      rw [hkey, hkey']
      exact UInt32.not_lt.mp (hfair c'.flow r' hr' hready hresource hworse)
  have hguarded := (hrest.scans (P := fun rest i round' => Guarded u.impl c.key
    r.descriptor.resource.id now round.entries i round' ∧ ∀ c' ∈ rest, c' ∈ c :: after)
    (fun c' rest i round i' round' sound anchored step h =>
      ⟨h.1.step sound anchored (by rw [htier]; decide) (htrails c' (h.2 c' List.mem_cons_self)) step,
        fun a ha => h.2 a (List.mem_cons_of_mem _ ha)⟩) hanchored
    ⟨⟨.refl _, fun id r hr hready => ⟨r, hr, hready⟩, refused.jammed hsound.keyed hanchored,
      fun e he => .inl he⟩, fun _ hc => hc⟩).1
  intro e he hkind hresource
  rw [hentries] at he
  rcases hguarded.windows e he with he | hother | helsewhere
  · -- the windows granted before are those of candidates with a better key
    obtain ⟨added, hadded, hruns⟩ := hfirst.enters
    rw [hadded, List.nil_append] at he
    obtain ⟨c', hc', hflow⟩ := List.mem_map.mp (hruns e he hkind)
    obtain ⟨r', hr', hkey'⟩ := hkeys c' (List.mem_append_left _ hc')
    obtain ⟨hle, -⟩ := OrderKey.tier_le (.inr (hearlier c' hc' c List.mem_cons_self))
    rw [htier, hkey', UInt32.le_iff_toNat_le] at hle
    have hbetter : (u.impl.tierOf r' now).toNat ≤ 1 := hle
    refine ⟨r', hflow ▸ hr', ?_, ?_⟩
    · intro h
      rw [h] at hbetter
      exact absurd hbetter (by decide)
    · intro h
      rw [h] at hbetter
      exact absurd hbetter (by decide)
  · exact absurd hkind hother
  · exact absurd hresource helsewhere

end Overtaking

namespace Sample

/-- While a flow of the background class runs, another one waits for the bound and one of the better
class arrives. -/
def contention : List Call :=
  [.registerResource resource, .registerPriorityClass priority, .registerPriorityClass background,
    .registerQosClass qos, .admitFlow { flow 1 with priority := ⟨⟨2⟩, ⟨1⟩⟩ }, .arbitrate 5,
    dispatch 5, .admitFlow { flow 2 with priority := ⟨⟨2⟩, ⟨1⟩⟩ }, .arbitrate 6, .admitFlow (flow 3)]

/-- The first candidate of the round is starving and refused at the ceiling; the round issues
entries of which this holds, given the resource and the state. -/
def RefusesFirst (s : Scheduler) (now : Ticks)
    (Q : Impl → ResourceId → List ScheduleEntry → Prop) : Prop :=
  ∃ p ∈ (exec (openRound now) s).1.toOption, ∃ c ∈ p.1.head?,
    ∃ round' ∈ (exec (considerCandidate now (exec (openRound now) s).2.impl.entryLimit
      { outcome := p.2 } c) (exec (openRound now) s).2).1.toOption,
    ∃ flow ∈ (exec (openRound now) s).2.impl.flows[c.flow]?, flow.lifecycle = .ready ∧
      (exec (openRound now) s).2.impl.derivedReadiness flow now = .ok () ∧
      (∃ resource ∈ (exec (openRound now) s).2.impl.resources[flow.descriptor.resource.id]?,
        resource.descriptor.generation = flow.descriptor.resource.generation ∧
        resource.descriptor.maxOverlap ≤ resource.inFlight +
          ({ outcome := p.2 } : Round).pendingInFlight.getD flow.descriptor.resource.id 0) ∧
      (((exec (openRound now) s).2.impl.rolled flow.descriptor now).chooseVictim c flow.descriptor
        now).toOption.isNone ∧
      (exec (openRound now) s).2.impl.tierOf flow now = kTierStarvation ∧
      ∃ o ∈ (exec (arbitrate now) s).1.toOption,
        Q (exec (openRound now) s).2.impl flow.descriptor.resource.id o.schedule.entries

instance {s : Scheduler} {now : Ticks} {Q : Impl → ResourceId → List ScheduleEntry → Prop}
    [∀ i k es, Decidable (Q i k es)] : Decidable (RefusesFirst s now Q) := by
  unfold RefusesFirst
  infer_instance

theorem RefusesFirst.spec {s : Scheduler} {now : Ticks}
    {Q : Impl → ResourceId → List ScheduleEntry → Prop} (h : RefusesFirst s now Q) :
    ∃ (c : Candidate) (u u' : Scheduler) (round round' : Round) (flow : FlowRuntime)
      (o : ArbitrationOutcome), u = (exec (openRound now) s).2 ∧
      Considered now s c u round u' round' ∧
      u.impl.Refused round c flow now ∧ u.impl.tierOf flow now = kTierStarvation ∧
      exec (arbitrate now) s = (.ok o, (exec (arbitrate now) s).2) ∧
      Q u.impl flow.descriptor.resource.id o.schedule.entries := by
  obtain ⟨p, hp, c, hc, round', hround, flow, hflow, hready, hderived,
    ⟨resource, hresource, hgeneration, hfull⟩, hrefused, hstarving, o, ho, hQ⟩ := h
  obtain ⟨u', considered⟩ := considered_head hp hc hround
  refine ⟨c, _, u', _, round', flow, o, rfl, considered,
    ⟨⟨hflow, hready, hderived, resource, hresource, hgeneration⟩, fun found hfound => ?_, ?_⟩,
    hstarving, exec_eq_of_mem ho, hQ⟩
  · obtain rfl := Option.some.inj (hresource.symm.trans hfound)
    exact hfull
  · cases hchosen : ((exec (openRound now) s).2.impl.rolled flow.descriptor now).chooseVictim c
        flow.descriptor now with
    | error e => exact ⟨e, rfl⟩
    | ok victim =>
      rw [hchosen] at hrefused
      cases hrefused

set_option maxRecDepth 100000 in
/-- Without displacements the arrival waits as well. -/
theorem starving_not_overtaken_contention : ∃ s c u round u' round' flow o, Reachable s ∧
    Considered 9 s c u round u' round' ∧ u.impl.Refused round c flow 9 ∧
    exec (arbitrate 9) s = (.ok o, (exec (arbitrate 9) s).2) ∧
    ∀ e ∈ o.schedule.entries, e.kind = .run → e.resource = flow.descriptor.resource.id →
      ∃ b, u.impl.flows[e.flow]? = some b ∧ u.impl.tierOf b 9 ≠ kTierMinServiceDeficient ∧
        u.impl.tierOf b 9 ≠ kTierNormal := by
  obtain ⟨s, reachable, hanchored, hrefuses⟩ : ∃ s, Reachable s ∧
      s.impl.HoldsOwn ∧
      RefusesFirst s 9 fun i _ _ => i.policy.preemption = .none :=
    @exists_reachable (displacing .none 3) contention _ (by decide +kernel)
  obtain ⟨c, u, u', round, round', flow, o, -, considered, refused, starving, arbitrated, mode⟩ :=
    hrefuses.spec
  exact ⟨s, c, u, round, u', round', flow, o, reachable, considered, refused, arbitrated,
    starving_not_overtaken s _ u u' 9 o c round round' flow reachable hanchored.anchored
      arbitrated considered refused starving (.inl mode)⟩

set_option maxRecDepth 100000 in
/-- The starving flow does not outrank the incumbent; the arrival does, and runs. -/
theorem not_starving_not_overtaken : ¬ ∀ (s t u u' : Scheduler) (now : Ticks)
    (o : ArbitrationOutcome) (c : Candidate) (round round' : Round) (flow : FlowRuntime),
    Reachable s → exec (arbitrate now) s = (.ok o, t) → Considered now s c u round u' round' →
    u.impl.Refused round c flow now → u.impl.tierOf flow now = kTierStarvation →
    ∀ e ∈ o.schedule.entries, e.kind = .run → e.resource = flow.descriptor.resource.id →
      ∀ b, u.impl.flows[e.flow]? = some b → u.impl.tierOf b now ≠ kTierMinServiceDeficient ∧
        u.impl.tierOf b now ≠ kTierNormal := by
  intro claim
  obtain ⟨s, reachable, hrefuses⟩ : ∃ s, Reachable s ∧ RefusesFirst s 9 fun i k es =>
      ∃ e ∈ es, e.kind = .run ∧ e.resource = k ∧ ∃ b ∈ i.flows[e.flow]?, i.tierOf b 9 = kTierNormal :=
    @exists_reachable (displacing .strictPriority 3) contention _ (by decide +kernel)
  obtain ⟨c, u, u', round, round', flow, o, -, considered, refused, starving, arbitrated, e, he,
    hkind, hresource, b, hb, hnormal⟩ := hrefuses.spec
  exact (claim s _ u u' 9 o c round round' flow reachable arbitrated considered refused starving e he
    hkind hresource b hb).2 hnormal

end Sample

end FlowScheduler

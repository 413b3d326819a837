import FlowScheduler.Steps.Round

/-! # The order of a round

The keys of the candidates are compared field by field, which is a strict total
order. A key is read off the stamps of a flow, and ranking, failing and
displacing flows leave every stamp alone, so the order a round has settled on
stays the order of its keys.
-/

namespace FlowScheduler

open ByteCodec (Bytes)
open Failing SchedOp Impl OrderedMap

namespace OrderKey

variable {a b c : OrderKey}

def ranks (k : OrderKey) : List ℕ :=
  [k.tier.toNat, k.priorityRank.toNat, k.deadline.toNat, k.virtualFinish.toNat,
    k.invertedWeight.toNat, k.flow.value.toNat, k.generation.value.toNat]

theorem lt_iff_value {f : IdFamily} {x y : Id f} : x < y ↔ x.value.toNat < y.value.toNat :=
  UInt64.lt_iff_toNat_lt

theorem eq_iff_value {f : IdFamily} {x y : Id f} : x = y ↔ x.value.toNat = y.value.toNat := by
  rw [UInt64.toNat_inj]
  exact ⟨fun h => by rw [h], Id.ext_value⟩

theorem before_iff : a.before b ↔ a.ranks < b.ranks := by
  simp only [before, ranks, List.cons_lt_cons_iff, List.lt_irrefl, and_false, or_false, ne_eq,
    ← UInt32.toNat_inj, ← UInt64.toNat_inj, eq_iff_value]
  split_ifs <;> simp_all only [UInt32.lt_iff_toNat_lt, UInt64.lt_iff_toNat_lt, lt_iff_value,
    decide_eq_true_eq, true_and, false_and, or_false, lt_self_iff_false, false_or]

theorem ranks_injective : Function.Injective ranks := by
  intro a b h
  simp only [ranks, List.cons.injEq, UInt32.toNat_inj, UInt64.toNat_inj, and_true] at h
  obtain ⟨h₁, h₂, h₃, h₄, h₅, h₆, h₇⟩ := h
  cases a
  cases b
  simp only [mk.injEq]
  exact ⟨h₁, h₂, h₃, h₄, h₅, Id.ext_value h₆, Id.ext_value h₇⟩

theorem before_trans (h : a.before b) (h' : b.before c) : a.before c :=
  before_iff.mpr (lt_trans (before_iff.mp h) (before_iff.mp h'))

theorem before_or_before (h : a ≠ b) : a.before b ∨ b.before a := by
  rw [before_iff, before_iff]
  exact lt_or_gt_of_ne fun hab => h (ranks_injective hab)

theorem not_before_self : ¬ a.before a := fun h => lt_irrefl _ (before_iff.mp h)

end OrderKey

def FlowRuntime.stamp (r : FlowRuntime) : FlowDescriptor × Ticks × Bool × UInt64 × UInt64 :=
  (r.descriptor, r.eligibleSinceTick, r.everReady, r.minServiceDelivered, r.virtualFinish)

def Impl.stamps (s : Impl) (id : FlowId) : Option (FlowDescriptor × Ticks × Bool × UInt64 × UInt64) :=
  s.flows[id]?.map FlowRuntime.stamp

theorem computeKey_congr {s s' : Impl} {r r' : FlowRuntime} {now : Ticks}
    (setting : s'.setting = s.setting) (stamp : r'.stamp = r.stamp) :
    s'.computeKey r' now = s.computeKey r now := by
  have hpolicy : s'.policy = s.policy := congrArg Setting.policy setting
  have hclasses : s'.priorityClasses = s.priorityClasses := congrArg Setting.priorityClasses setting
  simp only [FlowRuntime.stamp, Prod.mk.injEq] at stamp
  obtain ⟨hdescriptor, hsince, hever, hdelivered, hfinish⟩ := stamp
  simp only [computeKey, tierOf, hpolicy, hclasses, hdescriptor, hsince, hever, hdelivered, hfinish]

structure Impl.SameKeys (s s' : Impl) : Prop where
  setting : s'.setting = s.setting
  stamps : s'.stamps = s.stamps

namespace Impl.SameKeys

variable {s s₁ s₂ s₃ : Impl} {now : Ticks} {id : FlowId} {r : FlowRuntime}

theorem refl (s : Impl) : SameKeys s s := ⟨rfl, rfl⟩

theorem trans (h : SameKeys s₁ s₂) (h' : SameKeys s₂ s₃) : SameKeys s₁ s₃ :=
  ⟨h'.setting.trans h.setting, h'.stamps.trans h.stamps⟩

theorem of_flows (flows : s₂.flows = s₁.flows) (setting : s₂.setting = s₁.setting) :
    SameKeys s₁ s₂ := by
  refine ⟨setting, ?_⟩
  funext id
  rw [Impl.stamps, Impl.stamps, flows]

theorem kept (h : SameKeys s₁ s₂) (now : Ticks) (found : s₁.flows[id]? = some r) :
    ∃ r', s₂.flows[id]? = some r' ∧ r'.stamp = r.stamp ∧
      s₂.computeKey r' now = s₁.computeKey r now := by
  have hstamp := congrFun h.stamps id
  simp only [Impl.stamps, found, Option.map_some] at hstamp
  obtain ⟨r', hr', hsame⟩ := Option.map_eq_some_iff.mp hstamp
  exact ⟨r', hr', hsame, computeKey_congr h.setting hsame⟩

theorem modifyFlow {f : FlowRuntime → FlowRuntime} (keep : ∀ r, (f r).stamp = r.stamp) :
    SameKeys s (s.modifyFlow id f) := by
  refine ⟨rfl, ?_⟩
  funext a
  simp only [Impl.stamps, Impl.modifyFlow, get_modify]
  split
  · rw [Option.map_map]
    exact congrArg (fun g => Option.map g _) (funext keep)
  · rfl

theorem stamp_setLifecycle {policy : SchedulingPolicy} {clock : UInt64} {next : FlowLifecycle}
    (rest : next ≠ .ready) : (r.setLifecycle policy clock next now).stamp = r.stamp := by
  unfold FlowRuntime.setLifecycle
  dsimp only
  rw [if_neg rest]
  split
  · rfl
  · split <;> rfl

theorem setLifecycle {next : FlowLifecycle} (rest : next ≠ .ready) :
    SameKeys s (s.setLifecycle id next now) := by
  refine ⟨rfl, ?_⟩
  funext a
  simp only [Impl.stamps, Impl.setLifecycle, get_modify]
  split
  · rw [Option.map_map]
    exact congrArg (fun g => Option.map g _) (funext fun r => stamp_setLifecycle rest)
  · rfl

theorem recordStep {lifecycle : FlowLifecycle} {reason : DecisionReason} {schedule : ScheduleId}
    {attempt : DispatchAttemptId} {detail : Bytes} :
    SameKeys s (s.recordStep id now lifecycle reason schedule attempt detail) := by
  refine modifyFlow fun r => ?_
  obtain ⟨history, truncated, h⟩ := r.recordStep_eq now lifecycle reason schedule attempt detail
  rw [h]
  rfl

theorem failFlow {reason : DecisionReason} {detail : String} :
    SameKeys s (s.failFlow id reason detail now) :=
  (setLifecycle (by decide)).trans recordStep

theorem countDeadlineMiss : SameKeys s (s.countDeadlineMiss id) := by
  have hcount : SameKeys s { s with deadlineMisses := s.deadlineMisses + 1 } := of_flows rfl rfl
  refine hcount.trans (modifyFlow fun r => ?_)
  rfl

theorem deferUnready {reason : DecisionReason} {o : ArbitrationOutcome} :
    SameKeys s (s.deferUnready id r reason now o).1 := by
  unfold Impl.deferUnready
  split
  · unfold handleDeadlineMiss
    split
    · exact refl s
    · dsimp only
      split
      · exact countDeadlineMiss.trans failFlow
      · exact countDeadlineMiss
  · split
    · exact failFlow
    · exact refl s

theorem modifyResource {k : ResourceId} {f : ResourceRuntime → ResourceRuntime} :
    SameKeys s (s.modifyResource k f) := of_flows rfl rfl

theorem closeFlowAttempt {record : AttemptRuntime} {attempt : DispatchAttemptId} :
    SameKeys s (s.closeFlowAttempt record attempt .preempted now) := by
  have hrelease : SameKeys s (s.releaseAttempt record.ticket.flow record.ticket) := by
    refine (modifyFlow fun r => ?_).trans modifyResource
    rfl
  refine hrelease.trans (SameKeys.trans (modifyFlow fun r => ?_)
    ((setLifecycle (by decide)).trans recordStep))
  rfl

theorem applyAttemptClosed {attempt : DispatchAttemptId} {detail : Bytes} :
    SameKeys s (s.applyAttemptClosed attempt .preempted detail now) := by
  have hend : ∀ record : AttemptRuntime, SameKeys s (s.endAttempt attempt record) :=
    fun _ => of_flows rfl rfl
  unfold Impl.applyAttemptClosed
  split
  · exact refl s
  · rename_i found hfound
    split
    · exact refl s
    · have hended := hend { found with
        state := .preempted, closedTick := now, closeDetail := boundedDetail detail }
      dsimp only
      split
      · exact hended
      · split
        · exact hended
        · exact hended.trans closeFlowAttempt

theorem displace {victim : Victim} {resource : ResourceId} :
    SameKeys s (s.displace victim resource now) := by
  have hclosed : SameKeys s (s.applyAttemptClosed victim.attempt .preempted
      (ascii "displaced by higher authority") now) := applyAttemptClosed
  exact hclosed.trans (of_flows rfl rfl)

end Impl.SameKeys

section Ranking

variable {s s' : Impl} {now : Ticks} {id : FlowId} {c : Candidate}

def Impl.Ranks (s : Impl) (now : Ticks) (c : Candidate) : Prop :=
  ∃ r, s.flows[c.flow]? = some r ∧ r.lifecycle = .ready ∧ c.key = s.computeKey r now

/-- The lifecycle of every flow is the same, and so is its key. -/
structure Impl.SameStanding (s s' : Impl) : Prop extends SameKeys s s' where
  lifecycle : ∀ id : FlowId,
    s'.flows[id]?.map FlowRuntime.lifecycle = s.flows[id]?.map FlowRuntime.lifecycle

theorem Impl.SameStanding.refl (s : Impl) : SameStanding s s := ⟨.refl s, fun _ => rfl⟩

theorem Impl.SameStanding.trans {s'' : Impl} (h : SameStanding s s') (h' : SameStanding s' s'') :
    SameStanding s s'' :=
  ⟨h.toSameKeys.trans h'.toSameKeys, fun id => (h'.lifecycle id).trans (h.lifecycle id)⟩

theorem Impl.SameStanding.of_flows (flows : s'.flows = s.flows) (setting : s'.setting = s.setting) :
    SameStanding s s' := ⟨.of_flows flows setting, fun id => by rw [flows]⟩

theorem Impl.Ranks.same (h : s.Ranks now c) (same : SameStanding s s') : s'.Ranks now c := by
  obtain ⟨r, hr, hready, hkey⟩ := h
  obtain ⟨r', hr', -, hsame⟩ := same.kept now hr
  have hlifecycle := same.lifecycle c.flow
  rw [hr, hr'] at hlifecycle
  exact ⟨r', hr', (Option.some.inj hlifecycle).trans hready, hkey.trans hsame.symm⟩

theorem sameStanding_rankFlow (now : Ticks) (p : Impl × List Candidate) (id : FlowId) :
    SameStanding p.1 (rankFlow now p id).1 := by
  obtain ⟨s, candidates⟩ := p
  unfold rankFlow
  dsimp only
  split
  · exact .refl s
  · split
    · exact .refl s
    · dsimp only
      split
      · refine ⟨.modifyFlow fun r => rfl, fun a => ?_⟩
        simp only [Impl.modifyFlow, get_modify]
        split
        · rw [Option.map_map]
          rfl
        · rfl
      · exact .refl s

theorem candidates_rankFlow (now : Ticks) (p : Impl × List Candidate) (id : FlowId) :
    (rankFlow now p id).2 = p.2 ∧ (∀ r, p.1.flows[id]? = some r → r.lifecycle ≠ .ready) ∨
      ∃ r, p.1.flows[id]? = some r ∧ r.lifecycle = .ready ∧
        (rankFlow now p id).2 = p.2 ++ [⟨id, p.1.computeKey r now⟩] := by
  obtain ⟨s, candidates⟩ := p
  unfold rankFlow
  dsimp only
  split
  · rename_i hnone
    refine .inl ⟨rfl, fun r hr => ?_⟩
    rw [hnone] at hr
    cases hr
  · rename_i r hr
    split
    · rename_i hready
      refine .inl ⟨rfl, fun r' hr' => ?_⟩
      obtain rfl := Option.some.inj (hr.symm.trans hr')
      exact hready
    · rename_i hready
      exact .inr ⟨r, hr, not_not.mp hready, rfl⟩

/-- What is listed is ready and has its key, and every ready flow that was looked at is listed. -/
theorem foldl_rankFlow_ranks (now : Ticks) (ids : List FlowId) (p : Impl × List Candidate)
    (listed : ∀ c ∈ p.2, p.1.Ranks now c) :
    SameStanding p.1 (ids.foldl (rankFlow now) p).1 ∧
      (∀ c ∈ (ids.foldl (rankFlow now) p).2, (ids.foldl (rankFlow now) p).1.Ranks now c) ∧
      (∀ c ∈ p.2, c ∈ (ids.foldl (rankFlow now) p).2) ∧
      ∀ id ∈ ids, ∀ r, p.1.flows[id]? = some r → r.lifecycle = .ready →
        ∃ c ∈ (ids.foldl (rankFlow now) p).2, c.flow = id := by
  induction ids generalizing p with
  | nil => exact ⟨.refl _, listed, fun _ hc => hc, by simp⟩
  | cons id ids ih =>
    rw [List.foldl_cons]
    have hsame := sameStanding_rankFlow now p id
    have hlisted : ∀ c ∈ (rankFlow now p id).2, (rankFlow now p id).1.Ranks now c := by
      rcases candidates_rankFlow now p id with ⟨hnone, -⟩ | ⟨r, hr, hready, hone⟩
      · rw [hnone]
        exact fun c hc => (listed c hc).same hsame
      · rw [hone]
        intro c hc
        rcases List.mem_append.mp hc with hc | hc
        · exact (listed c hc).same hsame
        · rw [List.mem_singleton.mp hc]
          exact Ranks.same ⟨r, hr, hready, rfl⟩ hsame
    obtain ⟨hstanding, hranks, hkept, hall⟩ := ih _ hlisted
    have hsub : ∀ c ∈ p.2, c ∈ (rankFlow now p id).2 := by
      rcases candidates_rankFlow now p id with ⟨hnone, -⟩ | ⟨r, -, -, hone⟩
      · rw [hnone]
        exact fun c hc => hc
      · rw [hone]
        exact fun c hc => List.mem_append_left _ hc
    refine ⟨hsame.trans hstanding, hranks, fun c hc => hkept c (hsub c hc), ?_⟩
    intro a ha r hr hready
    rcases List.mem_cons.mp ha with rfl | ha
    · rcases candidates_rankFlow now p a with ⟨-, hnone⟩ | ⟨r', -, -, hone⟩
      · exact absurd hready (hnone r hr)
      · refine ⟨⟨a, p.1.computeKey r' now⟩, hkept _ ?_, rfl⟩
        rw [hone]
        exact List.mem_append_right _ (List.mem_singleton.mpr rfl)
    · have hlifecycle := hsame.lifecycle a
      rw [hr] at hlifecycle
      obtain ⟨r', hr', hsame'⟩ := Option.map_eq_some_iff.mp hlifecycle
      exact hall a ha r' hr' (hsame'.trans hready)

instance : Std.Total fun a b : Candidate => ¬ b.key.before a.key where
  total a b := by
    simp only [OrderKey.before_iff, not_lt]
    exact le_total _ _

instance : IsTrans Candidate fun a b => ¬ b.key.before a.key where
  trans a b c hab hbc := by
    simp only [OrderKey.before_iff, not_lt] at hab hbc ⊢
    exact hab.trans hbc

/-- The candidates of a round are its ready flows, each under its key and in strict order. -/
structure Impl.RanksAll (s : Impl) (now : Ticks) (cs : List Candidate) : Prop where
  ranks : ∀ c ∈ cs, s.Ranks now c
  all : ∀ (id : FlowId) (r : FlowRuntime), s.flows[id]? = some r → r.lifecycle = .ready →
    ∃ c ∈ cs, c.flow = id
  ordered : cs.Pairwise fun a b => a.key.before b.key
  nodup : (cs.map Candidate.flow).Nodup

theorem Keyed.flow_key (keyed : Keyed s) (h : s.Ranks now c) : c.key.flow = c.flow := by
  obtain ⟨r, hr, -, hkey⟩ := h
  rw [hkey]
  exact keyed.key _ _ hr

theorem rankCandidates_ranksAll (keyed : Keyed s) (keyed' : Keyed (s.rankCandidates now).1) :
    SameStanding s (s.rankCandidates now).1 ∧
      (s.rankCandidates now).1.RanksAll now (s.rankCandidates now).2 := by
  obtain ⟨hsame, hranks, -, hall⟩ :=
    foldl_rankFlow_ranks now s.indexes.ready.toList (s, []) (by simp)
  have hranks' : ∀ c ∈ (s.rankCandidates now).2, (s.rankCandidates now).1.Ranks now c :=
    fun c hc => hranks c ((List.mem_insertionSort _).mp hc)
  have hnodup : ((s.rankCandidates now).2.map Candidate.flow).Nodup := rankCandidates_spec.2
  refine ⟨hsame, hranks', fun id r hr hready => ?_, ?_, hnodup⟩
  · have hlifecycle := hsame.lifecycle id
    rw [show (s.indexes.ready.toList.foldl (rankFlow now) (s, [])).1.flows[id]? = some r from hr,
      Option.map_some, eq_comm] at hlifecycle
    obtain ⟨r₀, hr₀, hsame₀⟩ := Option.map_eq_some_iff.mp hlifecycle
    have hlisted : id ∈ s.indexes.members .ready :=
      (keyed.index id .ready (by decide)).mpr ⟨r₀, hr₀, by rw [hsame₀, hready]; rfl⟩
    obtain ⟨c, hc, hflow⟩ := hall id (Std.ExtTreeSet.mem_toList.mpr hlisted) r₀ hr₀
      (hsame₀.trans hready)
    exact ⟨c, (List.mem_insertionSort _).mpr hc, hflow⟩
  · -- sorted without a key coming before an earlier one, and no two keys are the same
    have hsorted : (s.rankCandidates now).2.Pairwise fun a b => ¬ b.key.before a.key :=
      List.pairwise_insertionSort _ _
    refine (hsorted.and (List.pairwise_map.mp hnodup)).imp_of_mem ?_
    rintro a b ha hb ⟨hle, hne⟩
    refine (OrderKey.before_or_before fun hkey => hne ?_).resolve_right hle
    rw [← keyed'.flow_key (hranks' a ha), ← keyed'.flow_key (hranks' b hb), hkey]

end Ranking

end FlowScheduler

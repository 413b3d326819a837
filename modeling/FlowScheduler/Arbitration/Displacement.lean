import FlowScheduler.Arbitration.Deciding
import FlowScheduler.Steps.Registry

/-! # Displacing an incumbent

At the overlap ceiling a candidate takes the place of the worst incumbent if the
policy authorizes it. The modes compare ranks, tiers and deadlines one by one, so
a candidate of a worse tier is let in as well, and the protection of a class is
looked up in the generation the incumbent is bound to.
-/

namespace FlowScheduler

open ByteCodec (Bytes)
open Failing SchedOp Impl OrderedMap

section Permission

variable {s : Impl} {key : OrderKey} {r : FlowRuntime} {now : Ticks}

/-- The incumbent may be displaced, by whatever the policy authorizes. -/
structure Impl.Displaceable (s : Impl) (r : FlowRuntime) : Prop where
  enabled : s.policy.preemption ≠ .none
  unprotected : ∀ qos, s.qosClasses[r.descriptor.qos.id]? = some qos →
    qos.generation = r.descriptor.qos.generation → qos.preemptionProtected = false
  preemptible : r.descriptor.preemptible
  served : s.policy.minPreemptService ≤ r.servedWork
  unthrottled : s.preemptionsInWindow < s.policy.maxPreemptionsPerInterval

/-- The policy lets the candidate take the place of the incumbent. -/
def Impl.Authorizes (s : Impl) (candidate incumbent : OrderKey) (overdue : Bool) : Prop :=
  match s.policy.preemption with
  | .none => False
  | .strictPriority => candidate.priorityRank < incumbent.priorityRank ∨ overdue = true
  | .deadline => (candidate.tier = kTierDeadlineUrgent ∧ incumbent.tier ≠ kTierDeadlineUrgent) ∨
      overdue = true
  | .tiered => candidate.tier < incumbent.tier ∨
      candidate.priorityRank < incumbent.priorityRank ∨ overdue = true

theorem guarded_ok_iff {ε : Type} {p : Prop} [Decidable p] {e : ε} {m : Except ε Unit} :
    (if p then .error e else m) = .ok () ↔ ¬ p ∧ m = .ok () := by
  split <;> simp [*]

theorem granted_ok_iff {ε : Type} {p : Prop} [Decidable p] {e : ε} :
    (if p then Except.ok () else .error e) = .ok () ↔ p := by
  split <;> simp [*]

theorem preemptionAllowed_ok_iff : s.preemptionAllowed key r now = .ok () ↔
    s.Displaceable r ∧ s.Authorizes key (s.computeKey r now) (isOverdue r now) := by
  unfold preemptionAllowed Impl.Authorizes
  simp only [guarded_ok_iff, granted_ok_iff, not_not, UInt64.not_lt, UInt32.not_le]
  constructor
  · rintro ⟨henabled, hprotected, hpreemptible, hserved, hthrottled, hauthorized⟩
    refine ⟨⟨henabled, fun qos hqos hbound => ?_, hpreemptible, hserved, hthrottled⟩, ?_⟩
    · simpa [hqos, hbound] using hprotected
    · cases hmode : s.policy.preemption <;> simp_all
  · rintro ⟨⟨henabled, hunprotected, hpreemptible, hserved, hthrottled⟩, hauthorized⟩
    refine ⟨henabled, ?_, hpreemptible, hserved, hthrottled, ?_⟩
    · cases hqos : s.qosClasses[r.descriptor.qos.id]? with
      | none => simp
      | some qos =>
        simp only [Bool.and_eq_true, beq_iff_eq, not_and, Bool.not_eq_true]
        exact hunprotected qos hqos
    · cases hmode : s.policy.preemption <;> simp_all

/-- In time, every mode lets in exactly the candidates of a better or equal tier in key order. -/
theorem Impl.Authorizes.before_iff {incumbent : OrderKey}
    (h : s.Authorizes key incumbent false) : key.before incumbent ↔ key.tier ≤ incumbent.tier := by
  have hbefore : key.tier ≤ incumbent.tier → key.tier < incumbent.tier ∨
      key.priorityRank < incumbent.priorityRank → key.before incumbent := by
    intro hle hbetter
    rw [OrderKey.before_iff, OrderKey.ranks, OrderKey.ranks, List.cons_lt_cons_iff,
      List.cons_lt_cons_iff]
    rw [UInt32.le_iff_toNat_le] at hle
    rw [UInt32.lt_iff_toNat_lt, UInt32.lt_iff_toNat_lt] at hbetter
    omega
  constructor
  · intro h
    rw [OrderKey.before_iff, OrderKey.ranks, OrderKey.ranks, List.cons_lt_cons_iff] at h
    rw [UInt32.le_iff_toNat_le]
    omega
  · intro hle
    unfold Impl.Authorizes at h
    cases hmode : s.policy.preemption with
    | none => simp [hmode] at h
    | strictPriority => exact hbefore hle (.inr (by simpa [hmode] using h))
    | tiered => exact hbefore hle (by simpa [hmode] using h)
    | deadline =>
      -- nothing is more urgent than the tier of urgent deadlines
      obtain ⟨hurgent, hother⟩ : key.tier = 0 ∧ incumbent.tier ≠ 0 := by
        simpa [hmode, kTierDeadlineUrgent] using h
      refine hbefore hle (.inl ?_)
      rw [hurgent]
      exact UInt32.pos_iff_ne_zero.mpr hother

theorem chooseVictim_ok {c : Candidate} {d : FlowDescriptor} {victim : Victim}
    (h : s.chooseVictim c d now = .ok victim) :
    s.worstIncumbent d.resource.id now = some victim.attempt ∧
      s.attempts[victim.attempt]? = some victim.record ∧
      s.flows[victim.record.ticket.flow]? = some victim.flow ∧ s.Displaceable victim.flow ∧
      s.Authorizes c.key (s.computeKey victim.flow now) (isOverdue victim.flow now) := by
  unfold chooseVictim at h
  split at h
  · cases h
  · rename_i attempt hworst
    split at h
    · cases h
    · rename_i record hrecord
      split at h
      · cases h
      · rename_i flow hflow
        split at h
        · cases h
        · rename_i hallowed
          cases h
          exact ⟨hworst, hrecord, hflow, preemptionAllowed_ok_iff.mp hallowed⟩

end Permission

section Decisions

variable {s s' : Impl} {now : Ticks} {limit : ℕ} {c : Candidate} {round round' : Round}
  {e : ScheduleEntry} {more : List ScheduleEntry}

theorem Decides.sameKeys (h : Decides now limit c s round s' round') : SameKeys s s' := by
  cases h with
  | passed | deferred => exact .refl _
  | unready => exact .deferUnready
  | blocked | windowless | granted => exact .modifyResource
  | displaced _ _ _ _ _ _ after | replaced _ _ _ _ _ _ after =>
    subst after
    exact SameKeys.modifyResource.trans .displace

/-- The entries a decision adds, and the incumbent each displacement among them stops. -/
theorem Decides.enters (h : Decides now limit c s round s' round') :
    ∃ added, round'.entries = round.entries ++ added ∧ ∀ e ∈ added, e.kind = .preempt →
      ∃ flow victim, Eligible s now c flow ∧
        (s.rolled flow.descriptor now).chooseVictim c flow.descriptor now = .ok victim ∧
        e = preemptEntry victim round.nextOrdinal c flow.descriptor now := by
  cases h with
  | passed | unready | deferred | blocked | windowless => exact ⟨[], by simp [Round.defer], by simp⟩
  | granted =>
    refine ⟨_, rfl, fun e he kind => ?_⟩
    rw [List.mem_singleton.mp he] at kind
    cases kind
  | displaced eligible _ _ _ _ chosen _ hround =>
    subst hround
    refine ⟨_, rfl, fun e he _ => ?_⟩
    exact ⟨_, _, eligible, chosen, List.mem_singleton.mp he⟩
  | replaced eligible _ _ _ _ chosen _ hround =>
    subst hround
    refine ⟨[_, _], List.append_assoc _ _ _, fun e he kind => ?_⟩
    rcases List.mem_pair.mp he with rfl | rfl
    · exact ⟨_, _, eligible, chosen, rfl⟩
    · cases kind

theorem Decides.victim (h : Decides now limit c s round s' round')
    (entered : round'.entries = round.entries ++ e :: more) (kind : e.kind = .preempt) :
    ∃ flow victim, Eligible s now c flow ∧
      (s.rolled flow.descriptor now).chooseVictim c flow.descriptor now = .ok victim ∧
      e = preemptEntry victim round.nextOrdinal c flow.descriptor now := by
  obtain ⟨added, hadded, henters⟩ := h.enters
  obtain rfl := List.append_cancel_left (hadded.symm.trans entered)
  exact henters e List.mem_cons_self kind

end Decisions

section Considering

variable {s u u' : Scheduler} {now : Ticks} {c : Candidate} {round round' : Round}

/-- The round at the tick comes to the candidate: it has opened, has considered the candidates
before this one and now considers it. -/
def Considered (now : Ticks) (s : Scheduler) (c : Candidate) (u : Scheduler) (round : Round)
    (u' : Scheduler) (round' : Round) : Prop :=
  ∃ p u₀ before after, exec (openRound now) s = (.ok p, u₀) ∧ p.1 = before ++ c :: after ∧
    exec (considerCandidates now u₀.impl.entryLimit before { outcome := p.2 }) u₀ = (.ok round, u) ∧
    exec (considerCandidate now u₀.impl.entryLimit round c) u = (.ok round', u')

theorem DecidesAll.sameKeys {limit : ℕ} {cs : List Candidate}
    (h : DecidesAll now limit cs s round u round') : SameKeys s.impl u.impl := by
  induction h with
  | nil => exact .refl _
  | cons _ step _ _ ih => exact step.sameKeys.trans ih

theorem Considered.decides (sound : Sound s.impl) (h : Considered now s c u round u' round') :
    Sound u.impl ∧ (∃ r, u.impl.flows[c.flow]? = some r ∧ c.key = u.impl.computeKey r now) ∧
      ∃ limit, Decides now limit c u.impl round u'.impl round' := by
  obtain ⟨p, u₀, before, after, hopen, hp, hbefore, hstep⟩ := h
  obtain ⟨hmakes, hopened, hranks⟩ := openRound_ok sound hopen
  have hsound : Sound u₀.impl := hmakes.round.sound sound
  have hall := considerCandidates_ok (min_le_right _ _) hsound hopened.clock hbefore
  have hsound' : Sound u.impl := hall.makes.round.sound hsound
  obtain ⟨r₀, hr₀, -, hkey⟩ := hranks.ranks c (by rw [hp]; exact List.mem_append_right _ (by simp))
  obtain ⟨r, hr, -, hsame⟩ := hall.sameKeys.kept now hr₀
  exact ⟨hsound', ⟨r, hr, hkey.trans hsame.symm⟩, _, considerCandidate_ok hsound' hstep⟩

/-- A candidate that displaces an incumbent in time precedes it in the order of the round exactly
if its tier is not a worse one. -/
theorem displaces_in_order (s u u' : Scheduler) (now : Ticks) (c : Candidate)
    (round round' : Round) (e : ScheduleEntry) (more : List ScheduleEntry)
    (r incumbent : FlowRuntime) (reachable : Reachable s)
    (considered : Considered now s c u round u' round')
    (displaced : round'.entries = round.entries ++ e :: more) (kind : e.kind = .preempt)
    (candidate : u.impl.flows[c.flow]? = some r)
    (found : u.impl.flows[e.flow]? = some incumbent) (intime : isOverdue incumbent now = false) :
    (u.impl.computeKey r now).before (u.impl.computeKey incumbent now) ↔
      u.impl.tierOf r now ≤ u.impl.tierOf incumbent now := by
  obtain ⟨-, ⟨r', hr', hkey⟩, limit, hdecides⟩ := considered.decides reachable.sound
  obtain rfl := Option.some.inj (hr'.symm.trans candidate)
  obtain ⟨flow, victim, -, hchosen, rfl⟩ := hdecides.victim displaced kind
  obtain ⟨-, -, hflow, -, hauthorizes⟩ := chooseVictim_ok hchosen
  obtain rfl := Option.some.inj (hflow.symm.trans found)
  rw [intime] at hauthorizes
  rw [← hkey]
  exact hauthorizes.before_iff.trans (by rw [hkey]; rfl)

theorem considered_head {p : List Candidate × ArbitrationOutcome}
    (opened : p ∈ (exec (openRound now) s).1.toOption) (head : c ∈ p.1.head?)
    (step : round' ∈ (exec (considerCandidate now (exec (openRound now) s).2.impl.entryLimit
      { outcome := p.2 } c) (exec (openRound now) s).2).1.toOption) :
    ∃ u', Considered now s c (exec (openRound now) s).2 { outcome := p.2 } u' round' := by
  obtain ⟨after, hp⟩ := List.head?_eq_some_iff.mp head
  exact ⟨_, p, _, [], after, exec_eq_of_mem opened, hp, rfl, exec_eq_of_mem step⟩

end Considering

namespace Sample

def background : PriorityClassDescriptor := { priority with priority := ⟨2⟩, rank := 5 }

def displacing (mode : PreemptionMode) (bound : Ticks) : SchedulerOptions :=
  { policy := { policy with
      preemption := mode, minPreemptService := 0, starvationBoundTicks := bound } }

/-- A flow of the background class runs when one of the better class arrives. -/
def arrival : List Call :=
  [.registerResource resource, .registerPriorityClass priority, .registerPriorityClass background,
    .registerQosClass qos, .admitFlow { flow 1 with priority := ⟨⟨2⟩, ⟨1⟩⟩ }, .arbitrate 5,
    dispatch 5, .admitFlow (flow 2)]

/-- The first candidate of the round displaces an incumbent in time. -/
def DisplacesFirst (s : Scheduler) (now : Ticks) (Q : UInt32 → UInt32 → Prop) : Prop :=
  ∃ p ∈ (exec (openRound now) s).1.toOption, ∃ c ∈ p.1.head?,
    ∃ round' ∈ (exec (considerCandidate now (exec (openRound now) s).2.impl.entryLimit
      { outcome := p.2 } c) (exec (openRound now) s).2).1.toOption,
    ∃ e ∈ round'.entries.head?, e.kind = .preempt ∧
    ∃ r ∈ (exec (openRound now) s).2.impl.flows[c.flow]?,
    ∃ incumbent ∈ (exec (openRound now) s).2.impl.flows[e.flow]?, isOverdue incumbent now = false ∧
      Q ((exec (openRound now) s).2.impl.tierOf r now)
        ((exec (openRound now) s).2.impl.tierOf incumbent now)

instance {s : Scheduler} {now : Ticks} {Q : UInt32 → UInt32 → Prop} [∀ a b, Decidable (Q a b)] :
    Decidable (DisplacesFirst s now Q) := by
  unfold DisplacesFirst
  infer_instance

set_option maxRecDepth 100000 in
/-- Both flows are in the normal tier. -/
theorem displaces_in_order_rank : ∃ s c u round' u' e more r incumbent outcome, Reachable s ∧
    Considered 6 s c u { outcome } u' round' ∧ round'.entries = e :: more ∧ e.kind = .preempt ∧
    u.impl.flows[c.flow]? = some r ∧ u.impl.flows[e.flow]? = some incumbent ∧
    (u.impl.computeKey r 6).before (u.impl.computeKey incumbent 6) := by
  obtain ⟨s, reachable, p, hp, c, hc, round', hround, e, he, kind, r, hr, incumbent, hincumbent,
      intime, htier⟩ : ∃ s, Reachable s ∧ DisplacesFirst s 6 (· ≤ ·) :=
    @exists_reachable (displacing .tiered 1000000) arrival _ (by decide +kernel)
  obtain ⟨u', considered⟩ := considered_head hp hc hround
  obtain ⟨more, hmore⟩ := List.head?_eq_some_iff.mp he
  exact ⟨s, c, _, round', u', e, more, r, incumbent, _, reachable, considered, hmore, kind, hr,
    hincumbent, (displaces_in_order s _ u' 6 c _ round' e more r incumbent reachable considered
      hmore kind hr hincumbent intime).mpr htier⟩

set_option maxRecDepth 100000 in
/-- The incumbent has waited for the bound before it was dispatched; a normal flow of a better rank
displaces it. -/
theorem not_displaces_in_order : ¬ ∀ (s t u u' : Scheduler) (now : Ticks) (o : ArbitrationOutcome)
    (c : Candidate) (round round' : Round) (e : ScheduleEntry) (more : List ScheduleEntry)
    (r incumbent : FlowRuntime), Reachable s → exec (arbitrate now) s = (.ok o, t) →
    Considered now s c u round u' round' → round'.entries = round.entries ++ e :: more →
    e.kind = .preempt → u.impl.flows[c.flow]? = some r →
    u.impl.flows[e.flow]? = some incumbent → isOverdue incumbent now = false →
    (u.impl.computeKey r now).before (u.impl.computeKey incumbent now) := by
  intro claim
  obtain ⟨s, reachable, ⟨o, ho, -⟩, p, hp, c, hc, round', hround, e, he, kind, r, hr, incumbent,
      hincumbent, intime, htier⟩ : ∃ s, Reachable s ∧
      (∃ o ∈ (exec (arbitrate 6) s).1.toOption, o.schedule.entries.length = 2) ∧
      DisplacesFirst s 6 (fun a b => b < a) :=
    @exists_reachable (displacing .strictPriority 1) arrival _ (by decide +kernel)
  obtain ⟨u', considered⟩ := considered_head hp hc hround
  obtain ⟨more, hmore⟩ := List.head?_eq_some_iff.mp he
  have hbefore := claim s _ _ u' 6 o c _ round' e more r incumbent reachable (exec_eq_of_mem ho)
    considered hmore kind hr hincumbent intime
  rw [OrderKey.before_iff, OrderKey.ranks, OrderKey.ranks, List.cons_lt_cons_iff] at hbefore
  rw [UInt32.lt_iff_toNat_lt] at htier
  simp only [computeKey] at hbefore
  omega

end Sample

section Protection

variable {s t : Scheduler} {now : Ticks} {limit : ℕ} {cs : List Candidate} {round round' : Round}

theorem Makes.roster (h : Makes (RoundMove now) s t) :
    t.impl.ledger.roster = s.impl.ledger.roster := by
  obtain ⟨rs, h⟩ := h
  exact h.preserves (P := fun i => i.ledger.roster = s.impl.ledger.roster)
    (fun _ _ _ move hi => move.roster.trans hi) rfl

theorem Makes.registry (h : Makes (RoundMove now) s t) :
    t.impl.ledger.registry = s.impl.ledger.registry := by
  obtain ⟨rs, h⟩ := h
  exact h.preserves (P := fun i => i.ledger.registry = s.impl.ledger.registry)
    (fun _ _ _ move hi => move.registry.trans hi) rfl

/-- The class of the flow, if it is registered in the generation the flow is bound to, does not
protect it. -/
def Impl.Exposed (s : Impl) (id : FlowId) : Prop :=
  ∀ r qos, s.flows[id]? = some r → s.qosClasses[r.descriptor.qos.id]? = some qos →
    qos.generation = r.descriptor.qos.generation → qos.preemptionProtected = false

theorem Impl.Exposed.same {i i' : Impl} {id : FlowId} (h : i'.Exposed id) (same : SameKeys i i') :
    i.Exposed id := by
  intro r qos hr hqos hbound
  obtain ⟨r', hr', hstamp, -⟩ := same.kept 0 hr
  have hdescriptor : r'.descriptor = r.descriptor := congrArg Prod.fst hstamp
  have hclasses : i'.qosClasses = i.qosClasses := congrArg Setting.qosClasses same.setting
  exact h r' qos hr' (by rw [hclasses, hdescriptor, hqos]) (by rw [hdescriptor, hbound])

theorem DecidesAll.exposed (h : DecidesAll now limit cs s round t round')
    (begun : ∀ e ∈ round.entries, e.kind = .preempt → s.impl.Exposed e.flow) :
    ∀ e ∈ round'.entries, e.kind = .preempt → s.impl.Exposed e.flow := by
  refine (h.preserves (P := fun i round => SameKeys s.impl i ∧
    ∀ e ∈ round.entries, e.kind = .preempt → s.impl.Exposed e.flow) ?_ ⟨.refl _, begun⟩).2
  rintro c - i round i' round' - hstep ⟨hsame, hentries⟩
  refine ⟨hsame.trans hstep.sameKeys, fun e he kind => ?_⟩
  obtain ⟨added, hadded, henters⟩ := hstep.enters
  rw [hadded] at he
  rcases List.mem_append.mp he with he | he
  · exact hentries e he kind
  · obtain ⟨flow, victim, -, hchosen, rfl⟩ := henters e he kind
    obtain ⟨-, -, hflow, hdisplaceable, -⟩ := chooseVictim_ok hchosen
    have hexposed : (i.rolled flow.descriptor now).Exposed victim.record.ticket.flow := by
      intro r qos hr hqos hbound
      obtain rfl := Option.some.inj (hflow.symm.trans hr)
      exact hdisplaceable.unprotected qos hqos hbound
    exact hexposed.same (hsame.trans .modifyResource)

/-- A round stops no flow whose class protects it in the generation the flow is bound to. -/
theorem preempts_unprotected (s : Scheduler) (now : Ticks) (schedule : Schedule) (e : ScheduleEntry)
    (r : FlowRuntime) (qos : QoSClassDescriptor) (reachable : Reachable s)
    (issued : .scheduleIssued schedule ∈
      (s.call (.arbitrate now)).2.accepted.drop s.accepted.length)
    (entry : e ∈ schedule.entries) (kind : e.kind = .preempt)
    (found : s.impl.flows[e.flow]? = some r)
    (registered : s.impl.qosClasses[r.descriptor.qos.id]? = some qos)
    (bound : qos.generation = r.descriptor.qos.generation) : qos.preemptionProtected = false := by
  obtain ⟨round, t, hdecide, hentries⟩ := issued_by_round reachable.sound issued
  obtain ⟨p, u, hopen, hall⟩ := decideGrants_ok reachable.sound hdecide
  obtain ⟨hmakes, -, -⟩ := openRound_ok reachable.sound hopen
  rw [hentries] at entry
  have hexposed := hall.exposed (by simp) e entry kind
  have hroster := congrFun hmakes.round.roster e.flow
  rw [Impl.roster_eq, Impl.roster_eq, found, Option.map_some] at hroster
  obtain ⟨r', hr', hdescriptor⟩ := Option.map_eq_some_iff.mp hroster
  have hclass : u.impl.qosClasses[r'.descriptor.qos.id]? = some qos := by
    rw [hdescriptor, ← registered]
    exact congrFun (congrArg Registry.qosClasses hmakes.round.registry) _
  exact hexposed r' qos hr' hclass (by rw [hdescriptor, bound])

end Protection

namespace Sample

/-- The schedule a record issues, if it issues one. -/
def issuedBy : Record → Option Schedule
  | .scheduleIssued schedule => some schedule
  | _ => none

def issues (s : Scheduler) (now : Ticks) : List Schedule :=
  ((s.call (.arbitrate now)).2.accepted.drop s.accepted.length).filterMap issuedBy

theorem mem_issues {s : Scheduler} {now : Ticks} {schedule : Schedule} : schedule ∈ issues s now ↔
    .scheduleIssued schedule ∈ (s.call (.arbitrate now)).2.accepted.drop s.accepted.length := by
  rw [issues, List.mem_filterMap]
  constructor
  · rintro ⟨record, hrecord, hissued⟩
    cases record <;> cases hissued
    exact hrecord
  · exact fun h => ⟨_, h, rfl⟩

set_option maxRecDepth 100000 in
theorem preempts_unprotected_arrival : ∃ s schedule e r qos, Reachable s ∧
    .scheduleIssued schedule ∈ (s.call (.arbitrate 6)).2.accepted.drop s.accepted.length ∧
    e ∈ schedule.entries ∧ e.kind = .preempt ∧ s.impl.flows[e.flow]? = some r ∧
    s.impl.qosClasses[r.descriptor.qos.id]? = some qos ∧ qos.preemptionProtected = false := by
  obtain ⟨s, reachable, schedule, hissued, e, he, kind, r, hr, qos, hqos, hbound⟩ : ∃ s,
      Reachable s ∧ ∃ schedule ∈ issues s 6, ∃ e ∈ schedule.entries, e.kind = .preempt ∧
        ∃ r ∈ s.impl.flows[e.flow]?, ∃ qos ∈ s.impl.qosClasses[r.descriptor.qos.id]?,
          qos.generation = r.descriptor.qos.generation :=
    @exists_reachable (displacing .tiered 1000000) arrival _ (by decide +kernel)
  exact ⟨s, schedule, e, r, qos, reachable, mem_issues.mp hissued, he, kind, hr, hqos,
    preempts_unprotected s 6 schedule e r qos reachable (mem_issues.mp hissued) he kind hr hqos
      hbound⟩

def protecting : QoSClassDescriptor := { qos with preemptionProtected := true }

set_option maxRecDepth 100000 in
/-- The class is registered once more, as protecting as before, while the flow runs; the next
arrival displaces the flow. -/
theorem not_preempts_unprotected : ¬ ∀ (s : Scheduler) (cs : List Call) (now : Ticks)
    (schedule : Schedule) (e : ScheduleEntry) (r₀ r : FlowRuntime) (qos₀ qos : QoSClassDescriptor),
    Reachable s → s.impl.flows[e.flow]? = some r₀ →
    s.impl.qosClasses[r₀.descriptor.qos.id]? = some qos₀ →
    qos₀.generation = r₀.descriptor.qos.generation → qos₀.preemptionProtected = true →
    (s.calls cs).impl.flows[e.flow]? = some r → r.descriptor = r₀.descriptor →
    (s.calls cs).impl.qosClasses[r.descriptor.qos.id]? = some qos →
    qos.preemptionProtected = true →
    .scheduleIssued schedule ∈
      ((s.calls cs).call (.arbitrate now)).2.accepted.drop (s.calls cs).accepted.length →
    e ∈ schedule.entries → e.kind ≠ .preempt := by
  intro claim
  obtain ⟨s, reachable, schedule, hissued, e, he, kind, r₀, hr₀, qos₀, hqos₀, hbound₀, hprotected₀,
      r, hr, hdescriptor, qos, hqos, hprotected⟩ : ∃ s, Reachable s ∧
      ∃ schedule ∈ issues (s.calls [.registerQosClass { protecting with generation := ⟨2⟩ }]) 6,
        ∃ e ∈ schedule.entries, e.kind = .preempt ∧ ∃ r₀ ∈ s.impl.flows[e.flow]?,
        ∃ qos₀ ∈ s.impl.qosClasses[r₀.descriptor.qos.id]?,
          qos₀.generation = r₀.descriptor.qos.generation ∧ qos₀.preemptionProtected = true ∧
        ∃ r ∈ (s.calls [.registerQosClass { protecting with generation := ⟨2⟩ }]).impl.flows[e.flow]?,
          r.descriptor = r₀.descriptor ∧
        ∃ qos ∈ (s.calls [.registerQosClass
            { protecting with generation := ⟨2⟩ }]).impl.qosClasses[r.descriptor.qos.id]?,
          qos.preemptionProtected = true :=
    @exists_reachable (displacing .tiered 1000000) (arrival.map fun
      | .registerQosClass _ => .registerQosClass protecting
      | c => c) _ (by decide +kernel)
  exact claim s _ 6 schedule e r₀ r qos₀ qos reachable hr₀ hqos₀ hbound₀ hprotected₀ hr hdescriptor
    hqos hprotected (mem_issues.mp hissued) he kind

end Sample

end FlowScheduler

import FlowScheduler.Arbitration.Throttle
import FlowScheduler.Lifecycle.Final

/-! # The entry bound of a schedule

A round stops granting windows once its entries have reached the bound of the
policy. It looks at the bound once per candidate, and a candidate that displaces
an incumbent enters twice. Without displacements the bound is kept.
-/

namespace FlowScheduler

open ByteCodec (Bytes)
open Failing SchedOp Impl OrderedMap

section Deciding

variable {s t : Scheduler} {now : Ticks} {limit : ℕ} {c : Candidate} {cs : List Candidate}
  {i j : Impl} {round round' : Round}

theorem Decides.length_le (h : Decides now limit c i round j round') :
    round'.entries.length ≤ round.entries.length + 2 := by
  cases h with
  | passed | unready | deferred | blocked | windowless => exact Nat.le_add_right _ _
  | granted => simp [Round.grant]
  | displaced _ _ _ _ _ _ _ entered | replaced _ _ _ _ _ _ _ entered =>
    subst entered
    simp [Round.grant, Round.displace, Round.defer]

theorem DecidesAll.length_le (h : DecidesAll now limit cs s round t round') :
    round'.entries.length ≤ round.entries.length + 2 * cs.length := by
  induction h with
  | nil => exact Nat.le_add_right _ _
  | cons _ step _ _ ih =>
    have hstep := step.length_le
    simp only [List.length_cons]
    omega

/-- As long as nobody is displaced, the bound is looked at before every entry. -/
theorem DecidesAll.within (h : DecidesAll now limit cs s round t round')
    (begun : round.entries.length ≤ limit) (none : displacedBy round'.entries = 0) :
    round'.entries.length ≤ limit := by
  refine h.preserves (P := fun _ round => displacedBy round.entries = 0 →
    round.entries.length ≤ limit) ?_ (fun _ => begun) none
  rintro c - i round i' round' - step hround hnone
  cases step with
  | passed | unready | deferred | blocked | windowless => exact hround hnone
  | granted _ _ within =>
    rw [Round.grant, List.length_append, List.length_singleton]
    exact within
  | displaced _ _ _ _ _ _ _ entered | replaced _ _ _ _ _ _ _ entered =>
    subst entered
    simp [displacedBy, Round.grant, Round.displace, Round.defer, preemptEntry] at hnone

theorem DecidesAll.chosen (h : DecidesAll now limit cs s round t round')
    (begun : displacedBy round.entries = 0) (some : displacedBy round'.entries ≠ 0) :
    ∃ u c d victim, Makes (DecideMove now) s u ∧
      (u.impl.rolled d now).chooseVictim c d now = .ok victim := by
  induction h with
  | nil => exact absurd begun some
  | @cons c cs s round t round' u round'' _ step makes _ ih =>
    by_cases hnone : displacedBy round'.entries = 0
    · obtain ⟨v, c, d, victim, hmakes, hchosen⟩ := ih hnone some
      exact ⟨v, c, d, victim, makes.trans hmakes, hchosen⟩
    · obtain ⟨added, hadded, henters⟩ := step.enters
      have hmore : displacedBy added ≠ 0 := by
        rw [hadded, displacedBy, List.countP_append] at hnone
        unfold displacedBy at begun ⊢
        omega
      obtain ⟨e, he, hkind⟩ := List.countP_pos_iff.mp (Nat.pos_of_ne_zero hmore)
      obtain ⟨flow, victim, -, hchosen, -⟩ := henters e he (of_decide_eq_true hkind)
      exact ⟨s, c, flow.descriptor, victim, .refl, hchosen⟩

end Deciding

/-- What a flow of a round has been before it: as described, as much served, and holding the attempt
it still holds. -/
def Ledger.Lasts (l l' : Ledger) : Prop :=
  ∀ id f', l'.flows id = some f' → ∃ f, l.flows id = some f ∧ f'.descriptor = f.descriptor ∧
    f'.servedWork = f.servedWork ∧ (f'.openAttempt.valid → f'.openAttempt = f.openAttempt)

namespace Ledger.Lasts

variable {l l' l'' : Ledger}

theorem refl (l : Ledger) : Lasts l l := fun _ f hf => ⟨f, hf, rfl, rfl, fun _ => rfl⟩

theorem trans (h : Lasts l l') (h' : Lasts l' l'') : Lasts l l'' := by
  intro id f'' hf''
  obtain ⟨f', hf', hdescriptor', hserved', hopen'⟩ := h' id f'' hf''
  obtain ⟨f, hf, hdescriptor, hserved, hopen⟩ := h id f' hf'
  refine ⟨f, hf, hdescriptor'.trans hdescriptor, hserved'.trans hserved, fun valid => ?_⟩
  have hsame := hopen' valid
  exact hsame.trans (hopen (hsame ▸ valid))

theorem modifyFlow {id : FlowId} {f : LedgerFlow → LedgerFlow} (keep : ∀ r,
    (f r).descriptor = r.descriptor ∧ (f r).servedWork = r.servedWork ∧
      ((f r).openAttempt.valid → (f r).openAttempt = r.openAttempt)) :
    Lasts l (l.modifyFlow id f) := by
  intro k f' hf'
  simp only [Ledger.modifyFlow, Function.update_apply] at hf'
  split at hf'
  · rename_i hk
    subst hk
    obtain ⟨r, hr, rfl⟩ := Option.map_eq_some_iff.mp hf'
    exact ⟨r, hr, keep r⟩
  · exact ⟨f', hf', rfl, rfl, fun _ => rfl⟩

theorem closeAttempt {attempt : DispatchAttemptId} {state : AttemptState} :
    Lasts l (l.closeAttempt attempt state) := by
  unfold Ledger.closeAttempt
  split
  · exact refl l
  · split
    · exact refl l
    · dsimp only
      split
      · exact refl l
      · split
        · exact refl l
        · refine trans (refl l) (modifyFlow fun r => ⟨rfl, rfl, fun valid => ?_⟩)
          exact absurd valid (show ¬ Id.valid {} by decide)

end Ledger.Lasts

theorem DecideMove.lasts {now : Ticks} {i i' : Impl} {r : Option Record}
    (move : DecideMove now i r i') : i.ledger.Lasts i'.ledger := by
  obtain ⟨move, unissued⟩ := move
  cases r with
  | none =>
    have hquiet := move.quiet
    generalize i'.ledger = l at hquiet
    cases hquiet with
    | same => exact .refl _
    | fail => exact .modifyFlow fun _ => ⟨rfl, rfl, fun _ => rfl⟩
    | forget => exact .refl _
  | some record =>
    rw [move.ledger]
    cases move with
    | common move =>
      cases move with
      | close => exact .closeAttempt
      | release => exact .refl _
    | issue => exact (unissued _ rfl).elim

/-- The flow has ended and no attempt is open for it. -/
def Ledger.Rests (l : Ledger) (id : FlowId) : Prop :=
  ∃ f, l.flows id = some f ∧ f.phase.final ∧ ¬ l.holdsAttempt id f

theorem DecideMove.rests {now : Ticks} {i i' : Impl} {r : Option Record} {id : FlowId}
    (move : DecideMove now i r i') (h : i.ledger.Rests id) : i'.ledger.Rests id := by
  obtain ⟨f, found, final, free⟩ := h
  obtain ⟨move, unissued⟩ := move
  cases r with
  | none =>
    refine ⟨f, move.quiet.flows_of_final found final, final, ?_⟩
    rintro ⟨x, hx, hlive⟩
    exact free ⟨x, move.quiet.attempts hx, hlive⟩
  | some record =>
    rw [move.ledger]
    cases move with
    | common move =>
      cases move with
      | close =>
        exact ⟨f, Ledger.flows_closeAttempt_of_free found free _ _, final,
          fun holds => free (Ledger.holdsAttempt_of_closeAttempt holds)⟩
      | release => exact ⟨f, found, final, free⟩
    | issue => exact (unissued _ rfl).elim

/-- The flow has not ended, or an attempt is open for it. -/
def Impl.Partakes (s : Impl) (id : FlowId) (r : FlowRuntime) : Prop :=
  r.lifecycle.isTerminal → ∃ x ∈ s.attempts[r.openAttempt]?, ¬ x.state.isTerminal ∧
    x.ticket.flow = id

instance (s : Impl) (id : FlowId) (r : FlowRuntime) : Decidable (s.Partakes id r) := by
  unfold Impl.Partakes
  infer_instance

/-- The flows that a round may grant a window. -/
def Impl.partakers (s : Impl) : List FlowId :=
  (s.flows.toList.filter fun x => s.Partakes x.1 x.2).map Prod.fst

theorem Impl.rests_of_not_partakes {s : Impl} {id : FlowId} {r : FlowRuntime}
    (found : s.flows[id]? = some r) (h : ¬ s.Partakes id r) : s.ledger.Rests id := by
  obtain ⟨terminal, free⟩ := Classical.not_imp.mp h
  refine ⟨r.ledger, congrArg (Option.map _) found, final_phase terminal, ?_⟩
  rintro ⟨x, hx, hlive, hflow⟩
  obtain ⟨y, hy, rfl⟩ := Option.map_eq_some_iff.mp hx
  exact free ⟨y, hy, hlive, hflow⟩

/-- Nothing lets the flow be displaced, whoever comes. -/
def Impl.Shields (s : Impl) (r : FlowRuntime) : Prop :=
  r.descriptor.preemptible = false ∨ r.servedWork < s.policy.minPreemptService ∨
    ∃ qos, s.qosClasses[r.descriptor.qos.id]? = some qos ∧
      qos.generation = r.descriptor.qos.generation ∧ qos.preemptionProtected

/-- Some attempt that a flow has open was issued for this one. -/
def Impl.HeldFor (s : Impl) (v : FlowRuntime) : Prop :=
  ∃ (id : FlowId) (r : FlowRuntime) (x : AttemptRuntime), s.flows[id]? = some r ∧
    r.openAttempt.valid ∧ s.attempts[r.openAttempt]? = some x ∧ s.flows[x.ticket.flow]? = some v

/-- No round at the tick may displace anybody: preemption is off, the window of the tick has seen as
many displacements as the policy allows, or every flow an open attempt is held for is shielded. -/
def Impl.Firm (s : Impl) (now : Ticks) : Prop :=
  s.policy.preemption = .none ∨ s.policy.maxPreemptionsPerInterval = 0 ∨
    s.preemptionWindowIndex = now / s.policy.preemptionIntervalTicks ∧
      s.policy.maxPreemptionsPerInterval ≤ s.preemptionsInWindow ∨
    ∀ v, s.HeldFor v → s.Shields v

section Rounds

variable {s t u : Scheduler} {now : Ticks} {round : Round}

theorem Makes.lasts (h : Makes (DecideMove now) s t) : s.impl.ledger.Lasts t.impl.ledger := by
  obtain ⟨rs, h⟩ := h
  exact h.preserves (P := fun i => s.impl.ledger.Lasts i.ledger)
    (fun _ _ _ move hi => hi.trans move.lasts) (.refl _)

theorem Makes.rests {id : FlowId} (h : Makes (DecideMove now) s t) (rests : s.impl.ledger.Rests id) :
    t.impl.ledger.Rests id := by
  obtain ⟨rs, h⟩ := h
  exact h.preserves (P := fun i => i.ledger.Rests id) (fun _ _ _ move hi => move.rests hi) rests

theorem Makes.tickets (h : Makes (RoundMove now) s t) {a : DispatchAttemptId} {x' : AttemptRuntime}
    (found : t.impl.attempts[a]? = some x') :
    ∃ x, s.impl.attempts[a]? = some x ∧ x'.ticket = x.ticket := by
  obtain ⟨rs, h⟩ := h
  refine h.preserves (P := fun i => ∀ x', i.attempts[a]? = some x' →
    ∃ x, s.impl.attempts[a]? = some x ∧ x'.ticket = x.ticket) ?_ (fun x hx => ⟨x, hx, rfl⟩) x' found
  intro i r i' move hi x'' hx''
  obtain ⟨x', hx', hticket, -⟩ := move.attempts hx''
  obtain ⟨x, hx, hsame⟩ := hi x' hx'
  exact ⟨x, hx, hticket.trans hsame⟩

theorem not_shields_of_chosen {c : Candidate} {d : FlowDescriptor} {victim : Victim}
    (makes : Makes (DecideMove now) s u)
    (chosen : (u.impl.rolled d now).chooseVictim c d now = .ok victim) :
    ∃ v, s.impl.HeldFor v ∧ ¬ s.impl.Shields v := by
  obtain ⟨-, hrecord, hflow, hdisplaceable, -⟩ := chooseVictim_ok chosen
  obtain ⟨-, hvalid, id, -, r, hr, hheld⟩ := chooseVictim_spec chosen
  have hback : ∀ {id : FlowId} {r' : FlowRuntime}, u.impl.flows[id]? = some r' → ∃ r,
      s.impl.flows[id]? = some r ∧ r'.descriptor = r.descriptor ∧ r'.servedWork = r.servedWork ∧
        (r'.openAttempt.valid → r'.openAttempt = r.openAttempt) := by
    intro id r' hr'
    obtain ⟨f, hf, hlasts⟩ := makes.lasts id r'.ledger (by rw [ledger_flows, hr']; rfl)
    obtain ⟨r, hr, rfl⟩ := Option.map_eq_some_iff.mp (show s.impl.flows[id]?.map _ = some f from hf)
    exact ⟨r, hr, hlasts⟩
  obtain ⟨r₀, hr₀, -, -, hopen⟩ := hback hr
  rw [hheld] at hopen
  obtain ⟨x, hx, hticket⟩ := makes.round.tickets hrecord
  obtain ⟨v, hv, hdescriptor, hserved, -⟩ := hback hflow
  have hpolicy : u.impl.policy = s.impl.policy := congrArg Registry.policy makes.round.registry
  have hclasses : ∀ id, u.impl.qosClasses[id]? = s.impl.qosClasses[id]? :=
    congrFun (congrArg Registry.qosClasses makes.round.registry)
  refine ⟨v, ⟨id, r₀, x, hr₀, hopen hvalid ▸ hvalid, hopen hvalid ▸ hx, hticket ▸ hv⟩, ?_⟩
  rintro (hkept | hserves | ⟨qos, hqos, hbound, hprotected⟩)
  · have hpreemptible := hdisplaceable.preemptible
    rw [hdescriptor, hkept] at hpreemptible
    cases hpreemptible
  · have hminimum : u.impl.policy.minPreemptService ≤ victim.flow.servedWork := hdisplaceable.served
    rw [hpolicy, hserved] at hminimum
    exact UInt64.not_le.mpr hserves hminimum
  · have hexposed := hdisplaceable.unprotected qos
      ((hclasses _).trans (hdescriptor ▸ hqos)) (hdescriptor ▸ hbound)
    rw [hexposed] at hprotected
    cases hprotected

theorem Impl.Firm.displacedBy_eq_zero (firm : s.impl.Firm now) (sound : Sound s.impl)
    (h : exec (decideGrants now) s = (.ok round, t)) : displacedBy round.entries = 0 := by
  by_contra hsome
  obtain ⟨p, u, hopen, hall⟩ := decideGrants_ok sound h
  obtain ⟨hmakes, -, -⟩ := openRound_ok sound hopen
  obtain ⟨v, c, d, victim, hmakes', hchosen⟩ := hall.chosen rfl hsome
  have hmakes := hmakes.trans hmakes'
  have hpolicy : v.impl.policy = s.impl.policy := congrArg Registry.policy hmakes.round.registry
  obtain ⟨-, -, -, hdisplaceable, -⟩ := chooseVictim_ok hchosen
  rcases firm with hnone | hzero | ⟨hwindow, hfull⟩ | hshields
  · exact hdisplaceable.enabled (hpolicy ▸ hnone)
  · have hbelow : v.impl.preemptionsInWindow < v.impl.policy.maxPreemptionsPerInterval :=
      hdisplaceable.unthrottled
    rw [hpolicy, hzero] at hbelow
    exact UInt32.not_lt_zero hbelow
  · obtain ⟨i, hadvances, hindex, hcounts⟩ := decideGrants_counts sound h
    rcases hadvances.window with ⟨-, hgrown⟩ | ⟨-, hleft⟩
    · have hcount := hcounts.count
      have hbounded := UInt32.le_iff_toNat_le.mp (hcounts.bounded hsome)
      rw [UInt32.le_iff_toNat_le] at hgrown hfull
      rw [show i.throttle.policy = s.impl.policy from hadvances.policy] at hbounded
      have hstart : i.throttle.inWindow = i.preemptionsInWindow := rfl
      rw [hstart] at hcount
      omega
    · exact hleft (hindex.trans hwindow.symm)
  · obtain ⟨v, hheld, hexposed⟩ := not_shields_of_chosen hmakes hchosen
    exact hexposed (hshields v hheld)

theorem length_candidates_le {p : List Candidate × ArbitrationOutcome} (sound : Sound s.impl)
    (h : exec (openRound now) s = (.ok p, u)) : p.1.length ≤ s.impl.partakers.length := by
  obtain ⟨hmakes, -, hranks⟩ := openRound_ok sound h
  have hsub : p.1.map Candidate.flow ⊆ s.impl.partakers := by
    intro id hid
    obtain ⟨c, hc, rfl⟩ := List.mem_map.mp hid
    obtain ⟨r, hr, hready, -⟩ := hranks.ranks c hc
    have hroster := congrFun hmakes.round.roster c.flow
    rw [Impl.roster_eq, Impl.roster_eq, hr, Option.map_some] at hroster
    obtain ⟨r₀, hr₀, -⟩ := Option.map_eq_some_iff.mp hroster.symm
    refine List.mem_map.mpr ⟨(c.flow, r₀), List.mem_filter.mpr ⟨mem_toList.mpr hr₀, ?_⟩, rfl⟩
    refine decide_eq_true (by_contra fun hrests => ?_)
    obtain ⟨f, hf, hfinal, -⟩ := hmakes.rests (rests_of_not_partakes hr₀ hrests)
    obtain rfl := Option.some.inj ((congrArg (Option.map FlowRuntime.ledger) hr).symm.trans hf)
    rw [FlowRuntime.ledger, hready] at hfinal
    cases hfinal
  rw [← List.length_map Candidate.flow]
  exact (hranks.nodup.subperm hsub).length_le

/-- A schedule keeps to the bound of the policy when its round displaces nobody, or when the bound
leaves two entries for every flow that may be granted one. -/
theorem entries_le_limit (s : Scheduler) (now : Ticks) (schedule : Schedule) (reachable : Reachable s)
    (issued : .scheduleIssued schedule ∈
      (s.call (.arbitrate now)).2.accepted.drop s.accepted.length)
    (roomy : s.impl.Firm now ∨ 2 * s.impl.partakers.length ≤ s.impl.entryLimit) :
    schedule.entries.length ≤ s.impl.entryLimit := by
  obtain ⟨round, t, hdecide, hentries⟩ := issued_by_round reachable.sound issued
  obtain ⟨p, u, hopen, hall⟩ := decideGrants_ok reachable.sound hdecide
  obtain ⟨hmakes, -, -⟩ := openRound_ok reachable.sound hopen
  have hlimit : u.impl.entryLimit = s.impl.entryLimit := by
    unfold Impl.entryLimit
    rw [show u.impl.policy = s.impl.policy from congrArg Registry.policy hmakes.round.registry]
  rw [hentries, ← hlimit]
  rcases roomy with firm | roomy
  · exact hall.within (Nat.zero_le _) (firm.displacedBy_eq_zero reachable.sound hdecide)
  · have hlength : round.entries.length ≤ 0 + 2 * p.1.length := hall.length_le
    have hcandidates := length_candidates_le reachable.sound hopen
    omega

end Rounds

namespace Sample

/-- An incumbent may be displaced at once, and a schedule may have one entry. -/
def oneEntry : SchedulerOptions :=
  { policy := { (displacing .tiered 1000000).policy with maxEntriesPerSchedule := 1 } }

def fourEntries : SchedulerOptions :=
  { policy := { (displacing .tiered 1000000).policy with maxEntriesPerSchedule := 4 } }

/-- A flow that may not be displaced runs on a resource for two when another one arrives. -/
def company : List Call :=
  [.registerResource { resource with maxOverlap := 2 }, .registerPriorityClass priority,
    .registerQosClass qos, .admitFlow { flow 1 with preemptible := false }, .arbitrate 5,
    dispatch 5, .admitFlow { flow 2 with preemptible := false }]

set_option maxRecDepth 100000 in
/-- A round with room for one entry grants a window beside a flow that may not be displaced. One with
room for four displaces a flow: of the three flows one has ended. -/
theorem entries_le_limit_arrival :
    (∃ s schedule, Reachable s ∧
      .scheduleIssued schedule ∈ (s.call (.arbitrate 6)).2.accepted.drop s.accepted.length ∧
      s.impl.Firm 6 ∧ s.impl.openAttemptIds.length = 1 ∧ schedule.entries.length = 1 ∧
      s.impl.entryLimit = 1 ∧ schedule.entries.length ≤ s.impl.entryLimit) ∧
    ∃ s schedule, Reachable s ∧
      .scheduleIssued schedule ∈ (s.call (.arbitrate 6)).2.accepted.drop s.accepted.length ∧
      s.impl.flows.size = 3 ∧ 2 * s.impl.partakers.length = s.impl.entryLimit ∧
      displacedBy schedule.entries = 1 ∧ schedule.entries.length ≤ s.impl.entryLimit := by
  constructor
  · obtain ⟨s, reachable, hshielded, hopen, hlimit, schedule, hissued, hlength⟩ : ∃ s,
        Reachable s ∧ (∀ x ∈ s.impl.flows.toList, x.2.descriptor.preemptible = false) ∧
        s.impl.openAttemptIds.length = 1 ∧ s.impl.entryLimit = 1 ∧
          ∃ schedule ∈ issues s 6, schedule.entries.length = 1 :=
      @exists_reachable oneEntry company _ (by decide +kernel)
    have hfirm : s.impl.Firm 6 := by
      refine .inr (.inr (.inr ?_))
      rintro v ⟨id, r, x, -, -, -, hv⟩
      exact .inl (hshielded (x.ticket.flow, v) (mem_toList.mpr hv))
    exact ⟨s, schedule, reachable, mem_issues.mp hissued, hfirm, hopen, hlength, hlimit,
      entries_le_limit s 6 schedule reachable (mem_issues.mp hissued) (.inl hfirm)⟩
  · obtain ⟨s, reachable, hsize, hroomy, schedule, hissued, hone⟩ : ∃ s, Reachable s ∧
        s.impl.flows.size = 3 ∧ 2 * s.impl.partakers.length = s.impl.entryLimit ∧
          ∃ schedule ∈ issues s 6, displacedBy schedule.entries = 1 :=
      @exists_reachable fourEntries (arrival ++ [.admitFlow (flow 3), .cancelFlow ⟨3⟩ ⟨1⟩ [] 5]) _ (by decide +kernel)
    exact ⟨s, schedule, reachable, mem_issues.mp hissued, hsize, hroomy, hone,
      entries_le_limit s 6 schedule reachable (mem_issues.mp hissued) (.inr hroomy.le)⟩

set_option maxRecDepth 100000 in
/-- One entry is allowed; the round displaces the incumbent and grants the window as well. -/
theorem not_entries_le_limit : ¬ ∀ (s : Scheduler) (now : Ticks) (schedule : Schedule), Reachable s →
    .scheduleIssued schedule ∈ (s.call (.arbitrate now)).2.accepted.drop s.accepted.length →
    schedule.entries.length ≤ s.impl.entryLimit := by
  intro claim
  obtain ⟨s, reachable, schedule, hissued, hover⟩ : ∃ s, Reachable s ∧
      ∃ schedule ∈ issues s 6, s.impl.entryLimit < schedule.entries.length :=
    @exists_reachable oneEntry arrival _ (by decide +kernel)
  exact absurd (claim s 6 schedule reachable (mem_issues.mp hissued)) (not_le.mpr hover)

end Sample

end FlowScheduler

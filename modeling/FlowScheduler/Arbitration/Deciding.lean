import FlowScheduler.Arbitration.Order
import FlowScheduler.Steps.Reachable

/-! # What a round decides about its candidates

The candidates of a round are considered in order. Each is passed over, deferred
for a reason, given a window, or given the place of an incumbent, with or without
a window left for it there.
-/

namespace FlowScheduler

open ByteCodec (Bytes)
open Failing SchedOp Impl OrderedMap

/-- The interval of the resource the flow runs on has been brought up to date. -/
def Impl.rolled (s : Impl) (d : FlowDescriptor) (now : Ticks) : Impl :=
  s.modifyResource d.resource.id (·.rollInterval now)

inductive Decides (now : Ticks) (limit : ℕ) (c : Candidate) : Impl → Round → Impl → Round → Prop
  | passed {i round} (gone : ∀ flow, i.flows[c.flow]? = some flow →
      flow.lifecycle ≠ .ready ∨ c.flow ∈ round.decided) : Decides now limit c i round i round
  | unready {i round flow reason} (found : i.flows[c.flow]? = some flow)
      (ready : flow.lifecycle = .ready) (free : c.flow ∉ round.decided)
      (derived : i.derivedReadiness flow now = .error reason) :
      Decides now limit c i round (i.deferUnready c.flow flow reason now round.outcome).1
        { round with outcome := (i.deferUnready c.flow flow reason now round.outcome).2 }
  | deferred {i round flow reason detail} (found : i.flows[c.flow]? = some flow)
      (ready : flow.lifecycle = .ready) (derived : i.derivedReadiness flow now = .ok ())
      (why : limit ≤ round.entries.length ∨ ∀ resource,
        i.resources[flow.descriptor.resource.id]? = some resource →
          resource.descriptor.generation ≠ flow.descriptor.resource.generation) :
      Decides now limit c i round i (round.defer flow.descriptor reason detail)
  | blocked {i round flow resource reason detail} (eligible : Eligible i now c flow)
      (free : c.flow ∉ round.decided) (within : round.entries.length < limit)
      (registered : i.resources[flow.descriptor.resource.id]? = some resource)
      (full : resource.descriptor.maxOverlap ≤
        resource.inFlight + round.pendingInFlight.getD flow.descriptor.resource.id 0)
      (refused : (i.rolled flow.descriptor now).chooseVictim c flow.descriptor now =
        .error (reason, detail)) :
      Decides now limit c i round (i.rolled flow.descriptor now)
        (round.defer flow.descriptor reason detail)
  | windowless {i round flow resource reason} (eligible : Eligible i now c flow)
      (free : c.flow ∉ round.decided)
      (registered : i.resources[flow.descriptor.resource.id]? = some resource)
      (room : ¬ resource.descriptor.maxOverlap ≤
        resource.inFlight + round.pendingInFlight.getD flow.descriptor.resource.id 0)
      (none : (i.rolled flow.descriptor now).legalQuantum round flow (resource.rollInterval now) now =
        .error reason) :
      Decides now limit c i round (i.rolled flow.descriptor now)
        (round.defer flow.descriptor reason reason.toText)
  | granted {i round flow resource quantum} (eligible : Eligible i now c flow)
      (free : c.flow ∉ round.decided) (within : round.entries.length < limit)
      (registered : i.resources[flow.descriptor.resource.id]? = some resource)
      (room : ¬ resource.descriptor.maxOverlap ≤
        resource.inFlight + round.pendingInFlight.getD flow.descriptor.resource.id 0)
      (legal : (i.rolled flow.descriptor now).legalQuantum round flow (resource.rollInterval now)
        now = .ok quantum) :
      Decides now limit c i round (i.rolled flow.descriptor now)
        (round.grant ((i.rolled flow.descriptor now).runEntry c flow.descriptor round.nextOrdinal
          quantum now))
  | displaced {i round flow resource victim i' round' resource' reason}
      (eligible : Eligible i now c flow) (free : c.flow ∉ round.decided)
      (within : round.entries.length < limit)
      (registered : i.resources[flow.descriptor.resource.id]? = some resource)
      (full : resource.descriptor.maxOverlap ≤
        resource.inFlight + round.pendingInFlight.getD flow.descriptor.resource.id 0)
      (chosen : (i.rolled flow.descriptor now).chooseVictim c flow.descriptor now = .ok victim)
      (after : i' = (i.rolled flow.descriptor now).displace victim flow.descriptor.resource.id now)
      (entered : round' = round.displace
        (preemptEntry victim round.nextOrdinal c flow.descriptor now) victim.flow.descriptor)
      (registered' : i'.resources[flow.descriptor.resource.id]? = some resource')
      (none : i'.legalQuantum round' flow resource' now = .error reason) :
      Decides now limit c i round i' (round'.defer flow.descriptor reason reason.toText)
  | replaced {i round flow resource victim i' round' resource' quantum}
      (eligible : Eligible i now c flow) (free : c.flow ∉ round.decided)
      (within : round.entries.length < limit)
      (registered : i.resources[flow.descriptor.resource.id]? = some resource)
      (full : resource.descriptor.maxOverlap ≤
        resource.inFlight + round.pendingInFlight.getD flow.descriptor.resource.id 0)
      (chosen : (i.rolled flow.descriptor now).chooseVictim c flow.descriptor now = .ok victim)
      (after : i' = (i.rolled flow.descriptor now).displace victim flow.descriptor.resource.id now)
      (entered : round' = round.displace
        (preemptEntry victim round.nextOrdinal c flow.descriptor now) victim.flow.descriptor)
      (registered' : i'.resources[flow.descriptor.resource.id]? = some resource')
      (legal : i'.legalQuantum round' flow resource' now = .ok quantum) :
      Decides now limit c i round i'
        (round'.grant (i'.runEntry c flow.descriptor round'.nextOrdinal quantum now))

/-- What becomes of the candidates one after the other. -/
inductive DecidesAll (now : Ticks) (limit : ℕ) :
    List Candidate → Scheduler → Round → Scheduler → Round → Prop
  | nil {s round} : DecidesAll now limit [] s round s round
  | cons {c cs s round t round' u round''} (sound : Sound s.impl)
      (step : Decides now limit c s.impl round t.impl round') (makes : Makes (DecideMove now) s t)
      (rest : DecidesAll now limit cs t round' u round'') :
      DecidesAll now limit (c :: cs) s round u round''

section Considering

variable {s t : Scheduler} {now : Ticks} {limit : ℕ} {c : Candidate} {flow : FlowRuntime}
  {round round' : Round}

theorem grantWindow_ok {resource : ResourceRuntime}
    (registered : s.impl.resources[flow.descriptor.resource.id]? = some resource)
    (h : exec (grantWindow now c flow round) s = (.ok round', t)) : t = s ∧
      ((∃ reason, s.impl.legalQuantum round flow resource now = .error reason ∧
        round' = round.defer flow.descriptor reason reason.toText) ∨
      ∃ quantum, s.impl.legalQuantum round flow resource now = .ok quantum ∧
        round' = round.grant (s.impl.runEntry c flow.descriptor round.nextOrdinal quantum now)) := by
  unfold grantWindow at h
  rw [exec_readImpl_bind, registered] at h
  dsimp only at h
  split at h
  · rename_i reason hnone
    cases h
    exact ⟨rfl, .inl ⟨reason, hnone, rfl⟩⟩
  · rename_i quantum hlegal
    cases h
    exact ⟨rfl, .inr ⟨quantum, hlegal, rfl⟩⟩

theorem displaceVictim_ok {victim : Victim}
    (h : exec (displaceVictim now c flow victim round) s = (.ok round', t)) :
    t.impl = s.impl.displace victim flow.descriptor.resource.id now ∧
      round' = round.displace (preemptEntry victim round.nextOrdinal c flow.descriptor now)
        victim.flow.descriptor := by
  unfold displaceVictim at h
  rw [exec_closeAttempt_bind] at h
  obtain ⟨_, u, hjournal, h⟩ := exec_bind_ok.mp h
  rw [exec_modifyImpl_bind, exec_modifyImpl_bind, impl_of_append hjournal] at h
  cases h
  exact ⟨rfl, rfl⟩

theorem placeCandidate_ok {resource : ResourceRuntime} (sound : Sound s.impl)
    (eligible : Eligible s.impl now c flow) (free : c.flow ∉ round.decided)
    (within : round.entries.length < limit)
    (registered : s.impl.resources[flow.descriptor.resource.id]? = some resource)
    (h : exec (placeCandidate now c flow resource round) s = (.ok round', t)) :
    Decides now limit c s.impl round t.impl round' := by
  unfold placeCandidate at h
  dsimp only at h
  rw [exec_modifyImpl_bind] at h
  have hrolled : (s.impl.rolled flow.descriptor now).resources[flow.descriptor.resource.id]? =
      some (resource.rollInterval now) := by
    simp only [Impl.rolled, modifyResource, get_modify, if_true, registered, Option.map_some]
  split at h
  · rename_i hfull
    rw [exec_readImpl_bind] at h
    split at h
    · rename_i reason detail hrefused
      cases h
      exact .blocked eligible free within registered hfull hrefused
    · rename_i victim hchosen
      obtain ⟨round₁, u, hdisplace, h⟩ := exec_bind_ok.mp h
      obtain ⟨himpl, hround⟩ := displaceVictim_ok hdisplace
      replace himpl : u.impl = (s.impl.rolled flow.descriptor now).displace victim
        flow.descriptor.resource.id now := himpl
      have hsound : Sound (s.impl.rolled flow.descriptor now) := by
        refine ⟨sound.keyed.congr rfl rfl, sound.ledger.congr rfl rfl⟩
      have heligible : Eligible (s.impl.rolled flow.descriptor now) now c flow :=
        eligible.congr eligible.found (fun _ _ hr _ => hr) rfl budget_rollInterval
      obtain ⟨resource', hresource', -⟩ := (heligible.displace hsound hchosen).current
      rw [← himpl] at hresource'
      obtain ⟨rfl, hnone | hlegal⟩ := grantWindow_ok hresource' h
      · obtain ⟨reason, hnone, rfl⟩ := hnone
        exact .displaced eligible free within registered hfull hchosen himpl hround hresource' hnone
      · obtain ⟨quantum, hlegal, rfl⟩ := hlegal
        exact .replaced eligible free within registered hfull hchosen himpl hround hresource' hlegal
  · rename_i hroom
    obtain ⟨rfl, hnone | hlegal⟩ := grantWindow_ok hrolled h
    · obtain ⟨reason, hnone, rfl⟩ := hnone
      exact .windowless eligible free registered hroom hnone
    · obtain ⟨quantum, hlegal, rfl⟩ := hlegal
      exact .granted eligible free within registered hroom hlegal

theorem considerCandidate_ok (sound : Sound s.impl)
    (h : exec (considerCandidate now limit round c) s = (.ok round', t)) :
    Decides now limit c s.impl round t.impl round' := by
  unfold considerCandidate at h
  rw [exec_readImpl_bind] at h
  split at h
  · rename_i hnone
    cases h
    refine .passed fun flow hflow => ?_
    rw [hnone] at hflow
    cases hflow
  · rename_i flow found
    split at h
    · rename_i hgone
      cases h
      refine .passed fun flow' hflow' => ?_
      obtain rfl := Option.some.inj (found.symm.trans hflow')
      exact hgone
    · rename_i hready
      obtain ⟨hready, hfree⟩ := not_or.mp hready
      have ready : flow.lifecycle = .ready := not_not.mp hready
      split at h
      · rename_i reason hderived
        have hdecides : Decides now limit c s.impl round _ _ := .unready found ready hfree hderived
        generalize s.impl.deferUnready c.flow flow reason now round.outcome = p at h hdecides
        obtain ⟨i, o⟩ := p
        cases h
        exact hdecides
      · rename_i hderived
        split at h
        · rename_i hlimit
          cases h
          exact .deferred found ready hderived (.inl hlimit)
        · rename_i hlimit
          split at h
          · rename_i hresource
            cases h
            refine .deferred found ready hderived (.inr fun resource hr => ?_)
            rw [hresource] at hr
            cases hr
          · rename_i resource hresource
            split at h
            · rename_i hstale
              cases h
              refine .deferred found ready hderived (.inr fun resource' hr => ?_)
              obtain rfl := Option.some.inj (hresource.symm.trans hr)
              exact hstale
            · rename_i hcurrent
              exact placeCandidate_ok sound ⟨found, ready, hderived, resource, hresource,
                not_not.mp hcurrent⟩ hfree (not_le.mp hlimit) hresource h

theorem idleRound (now : Ticks) : RoundInvariant now
    (fun _ _ round => True ∧ ∀ e ∈ round.entries, True) fun _ _ _ => True :=
  .entering (P := fun _ => True) (Q := fun _ => True) (fun _ _ _ _ h => h)
    (fun _ _ _ _ _ _ _ _ => trivial) fun _ _ _ _ _ _ _ _ => trivial

theorem considerCandidate_makes (bounded : limit ≤ kEntryBound) (sound : Sound s.impl)
    (clock : s.impl.lastTick = now)
    (h : exec (considerCandidate now limit round c) s = (.ok round', t)) :
    Makes (DecideMove now) s t := by
  have hidle : True ∧ ∀ e ∈ round.entries, True := ⟨trivial, fun _ _ => trivial⟩
  have hruns := (runs_considerCandidate bounded (idleRound now) sound clock
    (List.not_mem_nil (a := c.flow)) hidle).1
  rwa [h] at hruns

theorem considerCandidates_ok {cs : List Candidate} (bounded : limit ≤ kEntryBound)
    (sound : Sound s.impl) (clock : s.impl.lastTick = now)
    (h : exec (considerCandidates now limit cs round) s = (.ok round', t)) :
    DecidesAll now limit cs s round t round' := by
  induction cs generalizing s round with
  | nil =>
    cases h
    exact .nil
  | cons c cs ih =>
    obtain ⟨round₁, u, hstep, h⟩ := exec_bind_ok.mp h
    have hmakes := considerCandidate_makes bounded sound clock hstep
    exact .cons sound (considerCandidate_ok sound hstep) hmakes
      (ih (hmakes.round.sound sound) (hmakes.round.clock clock) h)

end Considering

namespace DecidesAll

variable {now : Ticks} {limit : ℕ} {c : Candidate} {cs before after : List Candidate}
  {s t : Scheduler} {round round' : Round}

theorem makes (h : DecidesAll now limit cs s round t round') : Makes (DecideMove now) s t := by
  induction h with
  | nil => exact .refl
  | cons _ _ makes _ ih => exact makes.trans ih

theorem split (h : DecidesAll now limit (before ++ after) s round t round') :
    ∃ u roundᵤ, DecidesAll now limit before s round u roundᵤ ∧
      DecidesAll now limit after u roundᵤ t round' := by
  induction before generalizing s round with
  | nil => exact ⟨s, round, .nil, h⟩
  | cons c before ih =>
    cases h with
    | cons sound step makes rest =>
      obtain ⟨u, roundᵤ, hbefore, hafter⟩ := ih rest
      exact ⟨u, roundᵤ, .cons sound step makes hbefore, hafter⟩

theorem preserves {P : Impl → Round → Prop}
    (keep : ∀ c ∈ cs, ∀ i round i' round', Sound i → Decides now limit c i round i' round' →
      P i round → P i' round')
    (h : DecidesAll now limit cs s round t round') (hs : P s.impl round) : P t.impl round' := by
  induction h with
  | nil => exact hs
  | cons sound step _ _ ih =>
    exact ih (fun c hc => keep c (List.mem_cons_of_mem _ hc))
      (keep _ List.mem_cons_self _ _ _ _ sound step hs)

end DecidesAll

section Opening

variable {s t u : Scheduler} {now : Ticks} {p : List Candidate × ArbitrationOutcome} {round : Round}

theorem flows_rollPreemptionWindow {i : Impl} : (i.rollPreemptionWindow now).flows = i.flows := by
  unfold rollPreemptionWindow
  generalize (if i.policy.preemptionIntervalTicks = 0 then 0
    else now / i.policy.preemptionIntervalTicks) = window
  dsimp only
  split <;> rfl

theorem openRound_ok (sound : Sound s.impl) (h : exec (openRound now) s = (.ok p, u)) :
    Makes (DecideMove now) s u ∧ RoundOpened now s p u ∧ u.impl.RanksAll now p.1 := by
  have hruns : Runs (DecideMove now) (RoundOpened now s) (openRound now) s := runs_openRound sound
  unfold Runs at hruns
  rw [h] at hruns
  obtain ⟨hmakes, hopened⟩ := hruns
  have hopened := hopened p rfl
  refine ⟨hmakes, hopened, ?_⟩
  obtain ⟨i, hkeyed, hp, himpl⟩ := hopened.ranked
  have hkeyed' : Keyed (i.rankCandidates now).1 := by
    have hsilent : Silently (RoundMove now) i (i.rankCandidates now).1 := rankCandidates_spec.1
    generalize (i.rankCandidates now).1 = i' at hsilent
    induction hsilent with
    | refl => exact hkeyed
    | tail _ move ih => exact ih.roundMove move
  obtain ⟨-, hranks⟩ := rankCandidates_ranksAll hkeyed hkeyed'
  have hsame : SameStanding (i.rankCandidates now).1 u.impl := by
    rw [himpl]
    exact .of_flows flows_rollPreemptionWindow setting_rollPreemptionWindow
  rw [hp]
  refine ⟨fun c hc => (hranks.ranks c hc).same hsame, fun id r hr hready => ?_, hranks.ordered,
    hranks.nodup⟩
  have hlifecycle := hsame.lifecycle id
  rw [hr, Option.map_some, eq_comm] at hlifecycle
  obtain ⟨r', hr', hsame'⟩ := Option.map_eq_some_iff.mp hlifecycle
  exact hranks.all id r' hr' (hsame'.trans hready)

theorem decideGrants_ok (sound : Sound s.impl) (h : exec (decideGrants now) s = (.ok round, t)) :
    ∃ p u, exec (openRound now) s = (.ok p, u) ∧
      DecidesAll now u.impl.entryLimit p.1 u { outcome := p.2 } t round := by
  rw [decideGrants_eq] at h
  obtain ⟨p, u, hopen, h⟩ := exec_bind_ok.mp h
  rw [exec_readImpl_bind] at h
  obtain ⟨hmakes, hopened, -⟩ := openRound_ok sound hopen
  have hbounded : u.impl.entryLimit ≤ kEntryBound := min_le_right _ _
  exact ⟨p, u, hopen, considerCandidates_ok hbounded (hmakes.round.sound sound) hopened.clock h⟩

theorem arbitrate_ok {o : ArbitrationOutcome} (h : exec (arbitrate now) s = (.ok o, t)) :
    ∃ round u, exec (decideGrants now) s = (.ok round, u) ∧
      exec (concludeRound now round) u = (.ok o, t) := by
  rw [arbitrate_eq] at h
  exact exec_bind_ok.mp h

theorem Steps.of_mem {R : Impl → Option Record → Impl → Prop} {rs : List Record} {r : Record}
    (h : Steps R s rs t) (mem : r ∈ rs) : ∃ i i', R i (some r) i' := by
  induction h with
  | refl => cases mem
  | silent _ _ ih => exact ih mem
  | journaled _ move _ ih =>
    rcases List.mem_append.mp mem with mem | mem
    · exact ih mem
    · rw [List.mem_singleton.mp mem]
      exact ⟨_, _, move⟩
  | refused _ _ ih => exact ih mem

theorem accepted_concludeRound (now : Ticks) (round : Round) (s : Scheduler) :
    (exec (concludeRound now round) s).2.accepted = s.accepted ∨
      (exec (concludeRound now round) s).2.accepted =
        s.accepted ++ [.scheduleIssued (s.impl.makeSchedule round.entries now)] := by
  unfold concludeRound
  split
  · exact .inl rfl
  · have hissue : (exec (issueSchedule round.entries now) s).2.accepted = s.accepted ∨
        (exec (issueSchedule round.entries now) s).2.accepted =
          s.accepted ++ [.scheduleIssued (s.impl.makeSchedule round.entries now)] := by
      unfold issueSchedule
      rw [exec_readImpl_bind, exec_modifyImpl_bind, exec_bind, exec_journal_withImpl]
      cases hjournal : exec (journal (.scheduleIssued (s.impl.makeSchedule round.entries now))) s with
      | mk result t =>
        cases result with
        | error e =>
          have haccepted := accepted_of_refused hjournal
          exact .inl haccepted
        | ok u =>
          have haccepted := accepted_of_append hjournal
          right
          dsimp only
          rw [exec_modifyImpl_bind, exec_readImpl_bind, exec_lift_bind]
          split
          · rw [exec_readImpl_bind, exec_lift_bind]
            split <;> exact haccepted
          · exact haccepted
    rw [exec_bind]
    cases hexec : exec (issueSchedule round.entries now) s with
    | mk result t =>
      rw [hexec] at hissue
      cases result <;> exact hissue

/-- A schedule that a round has issued, whether or not it returned, is what it decided. -/
theorem issued_by_round {schedule : Schedule} (sound : Sound s.impl) (issued : .scheduleIssued
    schedule ∈ (s.call (.arbitrate now)).2.accepted.drop s.accepted.length) :
    ∃ round u, exec (decideGrants now) s = (.ok round, u) ∧ schedule.entries = round.entries := by
  have hdecide := runs_decideGrants (idleRound now) sound fun _ _ _ _ _ => ⟨trivial, by simp⟩
  rw [show (s.call (.arbitrate now)).2 = (exec (arbitrate now) s).2 by
    rw [Scheduler.call, Call.op, exec_done], arbitrate_eq, exec_bind] at issued
  unfold Runs at hdecide
  cases hexec : exec (decideGrants now) s with
  | mk result u =>
    rw [hexec] at issued hdecide
    obtain ⟨rs, hsteps⟩ := hdecide.1
    have haccepted : u.accepted = s.accepted ++ rs := hsteps.accepted
    have hquiet : .scheduleIssued schedule ∉ rs := by
      intro hmem
      obtain ⟨i, i', -, hmay⟩ := hsteps.of_mem hmem
      exact hmay schedule rfl
    cases result with
    | error e =>
      dsimp only at issued
      rw [haccepted, List.drop_left] at issued
      exact absurd issued hquiet
    | ok round =>
      dsimp only at issued
      rcases accepted_concludeRound now round u with hsame | hissued
      · rw [hsame, haccepted, List.drop_left] at issued
        exact absurd issued hquiet
      · rw [hissued, haccepted, List.append_assoc, List.drop_left] at issued
        rcases List.mem_append.mp issued with hmem | hmem
        · exact absurd hmem hquiet
        · refine ⟨round, u, rfl, ?_⟩
          rw [Record.scheduleIssued.inj (List.mem_singleton.mp hmem)]
          rfl

end Opening

end FlowScheduler

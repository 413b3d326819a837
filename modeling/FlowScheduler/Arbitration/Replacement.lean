import FlowScheduler.Arbitration.Entries
import FlowScheduler.Authority.Offers

/-! # The window of a displacer

A round stops the victim before it looks for a window for the candidate that took
its place, so the place may stay empty: the displacement is followed by the
window exactly if one was left when the candidate was considered.
-/

namespace FlowScheduler

open ByteCodec (Bytes)
open Failing SchedOp Impl OrderedMap

/-- A window is left for the flow: it has work left to ask for, and the round has not given away all
that its resource and its reservation have to give. -/
structure Impl.HasRoom (s : Impl) (round : Round) (r : FlowRuntime) (now : Ticks) : Prop where
  work : 0 < remainingWork r
  quantum : 0 < r.descriptor.serviceQuantum
  ceiling : 0 < s.policy.maxQuantum
  capacity : ∀ resource, s.resources[r.descriptor.resource.id]? = some resource →
    round.pendingCapacity.getD r.descriptor.resource.id 0 < resource.capacityRemaining now
  reservation : r.descriptor.reservation.bound →
    round.pendingReservation.getD r.descriptor.reservation.id 0 < s.reservationRemaining r now

section Windows

variable {s s' : Impl} {now : Ticks} {round : Round} {flow : FlowRuntime} {resource : ResourceRuntime}

theorem pos_min_iff {a b : UInt64} : 0 < min a b ↔ 0 < a ∧ 0 < b := by
  rw [show min a b = if a ≤ b then a else b from rfl]
  split
  · rename_i h
    exact ⟨fun ha => ⟨ha, UInt64.lt_of_lt_of_le ha h⟩, fun hab => hab.1⟩
  · rename_i h
    exact ⟨fun hb => ⟨UInt64.lt_trans hb (UInt64.not_le.mp h), hb⟩, fun hab => hab.2⟩

theorem exists_ok_iff {ε : Type} {e : ε} {q : UInt64} :
    (∃ quantum, (if q = 0 then .error e else .ok q : Except ε UInt64) = .ok quantum) ↔ 0 < q := by
  rw [UInt64.pos_iff_ne_zero]
  split <;> simp [*]

theorem pos_slack_iff {spent raw : UInt64} :
    0 < (if spent < raw then raw - spent else 0) ↔ spent < raw := by
  split
  · rename_i h
    refine ⟨fun _ => h, fun _ => ?_⟩
    rw [UInt64.lt_iff_toNat_lt] at h ⊢
    rw [UInt64.toNat_sub_of_le _ _ (UInt64.le_of_lt (UInt64.lt_iff_toNat_lt.mpr h))]
    simpa using h
  · rename_i h
    exact ⟨fun hpos => absurd hpos (UInt64.lt_irrefl 0), fun hlt => absurd hlt h⟩

theorem pos_classCeiling_iff {d : FlowDescriptor} (q : UInt64) :
    0 < (match s.qosClasses[d.qos.id]? with
      | none => q
      | some qos => if qos.generation = d.qos.generation ∧ 0 < qos.maxServicePerDispatch then
          min q qos.maxServicePerDispatch else q) ↔ 0 < q := by
  split
  · rfl
  · split
    · rename_i hbound
      rw [pos_min_iff, and_iff_left hbound.2]
    · rfl

theorem legalQuantum_ok_iff (timely : ¬ (hasDeadline flow.descriptor.deadlineTick ∧
    flow.descriptor.deadlineTick ≤ now)) :
    (∃ quantum, s.legalQuantum round flow resource now = .ok quantum) ↔
      0 < remainingWork flow ∧ 0 < flow.descriptor.serviceQuantum ∧ 0 < s.policy.maxQuantum ∧
      round.pendingCapacity.getD flow.descriptor.resource.id 0 < resource.capacityRemaining now ∧
      (flow.descriptor.reservation.bound →
        round.pendingReservation.getD flow.descriptor.reservation.id 0 <
          s.reservationRemaining flow now) := by
  unfold legalQuantum
  dsimp only
  rw [exists_ok_iff]
  have hslack : ∀ q : UInt64, 0 < (if hasDeadline flow.descriptor.deadlineTick ∧
      s.policy.strictDeadlines then min q (if now < flow.descriptor.deadlineTick then
        flow.descriptor.deadlineTick - now else 0) else q) ↔ 0 < q := by
    intro q
    split
    · rename_i hstrict
      rw [pos_min_iff, pos_slack_iff, and_iff_left]
      exact UInt64.not_le.mp fun hlate => timely ⟨hstrict.1, hlate⟩
    · rfl
  have hreserved : 0 < (if flow.descriptor.reservation.bound then
      (if round.pendingReservation.getD flow.descriptor.reservation.id 0 <
          s.reservationRemaining flow now then s.reservationRemaining flow now -
            round.pendingReservation.getD flow.descriptor.reservation.id 0 else 0)
      else s.reservationRemaining flow now) ↔ (flow.descriptor.reservation.bound →
        round.pendingReservation.getD flow.descriptor.reservation.id 0 <
          s.reservationRemaining flow now) := by
    split
    · rename_i hbound
      rw [pos_slack_iff]
      exact ⟨fun h _ => h, fun h => h hbound⟩
    · rename_i hfree
      have hunbound : s.reservationRemaining flow now = u64Max := by
        unfold reservationRemaining
        exact if_pos hfree
      rw [hunbound]
      exact ⟨fun _ h => absurd h hfree, fun _ => by decide⟩
  rw [hslack, pos_min_iff, pos_min_iff]
  refine Iff.trans (and_congr (and_congr (pos_classCeiling_iff _) pos_slack_iff) hreserved) ?_
  rw [pos_min_iff, pos_min_iff]
  constructor
  · rintro ⟨⟨⟨⟨hquantum, hwork⟩, hceiling⟩, hcapacity⟩, hreservation⟩
    exact ⟨hwork, hquantum, hceiling, hcapacity, hreservation⟩
  · rintro ⟨hwork, hquantum, hceiling, hcapacity, hreservation⟩
    exact ⟨⟨⟨⟨hquantum, hwork⟩, hceiling⟩, hcapacity⟩, hreservation⟩

/-- What a displacement leaves of a resource and a reservation is what there was. -/
theorem hasRoom_iff {victim : Victim} {e : ScheduleEntry} {d : FlowDescriptor}
    (timely : ¬ (hasDeadline flow.descriptor.deadlineTick ∧ flow.descriptor.deadlineTick ≤ now))
    (registered : ((s.rolled flow.descriptor now).displace victim flow.descriptor.resource.id
      now).resources[flow.descriptor.resource.id]? = some resource) :
    s.HasRoom round flow now ↔ ∃ quantum, ((s.rolled flow.descriptor now).displace victim
      flow.descriptor.resource.id now).legalQuantum (round.displace e d) flow resource now =
        .ok quantum := by
  have hbudget : ((s.rolled flow.descriptor now).displace victim flow.descriptor.resource.id
      now).budget now = s.budget now := by
    rw [budget_displace]
    exact budget_rollInterval
  have hkeys : SameKeys s ((s.rolled flow.descriptor now).displace victim
      flow.descriptor.resource.id now) := SameKeys.modifyResource.trans .displace
  have hreservations : ((s.rolled flow.descriptor now).displace victim flow.descriptor.resource.id
      now).reservations = s.reservations := reservations_displace
  generalize (s.rolled flow.descriptor now).displace victim flow.descriptor.resource.id now = s'
    at registered hbudget hkeys hreservations
  have hpolicy : s'.policy = s.policy := congrArg Setting.policy hkeys.setting
  have hremaining : s'.reservationRemaining flow now = s.reservationRemaining flow now := by
    unfold reservationRemaining
    rw [hreservations]
  have hsame := congrFun hbudget flow.descriptor.resource.id
  rw [Impl.budget, registered, Option.map_some, eq_comm] at hsame
  obtain ⟨found, hfound, hsame⟩ := Option.map_eq_some_iff.mp hsame
  have hcapacity : found.capacityRemaining now = resource.capacityRemaining now :=
    (Prod.mk.inj hsame).2
  rw [legalQuantum_ok_iff timely, hpolicy, hremaining]
  constructor
  · rintro ⟨hwork, hquantum, hceiling, hleft, hreservation⟩
    exact ⟨hwork, hquantum, hceiling, hcapacity ▸ hleft found hfound, hreservation⟩
  · rintro ⟨hwork, hquantum, hceiling, hleft, hreservation⟩
    refine ⟨hwork, hquantum, hceiling, fun found' hfound' => ?_, hreservation⟩
    obtain rfl := Option.some.inj (hfound.symm.trans hfound')
    rw [hcapacity]
    exact hleft

end Windows

section Positions

variable {s t : Scheduler} {i i' : Impl} {now : Ticks} {limit : ℕ} {c : Candidate}
  {cs : List Candidate} {round round' : Round} {n : ℕ} {e : ScheduleEntry}

theorem eq_of_getElem?_append_singleton {α : Type} {l : List α} {a b : α}
    (h : (l ++ [a])[n]? = some b) (new : l.length ≤ n) : n = l.length ∧ b = a := by
  rw [List.getElem?_append_right new] at h
  obtain ⟨hlt, h⟩ := List.getElem?_eq_some_iff.mp h
  rw [List.length_singleton] at hlt
  rw [List.getElem_singleton] at h
  exact ⟨by omega, h.symm⟩

theorem eq_of_getElem?_append_pair {α : Type} {l : List α} {a b x : α}
    (h : (l ++ [a] ++ [b])[n]? = some x) (new : l.length ≤ n) :
    (n = l.length ∧ x = a) ∨ x = b := by
  by_cases hfirst : n < (l ++ [a]).length
  · rw [List.getElem?_append_left hfirst] at h
    exact .inl (eq_of_getElem?_append_singleton h new)
  · exact .inr (eq_of_getElem?_append_singleton h (Nat.not_lt.mp hfirst)).2

/-- A displacement is the first entry its candidate makes, and the second and last is its window, if
one was left. -/
theorem Decides.preempting (h : Decides now limit c i round i' round')
    (entry : round'.entries[n]? = some e) (new : round.entries.length ≤ n)
    (kind : e.kind = .preempt) :
    n = round.entries.length ∧ ∃ flow victim, Eligible i now c flow ∧
      (i.rolled flow.descriptor now).chooseVictim c flow.descriptor now = .ok victim ∧
      e = preemptEntry victim round.nextOrdinal c flow.descriptor now ∧
      ((¬ i.HasRoom round flow now ∧ round'.entries = round.entries ++ [e]) ∨
        (i.HasRoom round flow now ∧ ∃ run, round'.entries = round.entries ++ [e, run] ∧
          run.kind = .run ∧ run.flow = flow.descriptor.flow ∧
          run.resource = flow.descriptor.resource.id)) := by
  have hnone : round'.entries = round.entries → False := by
    intro hsame
    rw [hsame] at entry
    have hlt := (List.getElem?_eq_some_iff.mp entry).1
    omega
  cases h with
  | passed | unready | deferred | blocked | windowless => exact (hnone rfl).elim
  | granted =>
    obtain ⟨-, rfl⟩ := eq_of_getElem?_append_singleton entry new
    cases kind
  | displaced eligible _ _ _ _ chosen after entered registered none =>
    subst entered after
    obtain ⟨hn, rfl⟩ := eq_of_getElem?_append_singleton entry new
    refine ⟨hn, _, _, eligible, chosen, rfl, .inl ⟨fun hroom => ?_, rfl⟩⟩
    obtain ⟨quantum, hlegal⟩ := (hasRoom_iff eligible.timely registered).mp hroom
    rw [hlegal] at none
    cases none
  | replaced eligible _ _ _ _ chosen after entered registered legal =>
    subst entered after
    have hroom := (hasRoom_iff eligible.timely registered).mpr ⟨_, legal⟩
    rcases eq_of_getElem?_append_pair entry new with ⟨hn, rfl⟩ | rfl
    · exact ⟨hn, _, _, eligible, chosen, rfl, .inr ⟨hroom, _, List.append_assoc _ _ _, rfl, rfl, rfl⟩⟩
    · cases kind

theorem Decides.grants (keyed : Keyed i) (h : Decides now limit c i round i' round') :
    ∃ added, round'.entries = round.entries ++ added ∧
      ∀ e ∈ added, e.kind = .run → e.flow = c.flow := by
  cases h with
  | passed | unready | deferred | blocked | windowless =>
    exact ⟨[], (List.append_nil _).symm, by simp⟩
  | granted eligible =>
    refine ⟨_, rfl, fun e he _ => ?_⟩
    rw [List.mem_singleton.mp he]
    exact keyed.key _ _ eligible.found
  | displaced _ _ _ _ _ _ _ entered =>
    subst entered
    refine ⟨_, rfl, fun e he kind => ?_⟩
    rw [List.mem_singleton.mp he] at kind
    cases kind
  | replaced eligible _ _ _ _ _ _ entered =>
    subst entered
    refine ⟨[_, _], List.append_assoc _ _ _, fun e he kind => ?_⟩
    rcases List.mem_pair.mp he with rfl | rfl
    · cases kind
    · exact keyed.key _ _ eligible.found

/-- The entries of a round are only added to, and every window is that of a candidate. -/
theorem DecidesAll.enters (h : DecidesAll now limit cs s round t round') :
    ∃ added, round'.entries = round.entries ++ added ∧
      ∀ e ∈ added, e.kind = .run → e.flow ∈ cs.map Candidate.flow := by
  induction h with
  | nil => exact ⟨[], (List.append_nil _).symm, by simp⟩
  | cons sound step _ _ ih =>
    obtain ⟨later, hlater, hruns⟩ := ih
    obtain ⟨added, hadded, hrun⟩ := step.grants sound.keyed
    refine ⟨added ++ later, by rw [hlater, hadded, List.append_assoc], fun e he kind => ?_⟩
    rcases List.mem_append.mp he with he | he
    · rw [hrun e he kind]
      exact List.mem_cons_self
    · exact List.mem_cons_of_mem _ (hruns e he kind)

theorem considerCandidates_entry
    (h : exec (considerCandidates now limit cs round) s = (.ok round', t))
    (entry : round'.entries[n]? = some e) (new : round.entries.length ≤ n) :
    ∃ before c after u round₁ u' round₂, cs = before ++ c :: after ∧
      exec (considerCandidates now limit before round) s = (.ok round₁, u) ∧
      exec (considerCandidate now limit round₁ c) u = (.ok round₂, u') ∧
      exec (considerCandidates now limit after round₂) u' = (.ok round', t) ∧
      round₁.entries.length ≤ n ∧ n < round₂.entries.length := by
  induction cs generalizing s round with
  | nil =>
    cases h
    have hlt := (List.getElem?_eq_some_iff.mp entry).1
    omega
  | cons c cs ih =>
    obtain ⟨round₁, u, hstep, hrest⟩ := exec_bind_ok.mp h
    by_cases hn : n < round₁.entries.length
    · exact ⟨[], c, cs, s, round, u, round₁, rfl, rfl, hstep, hrest, new, hn⟩
    · obtain ⟨before, c', after, u', round₂, u'', round₃, rfl, hbefore, hat⟩ :=
        ih hrest (Nat.not_lt.mp hn)
      refine ⟨c :: before, c', after, u', round₂, u'', round₃, rfl, ?_, hat⟩
      exact exec_bind_ok.mpr ⟨round₁, u, hstep, hbefore⟩

theorem arbitrate_entries {o : ArbitrationOutcome} (h : exec (arbitrate now) s = (.ok o, t)) :
    ∃ round u, exec (decideGrants now) s = (.ok round, u) ∧ o.schedule.entries = round.entries := by
  obtain ⟨round, u, hdecide, hconclude⟩ := arbitrate_ok h
  refine ⟨round, u, hdecide, ?_⟩
  by_cases hempty : round.entries = []
  · unfold concludeRound at hconclude
    rw [if_pos hempty] at hconclude
    cases hconclude
    exact hempty.symm
  · rw [(concludeRound_ok hempty hconclude).1]
    rfl

/-- Every displacement of a schedule is followed by the window of the displacer exactly if one was
left for it when it was considered. -/
theorem displacer_runs_next (s t : Scheduler) (now : Ticks) (o : ArbitrationOutcome) (n : ℕ)
    (e : ScheduleEntry) (reachable : Reachable s) (anchored : s.impl.ledger.Anchored)
    (arbitrated : exec (arbitrate now) s = (.ok o, t))
    (entry : o.schedule.entries[n]? = some e) (kind : e.kind = .preempt) :
    ∃ c u round u' round' r, Considered now s c u round u' round' ∧
      round.entries = o.schedule.entries.take n ∧ u.impl.flows[c.flow]? = some r ∧
      e.detail = boundedDetail (ascii ("displaced by " ++ c.flow.toText)) ∧
      ((∃ run, o.schedule.entries[n + 1]? = some run ∧ run.kind = .run ∧ run.flow = c.flow ∧
        run.resource = e.resource) ↔ u.impl.HasRoom round r now) := by
  obtain ⟨final, t', hdecide, hentries⟩ := arbitrate_entries arbitrated
  rw [hentries] at entry ⊢
  rw [decideGrants_eq] at hdecide
  obtain ⟨p, u₀, hopen, hdecide⟩ := exec_bind_ok.mp hdecide
  rw [exec_readImpl_bind] at hdecide
  obtain ⟨hmakes, hopened, -⟩ := openRound_ok reachable.sound hopen
  obtain ⟨before, c, after, u, round, u', round', hp, hbefore, hstep, hafter, hlow, hhigh⟩ :=
    considerCandidates_entry hdecide entry (Nat.zero_le _)
  have hbounded : u₀.impl.entryLimit ≤ kEntryBound := min_le_right _ _
  have hsound₀ : Sound u₀.impl := hmakes.round.sound reachable.sound
  have hall := considerCandidates_ok hbounded hsound₀ hopened.clock hbefore
  have hsound : Sound u.impl := hall.makes.round.sound hsound₀
  have hclock : u.impl.lastTick = now := hall.makes.round.clock hopened.clock
  have hmakes' := considerCandidate_makes hbounded hsound hclock hstep
  have hrest := considerCandidates_ok hbounded (hmakes'.round.sound hsound)
    (hmakes'.round.clock hclock) hafter
  have hdecides := considerCandidate_ok hsound hstep
  obtain ⟨later, hlater, hruns⟩ := hrest.enters
  rw [hlater, List.getElem?_append_left hhigh] at entry
  obtain ⟨hn, flow, victim, heligible, hchosen, rfl, hroom⟩ := hdecides.preempting entry hlow kind
  have hserves := rolled_serves hsound.keyed (hall.makes.anchored (hmakes.anchored anchored)) hchosen
  obtain ⟨added, hadded, -⟩ := hdecides.grants hsound.keyed
  have hflow : flow.descriptor.flow = c.flow := hsound.keyed.key _ _ heligible.found
  refine ⟨c, u, round, u', round', flow, ⟨p, u₀, before, after, hopen, hp, hbefore, hstep⟩, ?_,
    heligible.found, by rw [← hflow]; rfl, ?_⟩
  · rw [hlater, hadded, List.append_assoc, hn, List.take_left]
  · rw [hlater, hn]
    rcases hroom with ⟨hnone, hentries'⟩ | ⟨hroom, run, hentries', hkind, hrun, hresource⟩
    · -- nobody else may run for the displacer
      refine ⟨?_, fun hroom => absurd hroom hnone⟩
      rintro ⟨run, hnext, hkind, hrun, -⟩
      rw [hentries', List.getElem?_append_right (by simp)] at hnext
      have hmem := hruns run (List.mem_of_getElem? hnext) hkind
      rw [hrun] at hmem
      have hnodup := hopened.nodup
      rw [hp, List.map_append, List.map_cons] at hnodup
      exact absurd hmem (List.nodup_cons.mp (List.nodup_append.mp hnodup).2.1).1
    · refine ⟨fun _ => hroom, fun _ => ⟨run, ?_, hkind, hrun.trans hflow, ?_⟩⟩
      · rw [hentries', List.append_assoc, List.getElem?_append_right (by simp)]
        simp
      · rw [hresource]
        exact hserves.slot.symm

end Positions

namespace Sample

set_option maxRecDepth 100000 in
theorem displacer_runs_next_arrival : ∃ s t o e, Reachable s ∧ s.impl.ledger.Anchored ∧
    exec (arbitrate 6) s = (.ok o, t) ∧ o.schedule.entries[0]? = some e ∧ e.kind = .preempt ∧
    ∃ c u round u' round' r, Considered 6 s c u round u' round' ∧
      u.impl.flows[c.flow]? = some r ∧
      ((∃ run, o.schedule.entries[1]? = some run ∧ run.kind = .run ∧ run.flow = c.flow ∧
        run.resource = e.resource) ↔ u.impl.HasRoom round r 6) := by
  obtain ⟨s, reachable, hanchored, o, ho, e, he, kind⟩ : ∃ s, Reachable s ∧
      s.impl.HoldsOwn ∧
      ∃ o ∈ (exec (arbitrate 6) s).1.toOption, ∃ e ∈ o.schedule.entries[0]?, e.kind = .preempt :=
    @exists_reachable (displacing .tiered 1000000) arrival _ (by decide +kernel)
  obtain ⟨c, u, round, u', round', r, considered, -, hr, -, hroom⟩ := displacer_runs_next s _ 6 o 0 e
    reachable hanchored.anchored (exec_eq_of_mem ho) he kind
  exact ⟨s, _, o, e, reachable, hanchored.anchored, exec_eq_of_mem ho, he, kind, c, u, round,
    u', round', r, considered, hr, hroom⟩

set_option maxRecDepth 100000 in
/-- The incumbent has used up what the resource gives in the interval. It is stopped, and the one
that stopped it finds nothing left. -/
theorem not_displacer_runs_next : ¬ ∀ (s t : Scheduler) (now : Ticks) (o : ArbitrationOutcome) (n : ℕ)
    (e : ScheduleEntry), Reachable s → exec (arbitrate now) s = (.ok o, t) →
    o.schedule.entries[n]? = some e → e.kind = .preempt →
    ∃ run, o.schedule.entries[n + 1]? = some run ∧ run.kind = .run ∧ run.resource = e.resource := by
  intro claim
  obtain ⟨s, reachable, o, ho, e, he, kind, hlast⟩ : ∃ s, Reachable s ∧
      ∃ o ∈ (exec (arbitrate 6) s).1.toOption, ∃ e ∈ o.schedule.entries[0]?, e.kind = .preempt ∧
        o.schedule.entries[1]? = none :=
    @exists_reachable (displacing .tiered 1000000)
      (.registerResource { resource with capacity := 5 } :: arrival.tail) _ (by decide +kernel)
  obtain ⟨run, hrun, -⟩ := claim s _ 6 o 0 e reachable (exec_eq_of_mem ho) he kind
  rw [hlast] at hrun
  cases hrun

end Sample

end FlowScheduler

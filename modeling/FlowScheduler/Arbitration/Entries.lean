import FlowScheduler.Arbitration.Incumbents
import FlowScheduler.Lifecycle.Final

/-! # The entries of a schedule

A round enters every flow at most once: whoever it grants a window was ready and
is granted no other, and whoever it stops held an attempt and holds none after.
The windows come in the order of the keys.
-/

namespace FlowScheduler

open ByteCodec (Bytes)
open Failing SchedOp Impl OrderedMap

/-- What every decision preserves while the attempts are filed for the flows that hold them, with the
candidates still to come. -/
theorem DecidesAll.scans {now : Ticks} {limit : ℕ} {cs : List Candidate} {s t : Scheduler}
    {round round' : Round} {P : List Candidate → Impl → Round → Prop}
    (keep : ∀ c rest i round i' round', Sound i → i.ledger.Anchored →
      Decides now limit c i round i' round' → P (c :: rest) i round → P rest i' round')
    (anchored : s.impl.ledger.Anchored) (h : DecidesAll now limit cs s round t round')
    (hs : P cs s.impl round) : P [] t.impl round' := by
  induction h with
  | nil => exact hs
  | cons sound step makes _ ih =>
    exact ih (makes.anchored anchored) (keep _ _ _ _ _ _ sound anchored step hs)

/-- The first entry is a window of a flow whose key precedes. -/
def Impl.KeyBefore (u : Impl) (now : Ticks) (e : ScheduleEntry) (key : OrderKey) : Prop :=
  ∀ r, u.flows[e.flow]? = some r → (u.computeKey r now).before key

/-- What holds of the entries made so far, with the keys of the round and the candidates still to
come. -/
structure Round.Listed (u : Impl) (now : Ticks) (rest : List Candidate) (i : Impl) (round : Round) :
    Prop where
  keys : SameKeys u i
  ranks : ∀ c ∈ rest, ∃ r, u.flows[c.flow]? = some r ∧ c.key = u.computeKey r now
  sorted : rest.Pairwise fun a b => a.key.before b.key
  flows : (rest.map Candidate.flow).Nodup
  ordinal : ∀ n (h : n < round.entries.length),
    (round.entries.get ⟨n, h⟩).ordinal = UInt32.ofNat n
  next : round.nextOrdinal = UInt32.ofNat round.entries.length
  size : round.entries.length ≤ kEntryBound + 1
  idle : ∀ e ∈ round.entries, ∀ k r, ¬ i.Incumbent k e.flow r
  runs : ∀ e ∈ round.entries, e.kind = .run → ∀ c ∈ rest, e.flow ≠ c.flow ∧ u.KeyBefore now e c.key
  known : ∀ e ∈ round.entries, e.kind = .run → ∃ r, u.flows[e.flow]? = some r
  stops : ∀ e ∈ round.entries, e.kind = .preempt → e.flow ∈ round.decided
  once : (round.entries.map ScheduleEntry.flow).Nodup
  order : (round.entries.filter (·.kind = .run)).Pairwise fun a b =>
    ∀ r, u.flows[b.flow]? = some r → u.KeyBefore now a (u.computeKey r now)

namespace Round.Listed

variable {u i i' : Impl} {now : Ticks} {c : Candidate} {rest : List Candidate} {round : Round}

theorem start {cs : List Candidate} {o : ArbitrationOutcome} (h : u.RanksAll now cs) :
    Round.Listed u now cs u { outcome := o } where
  keys := .refl u
  ranks c hc := by
    obtain ⟨r, hr, -, hkey⟩ := h.ranks c hc
    exact ⟨r, hr, hkey⟩
  sorted := h.ordered
  flows := h.nodup
  ordinal := by simp
  next := rfl
  size := by simp
  idle := by simp
  runs := by simp
  known := by simp
  stops := by simp
  once := by simp
  order := by simp

theorem skip (h : Round.Listed u now (c :: rest) i round) : Round.Listed u now rest i round :=
  { h with
    ranks := fun a ha => h.ranks a (List.mem_cons_of_mem _ ha)
    sorted := (List.pairwise_cons.mp h.sorted).2
    flows := (List.nodup_cons.mp h.flows).2
    runs := fun e he kind a ha => h.runs e he kind a (List.mem_cons_of_mem _ ha) }

theorem outcome {o : ArbitrationOutcome} (h : Round.Listed u now rest i round) :
    Round.Listed u now rest i { round with outcome := o } := { h with }

theorem frame (h : Round.Listed u now rest i round) (keys : SameKeys i i')
    (idle : ∀ k id r, i'.Incumbent k id r → i.Incumbent k id r) :
    Round.Listed u now rest i' round :=
  { h with
    keys := h.keys.trans keys
    idle := fun e he k r hr => h.idle e he k r (idle k _ r hr) }

/-- An incumbent is stopped: it was in no entry before. -/
theorem displace {e : ScheduleEntry} {victim : FlowDescriptor} {k : ResourceId} {r : FlowRuntime}
    (h : Round.Listed u now rest i round) (within : round.entries.length ≤ kEntryBound)
    (kind : e.kind = .preempt) (ordinal : e.ordinal = round.nextOrdinal)
    (incumbent : i.Incumbent k e.flow r) (keys : SameKeys i i')
    (stopped : ∀ k id r, i'.Incumbent k id r → i.Incumbent k id r ∧ id ≠ e.flow) :
    Round.Listed u now rest i' (round.displace e victim) where
  keys := h.keys.trans keys
  ranks := h.ranks
  sorted := h.sorted
  flows := h.flows
  ordinal := Round.Granted.ordinal_append h.ordinal (ordinal.trans h.next)
  next := Round.Granted.next_append h.next
  size := by
    simp only [Round.displace, Round.defer, List.length_append, List.length_singleton]
    omega
  idle a ha k r hr := by
    obtain ⟨hr, hne⟩ := stopped k _ r hr
    rcases List.mem_append.mp ha with ha | ha
    · exact h.idle a ha k r hr
    · exact hne (by rw [List.mem_singleton.mp ha])
  runs a ha hkind := by
    rcases List.mem_append.mp ha with ha | ha
    · exact h.runs a ha hkind
    · rw [List.mem_singleton.mp ha, kind] at hkind
      cases hkind
  known a ha hkind := by
    rcases List.mem_append.mp ha with ha | ha
    · exact h.known a ha hkind
    · rw [List.mem_singleton.mp ha, kind] at hkind
      cases hkind
  stops a ha hkind := by
    show a.flow ∈ round.decided.insert e.flow
    rw [Std.ExtTreeSet.mem_insert]
    rcases List.mem_append.mp ha with ha | ha
    · exact .inr (h.stops a ha hkind)
    · rw [List.mem_singleton.mp ha]
      exact .inl Std.ReflCmp.compare_self
  once := by
    show ((round.entries ++ [e]).map ScheduleEntry.flow).Nodup
    rw [List.map_append, List.nodup_append]
    refine ⟨h.once, by simp, ?_⟩
    rintro a ha b hb rfl
    obtain ⟨x, hx, hflow⟩ := List.mem_map.mp ha
    rw [List.map_singleton, List.mem_singleton] at hb
    rw [hb] at hflow
    exact h.idle x hx k r (hflow ▸ incumbent)
  order := by
    show ((round.entries ++ [e]).filter (·.kind = .run)).Pairwise _
    rw [List.filter_append, List.filter_singleton, kind]
    simpa using h.order

/-- A candidate is granted a window: it comes after all that were granted one. -/
theorem grant {e : ScheduleEntry} {r : FlowRuntime} (h : Round.Listed u now (c :: rest) i round)
    (within : round.entries.length ≤ kEntryBound) (kind : e.kind = .run)
    (ordinal : e.ordinal = round.nextOrdinal) (flow : e.flow = c.flow)
    (found : i.flows[c.flow]? = some r) (ready : r.lifecycle = .ready)
    (free : c.flow ∉ round.decided) : Round.Listed u now rest i (round.grant e) where
  keys := h.keys
  ranks := h.skip.ranks
  sorted := h.skip.sorted
  flows := h.skip.flows
  ordinal := Round.Granted.ordinal_append h.ordinal (ordinal.trans h.next)
  next := Round.Granted.next_append h.next
  size := by
    simp only [Round.grant, List.length_append, List.length_singleton]
    omega
  idle a ha k x hx := by
    rcases List.mem_append.mp ha with ha | ha
    · exact h.idle a ha k x hx
    · rw [List.mem_singleton.mp ha, flow] at hx
      obtain rfl := Option.some.inj (found.symm.trans hx.found)
      have hbusy := hx.busy
      rw [ready] at hbusy
      cases hbusy
  runs a ha hkind b hb := by
    rcases List.mem_append.mp ha with ha | ha
    · exact h.skip.runs a ha hkind b hb
    · rw [List.mem_singleton.mp ha]
      obtain ⟨hfirst, -⟩ := List.pairwise_cons.mp h.sorted
      obtain ⟨hfresh, -⟩ := List.nodup_cons.mp h.flows
      constructor
      · intro hflow
        exact hfresh (flow ▸ hflow ▸ List.mem_map_of_mem hb)
      · intro r hr
        obtain ⟨r', hr', hkey⟩ := h.ranks c List.mem_cons_self
        rw [flow] at hr
        obtain rfl := Option.some.inj (hr'.symm.trans hr)
        rw [← hkey]
        exact hfirst b hb
  known a ha hkind := by
    rcases List.mem_append.mp ha with ha | ha
    · exact h.known a ha hkind
    · obtain ⟨r', hr', -⟩ := h.ranks c List.mem_cons_self
      rw [List.mem_singleton.mp ha, flow]
      exact ⟨r', hr'⟩
  stops a ha hkind := by
    rcases List.mem_append.mp ha with ha | ha
    · exact h.stops a ha hkind
    · rw [List.mem_singleton.mp ha, kind] at hkind
      cases hkind
  once := by
    show ((round.entries ++ [e]).map ScheduleEntry.flow).Nodup
    rw [List.map_append, List.nodup_append]
    refine ⟨h.once, by simp, ?_⟩
    rintro a ha b hb rfl
    obtain ⟨x, hx, hflow⟩ := List.mem_map.mp ha
    rw [List.map_singleton, List.mem_singleton] at hb
    rw [hb, flow] at hflow
    -- a flow that was stopped is decided, and one with a window is no candidate any more
    cases hkind : x.kind with
    | run => exact (h.runs x hx hkind c List.mem_cons_self).1 hflow
    | preempt => exact free (hflow ▸ h.stops x hx hkind)
  order := by
    show ((round.entries ++ [e]).filter (·.kind = .run)).Pairwise _
    rw [List.filter_append, List.pairwise_append]
    refine ⟨h.order, by simp [kind], ?_⟩
    intro a ha b hb r hr
    obtain ⟨ha, hkind⟩ := List.mem_filter.mp ha
    have hb : b = e := List.mem_singleton.mp (List.mem_filter.mp hb).1
    obtain ⟨r', hr', hkey⟩ := h.ranks c List.mem_cons_self
    rw [hb, flow] at hr
    obtain rfl := Option.some.inj (hr'.symm.trans hr)
    rw [← hkey]
    exact (h.runs a ha (by simpa using hkind) c List.mem_cons_self).2

end Round.Listed

section Schedules

variable {u i i' : Impl} {now : Ticks} {limit : ℕ} {c : Candidate} {rest : List Candidate}
  {round round' : Round}

theorem Decides.listed (bounded : limit ≤ kEntryBound) (sound : Sound i)
    (anchored : i.ledger.Anchored) (h : Decides now limit c i round i' round')
    (listed : Round.Listed u now (c :: rest) i round) : Round.Listed u now rest i' round' := by
  have hkeys := h.sameKeys
  have hidle : ∀ k id r, i'.Incumbent k id r → i.Incumbent k id r :=
    fun _ _ _ => h.incumbent_of sound.keyed anchored
  have hstopped : ∀ {flow victim}, Eligible i now c flow →
      (i.rolled flow.descriptor now).chooseVictim c flow.descriptor now = .ok victim →
      round.entries.length < limit →
      i' = (i.rolled flow.descriptor now).displace victim flow.descriptor.resource.id now →
      Round.Listed u now (c :: rest) i' (round.displace
        (preemptEntry victim round.nextOrdinal c flow.descriptor now) victim.flow.descriptor) ∧
      i'.flows[c.flow]? = some flow ∧ c.flow ≠ victim.record.ticket.flow := by
    intro flow victim eligible chosen within after
    have hserves := rolled_serves sound.keyed anchored chosen
    obtain ⟨hfound, hbusy, hholds, hresource⟩ := hserves.incumbent
    have hne : c.flow ≠ victim.record.ticket.flow := by
      intro hsame
      rw [← hsame] at hfound
      obtain rfl := Option.some.inj (eligible.found.symm.trans hfound)
      rw [eligible.ready] at hbusy
      cases hbusy
    refine ⟨?_, ?_, hne⟩
    · refine listed.displace (e := preemptEntry victim round.nextOrdinal c flow.descriptor now)
        (within.le.trans bounded) rfl rfl ⟨hfound, hbusy, hholds, hresource⟩ hkeys ?_
      intro k id r hr
      rw [after] at hr
      exact ⟨hidle k id r (after ▸ hr), (hserves.incumbent_iff.mp hr).2⟩
    · rw [after, hserves.flows_of_ne _ _ hne]
      exact eligible.found
  cases h with
  | passed | unready | deferred | blocked | windowless => exact (listed.skip.frame hkeys hidle).outcome
  | granted eligible free within =>
    exact (listed.frame hkeys hidle).grant (within.le.trans bounded) rfl rfl
      (sound.keyed.key _ _ eligible.found) eligible.found eligible.ready free
  | displaced eligible _ within _ _ chosen after entered =>
    subst entered
    exact (hstopped eligible chosen within after).1.skip.outcome
  | replaced eligible free within _ _ chosen after entered =>
    subst entered
    obtain ⟨hlisted, hfound, hne⟩ := hstopped eligible chosen within after
    refine hlisted.grant ?_ rfl rfl (sound.keyed.key _ _ eligible.found) hfound eligible.ready ?_
    · simp only [Round.displace, Round.defer, List.length_append, List.length_singleton]
      omega
    · rintro hdecided
      rcases Std.ExtTreeSet.mem_insert.mp hdecided with hsame | hdecided
      · exact hne (Std.LawfulEqCmp.eq_of_compare hsame).symm
      · exact free hdecided

/-- Where every open attempt is filed for the flow that holds it, the entries of a schedule are
numbered by position, name no flow twice and give windows in the order of the keys. -/
theorem entries_distinct_in_order (s : Scheduler) (now : Ticks) (schedule : Schedule)
    (reachable : Reachable s) (anchored : s.impl.ledger.Anchored)
    (issued : .scheduleIssued schedule ∈
      (s.call (.arbitrate now)).2.accepted.drop s.accepted.length) :
    (∀ (n : ℕ) (e : ScheduleEntry), schedule.entries[n]? = some e → e.ordinal.toNat = n) ∧
      (schedule.entries.map ScheduleEntry.flow).Nodup ∧
      ∃ p u, exec (openRound now) s = (.ok p, u) ∧
        (schedule.entries.filter (·.kind = .run)).Pairwise fun a b => ∃ ra rb,
          u.impl.flows[a.flow]? = some ra ∧ u.impl.flows[b.flow]? = some rb ∧
          (u.impl.computeKey ra now).before (u.impl.computeKey rb now) := by
  obtain ⟨round, t, hdecide, hentries⟩ := issued_by_round reachable.sound issued
  obtain ⟨p, u, hopen, hall⟩ := decideGrants_ok reachable.sound hdecide
  obtain ⟨hmakes, -, hranks⟩ := openRound_ok reachable.sound hopen
  have hbounded : u.impl.entryLimit ≤ kEntryBound := min_le_right _ _
  have hlisted : Round.Listed u.impl now [] t.impl round :=
    hall.scans (P := Round.Listed u.impl now)
      (fun _ _ _ _ _ _ sound anchored step listed => step.listed hbounded sound anchored listed)
      (hmakes.anchored anchored) (.start hranks)
  rw [hentries]
  refine ⟨fun n e he => ?_, hlisted.once, p, u, hopen, ?_⟩
  · obtain ⟨hn, he⟩ := List.getElem?_eq_some_iff.mp he
    have hsize := hlisted.size
    have hordinal := hlisted.ordinal n hn
    rw [List.get_eq_getElem, he] at hordinal
    rw [hordinal, UInt32.toNat_ofNat_of_lt']
    have hbound : kEntryBound + 1 < 2 ^ 32 := by decide
    exact (hn.trans_le hsize).trans hbound
  · refine hlisted.order.imp_of_mem fun {a b} ha hb h => ?_
    obtain ⟨ha, hkind⟩ := List.mem_filter.mp ha
    obtain ⟨hb, hkind'⟩ := List.mem_filter.mp hb
    obtain ⟨ra, hra⟩ := hlisted.known a ha (by simpa using hkind)
    obtain ⟨rb, hrb⟩ := hlisted.known b hb (by simpa using hkind')
    exact ⟨ra, rb, hra, hrb, h rb hrb ra hra⟩

end Schedules

/-- Every attempt a flow holds is open and filed for that flow, checked one by one. -/
def Impl.HoldsOwn (i : Impl) : Prop := ∀ p ∈ i.flows.toList, p.2.openAttempt.valid →
  ∀ x ∈ i.attempts[p.2.openAttempt]?, ¬ x.state.isTerminal ∧ x.ticket.flow = p.1 ∧
    x.ticket.resource = p.2.descriptor.resource.id

instance {i : Impl} : Decidable i.HoldsOwn := by
  unfold Impl.HoldsOwn
  infer_instance

theorem Impl.HoldsOwn.anchored {i : Impl} (h : i.HoldsOwn) : i.ledger.Anchored := by
  intro id f x hf hvalid hx
  obtain ⟨r, hr, rfl⟩ := Option.map_eq_some_iff.mp hf
  obtain ⟨y, hy, rfl⟩ := Option.map_eq_some_iff.mp hx
  exact h (id, r) (Std.ExtTreeMap.mem_toList_iff_getElem?_eq_some.mpr hr) hvalid y hy

theorem exists_reachable_in {options : SchedulerOptions} {files : Directory} {cs : List Call}
    {P : Scheduler → Prop} (h : ∃ s ∈ (create options files).toOption, P (s.calls cs)) :
    ∃ s, Reachable s ∧ P s := by
  obtain ⟨s, hs, hP⟩ := h
  cases hcreate : create options files with
  | error e =>
    rw [hcreate] at hs
    cases hs
  | ok s₀ =>
    rw [hcreate] at hs
    cases hs
    exact ⟨_, ReachableBy.calls (ReachableBy.opened hcreate) cs, hP⟩

namespace Sample

set_option maxRecDepth 100000 in
theorem entries_distinct_in_order_arrival : ∃ s schedule, Reachable s ∧
    .scheduleIssued schedule ∈ (s.call (.arbitrate 6)).2.accepted.drop s.accepted.length ∧
    schedule.entries.length = 2 ∧ (schedule.entries.map ScheduleEntry.flow).Nodup := by
  obtain ⟨s, reachable, hanchored, schedule, hissued, htwo⟩ : ∃ s, Reachable s ∧
      s.impl.HoldsOwn ∧
      ∃ schedule ∈ issues s 6, schedule.entries.length = 2 :=
    @exists_reachable (displacing .tiered 1000000) arrival _ (by decide +kernel)
  exact ⟨s, schedule, reachable, mem_issues.mp hissued, htwo, (entries_distinct_in_order s 6 schedule
    reachable hanchored.anchored (mem_issues.mp hissued)).2.1⟩

/-- Two flows on two resources are dispatched under the last identity, and two urgent flows ask for
the resource of the first. -/
def contested : List Call :=
  (sharedAttempt.filter fun
    | .cancelFlow .. => false
    | _ => true) ++ [.admitFlow { flow 4 with priority := ⟨⟨2⟩, ⟨1⟩⟩ }]

set_option maxRecDepth 100000 in
/-- The attempt of the first flow names the second, which is stopped twice. -/
theorem not_entries_distinct_in_order : ¬ ∀ (s : Scheduler) (now : Ticks) (schedule : Schedule),
    Reachable s → .scheduleIssued schedule ∈
      (s.call (.arbitrate now)).2.accepted.drop s.accepted.length →
    (schedule.entries.map ScheduleEntry.flow).Nodup := by
  intro claim
  obtain ⟨s, reachable, schedule, hissued, htwice⟩ : ∃ s, Reachable s ∧
      ∃ schedule ∈ issues s 8, ¬ (schedule.entries.map ScheduleEntry.flow).Nodup :=
    @exists_reachable_in durable (lastAttempt ranked) contested _ (by decide +kernel)
  exact htwice (claim s 8 schedule reachable (mem_issues.mp hissued))

end Sample

end FlowScheduler

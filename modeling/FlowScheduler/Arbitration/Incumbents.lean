import FlowScheduler.Arbitration.Displacement

/-! # The incumbents of a resource

A displacement looks for the worst of the flows in flight on a resource and
closes the attempt that flow holds. As long as every attempt is filed for the
flow that holds it, this stops one incumbent and leaves the others in place.
-/

namespace FlowScheduler

open ByteCodec (Bytes)
open Failing SchedOp Impl OrderedMap

/-- Every attempt a flow holds, if it is still filed, is open and filed for this flow on the
resource of the flow. -/
def Ledger.Anchored (l : Ledger) : Prop :=
  ∀ id f x, l.flows id = some f → f.openAttempt.valid → l.attempts f.openAttempt = some x →
    ¬ x.state.isTerminal ∧ x.ticket.flow = id ∧ x.ticket.resource = f.descriptor.resource.id

namespace Ledger.Anchored

variable {l l' : Ledger}

theorem mono (h : l.Anchored)
    (flows : ∀ id f', l'.flows id = some f' → f'.openAttempt.valid → ∃ f, l.flows id = some f ∧
      f.openAttempt = f'.openAttempt ∧ f.descriptor = f'.descriptor)
    (attempts : ∀ id f' x, l'.flows id = some f' → f'.openAttempt.valid →
      l'.attempts f'.openAttempt = some x → l.attempts f'.openAttempt = some x) : l'.Anchored := by
  intro id f' x hf' hvalid hx
  obtain ⟨f, hf, hopen, hdescriptor⟩ := flows id f' hf' hvalid
  rw [← hdescriptor]
  refine h id f x hf (hopen ▸ hvalid) ?_
  rw [hopen]
  exact attempts id f' x hf' hvalid hx

theorem closeAttempt (h : l.Anchored) (attempt : DispatchAttemptId) (state : AttemptState) :
    (l.closeAttempt attempt state).Anchored := by
  unfold Ledger.closeAttempt
  split
  · exact h
  · rename_i record hrecord
    split
    · exact h
    · dsimp only
      -- whoever holds the attempt is the flow it is filed for
      have hother : ∀ id f, l.flows id = some f → f.openAttempt.valid →
          id ≠ record.ticket.flow → f.openAttempt ≠ attempt := by
        rintro id f hf hvalid hne rfl
        exact hne (h id f record hf hvalid hrecord).2.1.symm
      split
      · rename_i hnone
        refine h.mono (fun id f hf _ => ⟨f, hf, rfl, rfl⟩) fun id f x hf hvalid hx => ?_
        dsimp only at hf hx
        rwa [Function.update_of_ne (hother id f hf hvalid fun hid => by simp_all)] at hx
      · rename_i owner howner
        split
        · rename_i hfree
          refine h.mono (fun id f hf _ => ⟨f, hf, rfl, rfl⟩) fun id f x hf hvalid hx => ?_
          dsimp only at hf hx
          have hne : f.openAttempt ≠ attempt := by
            by_cases hid : id = record.ticket.flow
            · subst hid
              rw [← Option.some.inj (howner.symm.trans hf)]
              exact hfree
            · exact hother id f hf hvalid hid
          rwa [Function.update_of_ne hne] at hx
        · have hothers : ∀ filed : DispatchAttemptId → Option LedgerAttempt, ∀ id f',
              (({ l with attempts := filed } : Ledger).modifyFlow record.ticket.flow fun r =>
                { r with openAttempt := {}, phase := closedPhase r.phase state }).flows id = some f' →
              f'.openAttempt.valid → id ≠ record.ticket.flow ∧ l.flows id = some f' := by
            intro filed id f' hf' hvalid
            rw [flows_modifyFlow] at hf'
            split at hf'
            · obtain ⟨f, -, rfl⟩ := Option.map_eq_some_iff.mp hf'
              cases hvalid
            · rename_i hne
              exact ⟨hne, hf'⟩
          refine h.mono (fun id f' hf' hvalid => ⟨f', (hothers _ id f' hf' hvalid).2, rfl, rfl⟩) ?_
          intro id f' x hf' hvalid hx
          obtain ⟨hne, hf⟩ := hothers _ id f' hf' hvalid
          have hattempt := hother id f' hf hvalid hne
          simp only [Ledger.modifyFlow] at hx
          rwa [Function.update_of_ne hattempt] at hx

theorem quiet (h : l.Anchored) (quiet : l.Quiet l') : l'.Anchored := by
  refine h.mono (fun id f' hf' _ => ?_) fun _ _ _ _ _ hx => quiet.attempts hx
  cases quiet with
  | same | forget => exact ⟨f', hf', rfl, rfl⟩
  | fail =>
    rw [Ledger.setPhase, flows_modifyFlow] at hf'
    split at hf'
    · obtain ⟨f, hf, rfl⟩ := Option.map_eq_some_iff.mp hf'
      exact ⟨f, hf, rfl, rfl⟩
    · exact ⟨f', hf', rfl, rfl⟩

end Ledger.Anchored

section Rounds

variable {s t : Scheduler} {now : Ticks}

theorem DecideMove.anchored {i i' : Impl} {r : Option Record} (move : DecideMove now i r i')
    (h : i.ledger.Anchored) : i'.ledger.Anchored := by
  obtain ⟨move, none⟩ := move
  cases r with
  | none => exact h.quiet move.quiet
  | some record =>
    rw [move.ledger]
    cases move with
    | common move =>
      cases move with
      | close => exact h.closeAttempt _ _
      | release => exact h
    | issue => exact (none _ rfl).elim

theorem Makes.anchored (h : Makes (DecideMove now) s t) (hs : s.impl.ledger.Anchored) :
    t.impl.ledger.Anchored := by
  obtain ⟨rs, h⟩ := h
  exact h.preserves (fun _ _ _ move hi => DecideMove.anchored move hi) hs

end Rounds

section Incumbency

variable {s : Impl} {now : Ticks} {resource : ResourceId} {attempt : DispatchAttemptId}

/-- The flow holds an attempt in flight on the resource. -/
structure Impl.Incumbent (s : Impl) (resource : ResourceId) (id : FlowId) (r : FlowRuntime) :
    Prop where
  found : s.flows[id]? = some r
  busy : r.lifecycle.slot = .inflight
  holds : r.openAttempt.valid
  serves : r.descriptor.resource.id = resource

theorem Keyed.mem_inflight (keyed : Keyed s) {id : FlowId} : id ∈ s.indexes.inflight ↔
    ∃ r, s.flows[id]? = some r ∧ r.lifecycle.slot = .inflight :=
  keyed.index id .inflight (by decide)

/-- The key kept is that of an incumbent, and no incumbent seen so far comes after it. -/
structure Impl.Worst (s : Impl) (resource : ResourceId) (now : Ticks) (seen : List FlowId)
    (worst : Option (OrderKey × DispatchAttemptId)) : Prop where
  held : ∀ w ∈ worst, ∃ id r, s.Incumbent resource id r ∧ r.openAttempt = w.2 ∧
    s.computeKey r now = w.1
  last : ∀ id ∈ seen, ∀ r, s.Incumbent resource id r →
    ∃ w ∈ worst, ¬ w.1.before (s.computeKey r now)

namespace Impl.Worst

variable {seen : List FlowId} {worst : Option (OrderKey × DispatchAttemptId)} {id : FlowId}
  {r : FlowRuntime}

theorem snoc (h : s.Worst resource now seen worst)
    (next : ∀ r, s.Incumbent resource id r → ∃ w ∈ worst, ¬ w.1.before (s.computeKey r now)) :
    s.Worst resource now (seen ++ [id]) worst := by
  refine ⟨h.held, fun a ha r hr => ?_⟩
  rcases List.mem_append.mp ha with ha | ha
  · exact h.last a ha r hr
  · rw [List.mem_singleton.mp ha] at hr
    exact next r hr

theorem replace (h : s.Worst resource now seen worst) (incumbent : s.Incumbent resource id r)
    (better : ∀ w ∈ worst, w.1.before (s.computeKey r now)) :
    s.Worst resource now (seen ++ [id]) (some (s.computeKey r now, r.openAttempt)) := by
  constructor
  · rintro w ⟨⟩
    exact ⟨id, r, incumbent, rfl, rfl⟩
  · intro a ha r' hr'
    refine ⟨_, rfl, fun hbefore => ?_⟩
    rcases List.mem_append.mp ha with ha | ha
    · obtain ⟨w, hw, hnot⟩ := h.last a ha r' hr'
      exact hnot (OrderKey.before_trans (better w hw) hbefore)
    · rw [List.mem_singleton.mp ha] at hr'
      obtain rfl := Option.some.inj (incumbent.found.symm.trans hr'.found)
      exact OrderKey.not_before_self hbefore

theorem step (keyed : Keyed s) (listed : id ∈ s.indexes.inflight) :
    s.Worst resource now seen worst → s.Worst resource now (seen ++ [id]) (match s.flows[id]? with
      | none => worst
      | some r =>
        if ¬ r.openAttempt.valid ∨ r.descriptor.resource.id ≠ resource then worst
        else
          let key := s.computeKey r now
          match worst with
          | none => some (key, r.openAttempt)
          | some w => if w.1.before key then some (key, r.openAttempt) else worst) := by
  intro h
  split
  · rename_i hnone
    refine h.snoc fun r hr => ?_
    rw [hr.found] at hnone
    cases hnone
  · rename_i r hr
    split
    · rename_i hother
      refine h.snoc fun r' hr' => ?_
      obtain rfl := Option.some.inj (hr.symm.trans hr'.found)
      rcases hother with hfree | helsewhere
      · exact absurd hr'.holds hfree
      · exact absurd hr'.serves helsewhere
    · rename_i hserves
      obtain ⟨hvalid, hresource⟩ := not_or.mp hserves
      obtain ⟨r', hr', hbusy⟩ := keyed.mem_inflight.mp listed
      obtain rfl := Option.some.inj (hr.symm.trans hr')
      have hincumbent : s.Incumbent resource id r :=
        ⟨hr, hbusy, not_not.mp hvalid, not_not.mp hresource⟩
      dsimp only
      split
      · exact h.replace hincumbent (by simp)
      · rename_i w
        split
        · rename_i hbefore
          refine h.replace hincumbent ?_
          rintro w' ⟨⟩
          exact hbefore
        · rename_i hbefore
          refine h.snoc fun r' hr' => ?_
          obtain rfl := Option.some.inj (hr.symm.trans hr'.found)
          exact ⟨w, rfl, hbefore⟩

end Impl.Worst

/-- The scan ends with the key and the attempt of an incumbent that precedes no other one, or there
is no incumbent at all. -/
theorem worstIncumbent_scan (keyed : Keyed s) (resource : ResourceId) (now : Ticks) :
    ∃ worst : Option (OrderKey × DispatchAttemptId),
    s.worstIncumbent resource now = worst.map Prod.snd ∧
    (∀ w ∈ worst, ∃ id r, s.Incumbent resource id r ∧ r.openAttempt = w.2 ∧
      s.computeKey r now = w.1) ∧
    ∀ id r, s.Incumbent resource id r → ∃ w ∈ worst, ¬ w.1.before (s.computeKey r now) := by
  have hfold : ∀ step : Option (OrderKey × DispatchAttemptId) → FlowId → _,
      (∀ seen worst id, id ∈ s.indexes.inflight → s.Worst resource now seen worst →
        s.Worst resource now (seen ++ [id]) (step worst id)) →
      ∀ ids seen worst, (∀ id ∈ ids, id ∈ s.indexes.inflight) → s.Worst resource now seen worst →
        s.Worst resource now (seen ++ ids) (ids.foldl step worst) := by
    intro step hstep ids
    induction ids with
    | nil =>
      intro seen worst _ hworst
      rwa [List.append_nil]
    | cons id ids ih =>
      intro seen worst hlisted hworst
      rw [List.foldl_cons, ← List.singleton_append, ← List.append_assoc]
      exact ih _ _ (fun a ha => hlisted a (List.mem_cons_of_mem _ ha))
        (hstep _ _ _ (hlisted id List.mem_cons_self) hworst)
  have hscan := hfold _ (fun seen worst id hid => .step keyed hid)
    s.indexes.inflight.toList [] none (fun id hid => Std.ExtTreeSet.mem_toList.mp hid)
    ⟨by simp, by simp⟩
  refine ⟨_, rfl, hscan.held, fun id r hr => ?_⟩
  have hlisted : id ∈ s.indexes.inflight := keyed.mem_inflight.mpr ⟨r, hr.found, hr.busy⟩
  exact hscan.last id (Std.ExtTreeSet.mem_toList.mpr hlisted) r hr

theorem worstIncumbent_worst (keyed : Keyed s)
    (h : s.worstIncumbent resource now = some attempt) :
    ∃ id r, s.Incumbent resource id r ∧ r.openAttempt = attempt ∧ ∀ id' r',
      s.Incumbent resource id' r' → ¬ (s.computeKey r now).before (s.computeKey r' now) := by
  obtain ⟨worst, hworst, hone, hall⟩ := worstIncumbent_scan keyed resource now
  rw [h, eq_comm] at hworst
  obtain ⟨w, hw, rfl⟩ := Option.map_eq_some_iff.mp hworst
  obtain ⟨id, r, hr, hopen, hkey⟩ := hone w hw
  refine ⟨id, r, hr, hopen, fun id' r' hr' => ?_⟩
  obtain ⟨w', hw', hbefore⟩ := hall id' r' hr'
  obtain rfl := Option.some.inj (hw.symm.trans hw')
  rwa [hkey]

theorem worstIncumbent_of_worst (keyed : Keyed s) {id : FlowId} {r : FlowRuntime}
    (incumbent : s.Incumbent resource id r) (worst : ∀ id' r', s.Incumbent resource id' r' →
      ¬ (s.computeKey r now).before (s.computeKey r' now)) :
    s.worstIncumbent resource now = some r.openAttempt := by
  obtain ⟨found, hworst, hone, hall⟩ := worstIncumbent_scan keyed resource now
  obtain ⟨w, hw, hbefore⟩ := hall id r incumbent
  obtain ⟨id', r', hr', hopen, hkey⟩ := hone w hw
  have hsame : s.computeKey r now = s.computeKey r' now := by
    by_contra hne
    rcases OrderKey.before_or_before hne with h | h
    · exact worst id' r' hr' h
    · exact hbefore (hkey ▸ h)
  have hid : id = id' := by
    have hflow : r.descriptor.flow = r'.descriptor.flow := congrArg OrderKey.flow hsame
    rw [← keyed.key id r incumbent.found, ← keyed.key id' r' hr'.found, hflow]
  subst hid
  obtain rfl := Option.some.inj (incumbent.found.symm.trans hr'.found)
  rw [hworst, hw, hopen]
  rfl

end Incumbency

section Victims

variable {s : Impl} {now : Ticks} {c : Candidate} {d : FlowDescriptor} {victim : Victim}

/-- The victim is the flow its attempt is filed for, an incumbent of the resource. -/
structure Victim.Serves (victim : Victim) (s : Impl) (resource : ResourceId) : Prop where
  incumbent : s.Incumbent resource victim.record.ticket.flow victim.flow
  holds : victim.flow.openAttempt = victim.attempt
  filed : s.attempts[victim.attempt]? = some victim.record
  live : ¬ victim.record.state.isTerminal
  slot : victim.record.ticket.resource = resource

theorem Ledger.Anchored.incumbent {resource : ResourceId} {id : FlowId} {r : FlowRuntime}
    {record : AttemptRuntime} (anchored : s.ledger.Anchored) (h : s.Incumbent resource id r)
    (filed : s.attempts[r.openAttempt]? = some record) :
    ¬ record.state.isTerminal ∧ record.ticket.flow = id ∧ record.ticket.resource = resource := by
  obtain ⟨hlive, hflow, hresource⟩ := anchored id r.ledger record.ledger
    (congrArg (Option.map FlowRuntime.ledger) h.found) h.holds
    (congrArg (Option.map AttemptRuntime.ledger) filed)
  exact ⟨hlive, hflow, hresource.trans h.serves⟩

theorem chooseVictim_serves (keyed : Keyed s) (anchored : s.ledger.Anchored)
    (h : s.chooseVictim c d now = .ok victim) : victim.Serves s d.resource.id := by
  obtain ⟨hworst, hfiled, hflow, -, -⟩ := chooseVictim_ok h
  obtain ⟨id, r, hincumbent, hopen, -⟩ := worstIncumbent_worst keyed hworst
  rw [← hopen] at hfiled
  obtain ⟨hlive, rfl, hresource⟩ := anchored.incumbent hincumbent hfiled
  obtain rfl := Option.some.inj (hincumbent.found.symm.trans hflow)
  rw [hopen] at hfiled
  exact ⟨hincumbent, hopen, hfiled, hlive, hresource⟩

namespace Victim.Serves

variable {resource other : ResourceId}

theorem closes (h : victim.Serves s resource) (now : Ticks) (detail : Bytes) : ∃ record : AttemptRuntime,
    record.ticket = victim.record.ticket ∧ s.applyAttemptClosed victim.attempt .preempted detail now =
      (s.endAttempt victim.attempt record).closeFlowAttempt record victim.attempt .preempted now := by
  refine ⟨{ victim.record with
    state := .preempted, closedTick := now, closeDetail := boundedDetail detail }, rfl, ?_⟩
  unfold applyAttemptClosed
  rw [h.filed]
  dsimp only
  rw [if_neg h.live]
  have hfound : (s.endAttempt victim.attempt { victim.record with
      state := .preempted, closedTick := now, closeDetail := boundedDetail detail }).flows[
        victim.record.ticket.flow]? = some victim.flow := h.incumbent.found
  rw [hfound]
  exact if_neg (not_not.mpr h.holds)

theorem flows_of_ne (h : victim.Serves s resource) (other : ResourceId) (now : Ticks) {id : FlowId}
    (ne : id ≠ victim.record.ticket.flow) :
    (s.displace victim other now).flows[id]? = s.flows[id]? := by
  obtain ⟨record, hticket, hclosed⟩ := h.closes now (ascii "displaced by higher authority")
  unfold Impl.displace
  rw [hclosed]
  have hsame : SameBut record.ticket.flow (s.endAttempt victim.attempt record)
      ((s.endAttempt victim.attempt record).closeFlowAttempt record victim.attempt .preempted now) :=
    sameBut_closeFlowAttempt
  exact hsame id (hticket ▸ ne)

theorem stopped (h : victim.Serves s resource) {r : FlowRuntime}
    (found : (s.displace victim other now).flows[victim.record.ticket.flow]? = some r) :
    r.lifecycle = .preempting ∧ ¬ r.openAttempt.valid := by
  obtain ⟨record, hticket, hclosed⟩ := h.closes now (ascii "displaced by higher authority")
  unfold Impl.displace at found
  rw [hclosed, ← hticket] at found
  have hbefore : (s.endAttempt victim.attempt record).flows[record.ticket.flow]? =
      some victim.flow := by
    rw [hticket]
    exact h.incumbent.found
  simp only [closeFlowAttempt, releaseAttempt, releaseInFlight, Impl.recordStep, Impl.setLifecycle,
    Impl.modifyFlow, modifyResource, get_modify, if_true, hbefore, Option.map_some,
    Option.some.injEq] at found
  have hfree : r.lifecycle = .preempting ∧ r.openAttempt = {} := by
    rw [← found]
    simp
  rw [hfree.2]
  exact ⟨hfree.1, by decide⟩

theorem ready_of (h : victim.Serves s resource) {id : FlowId} {r : FlowRuntime}
    (later : (s.displace victim other now).flows[id]? = some r) (ready : r.lifecycle = .ready) :
    s.flows[id]? = some r := by
  rw [← h.flows_of_ne other now]
  · exact later
  · rintro rfl
    rw [(h.stopped later).1] at ready
    cases ready

theorem inFlight_of_ne (h : victim.Serves s resource) {id : ResourceId} (ne : id ≠ resource) :
    (s.displace victim resource now).resources[id]? = s.resources[id]? := by
  obtain ⟨record, hticket, hclosed⟩ := h.closes now (ascii "displaced by higher authority")
  have hother : id ≠ record.ticket.resource := by
    rw [hticket, h.slot]
    exact ne
  unfold Impl.displace
  rw [hclosed]
  simp only [closeFlowAttempt, releaseAttempt, releaseInFlight, Impl.recordStep, Impl.setLifecycle,
    Impl.modifyFlow, modifyResource, get_modify, if_neg ne, if_neg hother]
  rfl

theorem filed_of (h : victim.Serves s resource) {a : DispatchAttemptId}
    (filed : (s.displace victim other now).attempts[a]?.isSome) : s.attempts[a]?.isSome := by
  obtain ⟨record, -, hclosed⟩ := h.closes now (ascii "displaced by higher authority")
  unfold Impl.displace at filed
  rw [hclosed] at filed
  simp only [closeFlowAttempt, releaseAttempt, releaseInFlight, Impl.recordStep, Impl.setLifecycle,
    Impl.modifyFlow, modifyResource, endAttempt, modifySchedule, get_insert] at filed
  split at filed
  · rename_i hsame
    rw [hsame, h.filed]
    rfl
  · exact filed

theorem incumbent_iff (h : victim.Serves s resource) {k : ResourceId} {id : FlowId}
    {r : FlowRuntime} : (s.displace victim other now).Incumbent k id r ↔
      s.Incumbent k id r ∧ id ≠ victim.record.ticket.flow := by
  constructor
  · rintro ⟨hfound, hbusy, hholds, hserves⟩
    have hne : id ≠ victim.record.ticket.flow := by
      rintro rfl
      exact (h.stopped hfound).2 hholds
    exact ⟨⟨h.flows_of_ne _ _ hne ▸ hfound, hbusy, hholds, hserves⟩, hne⟩
  · rintro ⟨⟨hfound, hbusy, hholds, hserves⟩, hne⟩
    exact ⟨(h.flows_of_ne _ _ hne).trans hfound, hbusy, hholds, hserves⟩

end Victim.Serves

end Victims

section Frames

variable {s s' : Impl} {now : Ticks} {limit : ℕ} {c : Candidate} {round round' : Round}
  {k : ResourceId} {id : FlowId} {r : FlowRuntime}

theorem lifecycle_deferUnready {flow : FlowRuntime} (now : Ticks) (reason : DecisionReason)
    (o : ArbitrationOutcome) (found : s.flows[id]? = some flow) :
    ∃ r, (s.deferUnready id flow reason now o).1.flows[id]? = some r ∧
      (r.lifecycle = .failed ∨ r.lifecycle = flow.lifecycle) := by
  have hfail : ∀ (i : Impl) (r : FlowRuntime) reason detail, i.flows[id]? = some r →
      ∃ r', (i.failFlow id reason detail now).flows[id]? = some r' ∧ r'.lifecycle = .failed := by
    intro i r reason detail hr
    simp only [failFlow, Impl.recordStep, Impl.setLifecycle, Impl.modifyFlow, get_modify, if_true, hr,
      Option.map_some]
    exact ⟨_, rfl, by simp⟩
  have hcount : ∃ r', (s.countDeadlineMiss id).flows[id]? = some r' ∧
      r'.lifecycle = flow.lifecycle := by
    simp only [countDeadlineMiss, Impl.modifyFlow, get_modify, if_true, found, Option.map_some]
    exact ⟨_, rfl, rfl⟩
  have hfailed : ∀ (i : Impl) (r : FlowRuntime) reason detail, i.flows[id]? = some r →
      ∃ r', (i.failFlow id reason detail now).flows[id]? = some r' ∧
        (r'.lifecycle = .failed ∨ r'.lifecycle = flow.lifecycle) := by
    intro i r reason detail hr
    obtain ⟨r', hr', hlifecycle⟩ := hfail i r reason detail hr
    exact ⟨r', hr', .inl hlifecycle⟩
  obtain ⟨counted, hcounted, hsame⟩ := hcount
  unfold deferUnready
  split
  · unfold handleDeadlineMiss
    split
    · exact ⟨flow, found, .inr rfl⟩
    · dsimp only
      split
      · exact hfailed _ _ _ _ hcounted
      · exact ⟨counted, hcounted, .inr hsame⟩
  · split
    · exact hfailed _ _ _ _ found
    · exact ⟨flow, found, .inr rfl⟩

theorem incumbent_deferUnready {flow : FlowRuntime} {reason : DecisionReason}
    {o : ArbitrationOutcome} (found : s.flows[id]? = some flow) (ready : flow.lifecycle = .ready)
    {a : FlowId} : (s.deferUnready id flow reason now o).1.Incumbent k a r ↔ s.Incumbent k a r := by
  obtain ⟨flow', hflow', hlifecycle⟩ :=
    lifecycle_deferUnready now reason o found
  have hsame : SameBut id s (s.deferUnready id flow reason now o).1 := sameBut_deferUnready
  have hbusy : ∀ x : FlowRuntime, x.lifecycle = .failed ∨ x.lifecycle = .ready →
      x.lifecycle.slot ≠ .inflight := by
    rintro x (hx | hx) <;> rw [hx] <;> decide
  constructor
  · rintro ⟨hr, hin, hholds, hserves⟩
    by_cases ha : a = id
    · subst ha
      obtain rfl := Option.some.inj (hflow'.symm.trans hr)
      exact absurd hin (hbusy _ (ready ▸ hlifecycle))
    · exact ⟨(hsame a ha).symm.trans hr, hin, hholds, hserves⟩
  · rintro ⟨hr, hin, hholds, hserves⟩
    by_cases ha : a = id
    · subst ha
      obtain rfl := Option.some.inj (found.symm.trans hr)
      exact absurd hin (hbusy _ (.inr ready))
    · exact ⟨(hsame a ha).trans hr, hin, hholds, hserves⟩

theorem rolled_keyed {d : FlowDescriptor} (keyed : Keyed s) : Keyed (s.rolled d now) :=
  keyed.congr rfl rfl

theorem rolled_serves {flow : FlowRuntime} {victim : Victim} (keyed : Keyed s)
    (anchored : s.ledger.Anchored)
    (chosen : (s.rolled flow.descriptor now).chooseVictim c flow.descriptor now = .ok victim) :
    victim.Serves (s.rolled flow.descriptor now) flow.descriptor.resource.id := by
  refine chooseVictim_serves (rolled_keyed keyed) ?_ chosen
  exact anchored.mono (fun id f hf _ => ⟨f, hf, rfl, rfl⟩) fun _ _ _ _ _ hx => hx

theorem Decides.ready_of (keyed : Keyed s) (anchored : s.ledger.Anchored)
    (h : Decides now limit c s round s' round') (later : s'.flows[id]? = some r)
    (ready : r.lifecycle = .ready) : ∃ r₀, s.flows[id]? = some r₀ ∧ r₀.lifecycle = .ready := by
  cases h with
  | passed | deferred | blocked | windowless | granted => exact ⟨r, later, ready⟩
  | unready found wasReady =>
    by_cases hid : id = c.flow
    · subst hid
      exact ⟨_, found, wasReady⟩
    · exact ⟨r, (sameBut_deferUnready id hid).symm.trans later, ready⟩
  | displaced _ _ _ _ _ chosen after | replaced _ _ _ _ _ chosen after =>
    subst after
    exact ⟨r, (rolled_serves keyed anchored chosen).ready_of later ready, ready⟩

theorem Decides.incumbent_of (keyed : Keyed s) (anchored : s.ledger.Anchored)
    (h : Decides now limit c s round s' round') (later : s'.Incumbent k id r) :
    s.Incumbent k id r := by
  have hrolled : ∀ d, (s.rolled d now).Incumbent k id r → s.Incumbent k id r :=
    fun d ⟨hfound, hbusy, hholds, hserves⟩ => ⟨hfound, hbusy, hholds, hserves⟩
  cases h with
  | passed | deferred => exact later
  | unready found ready => exact (incumbent_deferUnready found ready).mp later
  | blocked | windowless | granted => exact hrolled _ later
  | displaced _ _ _ _ _ chosen after | replaced _ _ _ _ _ chosen after =>
    subst after
    exact hrolled _ ((rolled_serves keyed anchored chosen).incumbent_iff.mp later).1

end Frames

end FlowScheduler

import FlowScheduler.Steps.Grants

/-! # A round as a sequence of moves

An invariant of the candidate loop is shown once per event of the loop: a
candidate is passed over, fails, displaces an incumbent or is granted a window.
-/

namespace FlowScheduler

open ByteCodec (Bytes)
open Failing SchedOp Impl OrderedMap

section Programs

variable {s t : Scheduler} {now : Ticks} {β : Type} {Q : β → Scheduler → Prop}

theorem Makes.sound (h : Makes (RoundMove now) s t) (hs : Sound s.impl) : Sound t.impl := by
  obtain ⟨rs, h⟩ := h
  exact h.preserves (fun _ _ _ move hi => hi.roundMove move) hs

theorem RoundMove.clock {i i' : Impl} {r : Option Record} (move : RoundMove now i r i')
    (h : i.lastTick = now) : i'.lastTick = now := by
  cases move with
  | common move => exact (congrArg Setting.lastTick move.setting).trans h
  | tick => rfl
  | failDependency | failDeadline | roll | forget | retire => exact h
  | issue => exact lastTick_issue.trans h

theorem Makes.clock (h : Makes (RoundMove now) s t) (hs : s.impl.lastTick = now) :
    t.impl.lastTick = now := by
  obtain ⟨rs, h⟩ := h
  exact h.preserves (fun _ _ _ move hi => move.clock hi) hs

/-- A move of a round that issues nothing but what it may. -/
def IssueMove (now : Ticks) (may : Impl → List ScheduleEntry → Prop) (i : Impl) (r : Option Record)
    (i' : Impl) : Prop :=
  RoundMove now i r i' ∧ ∀ schedule, r = some (.scheduleIssued schedule) → may i schedule.entries

abbrev DecideMove (now : Ticks) := IssueMove now fun _ _ => False

section IssueMoves

variable {may may' : Impl → List ScheduleEntry → Prop} {i i' : Impl}

theorem IssueMove.quiet (move : RoundMove now i none i') : IssueMove now may i none i' :=
  ⟨move, fun _ h => by cases h⟩

theorem IssueMove.silently (h : Silently (RoundMove now) i i') :
    Silently (IssueMove now may) i i' :=
  Relation.ReflTransGen.mono (fun _ _ move => .quiet move) _ _ h

theorem Makes.round (h : Makes (IssueMove now may) s t) : Makes (RoundMove now) s t :=
  h.mono fun _ _ _ move => move.1

theorem Makes.decided (h : Makes (DecideMove now) s t) : Makes (IssueMove now may) s t :=
  h.mono fun _ _ _ move => ⟨move.1, fun schedule hr => (move.2 schedule hr).elim⟩

theorem Runs.decided {m : SchedOp β} (h : Runs (DecideMove now) Q m s) :
    Runs (IssueMove now may) Q m s := ⟨h.1.decided, h.2⟩

end IssueMoves

theorem exec_succeeds (m : SchedOp Unit) : exec (succeeds m) s = match exec m s with
    | (.ok _, t) => (.ok true, t)
    | (.error _, t) => (.ok false, t) := by
  have h : exec (succeeds m) s = match exec (m >>= fun _ => (pure true : SchedOp Bool)) s with
      | (.ok b, t) => (.ok b, t)
      | (.error _, t) => (.ok false, t) := by
    unfold succeeds
    generalize (m >>= fun _ => (pure true : SchedOp Bool)) = n
    simp only [exec, tryCatch, tryCatchThe, MonadExceptOf.tryCatch, ExceptT.tryCatch, ExceptT.run,
      ExceptT.mk, StateT.run, bind, StateT.bind]
    rcases n s with ⟨_ | _, _⟩ <;> rfl
  rw [h, exec_bind]
  rcases exec m s with ⟨_ | _, _⟩ <;> rfl

theorem runs_reclaimExpiredDeliveries (clock : s.impl.lastTick = now) (ids : List ScheduleId)
    (o : ArbitrationOutcome) :
    Runs (DecideMove now) (fun _ _ => True) (reclaimExpiredDeliveries now ids o) s := by
  induction ids generalizing s o with
  | nil => exact .pure trivial
  | cons id ids ih =>
    unfold reclaimExpiredDeliveries
    refine .readImpl_bind ?_
    split
    · exact ih clock o
    · rename_i runtime _
      split
      · exact ih clock o
      · split
        · exact .pure trivial
        · unfold Runs
          rw [exec_bind, exec_succeeds]
          cases h : exec (journal (.scheduleReleased id now)) s with
          | mk result t =>
            cases result with
            | error e => exact ⟨.refused h, fun _ _ => trivial⟩
            | ok u =>
              have hm := Makes.journaled (R := DecideMove now)
                ⟨.common (.release (clock ▸ UInt64.le_refl _)), fun _ h => by cases h⟩ h
              rw [← impl_of_append h] at hm
              exact ⟨hm.trans (ih (hm.round.clock clock) (o.noteReclaims runtime)).1, fun _ _ => trivial⟩

theorem runs_closeAttempt_bind {attempt : DispatchAttemptId} {state : AttemptState} {detail : Bytes}
    {k : Unit → SchedOp β} (clock : s.impl.lastTick = now)
    (final : state = .preempted ∨ state = .abandoned)
    (next : ∀ t, t.impl = s.impl.applyAttemptClosed attempt state detail now →
      Runs (DecideMove now) Q (k ()) t) :
    Runs (DecideMove now) Q (closeAttempt attempt state detail now >>= k) s := by
  unfold Runs
  rw [exec_closeAttempt_bind, exec_bind]
  cases h : exec (journal (.attemptClosed attempt state now detail)) s with
  | mk result t =>
    cases result with
    | error e => exact ⟨.refused h, fun _ h => by cases h⟩
    | ok u =>
      have hm := Makes.journaled (R := DecideMove now)
        ⟨.common (.close final (clock ▸ UInt64.le_refl _)), fun _ h => by cases h⟩ h
      dsimp only
      rw [exec_modifyImpl_bind, impl_of_append h]
      obtain ⟨hm', hq⟩ :=
        next { t with impl := s.impl.applyAttemptClosed attempt state detail now } rfl
      exact ⟨hm.trans hm', hq⟩

def Impl.Ended (s : Impl) (a : DispatchAttemptId) : Prop :=
  ∀ x, s.attempts[a]? = some x → x.state.isTerminal

theorem Impl.Ended.move {i i' : Impl} {r : Option Record} {a : DispatchAttemptId} (h : i.Ended a)
    (move : RoundMove now i r i') : i'.Ended a := by
  intro x' hx'
  obtain ⟨x, hx, -, hstate⟩ := move.attempts hx'
  exact hstate (h x hx)

theorem Makes.ended {a : DispatchAttemptId} (h : Makes (RoundMove now) s t) (ended : s.impl.Ended a) :
    t.impl.Ended a := by
  obtain ⟨rs, h⟩ := h
  exact h.preserves (P := fun i => i.Ended a) (fun _ _ _ move hi => hi.move move) ended

theorem ended_applyAttemptClosed {i : Impl} {attempt : DispatchAttemptId} {state : AttemptState}
    {detail : Bytes} (final : state.isTerminal) :
    (i.applyAttemptClosed attempt state detail now).Ended attempt := by
  intro x hx
  have hclosed : (i.ledger.closeAttempt attempt state).attempts attempt = some x.ledger := by
    rw [← ledger_applyAttemptClosed attempt state detail now]
    exact congrArg (Option.map _) hx
  exact Ledger.terminal_closeAttempt final hclosed

theorem runs_stopOverdue (clock : s.impl.lastTick = now) (attempts : List DispatchAttemptId) :
    Runs (DecideMove now) (fun _ t => ∀ a ∈ attempts, t.impl.Ended a) (stopOverdue now attempts) s := by
  induction attempts generalizing s with
  | nil => exact .pure (by simp)
  | cons attempt rest ih =>
    refine runs_closeAttempt_bind clock (.inl rfl) fun t ht => ?_
    have hended : t.impl.Ended attempt := by
      rw [ht]
      exact ended_applyAttemptClosed rfl
    refine .modifyImpl_bind (.silent (.quiet (.common .counters))) ?_
    have hrest := ih (s := { t with impl := { t.impl with
      preemptionsIssued := t.impl.preemptionsIssued + 1 } }) (by
        dsimp only
        rw [ht]
        exact (congrArg Setting.lastTick (setting_applyAttemptClosed ..)).trans clock)
    refine ⟨hrest.1, fun u hu => List.forall_mem_cons.mpr ⟨?_, hrest.2 u hu⟩⟩
    exact hrest.1.round.ended hended

/-- The state after an incumbent was displaced from a resource. -/
def Impl.displace (s : Impl) (victim : Victim) (resource : ResourceId) (now : Ticks) : Impl :=
  let s := s.applyAttemptClosed victim.attempt .preempted (ascii "displaced by higher authority") now
  { s with
    preemptionsIssued := s.preemptionsIssued + 1
    preemptionsInWindow := s.preemptionsInWindow + 1 }.modifyResource resource (·.rollInterval now)

/-- The candidate is ready, may be arbitrated now and names the resource as it is registered. -/
structure Eligible (s : Impl) (now : Ticks) (candidate : Candidate) (flow : FlowRuntime) :
    Prop where
  found : s.flows[candidate.flow]? = some flow
  ready : flow.lifecycle = .ready
  derived : s.derivedReadiness flow now = .ok ()
  current : ∃ resource, s.resources[flow.descriptor.resource.id]? = some resource ∧
    resource.descriptor.generation = flow.descriptor.resource.generation

namespace Eligible

variable {i : Impl} {candidate : Candidate} {flow : FlowRuntime}

theorem usable (h : Eligible i now candidate flow) : i.reservationUsable flow now = .ok () :=
  usable_of_derivedReadiness h.derived

theorem timely (h : Eligible i now candidate flow) :
    ¬ (hasDeadline flow.descriptor.deadlineTick ∧ flow.descriptor.deadlineTick ≤ now) :=
  timely_of_derivedReadiness h.derived

end Eligible

/-- An invariant of the candidate loop, given the flows still to be considered, and what allows one
more window on a resource. -/
structure RoundInvariant (now : Ticks) (I : List FlowId → Impl → Round → Prop)
    (Room : ResourceId → Impl → Round → Prop) : Prop where
  skip {id rest s round} (h : I (id :: rest) s round) : I rest s round
  outcome {rest s round o} (h : I rest s round) : I rest s { round with outcome := o }
  unready {id rest s round flow reason o} (found : s.flows[id]? = some flow)
    (ready : flow.lifecycle = .ready) (derived : s.derivedReadiness flow now = .error reason)
    (h : I (id :: rest) s round) : I rest (s.deferUnready id flow reason now o).1 round
  roll {rest s round id} (clock : s.lastTick = now) (h : I rest s round) :
    I rest (s.modifyResource id (·.rollInterval now)) round
  room {rest s round id resource} (found : s.resources[id]? = some resource)
    (free : ¬ resource.descriptor.maxOverlap ≤
      resource.inFlight + round.pendingInFlight.getD id 0) (h : I rest s round) :
    Room id s round
  displace {rest s round candidate flow victim} (sound : Sound s) (clock : s.lastTick = now)
    (within : round.entries.length < kEntryBound) (eligible : Eligible s now candidate flow)
    (chosen : s.chooseVictim candidate flow.descriptor now = .ok victim) (h : I rest s round) :
    let s' := s.displace victim flow.descriptor.resource.id now
    let round' := round.displace
      (preemptEntry victim round.nextOrdinal candidate flow.descriptor now) victim.flow.descriptor
    I rest s' round' ∧ Room flow.descriptor.resource.id s' round'
  grant {rest s round candidate flow resource quantum} (sound : Sound s)
    (within : round.entries.length ≤ kEntryBound) (fresh : candidate.flow ∉ rest)
    (eligible : Eligible s now candidate flow)
    (registered : s.resources[flow.descriptor.resource.id]? = some resource)
    (legal : s.legalQuantum round flow resource now = .ok quantum)
    (room : Room flow.descriptor.resource.id s round) (h : I (candidate.flow :: rest) s round) :
    I rest s (round.grant (s.runEntry candidate flow.descriptor round.nextOrdinal quantum now))

namespace RoundInvariant

variable {I I' : List FlowId → Impl → Round → Prop} {Room Room' : ResourceId → Impl → Round → Prop}

theorem and (h : RoundInvariant now I Room) (h' : RoundInvariant now I' Room') :
    RoundInvariant now (fun rest s round => I rest s round ∧ I' rest s round)
      fun id s round => Room id s round ∧ Room' id s round where
  skip hs := ⟨h.skip hs.1, h'.skip hs.2⟩
  outcome hs := ⟨h.outcome hs.1, h'.outcome hs.2⟩
  unready found ready derived hs :=
    ⟨h.unready found ready derived hs.1, h'.unready found ready derived hs.2⟩
  roll clock hs := ⟨h.roll clock hs.1, h'.roll clock hs.2⟩
  room found free hs := ⟨h.room found free hs.1, h'.room found free hs.2⟩
  displace sound clock within eligible chosen hs := by
    obtain ⟨hkept, hroom⟩ := h.displace sound clock within eligible chosen hs.1
    obtain ⟨hkept', hroom'⟩ := h'.displace sound clock within eligible chosen hs.2
    exact ⟨⟨hkept, hkept'⟩, hroom, hroom'⟩
  grant sound within fresh eligible registered legal room hs :=
    ⟨h.grant sound within fresh eligible registered legal room.1 hs.1,
      h'.grant sound within fresh eligible registered legal room.2 hs.2⟩

/-- What every move of a round preserves, the candidate loop preserves, and so it may be relied on for
every entry that is made. -/
theorem entering {P : Impl → Prop} {Q : ScheduleEntry → Prop}
    (keep : ∀ i r i', RoundMove now i r i' → P i → P i')
    (displaced : ∀ s candidate (flow : FlowRuntime) victim ordinal, Sound s → P s →
      s.chooseVictim candidate flow.descriptor now = .ok victim →
      Q (preemptEntry victim ordinal candidate flow.descriptor now))
    (granted : ∀ s candidate flow ordinal quantum, Sound s → P s → Eligible s now candidate flow →
      Q (s.runEntry candidate flow.descriptor ordinal quantum now)) :
    RoundInvariant now (fun _ s round => P s ∧ ∀ e ∈ round.entries, Q e) fun _ _ _ => True where
  skip h := h
  outcome h := h
  unready {id rest s round flow reason o} found ready derived h := by
    refine ⟨?_, h.2⟩
    have hs : Silently (RoundMove now) s (s.deferUnready id flow reason now o).1 :=
      deferUnready_silently found (.inr ready) derived
    generalize (s.deferUnready id flow reason now o).1 = s' at hs
    induction hs with
    | refl => exact h.1
    | tail _ move ih => exact keep _ _ _ move ih
  roll clock h := ⟨keep _ _ _ (.roll clock) h.1, h.2⟩
  room _ _ _ := trivial
  displace {rest s round candidate flow victim} sound clock _ _ chosen h := by
    have hclosed : P (s.applyAttemptClosed victim.attempt .preempted
        (ascii "displaced by higher authority") now) :=
      keep _ _ _ (.common (.close (.inl rfl) (clock ▸ UInt64.le_refl _))) h.1
    refine ⟨⟨keep _ _ _ (.roll ?_) (keep _ _ _ (.common .counters) hclosed), ?_⟩, trivial⟩
    · exact (congrArg Setting.lastTick (setting_applyAttemptClosed ..)).trans clock
    · intro e he
      simp only [Round.displace, Round.defer] at he
      rcases List.mem_append.mp he with he | he
      · exact h.2 e he
      · rw [List.mem_singleton.mp he]
        exact displaced s candidate flow victim _ sound h.1 chosen
  grant {rest s round candidate flow resource quantum} sound _ _ eligible _ _ _ h := by
    refine ⟨h.1, fun e he => ?_⟩
    rcases List.mem_append.mp he with he | he
    · exact h.2 e he
    · rw [List.mem_singleton.mp he]
      exact granted s candidate flow _ quantum sound h.1 eligible

end RoundInvariant

/-- An idle flow holds no open attempt, so closing an attempt leaves it alone. -/
theorem idle_applyAttemptClosed {s : Impl} {attempt : DispatchAttemptId} {state : AttemptState}
    {detail : Bytes} {id : FlowId} {r : FlowRuntime} (sound : Sound s) (valid : attempt.valid)
    (found : s.flows[id]? = some r) (idle : r.lifecycle.phase.idle) :
    (s.applyAttemptClosed attempt state detail now).flows[id]? = some r := by
  refine flows_applyAttemptClosed found fun hv => ?_
  refine sound.ledger id r.ledger (by rw [ledger_flows, found]; rfl) idle ?_
  rw [show r.ledger.openAttempt = r.openAttempt from rfl, hv]
  exact valid

theorem idle_of_ready {r : FlowRuntime} (h : r.lifecycle = .ready) : r.lifecycle.phase.idle := by
  rw [h]
  exact ⟨by decide, by decide⟩

theorem idle_of_completed {r : FlowRuntime} (h : r.lifecycle = .completed) :
    r.lifecycle.phase.idle := by
  rw [h]
  exact ⟨by decide, by decide⟩

variable {candidate : Candidate} {flow : FlowRuntime} {round : Round} {rest : List FlowId}
  {I : List FlowId → Impl → Round → Prop} {Room : ResourceId → Impl → Round → Prop}

theorem Eligible.congr {s s' : Impl} (h : Eligible s now candidate flow)
    (found : s'.flows[candidate.flow]? = some flow)
    (completed : ∀ (id : FlowId) (r : FlowRuntime), s.flows[id]? = some r →
      r.lifecycle = .completed → s'.flows[id]? = some r)
    (reservations : s'.reservations = s.reservations) (budget : s'.budget now = s.budget now) :
    Eligible s' now candidate flow where
  found := found
  ready := h.ready
  derived := derivedReadiness_frame h.derived completed reservations
  current := by
    obtain ⟨resource, hresource, hgeneration⟩ := h.current
    have hbudget := congrFun budget flow.descriptor.resource.id
    simp only [Impl.budget, hresource, Option.map_some] at hbudget
    obtain ⟨resource', hresource', hsame⟩ := Option.map_eq_some_iff.mp hbudget
    refine ⟨resource', hresource', ?_⟩
    rw [(Prod.mk.inj hsame).1]
    exact hgeneration

theorem reservations_displace {i : Impl} {victim : Victim} {resource : ResourceId} :
    (i.displace victim resource now).reservations = i.reservations :=
  reservations_applyAttemptClosed

theorem budget_displace {i : Impl} {victim : Victim} {resource : ResourceId} :
    (i.displace victim resource now).budget now = i.budget now := by
  unfold Impl.displace
  rw [budget_rollInterval]
  exact budget_applyAttemptClosed

theorem idle_displace {s : Impl} {victim : Victim} {d : FlowDescriptor} {resource : ResourceId}
    {id : FlowId} {r : FlowRuntime} (sound : Sound s)
    (chosen : s.chooseVictim candidate d now = .ok victim) (found : s.flows[id]? = some r)
    (idle : r.lifecycle.phase.idle) : (s.displace victim resource now).flows[id]? = some r :=
  idle_applyAttemptClosed sound (valid_chooseVictim chosen) found idle

theorem Eligible.displace {s : Impl} {victim : Victim} (sound : Sound s)
    (h : Eligible s now candidate flow)
    (chosen : s.chooseVictim candidate flow.descriptor now = .ok victim) :
    Eligible (s.displace victim flow.descriptor.resource.id now) now candidate flow :=
  h.congr (idle_displace sound chosen h.found (idle_of_ready h.ready))
    (fun _ _ hr hl => idle_displace sound chosen hr (idle_of_completed hl))
    reservations_displace budget_displace

theorem runs_grantWindow (inv : RoundInvariant now I Room) (sound : Sound s.impl)
    (within : round.entries.length ≤ kEntryBound) (fresh : candidate.flow ∉ rest)
    (eligible : Eligible s.impl now candidate flow)
    (room : Room flow.descriptor.resource.id s.impl round)
    (h : I (candidate.flow :: rest) s.impl round) :
    Runs (DecideMove now) (fun round t => I rest t.impl round)
      (grantWindow now candidate flow round) s := by
  unfold grantWindow
  refine .readImpl_bind ?_
  split
  · exact .pure (inv.skip h)
  · rename_i resource hresource
    split
    · exact .pure (inv.outcome (inv.skip h))
    · rename_i quantum hlegal
      exact .pure (inv.grant sound within fresh eligible hresource hlegal room h)

theorem runs_displaceVictim {victim : Victim} (inv : RoundInvariant now I Room)
    (sound : Sound s.impl) (clock : s.impl.lastTick = now)
    (within : round.entries.length < kEntryBound) (eligible : Eligible s.impl now candidate flow)
    (chosen : s.impl.chooseVictim candidate flow.descriptor now = .ok victim)
    (h : I rest s.impl round) :
    Runs (DecideMove now) (fun round t => I rest t.impl round ∧
        Room flow.descriptor.resource.id t.impl round ∧ Eligible t.impl now candidate flow ∧
        round.entries.length ≤ kEntryBound)
      (displaceVictim now candidate flow victim round) s := by
  unfold displaceVictim
  refine runs_closeAttempt_bind clock (.inl rfl) fun t ht => ?_
  have hclock : t.impl.lastTick = now := by
    rw [ht]
    exact (congrArg Setting.lastTick (setting_applyAttemptClosed ..)).trans clock
  have hdisplace : ({ t.impl with
      preemptionsIssued := t.impl.preemptionsIssued + 1
      preemptionsInWindow := t.impl.preemptionsInWindow + 1 } : Impl).modifyResource
        flow.descriptor.resource.id (·.rollInterval now) =
          s.impl.displace victim flow.descriptor.resource.id now := by
    rw [ht]
    rfl
  refine .modifyImpl_bind ?_ (.pure ?_)
  · have hcount : Makes (DecideMove now) t { t with impl := { t.impl with
        preemptionsIssued := t.impl.preemptionsIssued + 1
        preemptionsInWindow := t.impl.preemptionsInWindow + 1 } } := .silent (.quiet (.common .counters))
    exact hcount.trans (.silent (.quiet (.roll hclock)))
  · dsimp only
    rw [hdisplace]
    obtain ⟨hkept, hroom⟩ := inv.displace sound clock within eligible chosen h
    refine ⟨hkept, hroom, eligible.displace sound chosen, ?_⟩
    simp only [Round.displace, Round.defer, List.length_append, List.length_singleton]
    omega

theorem runs_placeCandidate {resource : ResourceRuntime} (inv : RoundInvariant now I Room)
    (sound : Sound s.impl) (clock : s.impl.lastTick = now)
    (within : round.entries.length < kEntryBound) (fresh : candidate.flow ∉ rest)
    (eligible : Eligible s.impl now candidate flow)
    (registered : s.impl.resources[flow.descriptor.resource.id]? = some resource)
    (h : I (candidate.flow :: rest) s.impl round) :
    Runs (DecideMove now) (fun round t => I rest t.impl round)
      (placeCandidate now candidate flow resource round) s := by
  unfold placeCandidate
  have hroll : Makes (DecideMove now) s
      { s with impl := s.impl.modifyResource flow.descriptor.resource.id (·.rollInterval now) } :=
    .silent (.quiet (.roll clock))
  refine .modifyImpl_bind hroll ?_
  have sound' := hroll.round.sound sound
  have h' : I (candidate.flow :: rest)
      (s.impl.modifyResource flow.descriptor.resource.id (·.rollInterval now)) round :=
    inv.roll clock h
  have eligible' : Eligible
      (s.impl.modifyResource flow.descriptor.resource.id (·.rollInterval now)) now candidate flow :=
    eligible.congr eligible.found (fun _ _ hr _ => hr) rfl budget_rollInterval
  split
  · refine .readImpl_bind ?_
    split
    · exact .pure (inv.outcome (inv.skip h'))
    · rename_i victim hv
      refine (runs_displaceVictim inv sound' clock within eligible' hv h').bind ?_
      rintro round t hm ⟨hkept, hroom, heligible, hwithin⟩
      exact runs_grantWindow inv (hm.round.sound sound') hwithin fresh heligible hroom hkept
  · rename_i hfree
    refine runs_grantWindow inv sound' within.le fresh eligible' ?_ h'
    have hrolled : (s.impl.modifyResource flow.descriptor.resource.id
        (·.rollInterval now)).resources[flow.descriptor.resource.id]? =
        some (resource.rollInterval now) := by
      simp only [modifyResource, get_modify, if_true, registered, Option.map_some]
    refine inv.room hrolled ?_ h'
    rw [Impl.descriptor_rollInterval]
    unfold ResourceRuntime.rollInterval
    dsimp only
    split <;> exact hfree

theorem runs_considerCandidate {limit : ℕ} (bounded : limit ≤ kEntryBound)
    (inv : RoundInvariant now I Room) (sound : Sound s.impl) (clock : s.impl.lastTick = now)
    (fresh : candidate.flow ∉ rest)
    (h : I (candidate.flow :: rest) s.impl round) :
    Runs (DecideMove now) (fun round t => I rest t.impl round)
      (considerCandidate now limit round candidate) s := by
  unfold considerCandidate
  refine .readImpl_bind ?_
  split
  · exact .pure (inv.skip h)
  · rename_i flow found
    split
    · exact .pure (inv.skip h)
    · rename_i hready
      have ready : flow.lifecycle = .ready := not_not.mp (not_or.mp hready).1
      split
      · rename_i reason hd
        have hs : Silently (RoundMove now) s.impl
            (s.impl.deferUnready candidate.flow flow reason now round.outcome).1 :=
          deferUnready_silently found (.inr ready) hd
        have hkept := inv.unready (o := round.outcome) found ready hd h
        revert hs hkept
        generalize s.impl.deferUnready candidate.flow flow reason now round.outcome = p
        intro hs hkept
        exact .modifyImpl_bind (.silently (IssueMove.silently hs)) (.pure (inv.outcome hkept))
      · rename_i hderived
        split
        · exact .pure (inv.outcome (inv.skip h))
        · rename_i hlimit
          have within : round.entries.length < kEntryBound :=
            lt_of_lt_of_le (not_le.mp hlimit) bounded
          split
          · exact .pure (inv.outcome (inv.skip h))
          · rename_i resource hresource
            split
            · exact .pure (inv.outcome (inv.skip h))
            · rename_i hcurrent
              have eligible : Eligible s.impl now candidate flow :=
                ⟨found, ready, hderived, resource, hresource, not_not.mp hcurrent⟩
              exact runs_placeCandidate inv sound clock within fresh eligible hresource h

theorem runs_considerCandidates {limit : ℕ} {candidates : List Candidate}
    (bounded : limit ≤ kEntryBound) (inv : RoundInvariant now I Room) (sound : Sound s.impl)
    (clock : s.impl.lastTick = now) (nodup : (candidates.map Candidate.flow).Nodup)
    (h : I (candidates.map Candidate.flow) s.impl round) :
    Runs (DecideMove now) (fun round t => I [] t.impl round)
      (considerCandidates now limit candidates round) s := by
  induction candidates generalizing s round with
  | nil => exact .pure h
  | cons candidate candidates ih =>
    obtain ⟨fresh, nodup⟩ := List.nodup_cons.mp nodup
    refine (runs_considerCandidate bounded inv sound clock fresh h).bind fun round t hm hpost => ?_
    exact ih (hm.round.sound sound) (hm.round.clock clock) nodup hpost

theorem grantedInvariant (now : Ticks) :
    RoundInvariant now (fun rest s round => round.Granted s now rest) fun _ _ _ => True where
  skip h := h.frame (fun _ => List.mem_cons_of_mem _) (fun _ _ _ hr _ => hr) rfl rfl
  outcome h := h.withOutcome _
  unready {id rest s round flow reason o} _ _ _ h := by
    have hsame : SameBut id s (s.deferUnready id flow reason now o).1 := sameBut_deferUnready
    refine h.frame (fun _ => List.mem_cons_of_mem _) (fun a r ha hr _ => ?_)
      reservations_deferUnready budget_deferUnready
    exact (hsame a fun he => ha (he ▸ List.mem_cons_self)).trans hr
  roll _ h := h.frame (fun _ hid => hid) (fun _ _ _ hr _ => hr) rfl budget_rollInterval
  room _ _ _ := trivial
  displace sound _ within eligible chosen h := by
    refine ⟨Round.Granted.displace within ?_, trivial⟩
    refine h.frame (fun _ hid => hid) (fun id r _ hr hl => ?_) reservations_displace budget_displace
    exact idle_displace sound chosen hr (idle_of_ready hl)
  grant {rest s round candidate flow resource quantum} sound within fresh eligible registered legal _ h := by
    obtain ⟨hpos, hwork, hcapacity, hreserved⟩ := legalQuantum_spec legal
    have hkey : flow.descriptor.flow = candidate.flow := sound.keyed.key _ _ eligible.found
    refine Round.Granted.grant (r := flow) within ?_ ?_ ?_ rfl rfl ?_ ?_
    · simpa only [runEntry, hkey] using h
    · simpa only [runEntry, hkey] using fresh
    · refine ⟨?_, eligible.ready, eligible.usable, eligible.current, ⟨candidate, rfl⟩, hpos, hwork,
        eligible.timely⟩
      simpa only [runEntry, hkey] using eligible.found
    · intro resource' hresource'
      obtain rfl : resource = resource' := Option.some.inj (registered.symm.trans hresource')
      exact hcapacity
    · intro hunder reservation hreservation
      have hbound : flow.descriptor.reservation.bound := by
        simp only [ScheduleEntry.runsUnder, Bool.and_eq_true] at hunder
        exact hunder.2
      refine (hreserved hbound).trans ?_
      exact reservationRemaining_le hbound hreservation

theorem Round.Granted.issues (h : round.Granted s.impl now []) (nonempty : round.entries ≠ []) :
    s.impl.Issues now round.entries where
  nonempty := nonempty
  size := h.size
  distinct := h.distinct
  capacity := h.capacity
  reserved := h.reserved
  run e he hk := (h.run e he hk).2
  other := h.other
  ordinal := h.ordinal

theorem runs_issueSchedule {entries : List ScheduleEntry} (clock : s.impl.lastTick = now)
    {may : Impl → List ScheduleEntry → Prop} (h : s.impl.Issues now entries)
    (allowed : may s.impl entries) :
    Runs (IssueMove now may) (fun schedule _ => schedule.entries = entries) (issueSchedule entries now)
      s := by
  unfold Runs issueSchedule
  rw [exec_readImpl_bind, exec_modifyImpl_bind, exec_bind, exec_journal_withImpl]
  cases happ : exec (journal (.scheduleIssued (s.impl.makeSchedule entries now))) s with
  | mk result t =>
    cases result with
    | error e =>
      refine ⟨(Makes.refused happ).trans ?_, fun _ h => by cases h⟩
      have hi := impl_of_append happ
      have hcount : Makes (IssueMove now may) t { t with impl := { t.impl with
          provenanceSequence := t.impl.provenanceSequence + 1 } } :=
        .silent (.quiet (.common .counters))
      rw [hi] at hcount
      exact hcount
    | ok u =>
      dsimp only
      rw [exec_modifyImpl_bind, exec_readImpl_bind, exec_lift_bind]
      have hmove : IssueMove now may s.impl (some (.scheduleIssued (s.impl.makeSchedule entries now)))
          ({ s.impl with provenanceSequence := s.impl.provenanceSequence + 1 }.applySchedule
            (s.impl.makeSchedule entries now)).advanceSchedule := by
        refine ⟨.issue clock h, fun schedule hr => ?_⟩
        cases hr
        exact allowed
      have hm := Makes.journaled hmove happ
      unfold advanceSchedule at hm
      cases hnext : ({ s.impl with provenanceSequence := s.impl.provenanceSequence + 1 }.applySchedule
        (s.impl.makeSchedule entries now)).nextSchedule.advance with
      | error e =>
        rw [hnext] at hm
        exact ⟨hm, fun _ h => by cases h⟩
      | ok next =>
        dsimp only
        rw [exec_readImpl_bind, exec_lift_bind]
        rw [hnext] at hm
        cases hgeneration : ({ s.impl with
            provenanceSequence := s.impl.provenanceSequence + 1 }.applySchedule
          (s.impl.makeSchedule entries now)).nextScheduleGeneration.advance with
        | error e =>
          rw [hgeneration] at hm
          exact ⟨hm, fun _ h => by cases h⟩
        | ok generation =>
          rw [hgeneration] at hm
          refine ⟨hm, fun schedule hschedule => ?_⟩
          cases hschedule
          rfl

theorem retireSchedulesFrom_order (i : Impl) (order ids : List ScheduleId) :
    retireSchedulesFrom { i with scheduleOrder := order } ids = retireSchedulesFrom i ids := by
  induction ids generalizing i with
  | nil => rfl
  | cons front rest ih =>
    unfold retireSchedulesFrom
    dsimp only
    split
    · rfl
    · split
      · exact ih i
      · split
        · rfl
        · exact ih (i.dropSchedule front)

theorem retireSchedulesFrom_silently {i : Impl} {ids : List ScheduleId}
    (order : i.scheduleOrder = ids) : Silently (RoundMove now) i (retireSchedulesFrom i ids) := by
  have hself : { i with scheduleOrder := ids } = i := by rw [← order]
  induction ids generalizing i with
  | nil =>
    unfold retireSchedulesFrom
    rw [hself]
  | cons front rest ih =>
    unfold retireSchedulesFrom
    split
    · rw [hself]
    · split
      · rename_i hgone
        rw [← retireSchedulesFrom_order i rest]
        refine .head (.forget order hgone) (ih rfl rfl)
      · rename_i runtime hfound
        split
        · rw [hself]
        · rename_i hidle
          rw [← retireSchedulesFrom_order (i.dropSchedule front) rest]
          refine .head (.retire order hfound ?_) (ih rfl rfl)
          simpa only [UInt64.pos_iff_ne_zero, not_or, not_not] using hidle

theorem maybeRetireSchedules_silently {i : Impl} :
    Silently (RoundMove now) i i.maybeRetireSchedules :=
  retireSchedulesFrom_silently rfl

/-- The part of a round before its candidates are considered. -/
def openRound (now : Ticks) : SchedOp (List Candidate × ArbitrationOutcome) := do
  refuseIf (now < (← readImpl).lastTick) .invalidArgument "arbitration tick moved backwards"
  modifyImpl fun s =>
    { s with lastTick := now, arbitrationRounds := s.arbitrationRounds + 1 }
  let outcome ← reclaimExpiredDeliveries now (← readImpl).scheduleOrder {}
  let (refreshed, outcome) := (← readImpl).refreshLifecycles now outcome
  modifyImpl fun _ => refreshed
  stopOverdue now ((← readImpl).overdueAttempts now)
  let (ranked, candidates) := (← readImpl).rankCandidates now
  modifyImpl fun _ => ranked.rollPreemptionWindow now
  return (candidates, outcome)

/-- The part of a round before it concludes: what is granted is decided, nothing is issued. -/
def decideGrants (now : Ticks) : SchedOp Round := do
  refuseIf (now < (← readImpl).lastTick) .invalidArgument "arbitration tick moved backwards"
  modifyImpl fun s =>
    { s with lastTick := now, arbitrationRounds := s.arbitrationRounds + 1 }
  let outcome ← reclaimExpiredDeliveries now (← readImpl).scheduleOrder {}
  let (refreshed, outcome) := (← readImpl).refreshLifecycles now outcome
  modifyImpl fun _ => refreshed
  stopOverdue now ((← readImpl).overdueAttempts now)
  let (ranked, candidates) := (← readImpl).rankCandidates now
  modifyImpl fun _ => ranked.rollPreemptionWindow now
  considerCandidates now (← readImpl).entryLimit candidates { outcome }

/-- The rest of a round: a schedule is issued for the grants, if there are any. -/
def concludeRound (now : Ticks) (round : Round) : SchedOp ArbitrationOutcome := do
  let schedule ← if round.entries = [] then pure ((← readImpl).emptySchedule now)
    else issueSchedule round.entries now
  modifyImpl fun s => (s.normalizeTransientStates now).maybeRetireSchedules
  return { round.outcome with schedule := schedule }

theorem arbitrate_eq (now : Ticks) : arbitrate now = decideGrants now >>= concludeRound now := by
  simp only [arbitrate, decideGrants, bind_assoc]
  rfl

theorem decideGrants_eq (now : Ticks) : decideGrants now = openRound now >>= fun p =>
    readImpl >>= fun i => considerCandidates now i.entryLimit p.1 { outcome := p.2 } := by
  simp only [decideGrants, openRound, bind_assoc]
  rfl

/-- The attempts the round found overdue on its way are over. -/
structure Stopped (now : Ticks) (s t : Scheduler) : Prop where
  makes : Makes (RoundMove now) s t
  ended : ∃ u, Makes (RoundMove now) s u ∧ Makes (RoundMove now) u t ∧
    ∀ a ∈ u.impl.overdueAttempts now, t.impl.Ended a

theorem makes_opening (haccepted : s.impl.lastTick ≤ now) :
    Makes (DecideMove now) s { s with impl := { s.impl with
      lastTick := now, arbitrationRounds := s.impl.arbitrationRounds + 1 } } := by
  have htick : Makes (DecideMove now) s { s with impl := { s.impl with lastTick := now } } :=
    .silent (.quiet (.tick haccepted))
  exact htick.trans (.silent (.quiet (.common .counters)))

/-- A round ranks its candidates where what it found overdue has been stopped. -/
structure RoundOpened (now : Ticks) (s : Scheduler) (p : List Candidate × ArbitrationOutcome)
    (t : Scheduler) : Prop where
  stopped : Stopped now s t
  clock : t.impl.lastTick = now
  ranked : ∃ i, Keyed i ∧ p.1 = (i.rankCandidates now).2 ∧
    t.impl = (i.rankCandidates now).1.rollPreemptionWindow now

theorem RoundOpened.nodup {p : List Candidate × ArbitrationOutcome} (h : RoundOpened now s p t) :
    (p.1.map Candidate.flow).Nodup := by
  obtain ⟨i, -, hp, -⟩ := h.ranked
  rw [hp]
  exact rankCandidates_spec.2

theorem runs_openRound (sound : Sound s.impl) :
    Runs (DecideMove now) (RoundOpened now s) (openRound now) s := by
  unfold openRound
  refine .readImpl_bind (.lift_bind fun _ hrefuse => ?_)
  have haccepted : s.impl.lastTick ≤ now := UInt64.not_lt.mp (refuseIf_eq_ok.mp hrefuse)
  have hall := makes_opening haccepted
  refine .modifyImpl_bind hall (.readImpl_bind ?_)
  have hreclaim : ∀ ids o, Runs (DecideMove now) (fun _ _ => True)
      (reclaimExpiredDeliveries now ids o) { s with impl := { s.impl with
        lastTick := now, arbitrationRounds := s.impl.arbitrationRounds + 1 } } :=
    runs_reclaimExpiredDeliveries rfl
  refine (hreclaim _ _).bind fun outcome t hm _ => .readImpl_bind ?_
  have hclock : t.impl.lastTick = now := hm.round.clock rfl
  have hall := hall.trans hm
  have hrefresh : Silently (RoundMove now) t.impl (t.impl.refreshLifecycles now outcome).1 :=
    refreshLifecycles_silently (hall.round.sound sound).keyed
  revert hrefresh
  generalize t.impl.refreshLifecycles now outcome = p
  intro hrefresh
  obtain ⟨refreshed, outcome⟩ := p
  have hm := Makes.silently (R := DecideMove now) (IssueMove.silently hrefresh)
  refine .modifyImpl_bind hm (.readImpl_bind ?_)
  have hclock := hm.round.clock hclock
  have hall := hall.trans hm
  refine (runs_stopOverdue hclock _).bind fun _ t hstop hended => .readImpl_bind ?_
  have hclock := hstop.round.clock hclock
  have hbefore := hall
  have hall := hall.trans hstop
  have hrank : Silently (RoundMove now) t.impl (t.impl.rankCandidates now).1 :=
    rankCandidates_spec.1
  have hm := Makes.silently (R := DecideMove now)
    (IssueMove.silently (hrank.trans rollPreemptionWindow_silently))
  refine .modifyImpl_bind hm (.pure ⟨?_, hm.round.clock hclock, ?_⟩)
  · exact ⟨(hall.trans hm).round, _, hbefore.round, (hstop.trans hm).round,
      fun a ha => hm.round.ended (hended a ha)⟩
  · exact ⟨t.impl, (hall.round.sound sound).keyed, rfl, rfl⟩

theorem runs_decideGrants (inv : RoundInvariant now I Room) (sound : Sound s.impl)
    (start : ∀ t ids o, Stopped now s t → t.impl.lastTick = now →
      I ids t.impl { outcome := o }) :
    Runs (DecideMove now) (fun round t => I [] t.impl round ∧ t.impl.lastTick = now)
      (decideGrants now) s := by
  rw [decideGrants_eq]
  refine (runs_openRound sound).bind fun p t hm hopened => .readImpl_bind ?_
  have hbounded : t.impl.entryLimit ≤ kEntryBound := min_le_right _ _
  have hloop := runs_considerCandidates hbounded inv (hm.round.sound sound) hopened.clock
    hopened.nodup (start t (p.1.map Candidate.flow) p.2 hopened.stopped hopened.clock)
  exact ⟨hloop.1, fun round hround => ⟨hloop.2 round hround, hloop.1.round.clock hopened.clock⟩⟩

theorem makes_finish {i : Impl} {may : Impl → List ScheduleEntry → Prop} (h : s.impl = i) :
    Makes (IssueMove now may) s
      { s with impl := (i.normalizeTransientStates now).maybeRetireSchedules } := by
  subst h
  exact .silently (IssueMove.silently (.head (.common .normalize) maybeRetireSchedules_silently))

theorem runs_arbitrate_from (inv : RoundInvariant now I Room) (sound : Sound s.impl)
    (start : ∀ t ids o, Stopped now s t → t.impl.lastTick = now →
      I ids t.impl { outcome := o }) :
    Runs (IssueMove now fun i entries => ∃ round, I [] i round ∧ entries = round.entries)
      (fun o t => ∃ (u : Scheduler) (round : Round), I [] u.impl round ∧
        o.schedule.entries = round.entries ∧ Makes (RoundMove now) u t) (arbitrate now) s := by
  rw [arbitrate_eq]
  have hdecide := runs_decideGrants ((grantedInvariant now).and inv) sound
    fun t ids o hstop hclock => ⟨.start o, start t ids o hstop hclock⟩
  refine hdecide.decided.bind ?_
  rintro round u hm ⟨⟨hgranted, hround⟩, hclock⟩
  unfold concludeRound
  have hfinish : ∀ (schedule : Schedule) (t : Scheduler), Makes (RoundMove now) u t →
      schedule.entries = round.entries →
      Runs (IssueMove now fun i entries => ∃ round, I [] i round ∧ entries = round.entries)
        (fun o t => ∃ (u : Scheduler) (round : Round), I [] u.impl round ∧
          o.schedule.entries = round.entries ∧ Makes (RoundMove now) u t)
        (modifyImpl (fun s => (s.normalizeTransientStates now).maybeRetireSchedules) >>= fun _ =>
          pure { round.outcome with schedule := schedule }) t := by
    intro schedule t ht hentries
    refine .modifyImpl_bind (makes_finish rfl) (.pure ?_)
    have hend : Makes (DecideMove now) t _ := makes_finish rfl
    exact ⟨u, round, hround, hentries, ht.trans hend.round⟩
  split
  · rename_i hempty
    exact .readImpl_bind (hfinish _ _ .refl hempty.symm)
  · rename_i hne
    refine (runs_issueSchedule hclock (hgranted.issues hne) ⟨round, hround, rfl⟩).bind ?_
    exact fun schedule t ht hentries => hfinish schedule t ht.round hentries

theorem runs_arbitrate (sound : Sound s.impl) :
    Runs (RoundMove now) (fun _ _ => True) (arbitrate now) s := by
  have h := runs_arbitrate_from (grantedInvariant now) sound fun _ _ o _ _ => .start o
  exact ⟨h.1.round, fun _ _ => trivial⟩

end Programs

end FlowScheduler

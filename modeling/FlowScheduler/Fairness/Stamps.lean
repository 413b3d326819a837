import FlowScheduler.Arbitration.Misses

/-! # Finish stamps

A flow is stamped when it becomes ready, one cost after its last stamp or after
the clock of its fairness group, whichever is later. The clock follows the
stamps of the windows that are ticket. A round, a dispatch and a completion
leave every other stamp alone.
-/

namespace FlowScheduler

open ByteCodec (Bytes)
open Failing SchedOp Impl OrderedMap

/-- The stamp a flow competes under: its own once it is ready, and until then the one it will be
given. -/
def Impl.nextFinish (s : Impl) (r : FlowRuntime) : UInt64 :=
  if r.lifecycle = .ready then r.virtualFinish
  else saturatingAdd (if r.virtualFinish < s.clockOf r then s.clockOf r else r.virtualFinish)
    (FlowRuntime.virtualCost s.policy r.descriptor)

section Stamping

variable {s : Impl} {policy : SchedulingPolicy} {clock : UInt64} {now : Ticks} {id : FlowId}
  {r r' : FlowRuntime}

theorem virtualFinish_setLifecycle_ready (fair : policy.weightedFairness) (other : r.lifecycle ≠ .ready) :
    (r.setLifecycle policy clock .ready now).virtualFinish =
      saturatingAdd (if r.virtualFinish < clock then clock else r.virtualFinish)
        (FlowRuntime.virtualCost policy r.descriptor) := by
  have hfirst : ¬ (r.lifecycle = .ready ∧ r.everReady ∧ r.eligibleSinceTick ≤ now) :=
    fun h => other h.1
  unfold FlowRuntime.setLifecycle
  rw [if_neg other]
  dsimp only
  rw [if_neg hfirst, if_pos rfl]
  unfold FlowRuntime.enterReady
  dsimp only
  rw [if_pos fair]
  obtain ⟨start, delivered, h⟩ := FlowRuntime.refreshMinServiceWindow_eq
    { r with
      lifecycle := .ready, lastChangeTick := now, eligibleSinceTick := now, everReady := true
      starvationCounted := false
      virtualFinish := saturatingAdd (if r.virtualFinish < clock then clock else r.virtualFinish)
        (FlowRuntime.virtualCost policy r.descriptor) } now
  rw [h]

theorem virtualFinish_setLifecycle {next : FlowLifecycle} (rest : next ≠ .ready) :
    (r.setLifecycle policy clock next now).virtualFinish = r.virtualFinish :=
  congrArg (fun x => x.2.2.2.2) (Impl.SameKeys.stamp_setLifecycle rest : _ = r.stamp)

theorem nextFinish_of_ready (ready : r.lifecycle = .ready) : s.nextFinish r = r.virtualFinish :=
  if_pos ready

theorem nextFinish_of_waiting (waiting : r.lifecycle = .waiting) :
    s.nextFinish r =
      saturatingAdd (if r.virtualFinish < s.clockOf r then s.clockOf r else r.virtualFinish)
        (FlowRuntime.virtualCost s.policy r.descriptor) :=
  if_neg (by rw [waiting]; decide)

theorem derivedReadiness_of_pending (descriptor : r'.descriptor = r.descriptor)
    (pending : r.lifecycle = .waiting ∨ r.lifecycle = .ready)
    (pending' : r'.lifecycle = .waiting ∨ r'.lifecycle = .ready) :
    s.derivedReadiness r' now = s.derivedReadiness r now := by
  unfold derivedReadiness dependenciesSatisfied dependencyFailed reservationUsable
  rw [descriptor]
  rcases pending with h | h <;> rcases pending' with h' | h' <;> rw [h, h'] <;> rfl

end Stamping

/-- A flow of the round: it is ready under the stamp it was to compete under. -/
structure Impl.Enters (s u : Impl) (id : FlowId) (now : Ticks) (r r' : FlowRuntime) : Prop where
  found : u.flows[id]? = some r'
  ready : r'.lifecycle = .ready
  finish : r'.virtualFinish = s.nextFinish r
  descriptor : r'.descriptor = r.descriptor
  served : r'.servedWork = r.servedWork
  derived : u.derivedReadiness r' now = .ok ()

section Opening

variable {s u : Scheduler} {now : Ticks} {p : List Candidate × ArbitrationOutcome} {id : FlowId}
  {r : FlowRuntime}

theorem satisfied_of_derived {i : Impl} (derived : i.derivedReadiness r now = .ok ()) :
    i.dependenciesSatisfied r := by
  by_contra hunsatisfied
  unfold derivedReadiness at derived
  rw [if_pos hunsatisfied] at derived
  split_ifs at derived

/-- A waiting flow that may be arbitrated becomes ready when the round opens. -/
theorem openRound_readied (sound : Sound s.impl) (h : exec (openRound now) s = (.ok p, u))
    (fair : s.impl.policy.weightedFairness) (found : s.impl.flows[id]? = some r)
    (waiting : r.lifecycle = .waiting) (derived : s.impl.derivedReadiness r now = .ok ()) :
    ∃ r', u.impl.flows[id]? = some r' ∧ r'.lifecycle = .ready ∧
      r'.virtualFinish = s.impl.nextFinish r ∧ r'.descriptor = r.descriptor ∧
      r'.servedWork = r.servedWork := by
  obtain ⟨i, o, hsound, hreclaimed, hkeyed, hrest⟩ := openRound_spares sound h
  have hpending := unengaged_of_pending (.inl waiting)
  obtain ⟨r₁, hr₁, hstands₁⟩ := hreclaimed.stands id r not_false found hpending
  have hwaiting₁ := hstands₁.lifecycle.trans waiting
  have hderived₁ : i.derivedReadiness r₁ now = .ok () := by
    rw [hstands₁.derivedReadiness,
      hreclaimed.derivedReadiness (fun _ _ _ _ => not_false) (satisfied_of_derived derived), derived]
  obtain ⟨j, o₁, r₂, hr₂, hstands₂, hpolicy, hclocks, hderived₂, hspares⟩ :=
    refreshWaitingSet_turn o hsound.keyed hr₁ hwaiting₁ (satisfied_of_derived hderived₁)
  have hstands := hstands₁.trans hstands₂
  have hwaiting₂ := hstands.lifecycle.trans waiting
  have hreleased : ¬ now < r₂.descriptor.releaseTick := by
    intro hearly
    have hok := hderived₂.trans hderived₁
    unfold derivedReadiness at hok
    rw [if_pos hearly] at hok
    split_ifs at hok
  -- at its turn the flow is stamped
  obtain ⟨r₃, hr₃, hready₃, hfinish₃, hdescriptor₃, hserved₃⟩ : ∃ r₃,
      (refreshWaiting now (j, o₁) id).1.flows[id]? = some r₃ ∧ r₃.lifecycle = .ready ∧
      r₃.virtualFinish = s.impl.nextFinish r ∧ r₃.descriptor = r.descriptor ∧
      r₃.servedWork = r.servedWork := by
    unfold refreshWaiting
    dsimp only
    rw [hr₂]
    dsimp only
    rw [if_neg (by rw [hwaiting₂]; decide), if_neg hreleased, hderived₂, hderived₁]
    simp only [Impl.recordStep, Impl.setLifecycle, Impl.modifyFlow, get_modify, if_true, hr₂,
      Option.map_some]
    refine ⟨_, rfl, by simp, ?_, by simp [hstands.descriptor], ?_⟩
    · rw [FlowRuntime.virtualFinish_recordStep, virtualFinish_setLifecycle_ready
        (by rw [hpolicy, hreclaimed.policy, fair]) (by rw [hwaiting₂]; decide),
        nextFinish_of_waiting waiting, clockOf, clockOf, hclocks, hreclaimed.clocks, hpolicy,
        hreclaimed.policy, hstands.descriptor, hstands.virtualFinish]
    · rw [FlowRuntime.servedWork_recordStep, FlowRuntime.servedWork_setLifecycle, hstands.servedWork]
  -- the rest of the opening leaves it
  obtain ⟨r₄, hr₄, hstands₄⟩ :=
    hspares.stands id r₃ (fun h => h rfl) hr₃ (unengaged_of_pending (.inr hready₃))
  have hready₄ := hstands₄.lifecycle.trans hready₃
  obtain ⟨r₅, hr₅, hstands₅⟩ := hrest.stands id r₄ (fun hindexed => by
    have hslot := slot_of_indexed .inflight hkeyed (by decide) hindexed hr₄
    rw [hready₄] at hslot
    cases hslot) hr₄ (unengaged_of_pending (.inr hready₄))
  have hstands' := hstands₄.trans hstands₅
  exact ⟨r₅, hr₅, hstands'.lifecycle.trans hready₃, hstands'.virtualFinish.trans hfinish₃,
    hstands'.descriptor.trans hdescriptor₃, hstands'.servedWork.trans hserved₃⟩

theorem openRound_enters (sound : Sound s.impl) (h : exec (openRound now) s = (.ok p, u))
    (fair : s.impl.policy.weightedFairness) (found : s.impl.flows[id]? = some r)
    (pending : r.lifecycle = .waiting ∨ r.lifecycle = .ready)
    (derived : s.impl.derivedReadiness r now = .ok ()) : ∃ r', s.impl.Enters u.impl id now r r' := by
  have hspares := openRound_spares_ready sound h
  have hderived : u.impl.derivedReadiness r now = .ok () :=
    (hspares.derivedReadiness (fun k x hx hcompleted h => (h x hx).2 hcompleted)
      (satisfied_of_derived derived)).trans derived
  have hthen : ∀ r', u.impl.flows[id]? = some r' → r'.lifecycle = .ready →
      r'.virtualFinish = s.impl.nextFinish r → r'.descriptor = r.descriptor →
      r'.servedWork = r.servedWork → s.impl.Enters u.impl id now r r' :=
    fun r' hr' hready hfinish hdescriptor hserved => ⟨hr', hready, hfinish, hdescriptor, hserved,
      (derivedReadiness_of_pending hdescriptor pending (.inr hready)).trans hderived⟩
  rcases pending with waiting | ready
  · obtain ⟨r', hr', hready, hfinish, hdescriptor, hserved⟩ :=
      openRound_readied sound h fair found waiting derived
    exact ⟨r', hthen r' hr' hready hfinish hdescriptor hserved⟩
  · obtain ⟨r', hr', hstands⟩ := hspares.stands id r (fun h => (h r found).1 ready) found
      (unengaged_of_pending (.inr ready))
    exact ⟨r', hthen r' hr' (hstands.lifecycle.trans ready)
      (hstands.virtualFinish.trans (nextFinish_of_ready ready).symm) hstands.descriptor
      hstands.servedWork⟩

end Opening

/-- What a flow is charged by: its descriptor and its stamp. -/
def FlowRuntime.mark (r : FlowRuntime) : FlowDescriptor × UInt64 := (r.descriptor, r.virtualFinish)

/-- What the stamps are computed from: the policy and the clocks of the groups. -/
def Impl.clocking (s : Impl) : SchedulingPolicy × Table FairnessGroupId UInt64 :=
  (s.policy, s.virtualTime)

def Impl.groupClock (s : Impl) (g : FairnessGroupId) : ℕ := (s.virtualTime.getD g 0).toNat

section Clocking

variable {s : Impl} {now : Ticks} {e : ScheduleEntry} {r : FlowRuntime}

theorem mark_of_stamp {r' : FlowRuntime} (h : r'.stamp = r.stamp) : r'.mark = r.mark :=
  congrArg (fun x => (x.1, x.2.2.2.2)) h

theorem scheduleFlow_marks (schedule : Schedule) (found : s.flows[e.flow]? = some r) :
    ∃ r', (s.scheduleFlow schedule e).flows[e.flow]? = some r' ∧ r'.mark = r.mark ∧
      r'.lifecycle = .scheduled := by
  simp only [scheduleFlow, Impl.recordStep, Impl.setLifecycle, Impl.modifyFlow, get_modify, if_true,
    found, Option.map_some]
  refine ⟨_, rfl, ?_, by simp⟩
  rw [FlowRuntime.mark, FlowRuntime.virtualFinish_recordStep, virtualFinish_setLifecycle (by decide)]
  simp [FlowRuntime.mark]

theorem advanceGroupClock_le {id : FlowId} {r' : FlowRuntime} (found : s.flows[id]? = some r')
    (g : FairnessGroupId) :
    (s.advanceGroupClock id r).groupClock g ≤ max (s.groupClock g) r'.virtualFinish.toNat := by
  unfold advanceGroupClock
  split
  · rw [found]
    simp only [Impl.groupClock, Option.getD_some, Std.ExtTreeMap.getD_insert]
    split
    · rename_i hgroup
      obtain rfl := Std.LawfulEqCmp.eq_of_compare hgroup
      split
      · exact le_max_right _ _
      · exact le_max_left _ _
    · exact le_max_left _ _
  · exact le_max_left _ _

theorem applyRunEntry_marks (schedule : Schedule) (found : s.flows[e.flow]? = some r)
    (ready : r.lifecycle = .ready) :
    (s.applyRunEntry schedule e).policy = s.policy ∧
      (∃ r', (s.applyRunEntry schedule e).flows[e.flow]? = some r' ∧ r'.mark = r.mark ∧
        r'.lifecycle.isTransient = false) ∧
      ∀ g, (s.applyRunEntry schedule e).groupClock g ≤ max (s.groupClock g) r.virtualFinish.toNat := by
  have hsame : s.policy = s.policy ∧
      (∃ r', s.flows[e.flow]? = some r' ∧ r'.mark = r.mark ∧ r'.lifecycle.isTransient = false) ∧
      ∀ g, s.groupClock g ≤ max (s.groupClock g) r.virtualFinish.toNat :=
    ⟨rfl, ⟨r, found, rfl, by rw [ready]; rfl⟩, fun g => le_max_left _ _⟩
  unfold applyRunEntry
  rw [found]
  dsimp only
  split
  · exact hsame
  · split
    · exact hsame
    · obtain ⟨r', hr', hmark, hscheduled⟩ := scheduleFlow_marks schedule found
      obtain ⟨reservations, hcharged⟩ := chargeReservation_eq
        (((s.scheduleFlow schedule e).countPending schedule.schedule).chargeResource e) e
      rw [hcharged]
      have hlifted := fun g => advanceGroupClock_le (r := r) (s :=
        { ((s.scheduleFlow schedule e).countPending schedule.schedule).chargeResource e with
          reservations := reservations }) hr' g
      obtain ⟨clocks, hadvanced, -⟩ := advanceGroupClock_eq
        { ((s.scheduleFlow schedule e).countPending schedule.schedule).chargeResource e with
          reservations := reservations } e.flow r
      rw [hadvanced] at hlifted ⊢
      have hfinish : r'.virtualFinish = r.virtualFinish := congrArg Prod.snd hmark
      rw [hfinish] at hlifted
      exact ⟨rfl, ⟨r', hr', hmark, by rw [hscheduled]; rfl⟩, hlifted⟩

theorem nextFinish_congr {s' : Impl} (h : s'.clocking = s.clocking) :
    s'.nextFinish r = s.nextFinish r := by
  have hpolicy : s'.policy = s.policy := congrArg Prod.fst h
  have hclocks : s'.virtualTime = s.virtualTime := congrArg Prod.snd h
  rw [Impl.nextFinish, Impl.nextFinish, clockOf, clockOf, hpolicy, hclocks]

theorem applyCompletion_marks {evidence : CompletionEvidence} {lifecycle : FlowLifecycle}
    {x : AttemptRuntime} (credited : UInt64) (now : Ticks)
    (retained : s.attempts[evidence.attempt]? = some x)
    (found : s.flows[evidence.flow]? = some r) (rest : lifecycle ≠ .ready) :
    (s.applyCompletion evidence credited lifecycle now).clocking = s.clocking ∧
      SameBut evidence.flow s (s.applyCompletion evidence credited lifecycle now) ∧
      ∃ r', (s.applyCompletion evidence credited lifecycle now).flows[evidence.flow]? = some r' ∧
        r'.mark = r.mark ∧ r'.lifecycle = lifecycle := by
  simp only [applyCompletion, retained]
  have hended : ∀ record, (s.endAttempt evidence.attempt record).flows = s.flows := fun _ => rfl
  rw [hended, found]
  dsimp only
  refine ⟨?_, ?_, ?_⟩
  · simp only [Impl.clocking, Impl.recordStep, Impl.setLifecycle, Impl.creditFlow, Impl.releaseAttempt,
      Impl.releaseInFlight, Impl.modifyFlow, Impl.modifyResource, Impl.endAttempt, Impl.modifySchedule]
  · intro k hk
    simp only [Impl.recordStep, Impl.setLifecycle, Impl.creditFlow, Impl.releaseAttempt,
      Impl.releaseInFlight, Impl.modifyFlow, Impl.modifyResource, get_modify, if_neg hk, hended]
  · simp only [Impl.recordStep, Impl.setLifecycle, Impl.creditFlow, Impl.releaseAttempt,
      Impl.releaseInFlight, Impl.modifyFlow, Impl.modifyResource, get_modify, if_true, hended, found,
      Option.map_some]
    refine ⟨_, rfl, ?_, by simp⟩
    rw [FlowRuntime.mark, FlowRuntime.virtualFinish_recordStep, virtualFinish_setLifecycle rest]
    simp [FlowRuntime.mark, FlowRuntime.clearScheduled]

theorem resumeFlow_stamps {flow : FlowId} (credited : UInt64) (now : Ticks)
    (fair : s.policy.weightedFairness)
    (found : s.flows[flow]? = some r) (waiting : r.lifecycle = .waiting) :
    (s.resumeFlow flow credited now).clocking = s.clocking ∧
      SameBut flow s (s.resumeFlow flow credited now) ∧
      ∃ r', (s.resumeFlow flow credited now).flows[flow]? = some r' ∧
        (r'.lifecycle = .waiting ∨ r'.lifecycle = .ready) ∧ r'.descriptor = r.descriptor ∧
        s.nextFinish r' = s.nextFinish r := by
  unfold resumeFlow
  rw [found]
  dsimp only
  split
  · refine ⟨rfl, sameBut_setLifecycle.trans sameBut_modifyFlow, ?_⟩
    simp only [Impl.recordStep, Impl.setLifecycle, Impl.modifyFlow, get_modify, if_true, found,
      Option.map_some]
    refine ⟨_, rfl, .inr (by simp), by simp, ?_⟩
    rw [nextFinish_of_ready (by simp), FlowRuntime.virtualFinish_recordStep,
      virtualFinish_setLifecycle_ready fair (by rw [waiting]; decide), nextFinish_of_waiting waiting]
  · have hself : s.setLifecycle flow .waiting now = s := setLifecycle_self fun x hx => by
      obtain rfl := Option.some.inj (found.symm.trans hx)
      exact waiting
    rw [hself]
    exact ⟨rfl, .refl, r, found, .inl waiting, rfl, rfl⟩

theorem lifecycleAfterCompletion_cases {evidence : CompletionEvidence} :
    lifecycleAfterCompletion evidence r = .waiting ∨
      (lifecycleAfterCompletion evidence r).isTerminal := by
  unfold lifecycleAfterCompletion
  split_ifs <;> decide

theorem rest_of_terminal {l : FlowLifecycle} (h : l.isTerminal) :
    l ≠ .waiting ∧ l ≠ .ready ∧ l.isTransient = false := by
  revert h
  cases l <;> decide

/-- A flow that is left with work after a completion competes one cost later. -/
theorem settled_stamps {evidence : CompletionEvidence} {lifecycle : FlowLifecycle}
    {x : AttemptRuntime} {r' : FlowRuntime} {s' : Impl} (credited : UInt64)
    (retained : s.attempts[evidence.attempt]? = some x)
    (held : s.flows[evidence.flow]? = some r) (rest : lifecycle = .waiting ∨ lifecycle.isTerminal)
    (fair : s.policy.weightedFairness)
    (after : s' = (if lifecycle = .waiting then
        (s.applyCompletion evidence credited lifecycle now).resumeFlow evidence.flow credited now
      else s.applyCompletion evidence credited lifecycle now).normalizeTransientStates now)
    (found : s'.flows[evidence.flow]? = some r')
    (pending : r'.lifecycle = .waiting ∨ r'.lifecycle = .ready) :
    s'.clocking = s.clocking ∧
      (∀ id r, id ≠ evidence.flow → s.flows[id]? = some r → r.lifecycle.isTransient = false →
        s'.flows[id]? = some r) ∧
      r'.descriptor = r.descriptor ∧
      s'.nextFinish r' =
        saturatingAdd (if r.virtualFinish < s'.clockOf r then s'.clockOf r else r.virtualFinish)
          (FlowRuntime.virtualCost s'.policy r.descriptor) := by
  have hstill : lifecycle ≠ .ready := by
    rcases rest with h | h
    · rw [h]
      decide
    · exact (rest_of_terminal h).2.1
  obtain ⟨hclocking, hsame, r₁, hr₁, hmark, hlifecycle⟩ := applyCompletion_marks credited now
    retained held hstill
  generalize s.applyCompletion evidence credited lifecycle now = i at *
  by_cases hwaiting : lifecycle = .waiting
  · rw [if_pos hwaiting] at after
    have hfair : i.policy.weightedFairness := by
      rw [show i.policy = s.policy from congrArg Prod.fst hclocking, fair]
    obtain ⟨hclocking₂, hsame₂, r₂, hr₂, hpending, hdescriptor, hnext⟩ :=
      resumeFlow_stamps credited now hfair hr₁ (hlifecycle.trans hwaiting)
    generalize i.resumeFlow evidence.flow credited now = j at *
    have hclocking' : s'.clocking = i.clocking := by
      rw [after, look_normalizeTransientStates Impl.clocking rfl, hclocking₂]
    have hkept : (j.normalizeTransientStates now).flows[evidence.flow]? = some r₂ :=
      steady_normalize hr₂ (by rcases hpending with h | h <;> rw [h] <;> rfl)
    rw [← after] at hkept
    obtain rfl := Option.some.inj (hkept.symm.trans found)
    refine ⟨hclocking'.trans hclocking, fun id r hid hr hsteady => ?_, ?_, ?_⟩
    · rw [after]
      exact steady_normalize (by rw [hsame₂ id hid, hsame id hid, hr]) hsteady
    · exact hdescriptor.trans (congrArg Prod.fst hmark)
    · rw [nextFinish_congr hclocking', hnext, nextFinish_of_waiting (hlifecycle.trans hwaiting)]
      have hd : r₁.descriptor = r.descriptor := congrArg Prod.fst hmark
      have hf : r₁.virtualFinish = r.virtualFinish := congrArg Prod.snd hmark
      have hp : s'.policy = i.policy := congrArg Prod.fst hclocking'
      have hv : s'.virtualTime = i.virtualTime := congrArg Prod.snd hclocking'
      rw [clockOf, clockOf, hd, hf, hp, hv]
  · -- the flow has ended, so it is not pending
    rw [if_neg hwaiting] at after
    obtain ⟨hw, hr, hsteady⟩ := rest_of_terminal (rest.resolve_left hwaiting)
    have hkept : (i.normalizeTransientStates now).flows[evidence.flow]? = some r₁ :=
      steady_normalize hr₁ (by rw [hlifecycle, hsteady])
    rw [← after] at hkept
    obtain rfl := Option.some.inj (hkept.symm.trans found)
    rw [hlifecycle] at pending
    rcases pending with h | h
    · exact absurd h hw
    · exact absurd h hr

end Clocking

section Calls

variable {s t : Scheduler} {now : Ticks} {id : FlowId} {e : ScheduleEntry} {r : FlowRuntime}

/-- A round that issues one window lifts the clocks to the stamp of its flow at most. -/
theorem concludeRound_issues {round : Round} {o : ArbitrationOutcome}
    (h : exec (concludeRound now round) s = (.ok o, t)) (single : round.entries = [e])
    (run : e.kind = .run) (found : s.impl.flows[e.flow]? = some r) (ready : r.lifecycle = .ready) :
    t.impl.policy = s.impl.policy ∧
      (∃ r', t.impl.flows[e.flow]? = some r' ∧ r'.mark = r.mark) ∧
      ∀ g, t.impl.groupClock g ≤ max (s.impl.groupClock g) r.virtualFinish.toNat := by
  obtain ⟨hschedule, himpl⟩ := concludeRound_ok (by rw [single]; exact List.cons_ne_nil _ _) h
  have hentries : o.schedule.entries = [e] := by
    rw [hschedule, ← single]
    rfl
  obtain ⟨hpolicy, ⟨r', hr', hmark, hsteady⟩, hlifted⟩ := applyRunEntry_marks
    (s := { s.impl with
      provenanceSequence := s.impl.provenanceSequence + 1 }.retainSchedule o.schedule) o.schedule
    found ready
  have happlied : { s.impl with
      provenanceSequence := s.impl.provenanceSequence + 1 }.applySchedule o.schedule =
        ({ s.impl with provenanceSequence := s.impl.provenanceSequence + 1 }.retainSchedule
          o.schedule).applyRunEntry o.schedule e := by
    rw [applySchedule, hentries, applyEntries, List.foldl_cons, List.foldl_nil, if_neg (by simp [run])]
  rw [← happlied] at hpolicy hr' hlifted
  generalize { s.impl with
    provenanceSequence := s.impl.provenanceSequence + 1 }.applySchedule o.schedule = i
    at himpl hpolicy hr' hlifted
  have hclocking : t.impl.clocking = i.clocking := by
    rw [himpl, maybeRetireSchedules,
      look_retireSchedulesFrom Impl.clocking rfl rfl, look_normalizeTransientStates Impl.clocking rfl]
    unfold advanceSchedule
    split <;> rfl
  refine ⟨(congrArg Prod.fst hclocking).trans hpolicy, ⟨r', ?_, hmark⟩, fun g => ?_⟩
  · rw [himpl, maybeRetireSchedules, flows_retireSchedulesFrom]
    refine steady_normalize ?_ hsteady
    rw [flows_advanceSchedule, hr']
  · have hclocks : t.impl.virtualTime = i.virtualTime := congrArg Prod.snd hclocking
    rw [Impl.groupClock, hclocks]
    exact hlifted g

/-- A dispatch leaves the clocks and the stamps, and the other flows altogether. -/
theorem beginDispatch_keeps {schedule : ScheduleId} {generation : Generation} {ordinal : UInt32}
    {worker : WorkerId} {boot : BootId} {ticket : DispatchTicket}
    (h : exec (beginDispatch schedule generation ordinal worker boot now) s = (.ok ticket, t)) :
    t.impl.clocking = s.impl.clocking ∧ t.impl.stamps = s.impl.stamps ∧
      SameBut ticket.flow s.impl t.impl := by
  rw [beginDispatch, exec_touch_bind, exec_readImpl_bind] at h
  obtain ⟨⟨entry, flow⟩, u, hguard, h⟩ := exec_bind_ok.mp h
  rw [exec_lift] at hguard
  obtain ⟨-, rfl⟩ := Prod.mk.inj hguard
  dsimp only at h
  generalize Impl.issueTicket _ _ _ _ _ _ _ = ticket at h
  obtain ⟨_, u, hjournal, h⟩ := exec_bind_ok.mp h
  rw [exec_modifyImpl_bind, exec_readImpl_bind, impl_of_append hjournal] at h
  obtain ⟨next, v, hadvance, h⟩ := exec_bind_ok.mp h
  rw [exec_lift] at hadvance
  obtain ⟨-, rfl⟩ := Prod.mk.inj hadvance
  rw [exec_modifyImpl_bind] at h
  cases h
  refine ⟨?_, ?_, ?_⟩
  · dsimp only [consumeEntry, Impl.modifySchedule, Impl.clocking]
    unfold applyAttemptOpened
    dsimp only
    split <;> rfl
  · have hopened : ∀ i : Impl, (i.applyAttemptOpened ticket ticket.quantum now).stamps = i.stamps := by
      intro i
      unfold applyAttemptOpened
      dsimp only
      split
      · rfl
      · have hheld : SameKeys (i.fileAttempt ticket now)
            ((i.fileAttempt ticket now).dispatchFlow ticket ticket.quantum now) :=
          ((SameKeys.modifyFlow fun r => by rfl).trans (SameKeys.setLifecycle (by decide))).trans
            SameKeys.recordStep
        exact hheld.stamps
    exact hopened _
  · intro k hk
    exact sameBut_applyAttemptOpened k hk

theorem complete_stamps {evidence : CompletionEvidence} {outcome : CommitOutcome} {r' : FlowRuntime}
    (h : exec (complete evidence now) s = (.ok outcome, t)) (applied : outcome.disposition = .applied)
    (fair : s.impl.policy.weightedFairness) (found : t.impl.flows[evidence.flow]? = some r')
    (pending : r'.lifecycle = .waiting ∨ r'.lifecycle = .ready) :
    t.impl.clocking = s.impl.clocking ∧
      (∀ id r, id ≠ evidence.flow → s.impl.flows[id]? = some r → r.lifecycle.isTransient = false →
        t.impl.flows[id]? = some r) ∧
      ∃ r, s.impl.flows[evidence.flow]? = some r ∧ r'.descriptor = r.descriptor ∧
        t.impl.nextFinish r' =
          saturatingAdd (if r.virtualFinish < t.impl.clockOf r then t.impl.clockOf r
            else r.virtualFinish) (FlowRuntime.virtualCost t.impl.policy r.descriptor) := by
  rw [complete, exec_touch_bind, exec_modifyImpl_bind, exec_readImpl_bind] at h
  split at h
  · cases h
    cases applied
  · cases h
    cases applied
  · rename_i flow attempt hverdict
    have hcommits := commits_of_verdict hverdict
    obtain ⟨_, v, hjournal, h⟩ := exec_bind_ok.mp h
    rw [exec_modifyImpl_bind, exec_readImpl_bind, impl_of_append hjournal] at h
    cases h
    obtain ⟨hclocking, hothers, hdescriptor, hfinish⟩ := settled_stamps
      (creditOf evidence) hcommits.retained hcommits.found lifecycleAfterCompletion_cases fair rfl
      found pending
    exact ⟨hclocking, hothers, flow, hcommits.found, hdescriptor, hfinish⟩

end Calls

end FlowScheduler

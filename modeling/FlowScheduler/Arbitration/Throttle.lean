import FlowScheduler.Arbitration.Displacement
import FlowScheduler.Arbitration.Eligibility
import FlowScheduler.Steps.Edits

/-! # The throttle of the displacements

A policy bounds how many incumbents may be displaced per window of ticks. The
scheduler counts the displacements of the current window only. Within one epoch
and under one policy the clock never comes back to a window it has left, so the
count bounds what all schedules of a window displace together.
-/

namespace FlowScheduler

open ByteCodec (Bytes)
open Failing SchedOp Impl OrderedMap

namespace Impl

variable {s : Impl} {now : Ticks}

/-- Nothing the displacements are counted with has changed. -/
def SameThrottle (i j : Impl) : Prop := j.throttle = i.throttle

instance : IsPreorder Impl SameThrottle where
  refl _ := rfl
  trans _ _ _ h h' := h'.trans h

theorem SameThrottle.edits : Edits now SameThrottle where
  quiet _ h := h
  lifecycle _ _ := rfl
  clock _ := by
    unfold advanceGroupClock
    split <;> rfl

/-- By the tick of a round the count has grown, or a new window has been opened. -/
structure Advances (now : Ticks) (i j : Impl) : Prop where
  policy : j.policy = i.policy
  window : j.preemptionWindowIndex = i.preemptionWindowIndex ∧
      i.preemptionsInWindow ≤ j.preemptionsInWindow ∨
    j.preemptionWindowIndex = now / i.policy.preemptionIntervalTicks ∧
      j.preemptionWindowIndex ≠ i.preemptionWindowIndex

theorem SameThrottle.advances {i j : Impl} (h : SameThrottle i j) : Advances now i j where
  policy := congrArg Throttle.policy h
  window := by
    left
    constructor
    · exact congrArg Throttle.windowIndex h
    · exact UInt32.le_of_eq (congrArg Throttle.inWindow h).symm

theorem Advances.trans {i j k : Impl} (h : Advances now i j) (h' : Advances now j k) :
    Advances now i k where
  policy := h'.policy.trans h.policy
  window := by
    have hwindow := h'.window
    rw [h.policy] at hwindow
    rcases h.window with ⟨hsame, hcount⟩ | ⟨hnew, hleft⟩
    · rcases hwindow with ⟨hsame', hcount'⟩ | ⟨hnew', hleft'⟩
      · exact .inl ⟨hsame'.trans hsame, UInt32.le_trans hcount hcount'⟩
      · exact .inr ⟨hnew', hsame ▸ hleft'⟩
    · rcases hwindow with ⟨hsame', -⟩ | ⟨hnew', hleft'⟩
      · exact .inr ⟨hsame'.trans hnew, hsame' ▸ hleft⟩
      · exact absurd (hnew'.trans hnew.symm) hleft'

instance : IsPreorder Impl (Advances now) where
  refl _ := SameThrottle.advances rfl
  trans _ _ _ := .trans

theorem Advances.edits : Edits now (Advances now) where
  quiet _ h := SameThrottle.advances h
  lifecycle _ _ := SameThrottle.advances rfl
  clock mem := SameThrottle.advances ((@SameThrottle.edits now).clock mem)

theorem windowIndex_rollPreemptionWindow : (s.rollPreemptionWindow now).preemptionWindowIndex =
    now / s.policy.preemptionIntervalTicks := by
  have hwindow : (if s.policy.preemptionIntervalTicks = 0 then 0
      else now / s.policy.preemptionIntervalTicks) = now / s.policy.preemptionIntervalTicks := by
    split
    · rename_i hzero
      rw [hzero, UInt64.div_zero]
    · rfl
  unfold rollPreemptionWindow
  rw [hwindow]
  dsimp only
  split
  · rfl
  · rename_i hsame
    exact (not_not.mp hsame).symm

theorem advances_rollPreemptionWindow : s.Advances now (s.rollPreemptionWindow now) := by
  have hindex : (s.rollPreemptionWindow now).preemptionWindowIndex =
      now / s.policy.preemptionIntervalTicks := windowIndex_rollPreemptionWindow
  unfold rollPreemptionWindow at hindex ⊢
  generalize (if s.policy.preemptionIntervalTicks = 0 then 0
    else now / s.policy.preemptionIntervalTicks) = window at hindex ⊢
  dsimp only at hindex ⊢
  split at hindex <;> rename_i hchanged
  · rw [if_pos hchanged]
    exact ⟨rfl, .inr ⟨hindex, hchanged⟩⟩
  · rw [if_neg hchanged]
    exact refl_of (Advances now) s

/-- Displacing an incumbent that may be displaced counts one more, within the bound. -/
theorem throttle_displace {victim : Victim} {resource : ResourceId} :
    (s.displace victim resource now).throttle =
      { s.throttle with inWindow := s.preemptionsInWindow + 1 } := by
  have hclosed : (s.applyAttemptClosed victim.attempt .preempted
      (ascii "displaced by higher authority") now).throttle = s.throttle :=
    SameThrottle.edits.applyAttemptClosed fun _ => trivial
  simp only [displace, throttle, modifyResource, Throttle.mk.injEq] at hclosed ⊢
  simp only [hclosed, and_self]

theorem toNat_succ_of_lt {count bound : UInt32} (h : count < bound) :
    (count + 1).toNat = count.toNat + 1 := by
  have hbound := bound.toNat_lt
  rw [UInt32.lt_iff_toNat_lt] at h
  rw [UInt32.toNat_add, UInt32.toNat_one]
  omega

end Impl

section Rounds

variable {now : Ticks} {s t : Scheduler} {round : Round} {candidate : Candidate} {flow : FlowRuntime}

theorem advances_placeCandidate {resource : ResourceRuntime} :
    Relates (Advances now) (placeCandidate now candidate flow resource round) s := by
  unfold placeCandidate
  refine .modifyImpl_bind (SameThrottle.advances rfl) fun t => ?_
  split
  · refine .readImpl_bind ?_
    split
    · exact .pure
    · rename_i victim hchosen
      refine .bind ?_ fun _ _ => .grantWindow
      obtain ⟨-, -, -, hdisplaceable, -⟩ := chooseVictim_ok hchosen
      have hclose : Relates SameThrottle (closeAttempt victim.attempt .preempted
          (ascii "displaced by higher authority") now) t := SameThrottle.edits.closeAttempt
      refine .bind_ok (hclose.mono fun _ _ h => h.advances) fun _ u hu => ?_
      unfold Relates at hclose
      rw [hu] at hclose
      have hbelow : u.impl.preemptionsInWindow < u.impl.policy.maxPreemptionsPerInterval := by
        have hthrottle : u.impl.throttle = t.impl.throttle := hclose
        rw [show u.impl.preemptionsInWindow = t.impl.preemptionsInWindow from
          congrArg Throttle.inWindow hthrottle, show u.impl.policy = t.impl.policy from
          congrArg Throttle.policy hthrottle]
        exact hdisplaceable.unthrottled
      refine .modifyImpl_bind ⟨rfl, .inl ⟨rfl, ?_⟩⟩ fun _ => .pure
      rw [UInt32.le_iff_toNat_le]
      exact (Nat.le_succ _).trans (toNat_succ_of_lt hbelow).ge
  · exact .grantWindow

def displacedBy (entries : List ScheduleEntry) : ℕ := entries.countP (·.kind = .preempt)

/-- With the displacements entered so far the count has come from the one at the start of the round,
and it is within the bound as soon as there are any. -/
structure Impl.Counts (start : Throttle) (i : Impl) (entries : List ScheduleEntry) : Prop where
  policy : i.policy = start.policy
  window : i.preemptionWindowIndex = start.windowIndex
  count : i.preemptionsInWindow.toNat = start.inWindow.toNat + displacedBy entries
  bounded : displacedBy entries ≠ 0 →
    i.preemptionsInWindow ≤ start.policy.maxPreemptionsPerInterval

namespace Impl.Counts

variable {start : Throttle} {i j : Impl} {entries : List ScheduleEntry}

theorem congr (h : i.Counts start entries) (same : SameThrottle i j) : j.Counts start entries := by
  obtain ⟨hpolicy, hwindow, hcount, hbounded⟩ := h
  have hinWindow : j.preemptionsInWindow = i.preemptionsInWindow := congrArg Throttle.inWindow same
  refine ⟨(congrArg Throttle.policy same).trans hpolicy,
    (congrArg Throttle.windowIndex same).trans hwindow, ?_, ?_⟩
  · rw [hinWindow, hcount]
  · rwa [hinWindow]

theorem run {e : ScheduleEntry} (h : i.Counts start entries) (kind : e.kind = .run) :
    i.Counts start (entries ++ [e]) := by
  have hsame : displacedBy (entries ++ [e]) = displacedBy entries := by
    simp [displacedBy, List.countP_append, kind]
  exact ⟨h.policy, h.window, hsame ▸ h.count, hsame ▸ h.bounded⟩

theorem preempt {e : ScheduleEntry} {victim : Victim} {resource : ResourceId}
    (h : i.Counts start entries) (kind : e.kind = .preempt) (displaceable : i.Displaceable victim.flow) :
    (i.displace victim resource now).Counts start (entries ++ [e]) := by
  have hmore : displacedBy (entries ++ [e]) = displacedBy entries + 1 := by
    simp [displacedBy, List.countP_append, kind]
  have hthrottle : (i.displace victim resource now).throttle =
      { i.throttle with inWindow := i.preemptionsInWindow + 1 } := throttle_displace
  have hcount : (i.displace victim resource now).preemptionsInWindow = i.preemptionsInWindow + 1 :=
    congrArg Throttle.inWindow hthrottle
  have hbelow := displaceable.unthrottled
  refine ⟨(congrArg Throttle.policy hthrottle).trans h.policy,
    (congrArg Throttle.windowIndex hthrottle).trans h.window, ?_, fun _ => ?_⟩
  · rw [hcount, toNat_succ_of_lt hbelow, h.count, hmore]
    rfl
  · rw [hcount, UInt32.le_iff_toNat_le, toNat_succ_of_lt hbelow, ← h.policy]
    rwa [UInt32.lt_iff_toNat_lt] at hbelow

theorem decides {limit : ℕ} {c : Candidate} {round' : Round} (h : i.Counts start round.entries)
    (step : Decides now limit c i round j round') : j.Counts start round'.entries := by
  have hrolled : ∀ d : FlowDescriptor, (i.rolled d now).Counts start round.entries :=
    fun d => h.congr rfl
  have hdisplace : ∀ {d : FlowDescriptor} {victim : Victim} {resource : ResourceId} {ordinal : UInt32},
      (i.rolled d now).chooseVictim c d now = .ok victim →
      ((i.rolled d now).displace victim resource now).Counts start
        (round.entries ++ [preemptEntry victim ordinal c d now]) := by
    intro d victim resource ordinal hchosen
    obtain ⟨-, -, -, hdisplaceable, -⟩ := chooseVictim_ok hchosen
    exact (hrolled d).preempt rfl hdisplaceable
  cases step with
  | passed | deferred => exact h
  | unready => exact h.congr SameThrottle.edits.deferUnready
  | blocked | windowless => exact hrolled _
  | granted => exact (hrolled _).run rfl
  | displaced _ _ _ _ _ chosen after entered =>
    subst after entered
    exact hdisplace chosen
  | replaced _ _ _ _ _ chosen after entered =>
    subst after entered
    exact (hdisplace chosen).run rfl

end Impl.Counts

/-- The candidates of a round are counted on top of what its window has seen before. -/
theorem decideGrants_counts (sound : Sound s.impl) (h : exec (decideGrants now) s = (.ok round, t)) :
    ∃ u : Impl, s.impl.Advances now u ∧
      u.preemptionWindowIndex = now / s.impl.policy.preemptionIntervalTicks ∧
      t.impl.Counts u.throttle round.entries := by
  obtain ⟨p, u, hopen, hall⟩ := decideGrants_ok sound h
  obtain ⟨-, hopened, -⟩ := openRound_ok sound hopen
  obtain ⟨i, -, -, himpl⟩ := hopened.ranked
  have hadvances : s.impl.Advances now u.impl := by
    have hrelates : Relates (Advances now) (openRound now) s :=
      Advances.edits.openRound advances_rollPreemptionWindow
    unfold Relates at hrelates
    rwa [hopen] at hrelates
  have hindex : u.impl.preemptionWindowIndex = now / u.impl.policy.preemptionIntervalTicks := by
    rw [himpl, windowIndex_rollPreemptionWindow]
    exact congrArg (now / SchedulingPolicy.preemptionIntervalTicks ·)
      (congrArg Setting.policy setting_rollPreemptionWindow).symm
  refine ⟨u.impl, hadvances, hadvances.policy ▸ hindex, ?_⟩
  refine hall.preserves (P := fun i round => i.Counts u.impl.throttle round.entries)
    (fun c _ i round i' round' _ step hi => hi.decides step) ?_
  exact ⟨rfl, rfl, rfl, fun h => absurd rfl h⟩

end Rounds

/-- The call leaves the epoch and the policy as they are. -/
def Retains (s : Scheduler) (c : Call) : Prop :=
  (s.call c).2.impl.epoch = s.impl.epoch ∧ (s.call c).2.impl.policy = s.impl.policy

instance {s : Scheduler} {c : Call} : Decidable (Retains s c) := by
  unfold Retains
  infer_instance

section Calls

variable {now : Ticks} {s : Scheduler} {c : Call}

theorem throttle_applyRetireFlow (flow : FlowId) (generation : Generation) (i : Impl) :
    i.SameThrottle (i.applyRetireFlow flow generation) := by
  unfold applyRetireFlow
  split <;> rfl

theorem throttle_applyAdmit {d : FlowDescriptor} {i j : Impl} (h : i.applyAdmit d = .ok j) :
    i.SameThrottle j := by
  unfold applyAdmit at h
  split at h
  · cases h
  · cases h
    rfl

theorem throttle_applyUpdate {d : FlowDescriptor} {i j : Impl} (h : i.applyUpdate d = .ok j) :
    i.SameThrottle j := by
  unfold applyUpdate at h
  split at h
  · cases h
  · split at h
    · cases h
    · cases h
      rfl

theorem sameThrottle_installPolicy {policy : SchedulingPolicy}
    (steady : (exec (installPolicy policy) s).2.impl.policy = s.impl.policy) :
    Relates SameThrottle (installPolicy policy) s := by
  unfold Relates
  unfold installPolicy at steady ⊢
  rw [exec_readImpl_bind, exec_lift_bind] at steady ⊢
  split at steady
  · rw [exec_bind] at steady ⊢
    revert steady
    cases hjournal : exec (journal _) _ with
    | mk result t =>
      have himpl := impl_of_append hjournal
      cases result with
      | error e => exact fun _ => congrArg Impl.throttle himpl
      | ok u =>
        intro steady
        have hpolicy : policy = s.impl.policy := steady
        show Throttle.mk policy t.impl.preemptionWindowIndex t.impl.preemptionsInWindow = _
        rw [hpolicy, himpl]
        rfl
  · rfl

theorem sameThrottle_advanceEpoch {reason : EpochReason}
    (steady : (exec (advanceEpoch reason now) s).2.impl.epoch = s.impl.epoch) :
    Relates SameThrottle (advanceEpoch reason now) s := by
  unfold Relates
  unfold advanceEpoch touch at steady ⊢
  rw [exec_modifyImpl_bind, exec_readImpl_bind, exec_lift_bind] at steady ⊢
  dsimp only at steady ⊢
  split at steady
  · rename_i next hnext
    rw [exec_bind] at steady ⊢
    revert steady
    cases hjournal : exec (journal _) _ with
    | mk result t =>
      have himpl := impl_of_append hjournal
      cases result with
      | error e => exact fun _ => (congrArg Impl.throttle himpl :)
      | ok u =>
        intro steady
        have hepoch : next = s.impl.epoch := steady
        have hlt := Id.lt_of_advance hnext
        rw [hepoch] at hlt
        exact absurd hlt (UInt64.lt_irrefl _)
  · rfl

/-- No call but a round counts displacements, unless it moves the epoch or the policy. -/
theorem sameThrottle_call (c : Call) (round : ∀ now, c ≠ .arbitrate now) (steady : Retains s c) :
    s.impl.SameThrottle (s.call c).2.impl := by
  obtain ⟨hepoch, hpolicy⟩ := steady
  have hedits : Edits (c.tick s.impl.lastTick) SameThrottle := SameThrottle.edits
  cases c with
  | admitFlow d => exact Relates.call rfl (Edits.admitFlow fun _ _ h => throttle_applyAdmit h)
  | updateFlow d => exact Relates.call rfl (hedits.updateFlow fun _ _ h => throttle_applyUpdate h)
  | retireFlow id generation =>
    exact Relates.call rfl (.guarded (throttle_applyRetireFlow id generation))
  | installPolicy d =>
    rw [Scheduler.call, Call.op, exec_done] at hpolicy
    exact Relates.call rfl (sameThrottle_installPolicy hpolicy)
  | advanceEpoch reason now =>
    rw [Scheduler.call, Call.op, exec_done] at hepoch
    exact Relates.call rfl (sameThrottle_advanceEpoch hepoch)
  | arbitrate now => exact absurd rfl (round now)
  | _ => exact hedits.call rfl rfl fun _ _ _ _ => rfl

end Calls

/-- How many incumbents the record displaces in the window, by the tick its schedule is issued at. -/
def Record.displaces (interval window : UInt64) : Record → ℕ
  | .scheduleIssued schedule =>
    if schedule.atTick / interval = window then displacedBy schedule.entries else 0
  | _ => 0

/-- How many incumbents the schedules issued in the window displace. -/
def displacedIn (interval window : UInt64) (rs : List Record) : ℕ :=
  (rs.map (·.displaces interval window)).sum

section Runs

variable {interval window : UInt64} {policy : SchedulingPolicy} {rs rs' : List Record} {i j : Impl}
  {now : Ticks} {s t : Scheduler} {c : Call}

theorem displacedIn_append :
    displacedIn interval window (rs ++ rs') =
      displacedIn interval window rs + displacedIn interval window rs' := by
  rw [displacedIn, List.map_append, List.sum_append]
  rfl

theorem displacedIn_unissued (h : ∀ schedule, .scheduleIssued schedule ∉ rs) :
    displacedIn interval window rs = 0 := by
  refine List.sum_eq_zero fun n hn => ?_
  obtain ⟨r, hr, rfl⟩ := List.mem_map.mp hn
  cases r with
  | scheduleIssued schedule => exact absurd hr (h schedule)
  | _ => rfl

theorem displacedIn_issue {schedule : Schedule} :
    displacedIn interval window [.scheduleIssued schedule] =
      if schedule.atTick / interval = window then displacedBy schedule.entries else 0 :=
  List.sum_singleton

/-- The windows that have seen displacements are behind the one that is counted, and it is behind the
clock; its own displacements are all counted. -/
structure Tallied (policy : SchedulingPolicy) (rs : List Record) (i : Impl) : Prop where
  installed : i.policy = policy
  bounded : ∀ window, displacedIn policy.preemptionIntervalTicks window rs ≤
    policy.maxPreemptionsPerInterval.toNat
  behind : ∀ window, displacedIn policy.preemptionIntervalTicks window rs ≠ 0 →
    window ≤ i.preemptionWindowIndex ∧
      i.preemptionWindowIndex ≤ i.lastTick / policy.preemptionIntervalTicks
  counted : displacedIn policy.preemptionIntervalTicks i.preemptionWindowIndex rs ≤
    i.preemptionsInWindow.toNat

theorem div_le_div_tick {a b : Ticks} (h : a ≤ b) : a / interval ≤ b / interval := by
  rw [UInt64.le_iff_toNat_le] at h ⊢
  rw [UInt64.toNat_div, UInt64.toNat_div]
  exact Nat.div_le_div_right h

namespace Tallied

/-- A round that opens a new window starts it at zero, for the window is ahead of all others. -/
theorem advance (h : Tallied policy rs i) (advances : i.Advances now j) (onTime : i.lastTick ≤ now)
    (clock : now ≤ j.lastTick) : Tallied policy rs j := by
  have hpolicy := h.installed
  rcases advances.window with ⟨hsame, hcount⟩ | ⟨hnew, hleft⟩
  · refine ⟨advances.policy.trans hpolicy, h.bounded, fun window hwindow => ?_, ?_⟩
    · obtain ⟨hbehind, hclock⟩ := h.behind window hwindow
      rw [hsame]
      exact ⟨hbehind, UInt64.le_trans hclock (div_le_div_tick (UInt64.le_trans onTime clock))⟩
    · rw [hsame]
      exact h.counted.trans (UInt32.le_iff_toNat_le.mp hcount)
  · rw [hpolicy] at hnew
    have hahead : ∀ window, displacedIn policy.preemptionIntervalTicks window rs ≠ 0 →
        window ≤ i.preemptionWindowIndex ∧ i.preemptionWindowIndex ≤ j.preemptionWindowIndex := by
      intro window hwindow
      obtain ⟨hbehind, hclock⟩ := h.behind window hwindow
      exact ⟨hbehind, hnew ▸ UInt64.le_trans hclock (div_le_div_tick onTime)⟩
    refine ⟨advances.policy.trans hpolicy, h.bounded, fun window hwindow => ?_, ?_⟩
    · obtain ⟨hbehind, hle⟩ := hahead window hwindow
      refine ⟨UInt64.le_trans hbehind hle, ?_⟩
      rw [hnew]
      exact div_le_div_tick clock
    · by_cases hzero : displacedIn policy.preemptionIntervalTicks j.preemptionWindowIndex rs = 0
      · rw [hzero]
        exact Nat.zero_le _
      · obtain ⟨hle, hge⟩ := hahead _ hzero
        exact absurd (UInt64.le_antisymm hle hge) hleft

theorem same (h : Tallied policy rs i) (same : SameThrottle i j) (clock : i.lastTick ≤ j.lastTick) :
    Tallied policy rs j :=
  h.advance same.advances clock (UInt64.le_refl _)

theorem quiet (h : Tallied policy rs i) (unissued : ∀ schedule, .scheduleIssued schedule ∉ rs') :
    Tallied policy (rs ++ rs') i := by
  have hsame : ∀ window, displacedIn policy.preemptionIntervalTicks window (rs ++ rs') =
      displacedIn policy.preemptionIntervalTicks window rs := by
    intro window
    rw [displacedIn_append, displacedIn_unissued unissued, Nat.add_zero]
  refine ⟨h.installed, fun window => ?_, fun window => ?_, ?_⟩
  · rw [hsame]
    exact h.bounded window
  · rw [hsame]
    exact h.behind window
  · rw [hsame]
    exact h.counted

/-- What the schedule of the round displaces has been counted in the window of the round. -/
theorem issue {schedule : Schedule} (h : Tallied policy rs i) (clock : now ≤ j.lastTick)
    (window : i.preemptionWindowIndex = now / policy.preemptionIntervalTicks)
    (counts : j.Counts i.throttle schedule.entries) (tick : schedule.atTick = now) :
    Tallied policy (rs ++ [.scheduleIssued schedule]) j := by
  have hadded : ∀ w, displacedIn policy.preemptionIntervalTicks w (rs ++ [.scheduleIssued schedule]) =
      displacedIn policy.preemptionIntervalTicks w rs +
        if w = i.preemptionWindowIndex then displacedBy schedule.entries else 0 := by
    intro w
    rw [displacedIn_append, displacedIn_issue, tick, window]
    simp only [eq_comm]
  have hwindow : j.preemptionWindowIndex = i.preemptionWindowIndex := counts.window
  have hcount : j.preemptionsInWindow.toNat =
      i.preemptionsInWindow.toNat + displacedBy schedule.entries := counts.count
  have hcounted := h.counted
  refine ⟨counts.policy.trans h.installed, fun w => ?_, fun w hw => ?_, ?_⟩
  · rw [hadded]
    split
    · rename_i hhere
      by_cases hnone : displacedBy schedule.entries = 0
      · rw [hnone]
        exact h.bounded w
      · have hbounded := UInt32.le_iff_toNat_le.mp (counts.bounded hnone)
        rw [show i.throttle.policy = policy from h.installed] at hbounded
        rw [hhere]
        omega
    · exact h.bounded w
  · rw [hwindow]
    refine ⟨?_, window ▸ div_le_div_tick clock⟩
    rw [hadded] at hw
    split at hw
    · rename_i hhere
      exact UInt64.le_of_eq hhere
    · exact (h.behind w (by rwa [Nat.add_zero] at hw)).1
  · rw [hwindow, hadded, if_pos rfl, hcount]
    omega

end Tallied

theorem unissued_call (round : ∀ now, c ≠ .arbitrate now) : ∃ rs,
    (s.call c).2.accepted = s.accepted ++ rs ∧ ∀ schedule, .scheduleIssued schedule ∉ rs := by
  by_cases image : c = .checkpoint
  · obtain ⟨store, hstore⟩ := call_checkpoint (s := s)
    refine ⟨[], ?_, by simp⟩
    rw [image, hstore, List.append_nil]
  · obtain ⟨rs, hsteps⟩ := makes_call (s := s) round image
    refine ⟨rs, hsteps.accepted, fun schedule hmem => ?_⟩
    obtain ⟨i, i', hmove⟩ := hsteps.of_mem hmem
    cases hmove with
    | common h => cases h

theorem accepted_arbitrate (sound : Sound s.impl) :
    ∃ rs, (∀ schedule, .scheduleIssued schedule ∉ rs) ∧
      ((exec (arbitrate now) s).2.accepted = s.accepted ++ rs ∨
        ∃ round u, exec (decideGrants now) s = (.ok round, u) ∧
          (exec (arbitrate now) s).2.accepted =
            s.accepted ++ rs ++ [.scheduleIssued (u.impl.makeSchedule round.entries now)]) := by
  have hdecide := runs_decideGrants (idleRound now) sound fun _ _ _ _ _ => ⟨trivial, by simp⟩
  unfold Runs at hdecide
  rw [arbitrate_eq, exec_bind]
  cases hexec : exec (decideGrants now) s with
  | mk result u =>
    rw [hexec] at hdecide
    obtain ⟨rs, hsteps⟩ := hdecide.1
    have haccepted : u.accepted = s.accepted ++ rs := hsteps.accepted
    refine ⟨rs, fun schedule hmem => ?_, ?_⟩
    · obtain ⟨i, i', -, hmay⟩ := hsteps.of_mem hmem
      exact hmay schedule rfl
    · cases result with
      | error e => exact .inl haccepted
      | ok round =>
        rcases accepted_concludeRound now round u with hsame | hissued
        · exact .inl (hsame.trans haccepted)
        · exact .inr ⟨round, u, rfl, by rw [← haccepted]; exact hissued⟩

theorem Tallied.round (sound : Sound s.impl) (h : Tallied policy rs s.impl) :
    ∃ rs', (s.call (.arbitrate now)).2.accepted = s.accepted ++ rs' ∧
      Tallied policy (rs ++ rs') (s.call (.arbitrate now)).2.impl := by
  rcases UInt64.lt_or_le now s.impl.lastTick with hlate | honTime
  · rw [call_arbitrate_late hlate]
    exact ⟨[], (List.append_nil _).symm, (List.append_nil rs).symm ▸ h⟩
  · have hclock := le_clock_arbitrate (s := s) honTime
    have hround : s.impl.Advances now (exec (arbitrate now) s).2.impl :=
      Advances.edits.arbitrate advances_placeCandidate advances_rollPreemptionWindow
    rw [show (s.call (.arbitrate now)).2 = (exec (arbitrate now) s).2 by
      rw [Scheduler.call, Call.op, exec_done]] at hclock ⊢
    obtain ⟨quiet, hquiet, haccepted | ⟨round, u, hdecide, haccepted⟩⟩ :=
      @accepted_arbitrate now _ sound
    · exact ⟨quiet, haccepted, (h.advance hround honTime hclock).quiet hquiet⟩
    · obtain ⟨i, hopened, hwindow, hcounts⟩ := decideGrants_counts sound hdecide
      have hconclude : u.impl.SameThrottle (exec (arbitrate now) s).2.impl := by
        rw [arbitrate_eq, exec_bind, hdecide]
        exact SameThrottle.edits.concludeRound
      refine ⟨quiet ++ [.scheduleIssued (u.impl.makeSchedule round.entries now)], ?_, ?_⟩
      · rw [haccepted, List.append_assoc]
      · rw [← List.append_assoc]
        -- the clock of the state in which the window was opened is of no account
        have hbegun : Tallied policy rs { i with lastTick := now } :=
          h.advance ⟨hopened.policy, hopened.window⟩ honTime (UInt64.le_refl _)
        refine (hbegun.quiet hquiet).issue hclock ?_ (hcounts.congr hconclude) rfl
        rw [← h.installed]
        exact hwindow

theorem Tallied.call (sound : Sound s.impl) (steady : Retains s c) (h : Tallied policy rs s.impl) :
    ∃ rs', (s.call c).2.accepted = s.accepted ++ rs' ∧ Tallied policy (rs ++ rs') (s.call c).2.impl := by
  by_cases hround : ∃ now, c = .arbitrate now
  · obtain ⟨now, rfl⟩ := hround
    exact h.round sound
  · have hround : ∀ now, c ≠ .arbitrate now := fun now hc => hround ⟨now, hc⟩
    obtain ⟨rs', haccepted, hquiet⟩ := unissued_call (s := s) hround
    refine ⟨rs', haccepted, ?_⟩
    exact (h.same (sameThrottle_call c hround steady) (lastTick_le_call _ c)).quiet hquiet

theorem LaterBy.tallied (sound : Sound s.impl) (h : LaterBy Retains s t) : Sound t.impl ∧
    ∃ rs, t.accepted = s.accepted ++ rs ∧ Tallied s.impl.policy rs t.impl := by
  induction h with
  | refl =>
    refine ⟨sound, [], (List.append_nil _).symm, rfl, fun _ => Nat.zero_le _, ?_, Nat.zero_le _⟩
    exact fun _ hsome => absurd rfl hsome
  | called _ c steady ih =>
    obtain ⟨hsound, rs, haccepted, htallied⟩ := ih
    obtain ⟨rs', haccepted', htallied'⟩ := htallied.call hsound steady
    refine ⟨sound_call hsound c, rs ++ rs', ?_, htallied'⟩
    rw [haccepted', haccepted, List.append_assoc]
  | faulty _ io ih => exact ih

/-- While the epoch and the policy stay, the schedules issued in one window displace no more
incumbents together than the policy allows. -/
theorem displacedIn_le_max (s t : Scheduler) (window : UInt64) (reachable : Reachable s)
    (later : LaterBy Retains s t) :
    displacedIn s.impl.policy.preemptionIntervalTicks window (t.accepted.drop s.accepted.length) ≤
      s.impl.policy.maxPreemptionsPerInterval.toNat := by
  obtain ⟨-, rs, haccepted, htallied⟩ := later.tallied reachable.sound
  rw [haccepted, List.drop_left]
  exact htallied.bounded window

end Runs

namespace Sample

set_option maxRecDepth 100000 in
theorem displacedIn_le_max_arrival : ∃ s t, Reachable s ∧ LaterBy Retains s t ∧
    displacedIn s.impl.policy.preemptionIntervalTicks 0 (t.accepted.drop s.accepted.length) = 1 ∧
    1 ≤ s.impl.policy.maxPreemptionsPerInterval.toNat := by
  obtain ⟨s, reachable, hsteady, hone⟩ : ∃ s, Reachable s ∧ Retains s (.arbitrate 6) ∧
      displacedIn s.impl.policy.preemptionIntervalTicks 0
        ((s.call (.arbitrate 6)).2.accepted.drop s.accepted.length) = 1 :=
    @exists_reachable (displacing .tiered 1000000) arrival _ (by decide +kernel)
  have hlater : LaterBy Retains s (s.call (.arbitrate 6)).2 := .called .refl _ hsteady
  have hbound := displacedIn_le_max s _ 0 reachable hlater
  exact ⟨s, _, reachable, hlater, hone, hone ▸ hbound⟩

end Sample

end FlowScheduler

import FlowScheduler.Arbitration.Replacement

/-! # What a round leaves alone

Before it considers its candidates a round reclaims undelivered windows,
refreshes the waiting flows, counts misses, stops what is overdue and ranks the
ready flows. A flow without a window and without work under way is touched only
at its own turn.
-/

namespace FlowScheduler

open ByteCodec (Bytes)
open Failing SchedOp Impl OrderedMap

/-- The flow has neither a window nor work under way. -/
def FlowLifecycle.unengaged (l : FlowLifecycle) : Prop := l.phase.idle ∧ l ≠ .scheduled

/-- The flow is as before, up to what ranking notes about it. -/
def FlowRuntime.Stands (r r' : FlowRuntime) : Prop :=
  ∃ starved accounting, r' = { r with starvationCounted := starved, accounting := accounting }

namespace FlowRuntime.Stands

variable {r r' r'' : FlowRuntime}

theorem refl (r : FlowRuntime) : r.Stands r := ⟨_, _, rfl⟩

theorem trans (h : r.Stands r') (h' : r'.Stands r'') : r.Stands r'' := by
  obtain ⟨_, _, rfl⟩ := h
  obtain ⟨starved, accounting, rfl⟩ := h'
  exact ⟨starved, accounting, rfl⟩

theorem lifecycle (h : r.Stands r') : r'.lifecycle = r.lifecycle := by
  obtain ⟨_, _, rfl⟩ := h
  rfl

theorem descriptor (h : r.Stands r') : r'.descriptor = r.descriptor := by
  obtain ⟨_, _, rfl⟩ := h
  rfl

theorem virtualFinish (h : r.Stands r') : r'.virtualFinish = r.virtualFinish := by
  obtain ⟨_, _, rfl⟩ := h
  rfl

theorem servedWork (h : r.Stands r') : r'.servedWork = r.servedWork := by
  obtain ⟨_, _, rfl⟩ := h
  rfl

end FlowRuntime.Stands

section Clocks

variable {s : Impl} {now : Ticks}

theorem virtualTime_deferUnready {id : FlowId} {r : FlowRuntime} {reason : DecisionReason}
    {o : ArbitrationOutcome} : (s.deferUnready id r reason now o).1.virtualTime = s.virtualTime := by
  unfold deferUnready
  split
  · unfold handleDeadlineMiss
    split
    · rfl
    · dsimp only
      split <;> rfl
  · split <;> rfl

theorem virtualTime_applyAttemptClosed {attempt : DispatchAttemptId} {state : AttemptState}
    {detail : Bytes} :
    (s.applyAttemptClosed attempt state detail now).virtualTime = s.virtualTime := by
  unfold applyAttemptClosed
  split
  · rfl
  · split
    · rfl
    · dsimp only
      split
      · rfl
      · split
        · rfl
        · unfold closeFlowAttempt
          cases state <;> rfl

end Clocks

/-- Apart from the flows touched, whoever is not engaged stands as before, and so do the clocks of
the fairness groups. -/
structure Spared (touched : FlowId → Prop) (s s' : Impl) : Prop where
  policy : s'.policy = s.policy
  reservations : s'.reservations = s.reservations
  clocks : s'.virtualTime = s.virtualTime
  stands : ∀ id r, ¬ touched id → s.flows[id]? = some r → r.lifecycle.unengaged →
    ∃ r', s'.flows[id]? = some r' ∧ r.Stands r'

namespace Spared

variable {touched touched' : FlowId → Prop} {s s' s'' : Impl} {now : Ticks} {id : FlowId}
  {r : FlowRuntime}

theorem of_flows (policy : s'.policy = s.policy) (reservations : s'.reservations = s.reservations)
    (clocks : s'.virtualTime = s.virtualTime) (flows : s'.flows = s.flows) : Spared touched s s' :=
  ⟨policy, reservations, clocks, fun _ r _ hr _ => ⟨r, by rw [flows, hr], .refl r⟩⟩

theorem refl (s : Impl) : Spared touched s s := of_flows rfl rfl rfl rfl

theorem trans (h : Spared touched s s') (h' : Spared touched s' s'') : Spared touched s s'' := by
  refine ⟨h'.policy.trans h.policy, h'.reservations.trans h.reservations, h'.clocks.trans h.clocks,
    fun id r hid hr hl => ?_⟩
  obtain ⟨r', hr', hstands⟩ := h.stands id r hid hr hl
  obtain ⟨r'', hr'', hstands'⟩ := h'.stands id r' hid hr' (hstands.lifecycle ▸ hl)
  exact ⟨r'', hr'', hstands.trans hstands'⟩

theorem mono (h : Spared touched s s') (more : ∀ id, touched id → touched' id) :
    Spared touched' s s' :=
  ⟨h.policy, h.reservations, h.clocks,
    fun id r hid => h.stands id r fun htouched => hid (more id htouched)⟩

theorem of_sameBut (policy : s'.policy = s.policy)
    (reservations : s'.reservations = s.reservations) (clocks : s'.virtualTime = s.virtualTime)
    (same : SameBut id s s') : Spared (· = id) s s' :=
  ⟨policy, reservations, clocks, fun k r hk hr _ => ⟨r, by rw [same k hk, hr], .refl r⟩⟩

theorem foldl {α : Type} {f : Impl × α → FlowId → Impl × α}
    (step : ∀ p id, Spared (· = id) p.1 (f p id).1) (ids : List FlowId) (p : Impl × α) :
    Spared (· ∈ ids) p.1 (ids.foldl f p).1 := by
  induction ids generalizing p with
  | nil => exact refl _
  | cons id ids ih =>
    rw [List.foldl_cons]
    refine trans ((step p id).mono ?_) ((ih _).mono ?_)
    · rintro k rfl
      exact List.mem_cons_self
    · exact fun k hk => List.mem_cons_of_mem _ hk

theorem unscheduleFlow {entry : ScheduleEntry} (found : s.flows[entry.flow]? = some r)
    (scheduled : r.lifecycle = .scheduled) : Spared touched s (s.unscheduleFlow entry now) := by
  refine ⟨rfl, rfl, rfl, fun id r' _ hr' hl => ?_⟩
  have hne : id ≠ entry.flow := by
    rintro rfl
    obtain rfl := Option.some.inj (found.symm.trans hr')
    exact hl.2 scheduled
  have hflow : SameBut entry.flow s ((s.modifyFlow entry.flow fun r =>
      { r.clearScheduled with
        outstandingReserved := clampedSub r.outstandingReserved entry.quantum }).releaseInFlight
          entry.resource) := sameBut_modifyFlow
  have hsame : SameBut entry.flow s (s.unscheduleFlow entry now) :=
    (hflow.trans sameBut_setLifecycle).trans sameBut_modifyFlow
  exact ⟨r', (hsame id hne).trans hr', .refl r'⟩

theorem releaseRunEntry {k : ScheduleId} {index : ℕ} :
    Spared touched s (s.releaseRunEntry k index now) := by
  unfold Impl.releaseRunEntry
  split
  · exact refl s
  · split
    · split
      · exact of_flows rfl rfl rfl rfl
      · dsimp only
        split
        · exact of_flows rfl rfl rfl rfl
        · rename_i hr
          split
          · exact of_flows rfl rfl rfl rfl
          · rename_i hscheduled
            have hmark : Spared touched s (s.modifySchedule k fun r =>
                { r with
                  consumed := r.consumed.set index 2
                  pendingEntries := countDown r.pendingEntries }) := of_flows rfl rfl rfl rfl
            exact hmark.trans (unscheduleFlow hr (not_not.mp (not_or.mp hscheduled).1))
    · exact refl s

theorem applyReleaseSchedule {k : ScheduleId} :
    Spared touched s (s.applyReleaseSchedule k now) := by
  unfold Impl.applyReleaseSchedule
  split
  · exact refl s
  · rename_i runtime found
    clear found
    generalize List.range runtime.schedule.entries.length = indexes
    induction indexes generalizing s with
    | nil => exact refl s
    | cons index indexes ih =>
      rw [List.foldl_cons]
      exact releaseRunEntry.trans ih

theorem deferUnready {reason : DecisionReason} {o : ArbitrationOutcome} :
    Spared (· = id) s (s.deferUnready id r reason now o).1 :=
  of_sameBut (congrArg Setting.policy setting_deferUnready) reservations_deferUnready
    virtualTime_deferUnready sameBut_deferUnready

theorem refreshWaiting (p : Impl × ArbitrationOutcome) (id : FlowId) :
    Spared (· = id) p.1 (refreshWaiting now p id).1 := by
  obtain ⟨s, o⟩ := p
  unfold Impl.refreshWaiting
  dsimp only
  split
  · exact refl s
  · split
    · exact refl s
    · split
      · exact refl s
      · split
        · exact of_sameBut rfl rfl rfl (sameBut_setLifecycle.trans sameBut_modifyFlow)
        · exact deferUnready

theorem refreshInflight (p : Impl × ArbitrationOutcome) (id : FlowId) :
    Spared (· = id) p.1 (refreshInflight now p id).1 := by
  obtain ⟨s, o⟩ := p
  unfold Impl.refreshInflight
  dsimp only
  split
  · exact refl s
  · split
    · exact of_sameBut rfl rfl rfl sameBut_countDeadlineMiss
    · exact refl s

theorem applyAttemptClosed {attempt : DispatchAttemptId} {state : AttemptState} {detail : Bytes}
    (sound : Sound s) (valid : attempt.valid) :
    Spared touched s (s.applyAttemptClosed attempt state detail now) :=
  ⟨congrArg Setting.policy (setting_applyAttemptClosed ..), reservations_applyAttemptClosed,
    virtualTime_applyAttemptClosed,
    fun _ r _ hr hl => ⟨r, idle_applyAttemptClosed sound valid hr hl.1, .refl r⟩⟩

theorem rankFlow (p : Impl × List Candidate) (id : FlowId) :
    Spared touched p.1 (rankFlow now p id).1 := by
  obtain ⟨s, candidates⟩ := p
  unfold Impl.rankFlow
  dsimp only
  split
  · exact refl s
  · split
    · exact refl s
    · split
      · refine ⟨rfl, rfl, rfl, fun k r _ hr _ => ?_⟩
        simp only [Impl.modifyFlow, get_modify]
        split
        · exact ⟨_, by rw [hr]; rfl, _, _, rfl⟩
        · exact ⟨r, hr, .refl r⟩
      · exact refl s

theorem rankCandidates : Spared touched s (s.rankCandidates now).1 := by
  dsimp only [Impl.rankCandidates, Impl.indexed]
  generalize s.indexes.ready.toList = ids
  suffices h : ∀ p : Impl × List Candidate, Spared touched p.1 (ids.foldl (Impl.rankFlow now) p).1 from
    h (s, [])
  induction ids with
  | nil => exact fun p => refl p.1
  | cons id ids ih => exact fun p => (rankFlow p id).trans (ih _)

theorem rollPreemptionWindow : Spared touched s (s.rollPreemptionWindow now) := by
  have hsetting : (s.rollPreemptionWindow now).setting = s.setting := setting_rollPreemptionWindow
  refine of_flows (congrArg Setting.policy hsetting) ?_ ?_ flows_rollPreemptionWindow <;>
  · unfold Impl.rollPreemptionWindow
    generalize (if s.policy.preemptionIntervalTicks = 0 then 0
      else now / s.policy.preemptionIntervalTicks) = window
    dsimp only
    split <;> rfl

end Spared

section Stages

variable {s t u : Scheduler} {now : Ticks} {p : List Candidate × ArbitrationOutcome}
  {o o' : ArbitrationOutcome} {touched : FlowId → Prop}

theorem reclaimExpiredDeliveries_spares {ids : List ScheduleId}
    (h : exec (reclaimExpiredDeliveries now ids o) s = (.ok o', t)) :
    Spared touched s.impl t.impl := by
  induction ids generalizing s o with
  | nil =>
    cases h
    exact .refl _
  | cons id ids ih =>
    unfold reclaimExpiredDeliveries at h
    rw [exec_readImpl_bind] at h
    split at h
    · exact ih h
    · split at h
      · exact ih h
      · split at h
        · cases h
          exact .refl _
        · obtain ⟨released, v, hjournal, h⟩ := exec_bind_ok.mp h
          rw [exec_succeeds] at hjournal
          -- a record that is refused ends the pass, one that is accepted releases the schedule
          cases hrecord : exec (journal (.scheduleReleased id now)) s with
          | mk result t' =>
            have himpl := impl_of_append hrecord
            rw [hrecord] at hjournal
            cases result with
            | error e =>
              cases hjournal
              cases h
              rw [himpl]
              exact .refl _
            | ok _ =>
              cases hjournal
              rw [if_pos rfl, exec_modifyImpl_bind] at h
              have hrest := ih h
              rw [← himpl]
              exact Spared.applyReleaseSchedule.trans hrest

theorem reclaimExpiredDeliveries_makes {ids : List ScheduleId}
    (h : exec (reclaimExpiredDeliveries now ids o) s = (.ok o', t)) (clock : s.impl.lastTick = now) :
    Makes (DecideMove now) s t := by
  have hruns := (runs_reclaimExpiredDeliveries clock ids o).1
  rwa [h] at hruns

theorem stopOverdue_spares {attempts : List DispatchAttemptId} (sound : Sound s.impl)
    (clock : s.impl.lastTick = now) (valid : ∀ a ∈ attempts, a.valid)
    (h : exec (stopOverdue now attempts) s = (.ok (), t)) : Spared touched s.impl t.impl := by
  induction attempts generalizing s with
  | nil =>
    cases h
    exact .refl _
  | cons attempt rest ih =>
    obtain ⟨hvalid, hrest⟩ := List.forall_mem_cons.mp valid
    unfold stopOverdue at h
    rw [exec_closeAttempt_bind] at h
    obtain ⟨_, v, hjournal, h⟩ := exec_bind_ok.mp h
    rw [exec_modifyImpl_bind, exec_modifyImpl_bind, impl_of_append hjournal] at h
    have hclose : RoundMove now s.impl
        (some (.attemptClosed attempt .preempted now (ascii "deadline crossed while running")))
        (s.impl.applyAttemptClosed attempt .preempted (ascii "deadline crossed while running") now) :=
      .common (.close (.inl rfl) (clock ▸ UInt64.le_refl _))
    have hclock := (congrArg Setting.lastTick (setting_applyAttemptClosed attempt .preempted
      (ascii "deadline crossed while running") now)).trans clock
    have hspares : Spared touched s.impl (s.impl.applyAttemptClosed attempt .preempted
      (ascii "deadline crossed while running") now) := .applyAttemptClosed sound hvalid
    have hsound := sound.roundMove hclose
    revert h hclock hspares hsound
    generalize s.impl.applyAttemptClosed attempt .preempted
      (ascii "deadline crossed while running") now = i
    intro h hclock hspares hsound
    have hcount : RoundMove now i none { i with preemptionsIssued := i.preemptionsIssued + 1 } :=
      .common .counters
    have hcounted : Spared touched i { i with preemptionsIssued := i.preemptionsIssued + 1 } :=
      .of_flows rfl rfl rfl rfl
    exact hspares.trans (hcounted.trans (ih (hsound.roundMove hcount) hclock hrest h))

theorem valid_overdueAttempts {i : Impl} : ∀ a ∈ i.overdueAttempts now, a.valid := by
  intro a ha
  obtain ⟨id, -, hid⟩ := List.mem_filterMap.mp ha
  split at hid
  · cases hid
  · split at hid
    · rename_i hoverdue
      cases hid
      exact hoverdue.2
    · cases hid

/-- The flows are refreshed after the undelivered windows are reclaimed, and from there on a round
that opens touches only those in flight. -/
theorem openRound_spares (sound : Sound s.impl) (h : exec (openRound now) s = (.ok p, u)) :
    ∃ i o, Sound i ∧ Spared (fun _ => False) s.impl i ∧
      Keyed (i.indexes.waiting.toList.foldl (refreshWaiting now) (i, o)).1 ∧
      Spared (· ∈ (i.indexes.waiting.toList.foldl (refreshWaiting now) (i, o)).1.indexes.inflight)
        (i.indexes.waiting.toList.foldl (refreshWaiting now) (i, o)).1 u.impl := by
  unfold openRound at h
  rw [exec_readImpl_bind] at h
  obtain ⟨_, s', hrefuse, h⟩ := exec_bind_ok.mp h
  rw [exec_lift] at hrefuse
  obtain ⟨hok, rfl⟩ := Prod.mk.inj hrefuse
  have haccepted : s.impl.lastTick ≤ now := UInt64.not_lt.mp (refuseIf_eq_ok.mp hok)
  rw [exec_modifyImpl_bind, exec_readImpl_bind] at h
  obtain ⟨o, v, hreclaim, h⟩ := exec_bind_ok.mp h
  have hmakes := reclaimExpiredDeliveries_makes hreclaim rfl
  have hsound : Sound v.impl := ((makes_opening haccepted).trans hmakes).round.sound sound
  have hclock : v.impl.lastTick = now := hmakes.round.clock rfl
  have hreclaimed : Spared (fun _ => False) _ v.impl := reclaimExpiredDeliveries_spares hreclaim
  have hopening : Spared (fun _ => False) s.impl { s.impl with
      lastTick := now, arbitrationRounds := s.impl.arbitrationRounds + 1 } := .of_flows rfl rfl rfl rfl
  have hspares := hopening.trans hreclaimed
  rw [exec_readImpl_bind] at h
  have hwaiting : Silently (RoundMove now) v.impl
      (v.impl.indexes.waiting.toList.foldl (refreshWaiting now) (v.impl, o)).1 :=
    refreshWaitingSet_silently hsound.keyed
  have hall : Silently (RoundMove now) v.impl (v.impl.refreshLifecycles now o).1 :=
    refreshLifecycles_silently hsound.keyed
  have hkeyed := ((Makes.silently (s := v) hwaiting).sound hsound).keyed
  refine ⟨v.impl, o, hsound, hspares, hkeyed, ?_⟩
  have hinflight : Spared
      (· ∈ (v.impl.indexes.waiting.toList.foldl (refreshWaiting now) (v.impl, o)).1.indexes.inflight)
      (v.impl.indexes.waiting.toList.foldl (refreshWaiting now) (v.impl, o)).1
      (v.impl.refreshLifecycles now o).1 :=
    (Spared.foldl Spared.refreshInflight _ _).mono fun id hid => Std.ExtTreeSet.mem_toList.mp hid
  refine hinflight.trans ?_
  have hrefreshed := (Makes.silently (s := v) hall).sound hsound
  have hclocked := (Makes.silently (s := v) hall).clock hclock
  revert h hrefreshed hclocked
  generalize v.impl.refreshLifecycles now o = q
  intro h hrefreshed hclocked
  obtain ⟨refreshed, o⟩ := q
  rw [exec_modifyImpl_bind, exec_readImpl_bind] at h
  obtain ⟨_, w, hstop, h⟩ := exec_bind_ok.mp h
  rw [exec_readImpl_bind] at h
  refine (stopOverdue_spares hrefreshed hclocked valid_overdueAttempts hstop).trans ?_
  cases h
  exact Spared.rankCandidates.trans .rollPreemptionWindow

theorem slot_of_indexed {i : Impl} {id : FlowId} {r : FlowRuntime} (slot : IndexSlot)
    (keyed : Keyed i) (kept : slot ≠ .none) (indexed : id ∈ i.indexes.members slot)
    (found : i.flows[id]? = some r) : r.lifecycle.slot = slot := by
  obtain ⟨r', hr', hslot⟩ := (keyed.index id slot kept).mp indexed
  obtain rfl := Option.some.inj (found.symm.trans hr')
  exact hslot

theorem openRound_spares_ready (sound : Sound s.impl) (h : exec (openRound now) s = (.ok p, u)) :
    Spared (fun id => ∀ r, s.impl.flows[id]? = some r →
      r.lifecycle ≠ .ready ∧ r.lifecycle ≠ .completed) s.impl u.impl := by
  obtain ⟨i, o, hsound, hreclaimed, hkeyed, hrest⟩ := openRound_spares sound h
  have hwaiting : Spared (· ∈ i.indexes.waiting.toList) i
      (i.indexes.waiting.toList.foldl (refreshWaiting now) (i, o)).1 :=
    Spared.foldl Spared.refreshWaiting _ (i, o)
  generalize (i.indexes.waiting.toList.foldl (refreshWaiting now) (i, o)).1 = j
    at hkeyed hrest hwaiting
  refine ⟨hrest.policy.trans (hwaiting.policy.trans hreclaimed.policy),
    hrest.reservations.trans (hwaiting.reservations.trans hreclaimed.reservations),
    hrest.clocks.trans (hwaiting.clocks.trans hreclaimed.clocks), ?_⟩
  intro id r hid hr hl
  have hslot : r.lifecycle.slot ≠ .waiting ∧ r.lifecycle.slot ≠ .inflight := by
    have hkept : r.lifecycle = .ready ∨ r.lifecycle = .completed := by
      by_contra hneither
      refine hid fun x hx => ?_
      obtain rfl := Option.some.inj (hr.symm.trans hx)
      exact not_or.mp hneither
    rcases hkept with h | h <;> rw [h] <;> decide
  -- the flow is in neither of the sets the opening goes through
  obtain ⟨r₁, hr₁, hstands₁⟩ := hreclaimed.stands id r not_false hr hl
  have hlifecycle₁ := hstands₁.lifecycle
  obtain ⟨r₂, hr₂, hstands₂⟩ := hwaiting.stands id r₁ (fun hmem => by
    refine hslot.1 ?_
    rw [← hlifecycle₁]
    exact slot_of_indexed .waiting hsound.keyed (by decide) (Std.ExtTreeSet.mem_toList.mp hmem) hr₁)
    hr₁ (hlifecycle₁ ▸ hl)
  have hlifecycle₂ := hstands₂.lifecycle.trans hlifecycle₁
  obtain ⟨r₃, hr₃, hstands₃⟩ := hrest.stands id r₂ (fun hmem => by
    refine hslot.2 ?_
    rw [← hlifecycle₂]
    exact slot_of_indexed .inflight hkeyed (by decide) hmem hr₂) hr₂ (hlifecycle₂ ▸ hl)
  exact ⟨r₃, hr₃, (hstands₁.trans hstands₂).trans hstands₃⟩

end Stages

section Loop

variable {s t : Scheduler} {i i' : Impl} {now : Ticks} {limit : ℕ} {c : Candidate}
  {cs : List Candidate} {round round' : Round} {touched : FlowId → Prop}

theorem spares_rolled {d : FlowDescriptor} : Spared touched i (i.rolled d now) :=
  .of_flows rfl rfl rfl rfl

theorem spares_displace {victim : Victim} {d : FlowDescriptor} (sound : Sound i)
    (chosen : (i.rolled d now).chooseVictim c d now = .ok victim) :
    Spared touched i ((i.rolled d now).displace victim d.resource.id now) := by
  have hsound : Sound (i.rolled d now) := ⟨rolled_keyed sound.keyed, sound.ledger.congr rfl rfl⟩
  have hclosed : Spared touched (i.rolled d now) ((i.rolled d now).applyAttemptClosed victim.attempt
      .preempted (ascii "displaced by higher authority") now) :=
    .applyAttemptClosed hsound (valid_chooseVictim chosen)
  exact (spares_rolled.trans hclosed).trans (.of_flows rfl rfl rfl rfl)

theorem Decides.spares (sound : Sound i) (h : Decides now limit c i round i' round') :
    Spared (· = c.flow) i i' := by
  cases h with
  | passed | deferred => exact .refl _
  | unready => exact .deferUnready
  | blocked | windowless | granted => exact spares_rolled
  | displaced _ _ _ _ _ chosen after | replaced _ _ _ _ _ chosen after =>
    subst after
    exact spares_displace sound chosen

theorem DecidesAll.spares (h : DecidesAll now limit cs s round t round') :
    Spared (· ∈ cs.map Candidate.flow) s.impl t.impl := by
  induction h with
  | nil => exact .refl _
  | cons sound step _ _ ih =>
    refine ((step.spares sound).mono ?_).trans (ih.mono fun id hid => List.mem_cons_of_mem _ hid)
    rintro id rfl
    exact List.mem_cons_self

end Loop

end FlowScheduler

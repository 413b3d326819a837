import FlowScheduler.Arbitration.Displacement
import FlowScheduler.Authority.Offers
import FlowScheduler.Coordinator.Tables
import FlowScheduler.Recovery.Writable

/-! # Expired deliveries

A round releases the retained schedules whose delivery horizon has passed, oldest
first, and stops at the first that has not expired. It loses none, because the
schedules are retained in the order of their ticks and the count of pending
entries is never below the number of undelivered windows.
-/

namespace FlowScheduler

open ByteCodec (Bytes)
open Failing SchedOp Impl OrderedMap

theorem card_filter_range {α : Type} (p : α → Prop) [DecidablePred p] (l : List α) :
    ((Finset.range l.length).filter fun n => ∃ a ∈ l[n]?, p a).card = l.countP (p ·) := by
  induction l using List.reverseRecOn with
  | nil => rfl
  | append_singleton l a ih =>
    have hsame : (Finset.range l.length).filter (fun n => ∃ b ∈ (l ++ [a])[n]?, p b) =
        (Finset.range l.length).filter fun n => ∃ b ∈ l[n]?, p b := by
      refine Finset.filter_congr fun n hn => ?_
      rw [List.getElem?_append_left (Finset.mem_range.mp hn)]
    have hlast : (∃ b ∈ (l ++ [a])[l.length]?, p b) ↔ p a := by simp
    rw [List.length_append, List.length_singleton, Finset.range_add_one, Finset.filter_insert, hsame,
      List.countP_append, ← ih, List.countP_singleton]
    by_cases ha : p a
    · rw [if_pos (hlast.mpr ha), Finset.card_insert_of_notMem (by simp)]
      simp [ha]
    · rw [if_neg fun h => ha (hlast.mp h)]
      simp [ha]

section Order

variable {s s' : Impl} {r : Option Record} {c : Call}

theorem scheduleOrder_commonMove (move : CommonMove s r s') : s'.scheduleOrder = s.scheduleOrder := by
  cases move with
  | counters | note | ready => rfl
  | normalize => exact keeps_order.normalizeTransientStates
  | close => exact keeps_order.applyAttemptClosed fun _ => trivial
  | release => exact keeps_order.applyReleaseSchedule

theorem scheduleOrder_callMove (move : CallMove c s r s') :
    s'.scheduleOrder = s.scheduleOrder ∨ s'.schedules = ∅ ∧ s'.scheduleOrder = [] := by
  cases move with
  | common move => exact .inl (scheduleOrder_commonMove move)
  | touch | registerResource | registerReservation | registerPriorityClass | registerQosClass
  | installPolicy | admitRefused | updateRefused => exact .inl rfl
  | retireReservation => exact .inl (@keeps_order 0).applyRetireReservation
  | admitFlow _ applied =>
    left
    unfold Impl.applyAdmit at applied
    split at applied
    · cases applied
    · cases applied
      rfl
  | update _ applied =>
    refine .inl (keeps_order.releaseScheduledEntry.trans ?_)
    unfold Impl.applyUpdate at applied
    split at applied
    · cases applied
    · split at applied
      · cases applied
      · cases applied
        rfl
  | cancel =>
    exact .inl (keeps_order.normalizeTransientStates.trans (keeps_order.applyCancel trivial))
  | notify => exact .inl keeps_order.applyReadiness
  | resolve => exact .inl keeps_order.applyAmbiguityResolved
  | retireFlow =>
    left
    unfold Impl.applyRetireFlow
    split <;> rfl
  | advanceEpoch => exact .inr ⟨rfl, rfl⟩
  | dispatch =>
    left
    unfold Impl.advanceAttempt
    split <;> exact keeps_order.applyAttemptOpened
  | start => exact .inl keeps_order.applyAttemptStarted
  | complete => exact .inl (keeps_order.applyCompletion (fun _ => trivial) fun _ _ _ => rfl)

end Order

/-- The retained schedules are listed by their numbers and so by their ticks, none is ahead of the
clock, and their undelivered windows are counted. -/
structure Impl.Shelved (i : Impl) : Prop where
  listed : ∀ (k : ScheduleId) (t : ScheduleRuntime), i.schedules[k]? = some t → k ∈ i.scheduleOrder
  numbered : i.scheduleOrder.Pairwise fun a b => a.value ≤ b.value
  issued : ∀ a ∈ i.scheduleOrder, a.value ≤ i.nextSchedule.value
  sorted : i.scheduleOrder.Pairwise fun a b => ∀ t t' : ScheduleRuntime,
    i.schedules[a]? = some t → i.schedules[b]? = some t' → t.schedule.atTick ≤ t'.schedule.atTick
  past : ∀ (k : ScheduleId) (t : ScheduleRuntime), i.schedules[k]? = some t →
    t.schedule.atTick ≤ i.lastTick
  counted : ∀ (k : ScheduleId) (t : ScheduleRuntime), i.schedules[k]? = some t → t.Counted

namespace Impl.Shelved

variable {i i' : Impl} {now : Ticks} {c : Call} {r : Option Record}

theorem empty (schedules : i.schedules = ∅) (order : i.scheduleOrder = []) : i.Shelved := by
  have hnone : ∀ (k : ScheduleId) (t : ScheduleRuntime), i.schedules[k]? ≠ some t := by
    intro k t ht
    simp [schedules] at ht
  refine ⟨fun k t ht => absurd ht (hnone k t), ?_, ?_, ?_, fun k t ht => absurd ht (hnone k t),
    fun k t ht => absurd ht (hnone k t)⟩
  all_goals
    rw [order]
    simp

theorem drain (h : i.Shelved)
    (drained : ∀ (k : ScheduleId) (t' : ScheduleRuntime), i'.schedules[k]? = some t' →
      ∃ t : ScheduleRuntime, i.schedules[k]? = some t ∧ t.Drained t')
    (order : i'.scheduleOrder = i.scheduleOrder) (clock : i.lastTick ≤ i'.lastTick)
    (next : i'.nextSchedule = i.nextSchedule) : i'.Shelved where
  listed k t' ht' := by
    obtain ⟨t, ht, -⟩ := drained k t' ht'
    rw [order]
    exact h.listed k t ht
  numbered := by
    rw [order]
    exact h.numbered
  issued := by
    rw [order, next]
    exact h.issued
  sorted := by
    rw [order]
    refine h.sorted.imp fun {a b} hab t t' ht ht' => ?_
    obtain ⟨u, hu, hdrained⟩ := drained a t ht
    obtain ⟨u', hu', hdrained'⟩ := drained b t' ht'
    rw [hdrained.schedule, hdrained'.schedule]
    exact hab u u' hu hu'
  past k t' ht' := by
    obtain ⟨t, ht, hdrained⟩ := drained k t' ht'
    rw [hdrained.schedule]
    exact UInt64.le_trans (h.past k t ht) clock
  counted k t' ht' := by
    obtain ⟨t, ht, hdrained⟩ := drained k t' ht'
    exact hdrained.counted (h.counted k t ht)

theorem drop {front : ScheduleId} {rest : List ScheduleId} (h : i.Shelved)
    (order : i.scheduleOrder = front :: rest)
    (kept : ∀ (k : ScheduleId) (t : ScheduleRuntime), i'.schedules[k]? = some t →
      k ≠ front ∧ i.schedules[k]? = some t)
    (order' : i'.scheduleOrder = rest) (clock : i'.lastTick = i.lastTick)
    (next : i'.nextSchedule = i.nextSchedule) : i'.Shelved := by
  obtain ⟨hlisted, hnumbered, hissued, hsorted, hpast, hcounted⟩ := h
  rw [order] at hlisted hnumbered hissued hsorted
  refine ⟨fun k t ht => ?_, ?_, ?_, ?_, fun k t ht => ?_, fun k t ht => ?_⟩
  · obtain ⟨hne, ht⟩ := kept k t ht
    rw [order']
    exact (List.mem_cons.mp (hlisted k t ht)).resolve_left hne
  · rw [order']
    exact (List.pairwise_cons.mp hnumbered).2
  · rw [order', next]
    exact fun a ha => hissued a (List.mem_cons_of_mem _ ha)
  · rw [order']
    refine (List.pairwise_cons.mp hsorted).2.imp fun hab t t' ht ht' => ?_
    exact hab t t' (kept _ t ht).2 (kept _ t' ht').2
  · rw [clock]
    exact hpast k t (kept k t ht).2
  · exact hcounted k t (kept k t ht).2

theorem scheduleOrder_advanceSchedule : i.advanceSchedule.scheduleOrder = i.scheduleOrder := by
  unfold advanceSchedule
  split <;> rfl

theorem scheduleOrder_applySchedule (schedule : Schedule) :
    (i.applySchedule schedule).scheduleOrder = i.scheduleOrder ++ [schedule.schedule] := by
  refine foldl_keeps (P := fun t : Impl => t.scheduleOrder = i.scheduleOrder ++ [schedule.schedule])
    (fun t e ht => ?_) _ rfl
  split
  · exact ht
  · rcases t.applyRunEntry_cases schedule e with ⟨-, hs⟩ | ⟨_, _, _, -, hs, -⟩
    · rw [hs]
      exact ht
    · rw [hs]
      exact ht

/-- A new schedule has the latest tick and the largest number. -/
theorem add {runtime : ScheduleRuntime} (h : i.Shelved)
    (found : ∀ (k : ScheduleId) (t : ScheduleRuntime), i'.schedules[k]? = some t →
      k = i.nextSchedule ∧ t = runtime ∨ k ≠ i.nextSchedule ∧ i.schedules[k]? = some t)
    (order : i'.scheduleOrder = i.scheduleOrder ++ [i.nextSchedule])
    (next : i.nextSchedule.value ≤ i'.nextSchedule.value) (clock : i'.lastTick = i.lastTick)
    (tick : runtime.schedule.atTick = i.lastTick) (counted : runtime.Counted) : i'.Shelved := by
  refine ⟨fun k t ht => ?_, ?_, ?_, ?_, fun k t ht => ?_, fun k t ht => ?_⟩
  · rw [order]
    rcases found k t ht with ⟨rfl, -⟩ | ⟨-, ht⟩
    · exact List.mem_append_right _ (List.mem_singleton.mpr rfl)
    · exact List.mem_append_left _ (h.listed k t ht)
  · rw [order, List.pairwise_append]
    refine ⟨h.numbered, List.pairwise_singleton _ _, fun a ha b hb => ?_⟩
    rw [List.mem_singleton.mp hb]
    exact h.issued a ha
  · intro a ha
    rw [order] at ha
    rcases List.mem_append.mp ha with ha | ha
    · exact UInt64.le_trans (h.issued a ha) next
    · rw [List.mem_singleton.mp ha]
      exact next
  · have hold : ∀ (k : ScheduleId) (t t' : ScheduleRuntime), i'.schedules[k]? = some t →
        i'.schedules[i.nextSchedule]? = some t' → t.schedule.atTick ≤ t'.schedule.atTick := by
      intro k t t' ht ht'
      rcases found _ t' ht' with ⟨-, rfl⟩ | ⟨hne, -⟩
      · rw [tick]
        rcases found k t ht with ⟨-, rfl⟩ | ⟨-, ht⟩
        · exact UInt64.le_of_eq tick
        · exact h.past k t ht
      · exact absurd rfl hne
    rw [order, List.pairwise_append]
    refine ⟨(h.numbered.and h.sorted).imp_of_mem fun {a b} ha hb hab t t' ht ht' => ?_,
      List.pairwise_singleton _ _, fun a ha b hb t t' ht ht' => ?_⟩
    · -- a number that is issued again is the last one
      by_cases hlast : a = i.nextSchedule
      · subst hlast
        have hsame : b = i.nextSchedule :=
          Id.ext_value (UInt64.le_antisymm (h.issued b hb) hab.1)
        subst hsame
        exact hold _ t t' ht ht'
      · by_cases hlast' : b = i.nextSchedule
        · subst hlast'
          exact hold _ t t' ht ht'
        · rcases found a t ht with ⟨ha, -⟩ | ⟨-, ht⟩
          · exact absurd ha hlast
          · rcases found b t' ht' with ⟨hb, -⟩ | ⟨-, ht'⟩
            · exact absurd hb hlast'
            · exact hab.2 t t' ht ht'
    · rw [List.mem_singleton.mp hb] at ht'
      exact hold a t t' ht ht'
  · rw [clock]
    rcases found k t ht with ⟨-, rfl⟩ | ⟨-, ht⟩
    · exact UInt64.le_of_eq tick
    · exact h.past k t ht
  · rcases found k t ht with ⟨-, rfl⟩ | ⟨-, ht⟩
    · exact counted
    · exact h.counted k t ht

/-- All windows of a new schedule are pending. -/
theorem counted_new {schedule : Schedule} (size : schedule.entries.length ≤ kEntryBound + 1) :
    ({ schedule, consumed := List.replicate schedule.entries.length 0
       pendingEntries := UInt64.ofNat (schedule.entries.countP (·.kind = .run)) } :
      ScheduleRuntime).Counted := by
  have hle : schedule.entries.countP (·.kind = .run) ≤ schedule.entries.length :=
    List.countP_le_length
  have hbound : kEntryBound + 1 < 2 ^ 64 := by decide
  unfold ScheduleRuntime.Counted
  dsimp only
  rw [UInt64.toNat_ofNat', Nat.mod_eq_of_lt (by omega), ← card_filter_range]
  refine Finset.card_le_card fun n hn => ?_
  rw [ScheduleRuntime.undelivered, Finset.mem_filter] at hn
  exact Finset.mem_filter.mpr ⟨hn.1, hn.2.2⟩

theorem issue {entries : List ScheduleEntry} (h : i.Shelved) (clock : i.lastTick = now)
    (issues : i.Issues now entries) :
    ({ i with provenanceSequence := i.provenanceSequence + 1 }.applySchedule
      (i.makeSchedule entries now)).advanceSchedule.Shelved := by
  have hnumbers := (RoundMove.issue clock issues).numbers
  let kept : Impl := ({ i with provenanceSequence := i.provenanceSequence + 1 } : Impl).retainSchedule
    (i.makeSchedule entries now)
  have haccepts : kept.AcceptsAll entries := ⟨issues.acceptsAll.distinct, issues.acceptsAll.accepts⟩
  have hcounted := @counted_new (i.makeSchedule entries now) issues.size
  refine h.add (fun k t ht => ?_) ?_ ?_ lastTick_issue clock.symm hcounted
  · rw [schedules_advanceSchedule] at ht
    have hentries := @schedules_applyEntries_eq kept (i.makeSchedule entries now) entries haccepts k
    have hkept : kept.schedules[k]? = if k = i.nextSchedule then some
        { schedule := i.makeSchedule entries now, consumed := List.replicate entries.length 0 }
          else i.schedules[k]? := get_insert ..
    rw [hkept, show (i.makeSchedule entries now).schedule = i.nextSchedule from rfl] at hentries
    have ht := hentries.symm.trans ht
    split at ht
    · rename_i hk
      cases ht
      refine .inl ⟨hk, ?_⟩
      dsimp only
      rw [UInt64.zero_add]
      rfl
    · rename_i hk
      exact .inr ⟨hk, ht⟩
  · rw [scheduleOrder_advanceSchedule, scheduleOrder_applySchedule]
    rfl
  · rcases hnumbers with ⟨⟨hsame, -⟩, -⟩ | ⟨hadvance, -⟩
    · rw [hsame]
      exact UInt64.le_refl _
    · exact UInt64.le_of_lt (Id.lt_of_advance hadvance)

theorem move (h : i.Shelved) (move : Move c i r i') : i'.Shelved := by
  rcases move with move | ⟨now, -, move⟩
  · rcases scheduleOrder_callMove move with horder | ⟨hschedules, horder⟩
    · refine h.drain (fun k t' ht' => ?_) horder move.counted.clock move.counted.nextSchedule
      rcases Narrows.callMove move with hnarrows | hschedules
      · exact hnarrows.schedule k t' ht'
      · simp [hschedules] at ht'
    · exact .empty hschedules horder
  · cases move with
    | common move =>
      have hsetting := move.setting
      refine h.drain (Narrows.commonMove move).schedule (scheduleOrder_commonMove move) ?_
        (congrArg Setting.nextSchedule hsetting)
      exact UInt64.le_of_eq (congrArg Setting.lastTick hsetting).symm
    | tick clock => exact h.drain (fun k t' ht' => ⟨t', ht', .refl t'⟩) rfl clock rfl
    | failDependency | failDeadline | roll =>
      exact h.drain (fun k t' ht' => ⟨t', ht', .refl t'⟩) rfl (UInt64.le_refl _) rfl
    | issue clock issues => exact h.issue clock issues
    | forget order gone =>
      refine h.drop order (fun k t ht => ⟨?_, ht⟩) rfl rfl rfl
      rintro rfl
      rw [gone] at ht
      cases ht
    | retire order _ _ =>
      refine h.drop order (fun k t ht => ?_) rfl rfl rfl
      simp only [dropSchedule, get_erase] at ht
      split at ht
      · cases ht
      · rename_i hne
        exact ⟨hne, ht⟩

end Impl.Shelved

theorem scheduleOrder_create {options : SchedulerOptions} {files : Directory} {s : Scheduler}
    (h : create options files = .ok s) : s.impl.scheduleOrder = [] := by
  obtain ⟨-, rfl | ⟨-, store, -, -, hrecover⟩⟩ := create_ok h
  · rfl
  · obtain ⟨b, report, s₁, s₂, s₃, next, before, after, -, -, -, -, rfl⟩ := recover_ok hrecover
    rfl

section Reclaim

variable {s t u : Scheduler} {now : Ticks} {i i' : Impl} {horizon : Ticks}

/-- No window of a schedule that has expired by the tick is undelivered. -/
def Impl.Reclaimed (i : Impl) (horizon now : Ticks) (k : ScheduleId) : Prop :=
  ∀ t : ScheduleRuntime, i.schedules[k]? = some t →
    t.schedule.atTick.toNat + horizon.toNat ≤ now.toNat → ∀ n, ¬ t.Pends n

theorem Impl.Reclaimed.narrows {k : ScheduleId} (h : i.Reclaimed horizon now k)
    (narrows : Narrows i i') : i'.Reclaimed horizon now k := by
  intro t' ht' hexpired n hpends
  obtain ⟨t, ht, hdrained⟩ := narrows.schedule k t' ht'
  rw [hdrained.schedule] at hexpired
  exact h t ht hexpired n (hdrained.pends hpends)

theorem not_pends_releaseRunEntry {k : ScheduleId} {t : ScheduleRuntime} {n : ℕ}
    (found : (i.releaseRunEntry k n now).schedules[k]? = some t) : ¬ t.Pends n := by
  have hmarked : ∀ (r : ScheduleRuntime) (pending : UInt64), ¬ { r with
      consumed := r.consumed.set n 2, pendingEntries := pending }.Pends n := by
    intro r pending hpends
    rw [← ScheduleRuntime.mem_undelivered, ScheduleRuntime.undelivered_mark (by decide)] at hpends
    exact Finset.notMem_erase n _ hpends
  unfold Impl.releaseRunEntry at found
  split at found
  · rename_i hnone
    rw [hnone] at found
    cases found
  · rename_i runtime hruntime
    split at found
    · split at found
      · simp only [modifySchedule, get_modify, if_true, hruntime, Option.map_some] at found
        cases found
        exact hmarked runtime _
      · have hset : ∀ s : Impl, s.schedules = (i.modifySchedule k fun r =>
            { r with
              consumed := r.consumed.set n 2
              pendingEntries := countDown r.pendingEntries }).schedules →
            s.schedules[k]? = some t → ¬ t.Pends n := by
          intro s hs hfound
          rw [hs] at hfound
          simp only [modifySchedule, get_modify, if_true, hruntime, Option.map_some] at hfound
          cases hfound
          exact hmarked runtime _
        dsimp only at found
        split at found
        · exact hset _ rfl found
        · split at found
          · exact hset _ rfl found
          · exact hset _ rfl found
    · rename_i hother
      rintro ⟨hmark, e, he, -⟩
      obtain rfl := Option.some.inj (hruntime.symm.trans found)
      exact hother e he hmark

theorem not_pends_applyReleaseSchedule {k : ScheduleId} {t : ScheduleRuntime} {n : ℕ}
    (found : (i.applyReleaseSchedule k now).schedules[k]? = some t) : ¬ t.Pends n := by
  intro hpends
  have hnarrows : Narrows i (i.applyReleaseSchedule k now) := .applyReleaseSchedule
  obtain ⟨runtime, hruntime, hdrained⟩ := hnarrows.schedule k t found
  have hbound : n < runtime.schedule.entries.length := by
    obtain ⟨-, e, he, -⟩ := hpends
    rw [hdrained.schedule] at he
    exact (List.getElem?_eq_some_iff.mp he).1
  obtain ⟨before, after, hsplit⟩ := List.append_of_mem (List.mem_range.mpr hbound)
  unfold Impl.applyReleaseSchedule at found
  rw [hruntime] at found
  dsimp only at found
  rw [hsplit, List.foldl_append, List.foldl_cons] at found
  -- the entry is marked at its turn and stays so
  generalize before.foldl (fun s index => s.releaseRunEntry k index now) i = j at found
  have hafter : Narrows (j.releaseRunEntry k n now)
      (after.foldl (fun s index => s.releaseRunEntry k index now) (j.releaseRunEntry k n now)) :=
    foldl_keeps (fun t index ht => ht.trans .releaseRunEntry) _ (.refl _)
  obtain ⟨t₁, ht₁, hdrained₁⟩ := hafter.schedule k t found
  exact not_pends_releaseRunEntry ht₁ (hdrained₁.pends hpends)

/-- The schedules of the list, ordered by their ticks, are reclaimed as far as they have expired. -/
theorem reclaimExpiredDeliveries_ok {ids : List ScheduleId} {o o' : ArbitrationOutcome}
    (h : exec (reclaimExpiredDeliveries now ids o) s = (.ok o', t))
    (appended : t.refusedAppends = s.refusedAppends)
    (sorted : ids.Pairwise fun a b => ∀ t t' : ScheduleRuntime, s.impl.schedules[a]? = some t →
      s.impl.schedules[b]? = some t' → t.schedule.atTick ≤ t'.schedule.atTick)
    (counted : ∀ (k : ScheduleId) (t : ScheduleRuntime), s.impl.schedules[k]? = some t → t.Counted) :
    Narrows s.impl t.impl ∧
      ∀ k ∈ ids, t.impl.Reclaimed s.impl.policy.dispatchDeliveryHorizon now k := by
  induction ids generalizing s o with
  | nil =>
    cases h
    exact ⟨.refl _, by simp⟩
  | cons id rest ih =>
    obtain ⟨hfirst, hrest⟩ := List.pairwise_cons.mp sorted
    unfold reclaimExpiredDeliveries at h
    rw [exec_readImpl_bind] at h
    split at h
    · rename_i hnone
      obtain ⟨hnarrows, hall⟩ := ih h appended hrest counted
      refine ⟨hnarrows, List.forall_mem_cons.mpr ⟨fun t' ht' => ?_, hall⟩⟩
      obtain ⟨t, ht, -⟩ := hnarrows.schedule id t' ht'
      rw [hnone] at ht
      cases ht
    · rename_i runtime hruntime
      split at h
      · rename_i hpending
        obtain ⟨hnarrows, hall⟩ := ih h appended hrest counted
        refine ⟨hnarrows, List.forall_mem_cons.mpr ⟨?_, hall⟩⟩
        have hreclaimed : s.impl.Reclaimed s.impl.policy.dispatchDeliveryHorizon now id := by
          intro t ht _ n
          obtain rfl := Option.some.inj (hruntime.symm.trans ht)
          exact ScheduleRuntime.not_pends_of_pending_eq_zero (counted id runtime hruntime) hpending
        exact hreclaimed.narrows hnarrows
      · split at h
        · rename_i hunexpired
          cases h
          refine ⟨.refl _, fun k hk t ht hexpired => ?_⟩
          have hlater : runtime.schedule.atTick ≤ t.schedule.atTick := by
            rcases List.mem_cons.mp hk with rfl | hk
            · rw [Option.some.inj (hruntime.symm.trans ht)]
              exact UInt64.le_refl _
            · exact hfirst k hk runtime t hruntime ht
          rw [UInt64.lt_iff_toNat_lt, toNat_saturatingAdd] at hunexpired
          rw [UInt64.le_iff_toNat_le] at hlater
          omega
        · rw [exec_bind, exec_succeeds] at h
          cases hjournal : exec (journal (.scheduleReleased id now)) s with
          | mk result u =>
            have himpl : u.impl = s.impl := impl_of_append hjournal
            rw [hjournal] at h
            cases result with
            | error e =>
              cases h
              have hrefused := refused_of_refused hjournal
              omega
            | ok =>
              have happend := refused_of_append hjournal
              dsimp only at h
              rw [if_pos rfl, exec_modifyImpl_bind, himpl] at h
              have hrelease : Narrows s.impl (s.impl.applyReleaseSchedule id now) :=
                .applyReleaseSchedule
              have hpolicy : (s.impl.applyReleaseSchedule id now).policy = s.impl.policy :=
                congrArg Setting.policy (setting_applyReleaseSchedule id now)
              have hsorted : rest.Pairwise fun a b => ∀ t t' : ScheduleRuntime,
                  (s.impl.applyReleaseSchedule id now).schedules[a]? = some t →
                  (s.impl.applyReleaseSchedule id now).schedules[b]? = some t' →
                  t.schedule.atTick ≤ t'.schedule.atTick := by
                refine hrest.imp fun {a b} hab t t' ht ht' => ?_
                obtain ⟨r, hr, hdrained⟩ := hrelease.schedule a t ht
                obtain ⟨r', hr', hdrained'⟩ := hrelease.schedule b t' ht'
                rw [hdrained.schedule, hdrained'.schedule]
                exact hab r r' hr hr'
              have hcounted : ∀ (k : ScheduleId) (t : ScheduleRuntime),
                  (s.impl.applyReleaseSchedule id now).schedules[k]? = some t → t.Counted := by
                intro k t ht
                obtain ⟨r, hr, hdrained⟩ := hrelease.schedule k t ht
                exact hdrained.counted (counted k r hr)
              obtain ⟨hnarrows, hall⟩ := ih h (appended.trans happend.symm) hsorted hcounted
              dsimp only at hnarrows hall
              rw [hpolicy] at hall
              refine ⟨hrelease.trans hnarrows, List.forall_mem_cons.mpr ⟨?_, hall⟩⟩
              have hreclaimed : (s.impl.applyReleaseSchedule id now).Reclaimed
                  s.impl.policy.dispatchDeliveryHorizon now id :=
                fun t ht _ n => not_pends_applyReleaseSchedule ht
              exact hreclaimed.narrows hnarrows

/-- A round does not make a window undelivered again; its own are not expired. -/
theorem reclaimed_applySchedule {schedule : Schedule} {k : ScheduleId} (positive : horizon ≠ 0)
    (tick : schedule.atTick = now) (h : i.Reclaimed horizon now k) :
    (i.applySchedule schedule).Reclaimed horizon now k := by
  intro t ht hexpired n
  rcases schedules_applySchedule ht with ⟨-, hsame, -⟩ | ⟨-, ht⟩
  · have hpos : 0 < horizon.toNat := UInt64.lt_iff_toNat_lt.mp (UInt64.pos_iff_ne_zero.mpr positive)
    rw [hsame, tick] at hexpired
    omega
  · exact h t ht hexpired n

theorem Narrows.decideMove {r : Option Record} (move : DecideMove now i r i') : Narrows i i' := by
  obtain ⟨move, unissued⟩ := move
  cases move with
  | common move => exact .commonMove move
  | failDependency => exact .failFlow
  | failDeadline => exact Narrows.countDeadlineMiss.trans .failFlow
  | tick | roll | forget => exact .of_eq rfl rfl
  | issue => exact (unissued _ rfl).elim
  | @retire front =>
    have hdrop : Narrows i (i.dropSchedule front) := .dropSchedule
    exact hdrop.trans (.of_eq rfl rfl)

theorem Makes.reclaimed {k : ScheduleId} (h : Makes (DecideMove now) s t)
    (hs : s.impl.Reclaimed horizon now k) : t.impl.Reclaimed horizon now k := by
  obtain ⟨rs, h⟩ := h
  exact h.preserves (P := fun i => i.Reclaimed horizon now k)
    (fun _ _ _ move hi => hi.narrows (.decideMove move)) hs

theorem reclaimed_finish {k : ScheduleId} (h : i.Reclaimed horizon now k) :
    (i.normalizeTransientStates now).maybeRetireSchedules.Reclaimed horizon now k := by
  have hnormalized : (i.normalizeTransientStates now).Reclaimed horizon now k :=
    h.narrows .normalizeTransientStates
  have hretired : ∀ (ids : List ScheduleId) (j : Impl), j.Reclaimed horizon now k →
      (retireSchedulesFrom j ids).Reclaimed horizon now k := by
    intro ids
    induction ids with
    | nil => exact fun j hj => hj
    | cons front rest ih =>
      intro j hj
      unfold retireSchedulesFrom
      split
      · exact hj
      · split
        · exact ih j hj
        · split
          · exact hj
          · exact ih _ (hj.narrows .dropSchedule)
  exact hretired _ _ hnormalized

theorem refusedAppends_concludeRound {round : Round} {o : ArbitrationOutcome}
    (h : exec (concludeRound now round) s = (.ok o, t)) : t.refusedAppends = s.refusedAppends := by
  unfold concludeRound at h
  split at h
  · cases h
    rfl
  · obtain ⟨schedule, u, hissue, h⟩ := exec_bind_ok.mp h
    cases h
    unfold issueSchedule at hissue
    rw [exec_readImpl_bind, exec_modifyImpl_bind] at hissue
    obtain ⟨_, v, hjournal, hissue⟩ := exec_bind_ok.mp hissue
    rw [exec_modifyImpl_bind, exec_readImpl_bind] at hissue
    obtain ⟨next, w, hadvance, hissue⟩ := exec_bind_ok.mp hissue
    rw [exec_lift] at hadvance
    obtain ⟨-, rfl⟩ := Prod.mk.inj hadvance
    rw [exec_readImpl_bind] at hissue
    obtain ⟨generation, w, hadvance', hissue⟩ := exec_bind_ok.mp hissue
    rw [exec_lift] at hadvance'
    obtain ⟨-, rfl⟩ := Prod.mk.inj hadvance'
    have happend := refused_of_append hjournal
    cases hissue
    exact happend

theorem reclaimed_concludeRound {round : Round} {o : ArbitrationOutcome} {k : ScheduleId}
    (positive : horizon ≠ 0) (h : exec (concludeRound now round) s = (.ok o, t))
    (hs : s.impl.Reclaimed horizon now k) : t.impl.Reclaimed horizon now k := by
  by_cases hempty : round.entries = []
  · unfold concludeRound at h
    rw [if_pos hempty] at h
    cases h
    exact reclaimed_finish hs
  · obtain ⟨hschedule, himpl⟩ := concludeRound_ok hempty h
    rw [himpl]
    refine reclaimed_finish ?_
    have hissued : ({ s.impl with
        provenanceSequence := s.impl.provenanceSequence + 1 }.applySchedule o.schedule).Reclaimed
          horizon now k := by
      refine reclaimed_applySchedule positive ?_ hs
      rw [hschedule]
      rfl
    intro t ht
    rw [schedules_advanceSchedule] at ht
    exact hissued t ht

/-- What a round does between reclaiming the expired deliveries and considering its candidates. -/
def rankRound (now : Ticks) (outcome : ArbitrationOutcome) :
    SchedOp (List Candidate × ArbitrationOutcome) := do
  let (refreshed, outcome) := (← readImpl).refreshLifecycles now outcome
  modifyImpl fun _ => refreshed
  stopOverdue now ((← readImpl).overdueAttempts now)
  let (ranked, candidates) := (← readImpl).rankCandidates now
  modifyImpl fun _ => ranked.rollPreemptionWindow now
  return (candidates, outcome)

theorem runs_rankRound (sound : Sound s.impl) (clock : s.impl.lastTick = now)
    (o : ArbitrationOutcome) : Runs (DecideMove now) (fun _ _ => True) (rankRound now o) s := by
  unfold rankRound
  refine .readImpl_bind ?_
  have hrefresh : Silently (RoundMove now) s.impl (s.impl.refreshLifecycles now o).1 :=
    refreshLifecycles_silently sound.keyed
  generalize s.impl.refreshLifecycles now o = p at hrefresh
  obtain ⟨refreshed, o⟩ := p
  have hm := Makes.silently (R := DecideMove now) (IssueMove.silently hrefresh)
  refine .modifyImpl_bind hm (.readImpl_bind ?_)
  refine (runs_stopOverdue (hm.round.clock clock) _).bind fun _ t _ _ => .readImpl_bind ?_
  have hrank : Silently (RoundMove now) t.impl (t.impl.rankCandidates now).1 :=
    rankCandidates_spec.1
  exact .modifyImpl_bind (.silently (IssueMove.silently
    (hrank.trans rollPreemptionWindow_silently))) (.pure trivial)

theorem openRound_reclaims {p : List Candidate × ArbitrationOutcome} (sound : Sound s.impl)
    (shelved : s.impl.Shelved) (h : exec (openRound now) s = (.ok p, t))
    (appended : t.refusedAppends = s.refusedAppends) (k : ScheduleId) :
    t.impl.Reclaimed s.impl.policy.dispatchDeliveryHorizon now k := by
  have hsplit : openRound now = readImpl >>= fun i => liftM (refuseIf (now < i.lastTick)
      .invalidArgument "arbitration tick moved backwards") >>= fun _ => modifyImpl (fun s =>
        { s with lastTick := now, arbitrationRounds := s.arbitrationRounds + 1 }) >>= fun _ =>
      readImpl >>= fun i => reclaimExpiredDeliveries now i.scheduleOrder {} >>= rankRound now := rfl
  rw [hsplit, exec_readImpl_bind] at h
  obtain ⟨_, s', hrefuse, h⟩ := exec_bind_ok.mp h
  rw [exec_lift] at hrefuse
  obtain ⟨haccepted, rfl⟩ := Prod.mk.inj hrefuse
  have htick : s.impl.lastTick ≤ now := UInt64.not_lt.mp (refuseIf_eq_ok.mp haccepted)
  rw [exec_modifyImpl_bind, exec_readImpl_bind] at h
  obtain ⟨o, u, hreclaim, hrank⟩ := exec_bind_ok.mp h
  have hopened : ∀ ids o, Runs (DecideMove now) (fun _ _ => True)
      (reclaimExpiredDeliveries now ids o) { s with impl := { s.impl with
        lastTick := now, arbitrationRounds := s.impl.arbitrationRounds + 1 } } :=
    runs_reclaimExpiredDeliveries rfl
  have hmakes := (hopened s.impl.scheduleOrder {}).1
  rw [hreclaim] at hmakes
  have hsound : Sound u.impl := ((makes_opening htick).trans hmakes).round.sound sound
  have hranked := (runs_rankRound hsound (hmakes.round.clock rfl) o).1
  rw [hrank] at hranked
  have hrefused : u.refusedAppends = s.refusedAppends := by
    have hbefore : s.refusedAppends ≤ u.refusedAppends := hmakes.refusedAppends_le
    have hafter : u.refusedAppends ≤ t.refusedAppends := hranked.refusedAppends_le
    omega
  obtain ⟨hnarrows, hall⟩ := reclaimExpiredDeliveries_ok hreclaim hrefused shelved.sorted
    shelved.counted
  refine hranked.reclaimed fun t ht => ?_
  obtain ⟨t₀, ht₀, -⟩ := hnarrows.schedule k t ht
  exact hall k (shelved.listed k t₀ ht₀) t ht

end Reclaim

theorem Lived.shelved {allowed : Scheduler → Call → Prop} {stops : Scheduler → Prop}
    {past : List Record} {s : Scheduler} (h : Lived allowed stops past s) : s.impl.Shelved := by
  induction h with
  | created hs => exact .empty (schedules_create hs) (scheduleOrder_create hs)
  | called h c _ ih => exact preserves_call (fun _ _ _ move hi => hi.move move) h.sound ih
  | faulty _ _ ih => exact ih
  | reopened _ _ _ _ opened _ => exact .empty (schedules_create opened) (scheduleOrder_create opened)

theorem dispatchDeliveryHorizon_ne_zero {p : SchedulingPolicy} (checked : p.validate = .ok ()) :
    p.dispatchDeliveryHorizon ≠ 0 := by
  simp only [SchedulingPolicy.validate, bind_eq_ok, refuseIf_eq_ok, exists_const] at checked
  obtain ⟨-, -, -, -, -, -, -, -, -, -, -, -, -, hhorizon, -⟩ := checked
  exact fun hzero => hhorizon (.inl hzero)

/-- Whatever schedules are retained and however the horizon has changed, after a round whose appends
succeed no schedule that has outlived the horizon has an undelivered window. -/
theorem arbitrate_reclaims (past : List Record) (s t : Scheduler) (now : Ticks)
    (o : ArbitrationOutcome) (k : ScheduleId) (runtime : ScheduleRuntime)
    (lived : Lived (fun _ _ => True) (fun _ => True) past s)
    (returned : exec (arbitrate now) s = (.ok o, t))
    (appended : t.refusedAppends = s.refusedAppends)
    (retained : t.impl.schedules[k]? = some runtime)
    (expired : runtime.schedule.atTick.toNat + t.impl.policy.dispatchDeliveryHorizon.toNat ≤
      now.toNat) (n : ℕ) : ¬ runtime.Pends n := by
  obtain ⟨round, w, hdecide, hconclude⟩ := arbitrate_ok returned
  obtain ⟨p, u, hopen, hall⟩ := decideGrants_ok lived.sound hdecide
  obtain ⟨hmakes, -, -⟩ := openRound_ok lived.sound hopen
  have hpolicy : t.impl.policy = s.impl.policy := by
    have hround : Makes (RoundMove now) s (exec (arbitrate now) s).2 :=
      (runs_arbitrate lived.sound).1
    rw [returned] at hround
    exact congrArg Registry.policy hround.registry
  have hrefused : u.refusedAppends = s.refusedAppends := by
    have hbefore : s.refusedAppends ≤ u.refusedAppends := hmakes.refusedAppends_le
    have hafter : u.refusedAppends ≤ w.refusedAppends := hall.makes.refusedAppends_le
    have hend : t.refusedAppends = w.refusedAppends := refusedAppends_concludeRound hconclude
    omega
  have hopened := openRound_reclaims lived.sound lived.shelved hopen hrefused k
  have hpositive : s.impl.policy.dispatchDeliveryHorizon ≠ 0 :=
    dispatchDeliveryHorizon_ne_zero lived.numbered.valid.policy
  have hreclaimed := reclaimed_concludeRound hpositive hconclude (hall.makes.reclaimed hopened)
  rw [hpolicy] at expired
  exact hreclaimed runtime retained expired n

namespace Sample

/-- A window that is not taken up at once is given back by the next round. -/
def impatient : SchedulerOptions := { policy := { policy with dispatchDeliveryHorizon := 1 } }

set_option maxRecDepth 100000 in
theorem arbitrate_reclaims_setup : ∃ s o t runtime,
    Lived (fun _ _ => True) (fun _ => True) [] s ∧ exec (arbitrate 6) s = (.ok o, t) ∧
    t.refusedAppends = s.refusedAppends ∧ t.impl.schedules[(⟨1⟩ : ScheduleId)]? = some runtime ∧
    (∃ before ∈ s.impl.schedules[(⟨1⟩ : ScheduleId)]?, before.Pends 0) ∧ ¬ runtime.Pends 0 := by
  obtain ⟨s, lived, hok, happended, hbefore, runtime, hretained, hexpired⟩ : ∃ s,
      Lived (fun _ _ => True) (fun _ => True) [] s ∧ (exec (arbitrate 6) s).1.toOption.isSome ∧
      (exec (arbitrate 6) s).2.refusedAppends = s.refusedAppends ∧
      (∃ before ∈ s.impl.schedules[(⟨1⟩ : ScheduleId)]?, before.Pends 0) ∧
      ∃ runtime ∈ (exec (arbitrate 6) s).2.impl.schedules[(⟨1⟩ : ScheduleId)]?,
        runtime.schedule.atTick.toNat +
          (exec (arbitrate 6) s).2.impl.policy.dispatchDeliveryHorizon.toNat ≤ (6 : Ticks).toNat :=
    @exists_lived _ _ (setup ++ [.arbitrate 5]) impatient _ (by decide +kernel)
  obtain ⟨o, ho⟩ := Option.isSome_iff_exists.mp hok
  have hexec : exec (arbitrate 6) s = (.ok o, (exec (arbitrate 6) s).2) := exec_eq_of_mem ho
  exact ⟨s, o, _, runtime, lived, hexec, happended, hretained, hbefore,
    arbitrate_reclaims [] s _ 6 o ⟨1⟩ runtime lived hexec happended hretained hexpired 0⟩

end Sample

end FlowScheduler

import FlowScheduler.Steps.Refresh

/-! # Scheduled service windows

A flow holds a service window while it is scheduled. Only the issue of a
schedule hands out windows: every other move leaves the windows it finds, or
takes them away, and retained schedules only lose undelivered entries.
-/

namespace FlowScheduler

open ByteCodec (Bytes)
open OrderedMap Impl

/-- The flow still holds the window it held; only a new generation may change its terms. -/
structure FlowRuntime.SameWindow (r r' : FlowRuntime) : Prop where
  scheduled : r.lifecycle = .scheduled
  schedule : r'.scheduledSchedule = r.scheduledSchedule
  served : r'.servedWork = r.servedWork
  terms : r'.descriptor.generation = r.descriptor.generation →
    r'.descriptor = { r.descriptor with readinessSignal := r'.descriptor.readinessSignal }
  generation : r.descriptor.generation.value ≤ r'.descriptor.generation.value

theorem toNat_countDown (n : UInt64) : (countDown n).toNat = n.toNat - 1 := by
  unfold countDown
  split
  · rename_i hpos
    have hone : (1 : UInt64) ≤ n := UInt64.le_iff_toNat_le.mpr (UInt64.lt_iff_toNat_lt.mp hpos)
    rw [UInt64.toNat_sub_of_le _ _ hone]
    rfl
  · rename_i hzero
    rw [UInt64.lt_iff_toNat_lt, UInt64.toNat_zero] at hzero
    omega

namespace ScheduleRuntime

/-- The entry at the index grants a window that nobody has taken or given back. -/
def Pends (t : ScheduleRuntime) (n : ℕ) : Prop :=
  t.consumed[n]? = some 0 ∧ ∃ e ∈ t.schedule.entries[n]?, e.kind = .run

instance {t : ScheduleRuntime} {n : ℕ} : Decidable (t.Pends n) := by
  unfold Pends
  infer_instance

/-- The indices of the windows that are still undelivered. -/
def undelivered (t : ScheduleRuntime) : Finset ℕ :=
  (Finset.range t.schedule.entries.length).filter t.Pends

/-- Every undelivered window is counted as pending. -/
def Counted (t : ScheduleRuntime) : Prop := t.undelivered.card ≤ t.pendingEntries.toNat

variable {t : ScheduleRuntime} {n : ℕ} {mark : UInt8}

theorem mem_undelivered : n ∈ t.undelivered ↔ t.Pends n := by
  rw [undelivered, Finset.mem_filter, Finset.mem_range, and_iff_right_iff_imp]
  rintro ⟨-, e, he, -⟩
  exact (List.getElem?_eq_some_iff.mp he).1

theorem undelivered_mark (marked : mark ≠ 0) (pending : UInt64) :
    { t with consumed := t.consumed.set n mark, pendingEntries := pending }.undelivered =
      t.undelivered.erase n := by
  ext m
  rw [Finset.mem_erase, mem_undelivered, mem_undelivered, Pends, Pends, List.getElem?_set]
  constructor
  · rintro ⟨hmark, hrun⟩
    split at hmark
    · split at hmark
      · exact absurd (Option.some.inj hmark) marked
      · cases hmark
    · rename_i hne
      exact ⟨Ne.symm hne, hmark, hrun⟩
  · rintro ⟨hne, hmark, hrun⟩
    rw [if_neg (Ne.symm hne)]
    exact ⟨hmark, hrun⟩

theorem Counted.deliver (h : t.Counted) (pends : t.Pends n) (marked : mark ≠ 0) :
    { t with
      consumed := t.consumed.set n mark
      pendingEntries := countDown t.pendingEntries }.Counted := by
  unfold Counted at h ⊢
  rw [undelivered_mark marked, Finset.card_erase_of_mem (mem_undelivered.mpr pends)]
  show _ ≤ (countDown t.pendingEntries).toNat
  rw [toNat_countDown]
  omega

theorem Counted.skip (h : t.Counted) (marked : mark ≠ 0) :
    { t with consumed := t.consumed.set n mark }.Counted := by
  unfold Counted at h ⊢
  rw [undelivered_mark marked]
  exact (Finset.card_erase_le).trans h

theorem not_pends_of_pending_eq_zero (h : t.Counted) (none : t.pendingEntries = 0) : ¬ t.Pends n := by
  intro hpends
  have hpos : 0 < t.undelivered.card := Finset.card_pos.mpr ⟨n, mem_undelivered.mpr hpends⟩
  unfold Counted at h
  rw [none] at h
  exact absurd h (Nat.not_le.mpr hpos)

end ScheduleRuntime

/-- The schedule is the one retained before, with no entry made undelivered again and every undelivered
window still counted. -/
structure ScheduleRuntime.Drained (t t' : ScheduleRuntime) : Prop where
  schedule : t'.schedule = t.schedule
  length : t'.consumed.length = t.consumed.length
  undelivered : ∀ n : ℕ, t'.consumed[n]? = some 0 → t.consumed[n]? = some 0
  marks : ∀ c ∈ t'.consumed, c ∈ t.consumed ∨ c = 1 ∨ c = 2
  counted : t.Counted → t'.Counted

structure Narrows (s s' : Impl) : Prop where
  flow : ∀ (id : FlowId) (r' : FlowRuntime), s'.flows[id]? = some r' → r'.lifecycle = .scheduled →
    ∃ r : FlowRuntime, s.flows[id]? = some r ∧ r.SameWindow r'
  schedule : ∀ (k : ScheduleId) (t' : ScheduleRuntime), s'.schedules[k]? = some t' →
    ∃ t : ScheduleRuntime, s.schedules[k]? = some t ∧ t.Drained t'

theorem FlowRuntime.SameWindow.refl {r : FlowRuntime} (h : r.lifecycle = .scheduled) :
    r.SameWindow r := ⟨h, rfl, rfl, fun _ => rfl, UInt64.le_refl _⟩

theorem FlowRuntime.SameWindow.trans {r₁ r₂ r₃ : FlowRuntime} (h : r₁.SameWindow r₂)
    (h' : r₂.SameWindow r₃) : r₁.SameWindow r₃ where
  scheduled := h.scheduled
  schedule := h'.schedule.trans h.schedule
  served := h'.served.trans h.served
  terms hg := by
    have hle := h'.generation
    have hle₁ := h.generation
    rw [hg] at hle
    have hmid : r₂.descriptor.generation = r₁.descriptor.generation :=
      Id.ext_value (UInt64.le_antisymm hle hle₁)
    exact (h'.terms (hg.trans hmid.symm)).trans (by rw [h.terms hmid])
  generation := UInt64.le_trans h.generation h'.generation

namespace ScheduleRuntime.Drained

theorem counters (t : ScheduleRuntime) (openAttempts) : t.Drained { t with openAttempts } :=
  ⟨rfl, rfl, fun _ h => h, fun _ h => .inl h, fun h => h⟩

theorem refl (t : ScheduleRuntime) : t.Drained t := counters t t.openAttempts

theorem trans {t₁ t₂ t₃ : ScheduleRuntime} (h : t₁.Drained t₂) (h' : t₂.Drained t₃) :
    t₁.Drained t₃ where
  schedule := h'.schedule.trans h.schedule
  length := h'.length.trans h.length
  undelivered n hn := h.undelivered n (h'.undelivered n hn)
  marks c hc := (h'.marks c hc).elim (h.marks c) .inr
  counted hc := h'.counted (h.counted hc)

theorem mark {t : ScheduleRuntime} {n : ℕ} {c : UInt8} (hc : c = 1 ∨ c = 2) {pending : UInt64}
    (counted : t.Counted → { t with consumed := t.consumed.set n c, pendingEntries := pending }.Counted) :
    t.Drained { t with consumed := t.consumed.set n c, pendingEntries := pending } where
  schedule := rfl
  length := List.length_set
  undelivered m hm := by
    rw [List.getElem?_set] at hm
    split at hm
    · split at hm
      · cases hm
        rcases hc with hc | hc <;> cases hc
      · cases hm
    · exact hm
  marks d hd := (List.mem_or_eq_of_mem_set hd).imp_right fun h => by
    rw [h]
    exact hc
  counted := counted

theorem pends {t t' : ScheduleRuntime} {n : ℕ} (h : t.Drained t') (pends : t'.Pends n) : t.Pends n :=
  ⟨h.undelivered n pends.1, h.schedule ▸ pends.2⟩

end ScheduleRuntime.Drained

theorem lifecycleAfterCompletion_ne_scheduled (e : CompletionEvidence) (r : FlowRuntime) :
    lifecycleAfterCompletion e r ≠ .scheduled := by
  unfold lifecycleAfterCompletion
  split
  · decide
  · split <;> decide

namespace Narrows

variable {s s' s₁ s₂ s₃ : Impl} {id : FlowId} {now : Ticks}

theorem refl (s : Impl) : Narrows s s where
  flow _ r' hr hl := ⟨r', hr, .refl hl⟩
  schedule _ t' ht := ⟨t', ht, .refl t'⟩

theorem trans (h : Narrows s₁ s₂) (h' : Narrows s₂ s₃) : Narrows s₁ s₃ where
  flow id r₃ hr₃ hl := by
    obtain ⟨r₂, hr₂, hw⟩ := h'.flow id r₃ hr₃ hl
    obtain ⟨r₁, hr₁, hw'⟩ := h.flow id r₂ hr₂ hw.scheduled
    exact ⟨r₁, hr₁, hw'.trans hw⟩
  schedule k t₃ ht₃ := by
    obtain ⟨t₂, ht₂, hd⟩ := h'.schedule k t₃ ht₃
    obtain ⟨t₁, ht₁, hd'⟩ := h.schedule k t₂ ht₂
    exact ⟨t₁, ht₁, hd'.trans hd⟩

theorem of_eq (flows : s'.flows = s.flows) (schedules : s'.schedules = s.schedules) :
    Narrows s s' where
  flow _ r' hr hl := ⟨r', flows ▸ hr, .refl hl⟩
  schedule _ t' ht := ⟨t', schedules ▸ ht, .refl t'⟩

theorem of_sameBut (same : SameBut id s s')
    (rest : ∀ r', s'.flows[id]? = some r' → r'.lifecycle ≠ .scheduled)
    (schedules : s'.schedules = s.schedules) : Narrows s s' where
  flow a r' hr hl := by
    by_cases ha : a = id
    · subst ha
      exact absurd hl (rest r' hr)
    · rw [same a ha] at hr
      exact ⟨r', hr, .refl hl⟩
  schedule _ t' ht := ⟨t', schedules ▸ ht, .refl t'⟩

theorem modifyFlow {f : FlowRuntime → FlowRuntime}
    (keep : ∀ r, s.flows[id]? = some r → (f r).lifecycle = .scheduled → r.SameWindow (f r)) :
    Narrows s (s.modifyFlow id f) where
  flow a r' hr hl := by
    simp only [Impl.modifyFlow, get_modify] at hr
    split at hr
    · rename_i ha
      subst ha
      obtain ⟨r, hr₀, rfl⟩ := Option.map_eq_some_iff.mp hr
      exact ⟨r, hr₀, keep r hr₀ hl⟩
    · exact ⟨r', hr, .refl hl⟩
  schedule _ t' ht := ⟨t', ht, .refl t'⟩

theorem modifyFlow_of_eq {f : FlowRuntime → FlowRuntime}
    (keep : ∀ r, (f r).lifecycle = r.lifecycle ∧ (f r).scheduledSchedule = r.scheduledSchedule ∧
      (f r).servedWork = r.servedWork ∧ (f r).descriptor = r.descriptor) :
    Narrows s (s.modifyFlow id f) := by
  refine modifyFlow fun r _ hl => ?_
  obtain ⟨hlife, hsched, hserved, hdesc⟩ := keep r
  refine ⟨hlife ▸ hl, hsched, hserved, fun _ => ?_, ?_⟩
  · rw [hdesc]
  · rw [hdesc]
    exact UInt64.le_refl _

theorem modifySchedule {k : ScheduleId} {f : ScheduleRuntime → ScheduleRuntime}
    (keep : ∀ t, s.schedules[k]? = some t → t.Drained (f t)) : Narrows s (s.modifySchedule k f) where
  flow _ r' hr hl := ⟨r', hr, .refl hl⟩
  schedule a t' ht := by
    simp only [Impl.modifySchedule, get_modify] at ht
    split at ht
    · rename_i ha
      subst ha
      obtain ⟨t, ht₀, rfl⟩ := Option.map_eq_some_iff.mp ht
      exact ⟨t, ht₀, keep t ht₀⟩
    · exact ⟨t', ht, .refl t'⟩

theorem setLifecycle {next : FlowLifecycle} (rest : next ≠ .scheduled) :
    Narrows s (s.setLifecycle id next now) :=
  of_sameBut sameBut_setLifecycle (fun _ hr => by rwa [lifecycle_of_setLifecycle hr]) rfl

theorem recordStep {lifecycle : FlowLifecycle} {reason : DecisionReason} {schedule : ScheduleId}
    {attempt : DispatchAttemptId} {detail : Bytes} :
    Narrows s (s.recordStep id now lifecycle reason schedule attempt detail) :=
  modifyFlow_of_eq fun r => by simp

/-- A flow is touched, then enters a lifecycle without a window, then the step is explained. -/
theorem settle {t : Impl} (same : SameBut id s t) (schedules : t.schedules = s.schedules)
    {next lifecycle : FlowLifecycle} (rest : next ≠ .scheduled) {reason : DecisionReason}
    {schedule : ScheduleId} {attempt : DispatchAttemptId} {detail : Bytes} :
    Narrows s ((t.setLifecycle id next now).recordStep id now lifecycle reason schedule attempt
      detail) := by
  refine trans ?_ recordStep
  refine of_sameBut (same.trans sameBut_setLifecycle) (fun _ hr => ?_) schedules
  rwa [lifecycle_of_setLifecycle hr]

theorem unscheduleFlow {entry : ScheduleEntry} : Narrows s (s.unscheduleFlow entry now) := by
  have hsame : SameBut entry.flow s ((s.modifyFlow entry.flow fun r =>
      { r.clearScheduled with
        outstandingReserved := clampedSub r.outstandingReserved entry.quantum }).releaseInFlight
          entry.resource) := sameBut_modifyFlow
  exact settle hsame rfl (by decide)

theorem releaseRunEntry {k : ScheduleId} {index : ℕ} :
    Narrows s (s.releaseRunEntry k index now) := by
  unfold Impl.releaseRunEntry
  split
  · exact refl s
  · rename_i runtime hruntime
    split
    · rename_i entry hentry hmark
      split
      · exact modifySchedule fun t _ => .mark (.inr rfl) fun h => h.skip (by decide)
      · rename_i hrun
        have hpends : runtime.Pends index := ⟨hmark, entry, hentry, not_not.mp hrun⟩
        have hmarked : Narrows s (s.modifySchedule k fun r =>
            { r with
              consumed := r.consumed.set index 2
              pendingEntries := countDown r.pendingEntries }) := by
          refine modifySchedule fun t ht => .mark (.inr rfl) fun h => h.deliver ?_ (by decide)
          exact Option.some.inj (hruntime.symm.trans ht) ▸ hpends
        dsimp only
        split
        · exact hmarked
        · split
          · exact hmarked
          · exact hmarked.trans unscheduleFlow
    · exact refl s

theorem releaseScheduledEntry : Narrows s (s.releaseScheduledEntry id now) := by
  unfold Impl.releaseScheduledEntry
  split
  · exact refl s
  · split
    · exact refl s
    · split
      · exact refl s
      · split
        · exact releaseRunEntry
        · exact refl s

theorem applyReleaseSchedule {k : ScheduleId} : Narrows s (s.applyReleaseSchedule k now) := by
  unfold Impl.applyReleaseSchedule
  split
  · exact refl s
  · exact foldl_keeps (fun t index ht => ht.trans releaseRunEntry) _ (refl s)

theorem applyAdmit {d : FlowDescriptor} (h : s.applyAdmit d = .ok s') : Narrows s s' := by
  unfold Impl.applyAdmit at h
  split at h
  · cases h
  · cases h
    have hother : SameBut d.flow s { s with
        flows := s.flows.insert d.flow
          { descriptor := d, lastChangeTick := (s.flows.getD d.flow {}).lastChangeTick } } :=
      fun k hk => by simp only [get_insert, if_neg hk]
    refine of_sameBut hother (fun r' hr => ?_) rfl
    simp only [get_insert, if_true] at hr
    cases hr
    exact FlowLifecycle.noConfusion

theorem applyUpdate {d : FlowDescriptor}
    (later : ∀ r : FlowRuntime, s.flows[d.flow]? = some r →
      r.descriptor.generation.value < d.generation.value)
    (h : s.applyUpdate d = .ok s') : Narrows s s' := by
  unfold Impl.applyUpdate at h
  split at h
  · cases h
  · split at h
    · cases h
    · cases h
      refine modifyFlow fun r hr hl => ⟨hl, rfl, rfl, fun hg => ?_, UInt64.le_of_lt (later r hr)⟩
      have hlt := later r hr
      rw [show d.generation = r.descriptor.generation from hg] at hlt
      exact absurd hlt (UInt64.lt_irrefl _)

theorem applyReadiness {generation : Generation} {signal : ReadinessSignal} :
    Narrows s (s.applyReadiness id generation signal now) := by
  unfold Impl.applyReadiness
  split
  · exact refl s
  · exact modifyFlow fun r _ hl => ⟨hl, rfl, rfl, fun _ => rfl, UInt64.le_refl _⟩

theorem applyRetireFlow {generation : Generation} : Narrows s (s.applyRetireFlow id generation) := by
  unfold Impl.applyRetireFlow
  split
  · exact refl s
  · refine @of_sameBut s _ id (fun k hk => ?_) (fun r' hr => ?_) rfl
    · simp only [get_erase, if_neg hk]
    · simp at hr

theorem applyAmbiguityResolved {generation : Generation} {resolution : AmbiguityResolution} :
    Narrows s (s.applyAmbiguityResolved id generation resolution now) := by
  unfold Impl.applyAmbiguityResolved
  split
  · exact refl s
  · split
    · exact refl s
    · split
      · exact settle .refl rfl (by decide)
      · refine trans (trans (setLifecycle ?_) (modifyFlow_of_eq fun _ => ?_)) recordStep
        · decide
        · exact ⟨rfl, rfl, rfl, rfl⟩

theorem fileAttempt {ticket : DispatchTicket} : Narrows s (s.fileAttempt ticket now) := by
  have hfiled : Narrows s { s with
      attempts := s.attempts.insert ticket.attempt { ticket, openedTick := now }
      scheduleAttempts := s.scheduleAttempts.insert ticket.schedule
        (s.scheduleAttempts.getD ticket.schedule [] ++ [ticket.attempt]) } := of_eq rfl rfl
  exact hfiled.trans (modifySchedule fun t _ => .counters t _)

theorem applyAttemptOpened {ticket : DispatchTicket} {nominal : UInt64} :
    Narrows s (s.applyAttemptOpened ticket nominal now) := by
  have hfile : Narrows s (s.fileAttempt ticket now) := fileAttempt
  unfold Impl.applyAttemptOpened
  dsimp only
  split
  · exact hfile
  · refine hfile.trans (settle sameBut_modifyFlow rfl ?_)
    decide

theorem applyAttemptStarted {attempt : DispatchAttemptId} :
    Narrows s (s.applyAttemptStarted attempt now) := by
  unfold Impl.applyAttemptStarted
  split
  · exact refl s
  · split
    · exact refl s
    · dsimp only
      split
      · exact of_eq rfl rfl
      · split
        · exact of_eq rfl rfl
        · refine of_sameBut (SameBut.trans sameBut_modifyFlow sameBut_setLifecycle)
            (fun r' hr => ?_) rfl
          rw [lifecycle_of_setLifecycle hr]
          decide

theorem endAttempt {attempt : DispatchAttemptId} {record : AttemptRuntime} :
    Narrows s (s.endAttempt attempt record) := by
  have hfiled : Narrows s { s with attempts := s.attempts.insert attempt record } := of_eq rfl rfl
  exact hfiled.trans (modifySchedule fun t _ => .counters t _)

theorem closeFlowAttempt {record : AttemptRuntime} {attempt : DispatchAttemptId}
    {state : AttemptState} : Narrows s (s.closeFlowAttempt record attempt state now) := by
  have hsame : SameBut record.ticket.flow s (s.releaseAttempt record.ticket.flow record.ticket) :=
    sameBut_modifyFlow
  have hrelease : Narrows s (s.releaseAttempt record.ticket.flow record.ticket) := by
    have hflow : Narrows s (s.modifyFlow record.ticket.flow fun r =>
        { r with
          outstandingReserved := clampedSub r.outstandingReserved record.ticket.quantum
          openAttempt := {} }) := modifyFlow_of_eq fun _ => ⟨rfl, rfl, rfl, rfl⟩
    exact hflow.trans (of_eq rfl rfl)
  unfold Impl.closeFlowAttempt
  cases state with
  | preempted => exact settle (hsame.trans sameBut_modifyFlow) rfl (by decide)
  | cancelled | abandoned | rejected => exact settle hsame rfl (by decide)
  | opened | started | committed => exact hrelease

theorem applyAttemptClosed {attempt : DispatchAttemptId} {state : AttemptState} {detail : Bytes} :
    Narrows s (s.applyAttemptClosed attempt state detail now) := by
  unfold Impl.applyAttemptClosed
  split
  · exact refl s
  · split
    · exact refl s
    · dsimp only
      split
      · exact endAttempt
      · split
        · exact endAttempt
        · exact endAttempt.trans closeFlowAttempt

theorem enterCancelled : Narrows s ((s.setLifecycle id .cancelled now).modifyFlow id fun r =>
    { r.clearScheduled with outstandingReserved := 0 }) := by
  have hcancelled : Narrows s (s.setLifecycle id .cancelled now) := setLifecycle (by decide)
  refine hcancelled.trans (modifyFlow fun r hr hl => ?_)
  have hl : r.lifecycle = .scheduled := hl
  rw [lifecycle_of_setLifecycle hr] at hl
  cases hl

theorem applyCancel {generation : Generation} : Narrows s (s.applyCancel id generation now) := by
  unfold Impl.applyCancel
  split
  · exact refl s
  · rename_i r _
    have hclose : Narrows s (if r.openAttempt.valid then
        s.applyAttemptClosed r.openAttempt .cancelled (ascii "flow cancelled") now else s) := by
      split
      · exact applyAttemptClosed
      · exact refl s
    exact ((hclose.trans releaseScheduledEntry).trans enterCancelled).trans recordStep

theorem applyCompletion {e : CompletionEvidence} {credited : UInt64} {lifecycle : FlowLifecycle}
    (rest : lifecycle ≠ .scheduled) : Narrows s (s.applyCompletion e credited lifecycle now) := by
  unfold Impl.applyCompletion
  split
  · exact refl s
  · rename_i found _
    have hend : Narrows s (s.endAttempt e.attempt { found with
        state := .committed, closedTick := now, hasEvidence := true
        evidenceDigest := e.digest, credited := credited }) := endAttempt
    dsimp only
    split
    · exact hend
    · refine hend.trans (settle ?_ ?_ rest)
      · exact (sameBut_modifyFlow.trans sameBut_releaseAttempt).trans sameBut_creditFlow
      · rfl

theorem normalizeTransientStates : Narrows s (s.normalizeTransientStates now) := by
  refine foldl_keeps (fun t id ht => ht.trans ?_) _ (refl s)
  unfold Impl.normalizeFlow
  split
  · exact refl _
  · split
    · exact setLifecycle (by decide)
    · split
      · exact setLifecycle (by decide)
      · exact refl _

theorem dropSchedule {k : ScheduleId} : Narrows s (s.dropSchedule k) where
  flow _ r' hr hl := ⟨r', hr, .refl hl⟩
  schedule a t' ht := by
    simp only [Impl.dropSchedule, get_erase] at ht
    split at ht
    · cases ht
    · exact ⟨t', ht, .refl t'⟩

/-- The window that is dispatched is one that nobody has taken. -/
theorem dispatch {ticket : DispatchTicket} {nominal : UInt64} {k : ScheduleId} {ordinal : ℕ}
    (pends : ∀ t, s.schedules[k]? = some t → t.Pends ordinal) :
    Narrows s ((s.applyAttemptOpened ticket nominal now).consumeEntry k ordinal) := by
  have hpends : ∀ t, (s.applyAttemptOpened ticket nominal now).schedules[k]? = some t →
      t.Pends ordinal := by
    intro t ht
    have hfiled : (s.fileAttempt ticket now).schedules[k]? = some t := by
      unfold Impl.applyAttemptOpened at ht
      dsimp only at ht
      split at ht <;> exact ht
    simp only [Impl.fileAttempt, Impl.modifySchedule, get_modify] at hfiled
    split at hfiled
    · obtain ⟨t₀, ht₀, rfl⟩ := Option.map_eq_some_iff.mp hfiled
      exact pends t₀ ht₀
    · exact pends t hfiled
  have hopened : Narrows s (s.applyAttemptOpened ticket nominal now) := applyAttemptOpened
  refine hopened.trans (modifySchedule fun t ht => .mark (.inl rfl) fun h => ?_)
  exact h.deliver (hpends t ht) (by decide)

theorem advanceAttempt : Narrows s s.advanceAttempt := by
  unfold Impl.advanceAttempt
  split
  · exact of_eq rfl rfl
  · exact refl s

theorem commonMove {r : Option Record} (move : CommonMove s r s') : Narrows s s' := by
  cases move with
  | counters => exact of_eq rfl rfl
  | note h =>
    refine modifyFlow_of_eq fun r => ?_
    obtain ⟨_, _, _, hr, -⟩ := h r
    rw [hr]
    exact ⟨rfl, rfl, rfl, rfl⟩
  | ready => exact settle .refl rfl (by decide)
  | normalize => exact normalizeTransientStates
  | close => exact applyAttemptClosed
  | release => exact applyReleaseSchedule

theorem failFlow {reason : DecisionReason} {detail : String} :
    Narrows s (s.failFlow id reason detail now) := settle .refl rfl (by decide)

theorem countDeadlineMiss : Narrows s (s.countDeadlineMiss id) := by
  have hcount : Narrows s { s with deadlineMisses := s.deadlineMisses + 1 } := of_eq rfl rfl
  exact hcount.trans (modifyFlow_of_eq fun _ => ⟨rfl, rfl, rfl, rfl⟩)

theorem roundMove {r : Option Record} (move : RoundMove now s r s') :
    Narrows s s' ∨ ∃ entries, s.Issues now entries ∧
      s' = ({ s with provenanceSequence := s.provenanceSequence + 1 }.applySchedule
        (s.makeSchedule entries now)).advanceSchedule := by
  cases move with
  | common move => exact .inl (commonMove move)
  | failDependency => exact .inl failFlow
  | failDeadline => exact .inl (countDeadlineMiss.trans failFlow)
  | tick | roll | forget => exact .inl (of_eq rfl rfl)
  | issue _ h => exact .inr ⟨_, h, rfl⟩
  | @retire front =>
    have hdrop : Narrows s (s.dropSchedule front) := dropSchedule
    exact .inl (hdrop.trans (of_eq rfl rfl))

/-- Updates and completions leave no flow scheduled that was not scheduled before. -/
theorem callMove {c : Call} {r : Option Record} (move : CallMove c s r s') :
    Narrows s s' ∨ s'.schedules = ∅ := by
  cases move with
  | common move => exact .inl (commonMove move)
  | touch | registerResource | registerReservation | registerPriorityClass | registerQosClass
  | installPolicy => exact .inl (of_eq rfl rfl)
  | retireReservation =>
    left
    unfold Impl.applyRetireReservation
    split
    · exact refl s
    · split
      · exact refl s
      · exact of_eq rfl rfl
  | admitFlow _ applied => exact .inl (applyAdmit applied)
  | admitRefused | updateRefused => exact .inl (refl s)
  | update guard applied =>
    obtain ⟨r, hr, hlt⟩ := generation_lt_of_updateFlowGuard guard
    have hlater : ∀ r' : FlowRuntime, s.flows[_]? = some r' →
        r'.descriptor.generation.value < _ := fun r' hr' => Option.some.inj (hr.symm.trans hr') ▸ hlt
    exact .inl ((applyUpdate hlater applied).trans releaseScheduledEntry)
  | cancel => exact .inl (applyCancel.trans normalizeTransientStates)
  | notify => exact .inl applyReadiness
  | resolve => exact .inl applyAmbiguityResolved
  | retireFlow => exact .inl applyRetireFlow
  | advanceEpoch => exact .inr rfl
  | dispatch guard =>
    refine .inl (trans (dispatch fun t ht => ?_) advanceAttempt)
    have hguard := beginDispatchGuard_eq_ok.mp guard
    obtain ⟨runtime, hruntime, -, -, hentry, hmark⟩ := hguard.retained
    obtain rfl := Option.some.inj (hruntime.symm.trans ht)
    exact ⟨hmark, _, hentry, hguard.run⟩
  | start => exact .inl applyAttemptStarted
  | complete => exact .inl (applyCompletion (lifecycleAfterCompletion_ne_scheduled _ _))

end Narrows

namespace Impl

variable {s : Impl} {schedule : Schedule} {entries : List ScheduleEntry}

/-- The flow was given a window by an entry of the schedule. -/
def WindowFrom (schedule : Schedule) (entries : List ScheduleEntry) (id : FlowId)
    (r r' : FlowRuntime) : Prop :=
  ∃ e ∈ entries, e.kind = .run ∧ e.flow = id ∧ e.flowGeneration = r.descriptor.generation ∧
    r'.scheduledSchedule = schedule.schedule ∧ r'.scheduledOrdinal = e.ordinal ∧
    r'.servedWork = r.servedWork ∧ r'.descriptor = r.descriptor

theorem flows_applyRunEntry {e : ScheduleEntry} (run : e.kind = .run) {id : FlowId}
    {r' : FlowRuntime} (h : (s.applyRunEntry schedule e).flows[id]? = some r') :
    s.flows[id]? = some r' ∨ ∃ r, s.flows[id]? = some r ∧ WindowFrom schedule [e] id r r' := by
  rcases s.applyRunEntry_cases schedule e with ⟨-, hs⟩ | ⟨r, _, _, ⟨hr, hg, -⟩, hs, -⟩
  · rw [hs] at h
    exact .inl h
  · rw [hs] at h
    simp only [chargeResource, countPending, scheduleFlow, modifyResource, modifySchedule,
      recordStep, setLifecycle, modifyFlow, get_modify] at h
    by_cases hid : id = e.flow
    · subst hid
      simp only [if_true, Option.map_map] at h
      obtain ⟨r₀, hr₀, rfl⟩ := Option.map_eq_some_iff.mp h
      obtain rfl := Option.some.inj (hr.symm.trans hr₀)
      refine .inr ⟨r, hr, e, List.mem_singleton.mpr rfl, run, rfl, hg.symm, ?_⟩
      simp
    · simp only [if_neg hid] at h
      exact .inl h

theorem flows_applyEntries {id : FlowId} {r' : FlowRuntime}
    (h : (s.applyEntries schedule entries).flows[id]? = some r') :
    s.flows[id]? = some r' ∨ ∃ r, s.flows[id]? = some r ∧ WindowFrom schedule entries id r r' := by
  unfold applyEntries at h
  induction entries generalizing s with
  | nil => exact .inl h
  | cons e entries ih =>
    rw [List.foldl_cons] at h
    have hlater : ∀ {r r' : FlowRuntime}, WindowFrom schedule entries id r r' →
        WindowFrom schedule (e :: entries) id r r' :=
      fun ⟨e', he', hw⟩ => ⟨e', List.mem_cons_of_mem _ he', hw⟩
    split at h
    · exact (ih h).imp_right fun ⟨r, hr, hw⟩ => ⟨r, hr, hlater hw⟩
    · rename_i hkind
      rcases ih h with h | ⟨r₁, h₁, hw⟩
      · refine (flows_applyRunEntry (not_not.mp hkind) h).imp_right ?_
        rintro ⟨r, hr, e', he', hw⟩
        exact ⟨r, hr, e', List.mem_cons.mpr (.inl (List.mem_singleton.mp he')), hw⟩
      · right
        rcases flows_applyRunEntry (not_not.mp hkind) h₁ with hr | ⟨r, hr, _, _, _, _, _, _, _, hs, hd⟩
        · exact ⟨r₁, hr, hlater hw⟩
        · obtain ⟨e', he', hrun, hflow, hgen, hsched, hord, hserved, hdesc⟩ := hw
          exact ⟨r, hr, e', List.mem_cons_of_mem _ he', hrun, hflow, hd ▸ hgen, hsched, hord,
            hserved.trans hs, hdesc.trans hd⟩

/-- An issued schedule is retained under its own identity; the others stay as they are. -/
theorem schedules_applyRunEntry (e : ScheduleEntry) {k : ScheduleId} {t' : ScheduleRuntime}
    (h : (s.applyRunEntry schedule e).schedules[k]? = some t') :
    ∃ t, s.schedules[k]? = some t ∧ t'.schedule = t.schedule ∧ t'.consumed = t.consumed ∧
      (k ≠ schedule.schedule → t' = t) := by
  rcases s.applyRunEntry_cases schedule e with ⟨-, hs⟩ | ⟨r, _, _, -, hs, -⟩
  · rw [hs] at h
    exact ⟨t', h, rfl, rfl, fun _ => rfl⟩
  · rw [hs] at h
    simp only [chargeResource, countPending, modifyResource, modifySchedule, get_modify] at h
    split at h
    · rename_i hk
      obtain ⟨t, ht, rfl⟩ := Option.map_eq_some_iff.mp h
      exact ⟨t, ht, rfl, rfl, fun hne => absurd hk hne⟩
    · exact ⟨t', h, rfl, rfl, fun _ => rfl⟩

theorem schedules_applyEntries {k : ScheduleId} {t' : ScheduleRuntime}
    (h : (s.applyEntries schedule entries).schedules[k]? = some t') :
    ∃ t, s.schedules[k]? = some t ∧ t'.schedule = t.schedule ∧ t'.consumed = t.consumed ∧
      (k ≠ schedule.schedule → t' = t) := by
  unfold applyEntries at h
  induction entries generalizing s with
  | nil => exact ⟨t', h, rfl, rfl, fun _ => rfl⟩
  | cons e entries ih =>
    rw [List.foldl_cons] at h
    obtain ⟨t, ht, hsched, hconsumed, hsame⟩ := ih h
    split at ht
    · exact ⟨t, ht, hsched, hconsumed, hsame⟩
    · obtain ⟨t₀, ht₀, hsched₀, hconsumed₀, hsame₀⟩ := schedules_applyRunEntry e ht
      exact ⟨t₀, ht₀, hsched.trans hsched₀, hconsumed.trans hconsumed₀,
        fun hk => (hsame hk).trans (hsame₀ hk)⟩

theorem schedules_applySchedule {k : ScheduleId} {t' : ScheduleRuntime}
    (h : (s.applySchedule schedule).schedules[k]? = some t') :
    (k = schedule.schedule ∧ t'.schedule = schedule ∧
      t'.consumed = List.replicate schedule.entries.length 0) ∨
    (k ≠ schedule.schedule ∧ s.schedules[k]? = some t') := by
  obtain ⟨t, ht, hsched, hconsumed, hsame⟩ := schedules_applyEntries h
  simp only [retainSchedule, get_insert] at ht
  by_cases hk : k = schedule.schedule
  · rw [if_pos hk] at ht
    cases ht
    exact .inl ⟨hk, hsched, hconsumed⟩
  · rw [if_neg hk] at ht
    rw [hsame hk]
    exact .inr ⟨hk, ht⟩

theorem flows_applySchedule {id : FlowId} {r' : FlowRuntime}
    (h : (s.applySchedule schedule).flows[id]? = some r') :
    s.flows[id]? = some r' ∨
      ∃ r, s.flows[id]? = some r ∧ WindowFrom schedule schedule.entries id r r' :=
  @flows_applyEntries (s.retainSchedule schedule) _ _ _ _ h

@[simp] theorem flows_advanceSchedule : s.advanceSchedule.flows = s.flows := by
  unfold advanceSchedule
  split <;> rfl

@[simp] theorem schedules_advanceSchedule : s.advanceSchedule.schedules = s.schedules := by
  unfold advanceSchedule
  split <;> rfl

end Impl

/-- What holds of every scheduled flow and the schedule its window is of. -/
def Impl.EachWindow (Q : FlowId → FlowRuntime → Schedule → Prop) (s : Impl) : Prop :=
  ∀ (id : FlowId) (r : FlowRuntime), s.flows[id]? = some r → r.lifecycle = .scheduled →
    ∀ t : ScheduleRuntime, s.schedules[r.scheduledSchedule]? = some t → Q id r t.schedule

/-- What holds of the entries a flow was given a window by, while the generation they name lasts. -/
def Carries (Q : FlowRuntime → Schedule → ScheduleEntry → Prop) (id : FlowId) (r : FlowRuntime)
    (schedule : Schedule) : Prop :=
  ∀ e ∈ schedule.entries, e.kind = .run → e.flow = id →
    e.flowGeneration.value ≤ r.descriptor.generation.value ∧
    (e.flowGeneration = r.descriptor.generation → Q r schedule e)

/-- The flow is as it was, or a window was added to it. -/
def Impl.Scheduling (s : Impl) (id : FlowId) (r' : FlowRuntime) : Prop :=
  s.flows[id]? = some r' ∨ ∃ r, s.flows[id]? = some r ∧ r'.servedWork = r.servedWork ∧
    r'.descriptor = r.descriptor

section Windows

variable {Q Q' : FlowId → FlowRuntime → Schedule → Prop} {s s' : Impl} {now : Ticks}
  {entries : List ScheduleEntry} {record : Option Record}

namespace Impl.EachWindow

theorem of_schedules_empty (h : s.schedules = ∅) : EachWindow Q s := by
  intro id r _ _ t ht
  rw [h] at ht
  simp at ht

variable (h : EachWindow Q s)
  (same : ∀ id r r' schedule, r.SameWindow r' → Q id r schedule → Q' id r' schedule)

include h same

theorem narrows (narrows : Narrows s s') : EachWindow Q' s' := by
  intro id r' hr' hl' t' ht'
  obtain ⟨r, hr, hwindow⟩ := narrows.flow id r' hr' hl'
  obtain ⟨t, ht, hdrained⟩ := narrows.schedule _ t' ht'
  rw [hwindow.schedule] at ht
  rw [hdrained.schedule]
  exact same id r r' _ hwindow (h id r hr hwindow.scheduled t ht)

theorem callMove {c : Call} (move : CallMove c s record s') : EachWindow Q' s' := by
  rcases Narrows.callMove move with hnarrows | hempty
  · exact h.narrows same hnarrows
  · exact of_schedules_empty hempty

theorem roundMove (move : RoundMove now s record s')
    (new : ∀ entries id r', s.Issues now entries → s.Scheduling id r' → r'.lifecycle = .scheduled →
      Q' id r' (s.makeSchedule entries now)) : EachWindow Q' s' := by
  rcases Narrows.roundMove move with hnarrows | ⟨entries, issues, rfl⟩
  · exact h.narrows same hnarrows
  · intro id r' hr' hl' t' ht'
    rw [schedules_advanceSchedule] at ht'
    rw [flows_advanceSchedule] at hr'
    have hflow := flows_applySchedule hr'
    rcases schedules_applySchedule ht' with ⟨-, hschedule, -⟩ | ⟨hold, ht⟩
    · rw [hschedule]
      refine new entries id r' issues (hflow.imp_right ?_) hl'
      rintro ⟨r, hr, _, _, _, _, _, _, _, hserved, hdescriptor⟩
      exact ⟨r, hr, hserved, hdescriptor⟩
    · rcases hflow with hr | ⟨r, -, _, _, _, _, _, hnew, -⟩
      · exact same id r' r' _ (.refl hl') (h id r' hr hl' t' ht)
      · exact absurd hnew hold

end Impl.EachWindow

variable {P P' : FlowRuntime → Schedule → ScheduleEntry → Prop} {id : FlowId} {r r' : FlowRuntime}
  {schedule : Schedule}

theorem Carries.sameWindow (h : Carries P id r schedule) (window : r.SameWindow r')
    (same : ∀ e, r'.descriptor =
        { r.descriptor with readinessSignal := r'.descriptor.readinessSignal } →
      P r schedule e → P' r' schedule e) : Carries P' id r' schedule := by
  intro e he hk hflow
  obtain ⟨hle, hkept⟩ := h e he hk hflow
  refine ⟨UInt64.le_trans hle window.generation, fun hcurrent => ?_⟩
  have hsame : r'.descriptor.generation = r.descriptor.generation := by
    refine Id.ext_value (UInt64.le_antisymm ?_ window.generation)
    rw [← hcurrent]
    exact hle
  exact same e (window.terms hsame) (hkept (hcurrent.trans hsame))

theorem Impl.Issues.carries (issues : s.Issues now entries) (offered : s.Scheduling id r')
    (scheduled : r'.lifecycle = .scheduled)
    (new : ∀ r e, s.Grants now e r → r'.servedWork = r.servedWork → r'.descriptor = r.descriptor →
      P r' (s.makeSchedule entries now) e) : Carries P id r' (s.makeSchedule entries now) := by
  intro e he hk hflow
  obtain ⟨r, hgrants⟩ := issues.run e he hk
  have hr := hgrants.found
  rw [hflow] at hr
  obtain ⟨candidate, hentry⟩ := hgrants.entry
  have hgeneration : e.flowGeneration = r.descriptor.generation := by
    rw [hentry]
    rfl
  rcases offered with hr₁ | ⟨r₁, hr₁, hserved, hdescriptor⟩
  · obtain rfl := Option.some.inj (hr.symm.trans hr₁)
    rw [hgrants.ready] at scheduled
    cases scheduled
  · obtain rfl := Option.some.inj (hr.symm.trans hr₁)
    rw [hdescriptor, hgeneration]
    exact ⟨UInt64.le_refl _, fun _ => new r e hgrants hserved hdescriptor⟩

end Windows

end FlowScheduler

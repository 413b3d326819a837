import FlowScheduler.Steps.Reachable

/-! # Transient lifecycles

Preempting and cancelling are entered and left inside one call. A flow enters
them only when its attempt is preempted or cancelled, and every call that does
so normalizes before it returns, except a round that stops half-way.
-/

namespace FlowScheduler

open ByteCodec (Bytes)
open Failing SchedOp OrderedMap Impl

def Resting (s : Impl) : Prop :=
  ∀ (id : FlowId) (r : FlowRuntime), s.flows[id]? = some r → r.lifecycle.isTransient = false

/-- No flow becomes preempting or cancelling on the way. -/
def Calm (s s' : Impl) : Prop :=
  ∀ (id : FlowId) (r' : FlowRuntime), s'.flows[id]? = some r' → r'.lifecycle.isTransient →
    ∃ r : FlowRuntime, s.flows[id]? = some r ∧ r.lifecycle.isTransient

theorem Resting.calm {s s' : Impl} (h : Resting s) (calm : Calm s s') : Resting s' := by
  intro id r' hr'
  by_contra htransient
  obtain ⟨r, hr, hl⟩ := calm id r' hr' (Bool.not_eq_false _ ▸ htransient)
  rw [h id r hr] at hl
  cases hl

namespace Calm

variable {s s' s₁ s₂ s₃ : Impl} {id : FlowId} {now : Ticks}

theorem refl (s : Impl) : Calm s s := fun _ r' hr hl => ⟨r', hr, hl⟩

theorem trans (h : Calm s₁ s₂) (h' : Calm s₂ s₃) : Calm s₁ s₃ := by
  intro id r₃ hr₃ hl
  obtain ⟨r₂, hr₂, hl₂⟩ := h' id r₃ hr₃ hl
  exact h id r₂ hr₂ hl₂

theorem of_eq (flows : s'.flows = s.flows) : Calm s s' := fun _ r' hr hl => ⟨r', flows ▸ hr, hl⟩

theorem of_sameBut (same : SameBut id s s')
    (rest : ∀ r', s'.flows[id]? = some r' → r'.lifecycle.isTransient = false) : Calm s s' := by
  intro a r' hr hl
  by_cases ha : a = id
  · subst ha
    rw [rest r' hr] at hl
    cases hl
  · rw [same a ha] at hr
    exact ⟨r', hr, hl⟩

theorem modifyFlow {f : FlowRuntime → FlowRuntime} (keep : ∀ r, (f r).lifecycle = r.lifecycle) :
    Calm s (s.modifyFlow id f) := by
  intro a r' hr hl
  simp only [Impl.modifyFlow, get_modify] at hr
  split at hr
  · obtain ⟨r, hr₀, rfl⟩ := Option.map_eq_some_iff.mp hr
    exact ⟨r, hr₀, keep r ▸ hl⟩
  · exact ⟨r', hr, hl⟩

instance : IsPreorder Impl Calm where
  refl := refl
  trans _ _ _ := trans

theorem keeps : KeepsIssue now False Calm where
  alike h id r' hr hl := by
    obtain ⟨r, hr₀, htempo⟩ := h.get hr
    exact ⟨r, hr₀, (congrArg (·.toFlowPace.lifecycle.isTransient) htempo).symm.trans hl⟩
  lifecycle rest _ := of_sameBut sameBut_setLifecycle fun _ hr => by
    rw [lifecycle_of_setLifecycle hr]
    exact Bool.eq_false_iff.mpr rest
  order := of_eq rfl
  charge := of_eq rfl
  clock _ := by
    unfold advanceGroupClock
    split <;> exact of_eq rfl

theorem applyAdmit {d : FlowDescriptor} (h : s.applyAdmit d = .ok s') : Calm s s' := by
  unfold Impl.applyAdmit at h
  split at h
  · cases h
  · cases h
    refine @of_sameBut s _ d.flow (fun k hk => ?_) (fun r' hr => ?_)
    · simp only [get_insert, if_neg hk]
    · simp only [get_insert, if_true] at hr
      cases hr
      rfl

theorem applyUpdate {d : FlowDescriptor} (h : s.applyUpdate d = .ok s') : Calm s s' := by
  unfold Impl.applyUpdate at h
  split at h
  · cases h
  · split at h
    · cases h
    · cases h
      exact modifyFlow fun _ => rfl

theorem applyRetireFlow {generation : Generation} : Calm s (s.applyRetireFlow id generation) := by
  unfold Impl.applyRetireFlow
  split
  · exact refl s
  · refine @of_sameBut s _ id (fun k hk => ?_) (fun r' hr => ?_)
    · simp only [get_erase, if_neg hk]
    · simp at hr

theorem advanceAttempt : Calm s s.advanceAttempt := by
  unfold Impl.advanceAttempt
  split <;> exact of_eq rfl

end Calm

section Normalize

variable {s s' : Impl} {id : FlowId} {now : Ticks}

theorem normalizeFlow_spec : SameBut id s (s.normalizeFlow id now) ∧
    ∀ r', (s.normalizeFlow id now).flows[id]? = some r' → r'.lifecycle.isTransient = false := by
  unfold Impl.normalizeFlow
  split
  · rename_i hnone
    refine ⟨.refl, fun r' hr => ?_⟩
    rw [hnone] at hr
    cases hr
  · rename_i r hr
    split
    · exact ⟨sameBut_setLifecycle, fun r' hr' => by rw [lifecycle_of_setLifecycle hr']; rfl⟩
    · rename_i hpreempting
      split
      · exact ⟨sameBut_setLifecycle, fun r' hr' => by rw [lifecycle_of_setLifecycle hr']; rfl⟩
      · rename_i hcancelling
        refine ⟨.refl, fun r' hr' => ?_⟩
        obtain rfl : r = r' := Option.some.inj (hr.symm.trans hr')
        cases hl : r.lifecycle with
        | preempting => exact absurd hl hpreempting
        | cancelling => exact absurd hl hcancelling
        | _ => rfl

theorem not_mem_of_normalize (ids : List FlowId) {k : FlowId} {r' : FlowRuntime}
    (hr : (ids.foldl (fun s id => s.normalizeFlow id now) s).flows[k]? = some r')
    (transient : r'.lifecycle.isTransient) :
    k ∉ ids ∧ ∃ r, s.flows[k]? = some r ∧ r.lifecycle.isTransient := by
  induction ids generalizing s with
  | nil => exact ⟨by simp, r', hr, transient⟩
  | cons id ids ih =>
    obtain ⟨hmem, r, hr₁, hl⟩ := ih hr
    obtain ⟨hsame, hrest⟩ := @normalizeFlow_spec s id now
    have hne : k ≠ id := by
      rintro rfl
      rw [hrest r hr₁] at hl
      cases hl
    rw [hsame k hne] at hr₁
    exact ⟨by simp [hne, hmem], r, hr₁, hl⟩

theorem resting_normalizeTransientStates (s : Impl) (now : Ticks) :
    Resting (s.normalizeTransientStates now) := by
  intro k r' hr
  by_contra htransient
  obtain ⟨hmem, r, hr₀, -⟩ := not_mem_of_normalize _ hr (Bool.not_eq_false _ ▸ htransient)
  refine hmem (Std.ExtTreeMap.mem_keys.mpr ?_)
  rw [Std.ExtTreeMap.mem_iff_isSome_getElem?, hr₀]
  rfl

theorem Resting.congr (h : Resting s) (flows : s'.flows = s.flows) : Resting s' :=
  h.calm (.of_eq flows)

theorem resting_applyEpochAdvance (s : Impl) (next : FabricEpoch) (now : Ticks) :
    Resting (s.applyEpochAdvance next now) := by
  have hnormal : Resting (s.abandonOpenAttempts now
      (ascii "epoch advanced: prior dispatch authority retired")) :=
    resting_normalizeTransientStates _ now
  intro id r' hr
  simp only [Impl.applyEpochAdvance, Impl.clearAuthority, Impl.reindexAll,
    Std.ExtTreeMap.getElem?_map] at hr
  obtain ⟨r, hr₀, rfl⟩ := Option.map_eq_some_iff.mp hr
  exact hnormal id r hr₀

end Normalize

section Moves

variable {s s' : Impl} {r : Option Record} {c : Call}

theorem Resting.to_calm (h : Resting s') : Calm s s' := by
  intro id r' hr' hl
  rw [h id r' hr'] at hl
  cases hl

theorem CommonMove.calm (move : CommonMove s r s')
    (kept : ∀ record ∈ r, record.isPreemption = false) : Calm s s' := by
  cases move with
  | counters => exact .of_eq rfl
  | note noted =>
    refine .modifyFlow fun r => ?_
    obtain ⟨_, _, _, hr, -⟩ := noted r
    rw [hr]
  | ready => exact Calm.keeps.enters nofun
  | normalize => exact (resting_normalizeTransientStates _ _).to_calm
  | close final =>
    rcases final with rfl | rfl
    · cases kept _ rfl
    · exact Calm.keeps.applyAttemptClosed (by simp)
  | release => exact Calm.keeps.applyReleaseSchedule

theorem CallMove.calm (move : CallMove c s r s')
    (kept : ∀ record ∈ r, record.isPreemption = false) : Calm s s' := by
  cases move with
  | common move => exact move.calm kept
  | touch | registerResource | registerReservation | registerPriorityClass | registerQosClass
  | installPolicy => exact .of_eq rfl
  | admitRefused | updateRefused => exact .refl s
  | retireReservation => exact (@Calm.keeps 0).applyRetireReservation
  | admitFlow _ applied => exact .applyAdmit applied
  | update _ applied => exact .trans (.applyUpdate applied) Calm.keeps.releaseScheduledEntry
  | cancel => exact (resting_normalizeTransientStates _ _).to_calm
  | notify => exact Calm.keeps.applyReadiness
  | resolve => exact Calm.keeps.applyAmbiguityResolved
  | retireFlow => exact .applyRetireFlow
  | advanceEpoch => exact (resting_applyEpochAdvance _ _ _).to_calm
  | dispatch =>
    refine .trans ?_ .advanceAttempt
    exact Calm.trans Calm.keeps.applyAttemptOpened (.of_eq rfl)
  | start => exact Calm.keeps.applyAttemptStarted
  | complete =>
    refine Calm.keeps.applyCompletion ?_ fun s id n => ?_
    · unfold lifecycleAfterCompletion
      split
      · nofun
      · split <;> nofun
    · exact Calm.trans (.of_eq rfl) (.modifyFlow fun _ => rfl)

theorem RoundMove.calm {now : Ticks} (move : RoundMove now s r s')
    (kept : ∀ record ∈ r, record.isPreemption = false) : Calm s s' := by
  cases move with
  | common move => exact move.calm kept
  | tick | roll | forget => exact .of_eq rfl
  | failDependency => exact Calm.keeps.failFlow
  | failDeadline => exact .trans (@Calm.keeps now).countDeadlineMiss Calm.keeps.failFlow
  | @issue entries =>
    have hcount : Calm s { s with provenanceSequence := s.provenanceSequence + 1 } := .of_eq rfl
    have hissue : Calm s ({ s with
        provenanceSequence := s.provenanceSequence + 1 }.applySchedule (s.makeSchedule entries now)) :=
      hcount.trans (@Calm.keeps now).applySchedule
    refine hissue.trans (.of_eq ?_)
    unfold Impl.advanceSchedule
    split <;> rfl
  | retire => exact .of_eq (by simp [Impl.dropSchedule])

theorem Move.calm_or_preempts (move : Move c s r s') :
    Calm s s' ∨ ∃ attempt detail now, s' = s.applyAttemptClosed attempt .preempted detail now := by
  by_cases hpreemption : ∃ record ∈ r, record.isPreemption
  · right
    have common : ∀ {s s' : Impl} {r : Option Record}, CommonMove s r s' →
        (∃ record ∈ r, record.isPreemption) →
        ∃ attempt detail now, s' = s.applyAttemptClosed attempt .preempted detail now := by
      intro s s' r move hpreemption
      cases move with
      | close final =>
        rcases final with rfl | rfl
        · exact ⟨_, _, _, rfl⟩
        · simp [Record.isPreemption] at hpreemption
      | _ => simp [Record.isPreemption] at hpreemption
    rcases move with move | ⟨now, -, move⟩
    · cases move with
      | common move => exact common move hpreemption
      | _ => simp [Record.isPreemption] at hpreemption
    · cases move with
      | common move => exact common move hpreemption
      | _ => simp [Record.isPreemption] at hpreemption
  · left
    have hkept : ∀ record ∈ r, record.isPreemption = false := fun record hr =>
      Bool.eq_false_iff.mpr fun hrecord => hpreemption ⟨record, hr, hrecord⟩
    rcases move with move | ⟨now, -, move⟩
    · exact move.calm hkept
    · exact move.calm hkept

theorem CallMove.resting (move : CallMove c s r s') (other : c.isPreemption = false)
    (h : Resting s) : Resting s' := by
  by_cases hpreemption : ∃ record ∈ r, record.isPreemption
  · cases move with
    | common move only =>
      obtain ⟨record, hr, hrecord⟩ := hpreemption
      rw [only record hr hrecord] at other
      cases other
    | _ => simp [Record.isPreemption] at hpreemption
  · refine h.calm (move.calm fun record hr => ?_)
    exact Bool.eq_false_iff.mpr fun hrecord => hpreemption ⟨record, hr, hrecord⟩

end Moves

end FlowScheduler

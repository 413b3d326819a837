import FlowScheduler.Recovery.Incarnations

/-! # The timeline across restarts

A replay does not move the clock: whoever opens a directory again is at the tick
of the image. That is the tick its predecessor had reached only if the last thing
it did was a checkpoint.
-/

namespace FlowScheduler

open Failing SchedOp DurableStore

def Record.tick : Record → Option Ticks
  | .epochAdvanced _ _ _ tick | .flowReadinessChanged _ _ _ tick | .flowCancelled _ _ tick _
  | .scheduleReleased _ tick | .attemptOpened _ _ tick | .attemptStarted _ tick
  | .attemptClosed _ _ tick _ | .completionCommitted _ _ _ tick | .ambiguityResolved _ _ _ tick =>
    some tick
  | .scheduleIssued schedule => some schedule.atTick
  | _ => none

/-- No record carries a tick that the clock has not reached. -/
def Timely (h : List Record) (i : Impl) : Prop := ∀ tick ∈ h.filterMap Record.tick, tick ≤ i.lastTick

/-- The image in the directory is that of the memory, as it is after a checkpoint. -/
def Checkpointed (s : Scheduler) : Prop :=
  s.impl.encodeStateSnapshot ≠ [] ∧ s.impl.encodeStateSnapshot.length ≤ kMaxSnapshotPayload ∧
    ∀ d ∈ s.store, d.files.snapshot = some (buildSnapshotBlob s.impl.encodeStateSnapshot)

instance (s : Scheduler) : Decidable (Checkpointed s) := by
  unfold Checkpointed
  infer_instance

section Clock

variable {c : Call} {u i m : Impl} {r : Option Record} {past : List Record}

theorem Move.tick_le (move : Move c u r i) :
    u.lastTick ≤ i.lastTick ∧ ∀ tick ∈ r.bind Record.tick, tick ≤ u.lastTick := by
  rcases move with move | ⟨now, -, move⟩
  · refine ⟨move.counted.clock, ?_⟩
    cases move with
    | common move => cases move <;> simp [Record.tick, *]
    | _ => simp [Record.tick, *]
  · cases move with
    | common move =>
      refine ⟨UInt64.le_of_eq (congrArg Setting.lastTick move.setting).symm, ?_⟩
      cases move <;> simp [Record.tick, *]
    | tick clock => exact ⟨clock, by simp⟩
    | issue clock =>
      constructor
      · rw [lastTick_issue]
        exact UInt64.le_refl _
      · simp [Record.tick, Impl.makeSchedule, clock]
    | _ => exact ⟨UInt64.le_refl _, by simp⟩

theorem Timely.move (h : Timely past u) (move : Move c u r i) : Timely (past ++ r.toList) i := by
  obtain ⟨hclock, htick⟩ := move.tick_le
  intro tick hmem
  refine UInt64.le_trans ?_ hclock
  rw [List.filterMap_append] at hmem
  rcases List.mem_append.mp hmem with hold | hnew
  · exact h tick hold
  · cases r with
    | none => cases hnew
    | some r => exact htick tick (by simpa using hnew)

theorem lastTick_replayAll {js : List (JournalRecordType × ByteCodec.Bytes)}
    (h : i.replayAll js = .ok m) : m.lastTick = i.lastTick := by
  induction js generalizing i with
  | nil =>
    cases h
    rfl
  | cons r js ih =>
    obtain ⟨i', hi', h⟩ := bind_eq_ok.mp h
    rw [ih h]
    rcases replay_of_applyRecord hi' with rfl | ⟨r, -, hr⟩
    · rfl
    · exact congrArg (·.2.2.2) (counters_replay hr)

theorem OpenedFrom.timely {options : SchedulerOptions} {files : Directory}
    {js : List (JournalRecordType × ByteCodec.Bytes)} {t : Scheduler}
    (h : OpenedFrom m options files js t) : t.impl.lastTick = m.lastTick ∧ Timely t.accepted t.impl := by
  have hclock : t.impl.lastTick = m.lastTick := by
    obtain ⟨before, after, himpl⟩ := h.memory
    rw [himpl]
    exact congrArg Setting.lastTick (Impl.setting_applyEpochAdvance (s := { m with recovery := before }) ..)
  refine ⟨hclock, ?_⟩
  rw [h.accepted]
  simp [Timely, Record.tick, hclock]

end Clock

section Reopening

variable {past : List Record} {s t : Scheduler} {d : DurableStore} {options : SchedulerOptions}

theorem Lived.lastTick_reopened {stops : Scheduler → Prop}
    (lived : Lived (fun s _ => Steady s) stops past s) (stop : Checkpointed s)
    (store : s.store = some d) (same : options.stateDirectory = d.path)
    (opened : create options d.files = .ok t) :
    t.impl.lastTick = s.impl.lastTick ∧ Timely t.accepted t.impl := by
  obtain ⟨i, m, js, hi, hm, -, from_⟩ :=
    lived.recovers twins_chronicle (fun _ _ steady => steady) store same opened
  rw [stop.2.2 d store] at hi
  have himages := images_of_restore lived.filed stop.1 stop.2.1 hi
  obtain ⟨hclock, htimely⟩ := from_.timely
  exact ⟨(hclock.trans (lastTick_replayAll hm)).trans himages.lastTick, htimely⟩

theorem Lived.timely (lived : Lived (fun s _ => Steady s) Checkpointed past s) :
    Timely (past ++ s.accepted) s.impl := by
  induction lived with
  | @created options s hs =>
    by_cases durable : options.stateDirectory = ""
    · obtain ⟨-, rfl | ⟨hnamed, -⟩⟩ := create_ok hs
      · simp [Timely]
      · exact absurd durable hnamed
    · have hempty : Readable [] [] := ⟨by simp, [], rfl, .inl rfl⟩
      obtain ⟨_, _, -, -, opened⟩ := create_durable durable hempty hs
      exact opened.timely.2
  | @called past s hs c ok ih =>
    refine preserves_call_history (P := fun i l => Timely (past ++ l) i) (fun i i' l move h => ?_)
      (fun i r i' l move h => ?_) hs.sound ih
    · simpa using h.move move
    · simpa using h.move move
  | faulty _ io ih => exact ih
  | reopened hs stop store same opened ih =>
    obtain ⟨hclock, hown⟩ := hs.lastTick_reopened stop store same opened
    intro tick hmem
    rw [List.filterMap_append] at hmem
    rcases List.mem_append.mp hmem with hold | hnew
    · rw [hclock]
      exact ih tick hold
    · exact hown tick hnew

/-- Opened again after a checkpoint, a scheduler is at the tick its predecessor had reached, which no
durable record is ahead of, and refuses every round before it. -/
theorem reopened_timeline (lived : Lived (fun s _ => Steady s) Checkpointed past s)
    (stop : Checkpointed s) (store : s.store = some d) (same : options.stateDirectory = d.path)
    (opened : create options d.files = .ok t) :
    t.impl.lastTick = s.impl.lastTick ∧ Timely (past ++ s.accepted) t.impl ∧
      ∀ now < t.impl.lastTick, ∃ e, (t.call (.arbitrate now)).1 = .error e := by
  obtain ⟨hclock, -⟩ := lived.lastTick_reopened stop store same opened
  refine ⟨hclock, ?_, fun now hnow => ?_⟩
  · rw [Timely, hclock]
    exact lived.timely
  · rw [call_arbitrate_late hnow]
    exact ⟨_, rfl⟩

end Reopening

namespace Sample

set_option maxRecDepth 100000 in
theorem reopened_timeline_checkpoint : ∃ past s d t,
    Lived (fun s _ => Steady s) Checkpointed past s ∧ s.store = some d ∧
    create durable d.files = .ok t ∧ t.impl.lastTick = 5 ∧ Timely (past ++ s.accepted) t.impl ∧
      ∀ now < t.impl.lastTick, ∃ e, (t.call (.arbitrate now)).1 = .error e := by
  obtain ⟨s, lived, stop, d, hd, hpath, t, ht, htick⟩ : ∃ s,
      Lived (fun s _ => Steady s) Checkpointed [] s ∧ Checkpointed s ∧ ∃ d ∈ s.store,
        durable.stateDirectory = d.path ∧
        ∃ t ∈ (create durable d.files).toOption, t.impl.lastTick = 5 :=
    @exists_lived _ _ [.advanceEpoch .explicit 5, .checkpoint] durable _ (by decide +kernel)
  exact ⟨[], s, d, t, lived, hd, eq_ok_of_mem ht, htick,
    (reopened_timeline lived stop hd hpath (eq_ok_of_mem ht)).2⟩

set_option maxRecDepth 100000 in
/-- Without a checkpoint the clock starts again at 0, and a round is made before one that was
recorded. -/
theorem not_reopened_timeline : ¬ ∀ past s, SteadyLife past s →
    Timely past s.impl ∨ ∃ e, (s.call (.arbitrate 3)).1 = .error e := by
  intro hall
  obtain ⟨past, s, lived, hticks, hclock, hround⟩ :=
    @exists_relived durable (setup ++ [.arbitrate 5]) [] (fun past s =>
      past.filterMap Record.tick = [0, 5] ∧ s.impl.lastTick = 0 ∧ (s.call (.arbitrate 3)).1.isOk)
      (by decide +kernel)
  rcases hall past s lived with h | ⟨e, he⟩
  · exact absurd (h 5 (by simp [hticks])) (by simp [hclock])
  · rw [he] at hround
    cases hround

end Sample

end FlowScheduler

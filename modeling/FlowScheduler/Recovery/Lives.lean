import FlowScheduler.Recovery.Filed
import FlowScheduler.Steps.Promises

/-! # The incarnations of a directory

A directory is only ever written by the schedulers opened on it, one after the
other. Each finds what the one before it has left: the image of some earlier
state, and a journal.
-/

namespace FlowScheduler

open ByteCodec (Bytes)
open Failing SchedOp OrderedMap DurableStore

/-- The schedulers that live on one directory, when every call is allowed where it is made and every
incarnation is stopped where it may be. The list is what the earlier incarnations have accepted. Any
write may fail, and whoever opens the directory again may configure another policy. -/
inductive Lived (allowed : Scheduler → Call → Prop) (stops : Scheduler → Prop) :
    List Record → Scheduler → Prop
  | created {options s} (h : create options {} = .ok s) : Lived allowed stops [] s
  | called {past s} (h : Lived allowed stops past s) (c : Call) (ok : allowed s c) :
      Lived allowed stops past (s.call c).2
  | faulty {past s} (h : Lived allowed stops past s) (io : List (Option IoFault)) :
      Lived allowed stops past (s.withFaults io)
  | reopened {past s d options t} (h : Lived allowed stops past s) (stop : stops s)
      (store : s.store = some d) (same : options.stateDirectory = d.path)
      (opened : create options d.files = .ok t) : Lived allowed stops (past ++ s.accepted) t

section Files

variable {s t : Scheduler} {d d' : DurableStore} {x : Status}

/-- An append touches the journal file only, however it ends. -/
theorem snapshot_append {type : JournalRecordType} {payload : Bytes}
    (h : exec (append type payload) d = (x, d')) :
    d'.files.snapshot = d.files.snapshot ∧ d'.path = d.path := by
  have hend := appendEnd d type payload
  rw [h] at hend
  cases hend <;> exact ⟨rfl, rfl⟩

/-- Where the directory of a scheduler is and which image it holds. -/
def Scheduler.place (s : Scheduler) : Option (String × Option Bytes) :=
  s.store.map fun d => (d.path, d.files.snapshot)

theorem place_withImpl (i : Impl) : { s with impl := i }.place = s.place := by
  unfold Scheduler.place
  rfl

theorem place_journal {r : Record} (h : exec (journal r) s = (x, t)) : t.place = s.place := by
  rw [exec_journal] at h
  obtain ⟨impl, store, refused, accepted⟩ := s
  cases store with
  | none =>
    cases h
    rfl
  | some d =>
    dsimp only at h
    cases happend : exec (append r.type r.payload) d with
    | mk result d' =>
      obtain ⟨hsnapshot, hpath⟩ := snapshot_append happend
      rw [happend] at h
      cases result <;> cases h <;> simp [Scheduler.place, hsnapshot, hpath]

theorem Steps.place {R : Impl → Option Record → Impl → Prop} {rs : List Record}
    (h : Steps R s rs t) : t.place = s.place := by
  induction h with
  | refl => rfl
  | silent _ _ ih => exact ih
  | journaled _ _ append ih => exact (place_journal append).trans ih
  | refused _ append ih => exact (place_journal append).trans ih

theorem place_call {c : Call} (sound : Sound s.impl) (image : c ≠ .checkpoint) :
    (s.call c).2.place = s.place := by
  obtain ⟨rs, h⟩ := makes_move sound image
  exact h.place

/-- A compaction that fails leaves the old image or has already put the new one in its place. -/
theorem snapshot_compact {payload : Bytes} (h : exec (compact payload) d = (x, d')) :
    d'.path = d.path ∧ (d'.files.snapshot = d.files.snapshot ∨
      (payload.length ≤ kMaxSnapshotPayload ∧
        d'.files.snapshot = some (buildSnapshotBlob payload))) := by
  rw [compact, exec_bind, writeSnapshot, exec_bind, exec_lift] at h
  cases hrefuse : refuseIf (kMaxSnapshotPayload < payload.length) .oversized
      "snapshot payload exceeds the configured bound" with
  | error e =>
    rw [hrefuse] at h
    cases h
    exact ⟨rfl, .inl rfl⟩
  | ok u =>
    have hfits : payload.length ≤ kMaxSnapshotPayload := Nat.le_of_not_lt (refuseIf_eq_ok.mp hrefuse)
    rw [hrefuse] at h
    dsimp only at h
    rw [exec_bind, exec_nextFault] at h
    dsimp only at h
    cases hio : d.io.head?.join with
    | some fault =>
      rw [hio] at h
      cases h
      exact ⟨rfl, .inl rfl⟩
    | none =>
      rw [hio] at h
      dsimp only at h
      rw [exec_modify] at h
      dsimp only at h
      rw [exec_bind, exec_truncateJournal] at h
      dsimp only at h
      cases hio' : d.io.tail.head?.join with
      | none =>
        rw [hio'] at h
        cases h
        exact ⟨rfl, .inr ⟨hfits, rfl⟩⟩
      | some fault =>
        rw [hio'] at h
        dsimp only at h
        split at h <;> cases h <;> exact ⟨rfl, .inr ⟨hfits, rfl⟩⟩

theorem place_checkpoint : (s.call .checkpoint).2.place = s.place ∨
    ∃ d, s.store = some d ∧ s.impl.encodeStateSnapshot ≠ [] ∧
      s.impl.encodeStateSnapshot.length ≤ kMaxSnapshotPayload ∧
      (s.call .checkpoint).2.place =
        some (d.path, some (buildSnapshotBlob s.impl.encodeStateSnapshot)) := by
  rcases checkpoint_stores (s := s) with h | ⟨d, hstore, hwritten, h⟩
  · exact .inl (congrArg Scheduler.place h)
  · rcases hcompact : exec (compact s.impl.encodeStateSnapshot) d with ⟨_, d'⟩
    rw [hcompact] at h
    obtain ⟨hpath, hsame | ⟨hfits, hnew⟩⟩ := snapshot_compact hcompact
    · left
      simp [h, Scheduler.place, hstore, hpath, hsame]
    · refine .inr ⟨d, hstore, hwritten, hfits, ?_⟩
      simp [h, Scheduler.place, hpath, hnew]

theorem place_restoreSnapshot {b : Bool} (h : exec restoreSnapshot s = (.ok b, t)) :
    t.place = s.place := by
  rcases restoreSnapshot_ok h with rfl | ⟨_, _, -, rfl⟩ <;> rfl

theorem place_replayJournal {report : JournalScanReport} (h : exec replayJournal s = (.ok report, t)) :
    t.place = s.place := by
  obtain ⟨impl, store, refused, accepted⟩ := s
  cases store with
  | none =>
    rw [replayJournal, exec_bind, exec_get] at h
    cases h
    rfl
  | some d =>
    rw [exec_replayJournal (d := d) rfl] at h
    cases hreplay : exec (DurableStore.replay true Impl.visit impl) d with
    | mk result d' =>
      rw [hreplay] at h
      cases result with
      | error e => cases h
      | ok p =>
        cases h
        have hsame : d'.path = d.path ∧ d'.files.snapshot = d.files.snapshot := by
          rw [DurableStore.replay, exec_bind, exec_get] at hreplay
          dsimp only at hreplay
          rw [exec_bind, exec_lift] at hreplay
          cases hscan : scanJournal true Impl.visit d.files.journal impl with
          | error e =>
            rw [hscan] at hreplay
            cases hreplay
          | ok outcome =>
            rw [hscan] at hreplay
            dsimp only at hreplay
            split at hreplay
            · rw [exec_bind, exec_truncateJournal] at hreplay
              cases hio : d.io.head?.join with
              | none =>
                rw [hio] at hreplay
                cases hreplay
                exact ⟨rfl, rfl⟩
              | some fault =>
                rw [hio] at hreplay
                cases hreplay
            · cases hreplay
              exact ⟨rfl, rfl⟩
        simp [Scheduler.place, hsame]

theorem place_recover (h : exec recover s = (.ok (), t)) : t.place = s.place := by
  obtain ⟨b, report, s₁, s₂, s₃, next, before, after, h₁, h₂, -, h₃, rfl⟩ := recover_ok h
  rw [place_withImpl, place_journal h₃, place_withImpl, place_replayJournal h₂,
    place_restoreSnapshot h₁]

theorem place_create {options : SchedulerOptions} {files : Directory}
    (h : create options files = .ok s) :
    s.store = none ∨ s.place = some (options.stateDirectory, files.snapshot) := by
  obtain ⟨-, rfl | ⟨-, store, hpath, hfiles, hrecover⟩⟩ := create_ok h
  · exact .inl rfl
  · rw [← hpath, ← hfiles]
    exact .inr (place_recover hrecover)

end Files

section Counters

/-- The counters new identities are drawn from, and the clock. -/
def Setting.counters (x : Setting) : DispatchAttemptId × ScheduleId × Generation × Ticks :=
  (x.nextAttempt, x.nextSchedule, x.nextScheduleGeneration, x.lastTick)

variable {s s' : Impl}

theorem counters_replay {r : Record} (h : r.replay s = .ok s') :
    s'.setting.counters = s.setting.counters := by
  rcases setting_replay h with hsame | ⟨policy, rfl⟩
  · have hcounters := congrArg Setting.counters hsame
    exact hcounters
  · rfl

end Counters

/-- A property of the memory that survives being written to an image, read back and replayed over. -/
structure Survives (P : Impl → Prop) : Prop where
  fresh : ∀ policy epoch, SchedulingPolicy.validate policy = .ok () →
    P { Impl.fresh policy with epoch }
  image : ∀ c i : Impl, P c → c.Images i → P i
  replay : ∀ i (r : Record) i', r.replay i = .ok i' → P i → P i'
  report : ∀ (i : Impl) (recovery : RecoveryReport), P i → P { i with recovery }

namespace Survives

variable {P : Impl → Prop}

theorem filed (h : Survives P) : Survives fun i => P i ∧ i.Filed where
  fresh policy epoch valid := ⟨h.fresh policy epoch valid, by
    constructor <;> intro id r hr <;> simp [Impl.fresh] at hr⟩
  image c i hc images := by
    refine ⟨h.image c i hc.1 images, ?_⟩
    obtain ⟨hresources, hreservations, hpriorities, hqos, hflows, hattempts, hschedules⟩ := hc.2
    constructor
    · rw [images.resources]; exact hresources
    · rw [images.reservations]; exact hreservations
    · rw [images.priorityClasses]; exact hpriorities
    · rw [images.qosClasses]; exact hqos
    · intro id r hr
      rw [images.flows, Std.ExtTreeMap.getElem?_map] at hr
      obtain ⟨r₀, hr₀, rfl⟩ := Option.map_eq_some_iff.mp hr
      exact hflows id r₀ hr₀
    · intro id r hr
      rw [images.attempts, Std.ExtTreeMap.getElem?_map] at hr
      obtain ⟨r₀, hr₀, rfl⟩ := Option.map_eq_some_iff.mp hr
      exact hattempts id r₀ hr₀
    · rw [images.schedules]; exact hschedules
  replay i r i' hr hi := ⟨h.replay i r i' hr hi.1, hi.2.replay hr⟩
  report i recovery hi := ⟨h.report i recovery hi.1, by
    obtain ⟨h₁, h₂, h₃, h₄, h₅, h₆, h₇⟩ := hi.2
    exact ⟨h₁, h₂, h₃, h₄, h₅, h₆, h₇⟩⟩

theorem applyRecord (h : Survives P) {i i' : Impl} {type : JournalRecordType} {payload : Bytes}
    (hr : i.applyRecord type payload = .ok i') (hi : P i) : P i' := by
  rcases replay_of_applyRecord hr with rfl | ⟨r, -, hr⟩
  · exact hi
  · exact h.replay i r i' hr hi

theorem epoch (h : Survives P) {i : Impl} (hi : P i) (next : FabricEpoch) (now : Ticks) :
    P (i.applyEpochAdvance next now) :=
  h.replay i (.epochAdvanced {} next .recovery now) _ rfl hi

end Survives

/-- The image is that of a state with the property. -/
def ImageOf (P : Impl → Prop) (blob : Bytes) : Prop :=
  ∃ c : Impl, (P c ∧ c.Filed) ∧ c.encodeStateSnapshot ≠ [] ∧
    c.encodeStateSnapshot.length ≤ kMaxSnapshotPayload ∧
    blob = buildSnapshotBlob c.encodeStateSnapshot

section Lived

variable {P : Impl → Prop} {allowed : Scheduler → Call → Prop} {stops : Scheduler → Prop}
  {past : List Record} {s : Scheduler} {options : SchedulerOptions} {files : Directory}

theorem images_of_restore {c i s : Impl} (filed : c.Filed) (written : c.encodeStateSnapshot ≠ [])
    (fits : c.encodeStateSnapshot.length ≤ kMaxSnapshotPayload)
    (h : s.restore (some (buildSnapshotBlob c.encodeStateSnapshot)) = .ok i) : c.Images i := by
  unfold Impl.restore at h
  have hread := readSnapshot_buildSnapshotBlob fits (d := { files :=
    { snapshot := some (buildSnapshotBlob c.encodeStateSnapshot) } }) rfl
  rw [hread] at h
  obtain ⟨i', hi', h⟩ := bind_eq_ok.mp h
  cases h
  have himages := Impl.images_of_applyStateSnapshot filed written hi'
  obtain ⟨h₁, h₂, h₃, h₄, h₅, h₆, h₇, h₈, h₉, h₁₀, h₁₁, h₁₂, h₁₃, h₁₄, h₁₅⟩ := himages
  exact ⟨h₁, h₂, h₃, h₄, h₅, h₆, h₇, h₈, h₉, h₁₀, h₁₁, h₁₂, h₁₃, h₁₄, h₁₅⟩

theorem Survives.restore (h : Survives P) {policy : SchedulingPolicy} {i : Impl}
    (valid : policy.validate = .ok ()) {snapshot : Option Bytes}
    (image : ∀ blob ∈ snapshot, ImageOf P blob)
    (hi : (Impl.fresh policy).restore snapshot = .ok i) : P i ∧ i.Filed := by
  cases snapshot with
  | none =>
    have hfresh : (Impl.fresh policy).restore none = .ok (Impl.fresh policy) := rfl
    rw [hfresh] at hi
    cases hi
    exact h.filed.fresh policy {} valid
  | some blob =>
    obtain ⟨c, hc, hwritten, hfits, rfl⟩ := image blob rfl
    exact h.filed.image c i hc (images_of_restore hc.2 hwritten hfits hi)

/-- Opened on an image of a state with the property, a scheduler has it, whatever the journal. -/
theorem Survives.create (h : Survives P) (image : ∀ blob ∈ files.snapshot, ImageOf P blob)
    (hs : create options files = .ok s) : P s.impl ∧ s.impl.Filed := by
  obtain ⟨valid, rfl | ⟨-, store, -, rfl, hrecover⟩⟩ := create_ok hs
  · exact h.filed.fresh options.policy ⟨1⟩ valid
  · obtain ⟨b, report, s₁, s₂, s₃, next, before, after, h₁, h₂, -, -, rfl⟩ := recover_ok hrecover
    have hrestored : P s₁.impl ∧ s₁.impl.Filed := by
      obtain ⟨i, hi, rfl⟩ := restored_of_ok h₁
      exact h.restore valid image hi
    have hreplayed : P s₂.impl ∧ s₂.impl.Filed :=
      replayJournal_keeps (fun _ _ _ _ hr hi => h.filed.applyRecord hr hi) hrestored h₂
    have hadvanced := h.filed.epoch (h.filed.report _ before hreplayed) next s₂.impl.lastTick
    exact h.filed.report _ after hadvanced

/-- What every move preserves and every recovery restores holds in every incarnation, in the memory
and in the image. -/
theorem Lived.keeps (h : Lived allowed stops past s) (survives : Survives P)
    (keep : ∀ s c i r i', allowed s c → Move c i r i' → P i → P i') :
    Sound s.impl ∧ (P s.impl ∧ s.impl.Filed) ∧
      ∀ path blob, s.place = some (path, some blob) → ImageOf P blob := by
  induction h with
  | created hs =>
    refine ⟨sound_create hs, survives.create (by simp) hs, fun path blob hplace => ?_⟩
    rcases place_create hs with hnone | hsome
    · simp [Scheduler.place, hnone] at hplace
    · rw [hsome] at hplace
      cases hplace
  | @called past s hs c ok ih =>
    obtain ⟨sound, hP, himage⟩ := ih
    refine ⟨sound_call sound c, preserves_call (P := fun i => P i ∧ i.Filed)
      (fun i r i' move hi => ⟨keep s c i r i' ok move hi.1, hi.2.move move⟩) sound hP, ?_⟩
    intro path blob hplace
    by_cases hc : c = .checkpoint
    · subst hc
      rcases place_checkpoint (s := s) with hsame | ⟨d, -, hwritten, hfits, hnew⟩
      · rw [hsame] at hplace
        exact himage path blob hplace
      · rw [hnew] at hplace
        cases hplace
        exact ⟨s.impl, hP, hwritten, hfits, rfl⟩
    · rw [place_call sound hc] at hplace
      exact himage path blob hplace
  | @faulty past s hs io ih =>
    obtain ⟨sound, hP, himage⟩ := ih
    refine ⟨sound, hP, fun path blob hplace => himage path blob ?_⟩
    rw [← hplace, Scheduler.place, Scheduler.place, Scheduler.withFaults, Option.map_map]
    rfl
  | @reopened past s d options t hs stop store same opened ih =>
    obtain ⟨-, -, himage⟩ := ih
    have hsnapshot : ∀ blob ∈ d.files.snapshot, ImageOf P blob := by
      intro blob hblob
      refine himage d.path blob ?_
      rw [Scheduler.place, store]
      exact congrArg (fun o => some (d.path, o)) hblob
    refine ⟨sound_create opened, survives.create hsnapshot opened, fun path blob hplace => ?_⟩
    rcases place_create opened with hnone | hsome
    · simp [Scheduler.place, hnone] at hplace
    · rw [hsome] at hplace
      obtain ⟨-, hblob⟩ := Prod.mk.inj (Option.some.inj hplace)
      exact hsnapshot blob hblob

end Lived

section Promised

variable {allowed : Scheduler → Call → Prop} {stops : Scheduler → Prop} {past : List Record}
  {s : Scheduler}

theorem survives_nextAttempt : Survives fun i => i.nextAttempt.valid where
  fresh _ _ _ := rfl
  image c i hc images := by
    rw [images.nextAttempt]
    exact hc
  replay i r i' hr hi := by
    have hsame : i'.nextAttempt = i.nextAttempt := congrArg Prod.fst (counters_replay hr)
    rw [hsame]
    exact hi
  report _ _ h := h

theorem Lived.nextAttempt_valid (h : Lived allowed stops past s) : s.impl.nextAttempt.valid := by
  exact (h.keeps survives_nextAttempt fun _ _ _ _ _ _ move hi => move.nextAttempt_valid hi).2.1.1

theorem Lived.filed (h : Lived allowed stops past s) : s.impl.Filed := by
  have hsurvives : Survives fun _ => True := ⟨by simp, by simp, by simp, by simp⟩
  exact (h.keeps hsurvives fun _ _ _ _ _ _ _ _ => trivial).2.1.2

theorem Lived.sound (h : Lived allowed stops past s) : Sound s.impl := by
  induction h with
  | created hs => exact sound_create hs
  | called _ c _ ih => exact sound_call ih c
  | faulty _ _ ih => exact ih
  | reopened _ _ _ _ opened _ => exact sound_create opened

/-- What a scheduler has promised it keeps, whoever wrote to the directory before. -/
theorem Lived.promised {p : Promise} (h : Lived allowed stops past s) (sincere : p.Sincere) :
    p.Kept s.impl := by
  have hnext := h.nextAttempt_valid
  induction h with
  | created hs => exact .of_empty (empty_create hs).1 (empty_create hs).2 hnext
  | called h c ok ih =>
    exact preserves_call (fun _ _ _ move hi => hi.move sincere move) h.sound (ih h.nextAttempt_valid)
  | faulty h io ih => exact ih h.nextAttempt_valid
  | reopened h stop store same opened ih =>
    exact .of_empty (empty_create opened).1 (empty_create opened).2 hnext

end Promised

section Deployments

variable {allowed : Scheduler → Call → Prop} {stops : Scheduler → Prop} {past : List Record}
  {s : Scheduler} {cs : List Call}

theorem Lived.along (h : Lived allowed stops past s) (ok : Along allowed s cs) :
    Lived allowed stops past (s.calls cs) := by
  induction cs generalizing s with
  | nil => exact h
  | cons c cs ih => exact ih (h.called c ok.1) ok.2

theorem eq_ok_of_mem {α : Type} {x : Result α} {a : α} (h : a ∈ x.toOption) : x = .ok a := by
  cases x with
  | error e => cases h
  | ok b =>
    cases h
    rfl

theorem exists_lived {options : SchedulerOptions} {P : Scheduler → Prop}
    (h : ∃ s ∈ (create options {}).toOption, Along allowed s cs ∧ P (s.calls cs)) :
    ∃ s, Lived allowed stops [] s ∧ P s := by
  obtain ⟨s, hs, ok, hP⟩ := h
  cases hc : create options {} with
  | error e =>
    rw [hc] at hs
    cases hs
  | ok s₀ =>
    rw [hc] at hs
    cases hs
    exact ⟨_, (Lived.created hc).along ok, hP⟩

end Deployments

end FlowScheduler

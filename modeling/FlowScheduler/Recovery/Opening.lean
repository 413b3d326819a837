import FlowScheduler.Durable.Appends
import FlowScheduler.Steps.Reachable

/-! # Opening a directory

What a scheduler opened on a directory consists of: the image of the snapshot,
the records of the journal replayed on top of it, and the entry into the next
epoch under a record of its own.
-/

namespace FlowScheduler

open ByteCodec (Bytes littleEndian)
open Failing SchedOp

/-- The state a recovery replays the journal on: the image, if the directory has a snapshot. -/
def Impl.restore (s : Impl) (snapshot : Option Bytes) : Result Impl :=
  match DurableStore.readSnapshot { files := { snapshot } } with
  | .ok payload => do return { (← s.applyStateSnapshot payload) with recovery.snapshotRecords := 1 }
  | .error e => if e.code = .notFound then .ok s else .error e

/-- What a recovery does with the records of a journal. -/
def Impl.replayAll (s : Impl) (rs : List (JournalRecordType × Bytes)) : Result Impl :=
  rs.foldlM (fun s r => s.applyRecord r.1 r.2) s

namespace DurableStore

theorem length_snapshotHeader (payload : Bytes) : (snapshotHeader payload).length = 16 := by
  simp [snapshotHeader, RecordWriter.u32, RecordWriter.u16]

theorem readSnapshot_buildSnapshotBlob {d : DurableStore} {payload : Bytes}
    (fits : payload.length ≤ kMaxSnapshotPayload)
    (written : d.files.snapshot = some (buildSnapshotBlob payload)) : d.readSnapshot = .ok payload := by
  have hblob : buildSnapshotBlob payload = snapshotHeader payload ++
      (littleEndian 4 (crc32c (snapshotHeader payload)).toNat ++ payload) := by
    simp [buildSnapshotBlob, RecordWriter.u32]
  have hlength : (buildSnapshotBlob payload).length = kSnapshotHeaderBytes + payload.length := by
    rw [hblob]
    simp [length_snapshotHeader, kSnapshotHeaderBytes]
    omega
  have hdrop : (buildSnapshotBlob payload).drop kSnapshotHeaderBytes = payload := by
    rw [hblob, ← List.append_assoc]
    exact List.drop_left' (by simp [length_snapshotHeader, kSnapshotHeaderBytes])
  have htake : (buildSnapshotBlob payload).take 16 = snapshotHeader payload := by
    rw [hblob, List.take_left' (length_snapshotHeader payload)]
  have hcrc : field (buildSnapshotBlob payload) 16 4 = (crc32c (snapshotHeader payload)).toNat := by
    rw [hblob]
    exact field_littleEndian _ (length_snapshotHeader payload) (UInt32.toNat_lt _)
  have hsmall : payload.length < 256 ^ 4 := fits.trans_lt (by decide)
  have hmagic : field (buildSnapshotBlob payload) 0 4 = kSnapshotMagic.toNat := by
    rw [hblob]
    simp only [snapshotHeader, RecordWriter.u32, RecordWriter.u16, List.append_assoc]
    exact field_littleEndian [] rfl (by decide)
  have hformat : field (buildSnapshotBlob payload) 4 2 = kDurableFormatGeneration.toNat := by
    rw [hblob]
    simp only [snapshotHeader, RecordWriter.u32, RecordWriter.u16, List.append_assoc]
    exact field_littleEndian (littleEndian 4 _) (by simp) (by decide)
  have hsize : field (buildSnapshotBlob payload) 8 4 = payload.length := by
    rw [hblob]
    simp only [snapshotHeader, RecordWriter.u32, RecordWriter.u16, List.append_assoc]
    simpa only [List.append_assoc] using field_littleEndian (littleEndian 4 kSnapshotMagic.toNat ++
      (littleEndian 2 kDurableFormatGeneration.toNat ++ littleEndian 2 (0 : UInt16).toNat))
      (by simp) hsmall
  have hpayload : field (buildSnapshotBlob payload) 12 4 = (crc32c payload).toNat := by
    rw [hblob]
    simp only [snapshotHeader, RecordWriter.u32, RecordWriter.u16, List.append_assoc]
    simpa only [List.append_assoc] using field_littleEndian (littleEndian 4 kSnapshotMagic.toNat ++
      (littleEndian 2 kDurableFormatGeneration.toNat ++ (littleEndian 2 (0 : UInt16).toNat ++
        littleEndian 4 payload.length))) (by simp) (UInt32.toNat_lt _)
  rw [readSnapshot, written]
  dsimp only
  rw [refuseIf_bind (by rw [hlength]; omega), refuseIf_bind (by rw [hmagic]; simp),
    refuseIf_bind (by rw [hformat]; simp), refuseIf_bind (by rw [hcrc, htake]; simp),
    refuseIf_bind (by rw [hsize, hlength]; simp), hdrop, refuseIf_bind (by rw [hpayload]; simp)]
  rfl

end DurableStore

section Restore

variable {s : Scheduler} {store : DurableStore}

theorem readSnapshot_eq (d : DurableStore) :
    d.readSnapshot = DurableStore.readSnapshot { files := { snapshot := d.files.snapshot } } := rfl

theorem exec_restoreSnapshot (durable : s.store = some store) :
    (∃ e, s.impl.restore store.files.snapshot = .error e ∧
      ∃ u, exec restoreSnapshot s = (.error e, u)) ∨
    ∃ i b, s.impl.restore store.files.snapshot = .ok i ∧
      exec restoreSnapshot s = (.ok b, { s with impl := i }) := by
  obtain ⟨impl, _, refused, accepted⟩ := s
  cases durable
  rw [restoreSnapshot, exec_bind, exec_get]
  dsimp only
  rw [Impl.restore, ← readSnapshot_eq]
  cases store.readSnapshot with
  | error e =>
    dsimp only
    split
    · exact .inr ⟨_, false, rfl, rfl⟩
    · exact .inl ⟨_, rfl, _, rfl⟩
  | ok payload =>
    dsimp only
    rw [exec_lift_bind]
    cases impl.applyStateSnapshot payload with
    | error e => exact .inl ⟨_, rfl, _, rfl⟩
    | ok impl => exact .inr ⟨_, true, rfl, rfl⟩

end Restore

section Replay

variable {rs : List (JournalRecordType × Bytes)}

theorem foldlM_visit (sequence : UInt64) (i : Impl) :
    (viewsFrom sequence rs).foldlM Impl.visit i = i.replayAll rs := by
  induction rs generalizing sequence i with
  | nil => rfl
  | cons r rs ih =>
    rw [viewsFrom, List.foldlM_cons, Impl.replayAll, List.foldlM_cons]
    exact bind_congr fun i' => ih (sequence + 1) i'

end Replay

namespace DurableStore

/-- No write of the store fails, and nothing follows its records. -/
structure Calm (d : DurableStore) : Prop where
  script : d.io = []
  settled : d.tornTailPending = false

theorem Calm.append {d : DurableStore} (calm : d.Calm) (type : JournalRecordType) (payload : Bytes) :
    exec (append type payload) d = match appendGuard d type payload with
      | .error e => (.error e, d)
      | .ok () => (.ok (), { d with
          files.journal := d.files.journal ++ buildJournalRecord type (d.lastSequence + 1) payload
          lastSequence := d.lastSequence + 1
          validBytes := d.validBytes + journalRecordBytes payload.length }) := by
  obtain ⟨path, files, last, valid, opened, torn, io⟩ := d
  obtain ⟨rfl, rfl⟩ := calm
  rw [DurableStore.append, exec_bind, exec_get]
  dsimp only
  rw [exec_bind, exec_lift]
  cases appendGuard _ type payload <;> rfl

structure Keeps (d : DurableStore) (rs : List (JournalRecordType × Bytes)) : Prop extends Calm d where
  holds : d.Holds rs []

theorem Keeps.append {d d' : DurableStore} {rs : List (JournalRecordType × Bytes)} (h : d.Keeps rs)
    {type : JournalRecordType} {payload : Bytes} {x : Status}
    (happend : exec (append type payload) d = (x, d')) :
    (∃ e, x = .error e ∧ d' = d) ∨
      (x = .ok () ∧ d'.Keeps (rs ++ [(type, payload)]) ∧ d'.path = d.path ∧
        d'.files.snapshot = d.files.snapshot) := by
  have hexec := h.toCalm.append type payload
  rw [happend] at hexec
  cases hguard : appendGuard d type payload with
  | error e =>
    rw [hguard] at hexec
    cases hexec
    exact .inl ⟨e, rfl, rfl⟩
  | ok u =>
    rw [hguard] at hexec
    cases hexec
    obtain ⟨holds, hpath, hsnapshot⟩ := h.holds.acknowledged (.inl rfl) happend
    exact .inr ⟨rfl, ⟨⟨h.script, h.settled⟩, holds⟩, hpath, hsnapshot⟩

end DurableStore

/-- A store that has just been opened on a readable journal. -/
structure DurableStore.Opened (d : DurableStore) (path : String) (files : Directory)
    (rs : List (JournalRecordType × Bytes)) (rest : Bytes) : Prop where
  holds : d.Holds rs rest
  files : d.files = files
  path : d.path = path
  calm : d.io = []
  pending : d.tornTailPending = decide (rest ≠ [])
  torn : rest = [] ∨ TornAt (UInt64.ofNat rs.length + 1) rest

theorem openStore_readable {path : String} {files : Directory}
    {rs : List (JournalRecordType × Bytes)} (named : path ≠ "")
    (readable : Readable files.journal rs) :
    ∃ d rest, DurableStore.openStore path files = .ok d ∧ d.Opened path files rs rest := by
  obtain ⟨fits, rest, hjournal, torn⟩ := readable
  have hopen := @openStore_torn rs rest path named files.snapshot fits torn
  have hfiles : files = { journal := journalOf 1 rs ++ rest, snapshot := files.snapshot } := by
    rw [← hjournal]
  rw [← hfiles] at hopen
  exact ⟨_, rest, hopen, ⟨named, hjournal, rfl, rfl, fits⟩, rfl, rfl, rfl, rfl, torn⟩

/-- The replay of a store that has just been opened leaves the records and cuts the torn tail. -/
theorem DurableStore.Opened.replay {d : DurableStore} {path : String} {files : Directory}
    {rs : List (JournalRecordType × Bytes)} {rest : Bytes} (h : d.Opened path files rs rest)
    (i : Impl) :
    match i.replayAll rs with
    | .error e => exec (DurableStore.replay true Impl.visit i) d = (.error e, d)
    | .ok i' => ∃ d' report, exec (DurableStore.replay true Impl.visit i) d = (.ok (i', report), d') ∧
        d'.Keeps rs ∧ d'.path = path ∧ d'.files.snapshot = files.snapshot := by
  have hscan := @scanJournal_torn rs rest _ true Impl.visit h.holds.fits h.torn i
  rw [← h.holds.journal, foldlM_visit] at hscan
  cases hreplay : i.replayAll rs with
  | error e =>
    dsimp only
    rw [DurableStore.replay, exec_bind, exec_get]
    dsimp only
    rw [exec_bind, exec_lift, hscan, hreplay]
    rfl
  | ok i' =>
    dsimp only
    rw [hreplay] at hscan
    have hexec := DurableStore.exec_replay hscan h.calm true
    by_cases hrest : rest = []
    · subst hrest
      rw [if_neg (by simp [stopAt])] at hexec
      have hcalm : d.Calm := ⟨h.calm, by simpa using h.pending⟩
      exact ⟨d, _, hexec, ⟨hcalm, h.holds⟩, h.path, by rw [h.files]⟩
    · rw [if_pos ⟨by simp [stopAt, hrest], rfl⟩] at hexec
      refine ⟨_, _, hexec, ⟨⟨h.calm, rfl⟩, h.holds.named, ?_, rfl, rfl, h.holds.fits⟩, h.path, ?_⟩
      · simp [h.holds.journal]
      · rw [← h.files]

theorem exec_replayJournal {s : Scheduler} {d : DurableStore} (durable : s.store = some d) :
    exec replayJournal s = match exec (DurableStore.replay true Impl.visit s.impl) d with
      | (.ok (impl, report), store) => (.ok report, { s with impl := impl, store := some store })
      | (.error e, store) => (.error e, { s with store := some store }) := by
  rw [replayJournal, exec_bind, exec_get]
  dsimp only
  rw [durable]
  dsimp only
  rcases exec (DurableStore.replay true Impl.visit s.impl) d with ⟨_ | ⟨_, _⟩, _⟩ <;> rfl

theorem restored_of_ok {policy : SchedulingPolicy} {d : DurableStore} {b : Bool} {t : Scheduler}
    (h : exec restoreSnapshot { impl := Impl.fresh policy, store := some d } = (.ok b, t)) :
    ∃ i, (Impl.fresh policy).restore d.files.snapshot = .ok i ∧ t = { impl := i, store := some d } := by
  rcases exec_restoreSnapshot (s := { impl := Impl.fresh policy, store := some d }) rfl with
    ⟨e, -, u, he⟩ | ⟨i, b', hi, hb⟩
  · rw [he] at h
    cases h
  · rw [hb] at h
    cases h
    exact ⟨i, hi, rfl⟩

section Create

variable {options : SchedulerOptions} {files : Directory} {s : Scheduler}
  {rs : List (JournalRecordType × Bytes)}

/-- What a recovery establishes when the state it replays to is known. -/
structure OpenedFrom (P : Impl) (options : SchedulerOptions) (files : Directory)
    (rs : List (JournalRecordType × Bytes)) (s : Scheduler) : Prop where
  advanced : P.epoch.advance = .ok s.impl.epoch
  memory : ∃ before after, s.impl =
    { ({ P with recovery := before } : Impl).applyEpochAdvance s.impl.epoch P.lastTick with
      recovery := after }
  accepted : s.accepted = [.epochAdvanced P.epoch s.impl.epoch .recovery P.lastTick]
  store : ∃ d, s.store = some d ∧ d.path = options.stateDirectory ∧
    d.files.snapshot = files.snapshot ∧ d.Keeps (rs ++ s.accepted.map fun r => (r.type, r.payload))

/-- A scheduler opened on a readable journal: image, records, next epoch. -/
theorem create_durable (durable : options.stateDirectory ≠ "")
    (readable : Readable files.journal rs) (h : create options files = .ok s) :
    ∃ i P, (Impl.fresh options.policy).restore files.snapshot = .ok i ∧ i.replayAll rs = .ok P ∧
      OpenedFrom P options files rs s := by
  obtain ⟨_, -, h⟩ := bind_eq_ok.mp h
  rw [if_neg durable] at h
  obtain ⟨d, rest, hopen, opened⟩ := openStore_readable durable readable
  obtain ⟨_, hd, h⟩ := bind_eq_ok.mp h
  obtain rfl := Except.ok.inj (hopen.symm.trans hd)
  split at h
  · rename_i hrecover
    cases h
    obtain ⟨b, report, s₁, s₂, s₃, next, before, after, h₁, h₂, hnext, h₃, rfl⟩ := recover_ok hrecover
    obtain ⟨i, hrestore, hs₁⟩ := restored_of_ok h₁
    rw [opened.files] at hrestore
    have hreplay := opened.replay i
    rw [hs₁, exec_replayJournal (d := d) rfl] at h₂
    cases hall : i.replayAll rs with
    | error e =>
      rw [hall] at hreplay
      rw [hreplay] at h₂
      cases h₂
    | ok P =>
      rw [hall] at hreplay
      obtain ⟨d', report', hexec, keeps, hpath, hsnapshot⟩ := hreplay
      rw [hexec] at h₂
      cases h₂
      refine ⟨i, P, hrestore, hall, hnext, ⟨before, after, rfl⟩, accepted_of_append h₃, ?_⟩
      · rw [exec_journal] at h₃
        dsimp only at h₃
        rcases happend : exec (DurableStore.append _ _) d' with ⟨e' | u, d''⟩
        · rw [happend] at h₃
          cases h₃
        · rw [happend] at h₃
          cases h₃
          rcases keeps.append happend with ⟨_, he, -⟩ | ⟨-, hkeeps, hpath', hsnapshot'⟩
          · cases he
          · exact ⟨d'', rfl, hpath'.trans hpath, hsnapshot'.trans hsnapshot, hkeeps⟩
  · cases h

/-- A directory opens when its image and its records are accepted and the epoch can advance. -/
theorem exists_create (files : Directory) (valid : options.policy.validate = .ok ())
    (durable : options.stateDirectory ≠ "") (readable : Readable files.journal rs) {i P : Impl}
    {next : FabricEpoch} (restored : (Impl.fresh options.policy).restore files.snapshot = .ok i)
    (replayed : i.replayAll rs = .ok P) (advanced : P.epoch.advance = .ok next)
    (room : ∀ d : DurableStore, d.Keeps rs → d.appendGuard .epochAdvanced
      (Record.epochAdvanced P.epoch next .recovery P.lastTick).payload = .ok ()) :
    ∃ s, create options files = .ok s := by
  obtain ⟨d, rest, hopen, opened⟩ := openStore_readable durable readable
  have hreplay := opened.replay i
  rw [replayed] at hreplay
  obtain ⟨d', report, hexec, keeps, -, -⟩ := hreplay
  have hrecover : ∃ t, exec recover { impl := Impl.fresh options.policy, store := some d } =
      (.ok (), t) := by
    rw [← opened.files] at restored
    have h₁ : ∃ b, exec restoreSnapshot { impl := Impl.fresh options.policy, store := some d } =
        (.ok b, { impl := i, store := some d }) := by
      rcases exec_restoreSnapshot (s := { impl := Impl.fresh options.policy, store := some d }) rfl with
        ⟨e, he, -⟩ | ⟨i', b, hi, hb⟩
      · rw [restored] at he
        cases he
      · obtain rfl := Except.ok.inj (restored.symm.trans hi)
        exact ⟨b, hb⟩
    obtain ⟨b, h₁⟩ := h₁
    rw [recover, exec_bind, h₁]
    dsimp only
    rw [exec_bind, exec_replayJournal (d := d) rfl, hexec]
    dsimp only
    rw [exec_bind, exec_get]
    dsimp only
    rw [exec_modifyImpl_bind, exec_readImpl_bind, exec_lift_bind]
    dsimp only [Impl.reportRestored]
    rw [advanced]
    dsimp only
    rw [exec_bind, exec_journal]
    dsimp only
    rw [show JournalRecordType.epochAdvanced = (Record.epochAdvanced P.epoch next .recovery P.lastTick).type from rfl] at room
    rw [keeps.toCalm.append, room d' keeps]
    exact ⟨_, rfl⟩
  obtain ⟨t, ht⟩ := hrecover
  refine ⟨t, ?_⟩
  rw [create, valid]
  dsimp only [bind, Except.bind]
  rw [if_neg durable, hopen]
  dsimp only
  rw [ht]
  rfl

end Create

end FlowScheduler

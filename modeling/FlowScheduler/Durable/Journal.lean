import FlowScheduler.Durable.Record
import FlowScheduler.Library.Failing

/-! # The durable store

An append-only journal of framed records and one snapshot file. A record
carries its sequence number and two checksums; a scan accepts a contiguous run
of intact records and reports a record cut short by the end of the file.
-/

namespace FlowScheduler

open ByteCodec Failing

inductive JournalRecordType
  | unknown | policyInstalled | resourceRegistered | reservationRegistered | reservationRetired
  | priorityClassRegistered | qosClassRegistered | epochAdvanced | flowAdmitted | flowUpdated
  | flowReadinessChanged | flowCancelled | flowRetired | scheduleIssued | scheduleReleased
  | attemptOpened | attemptStarted | attemptClosed | completionCommitted | ambiguityResolved
  | checkpoint
  deriving DecidableEq, Repr

namespace JournalRecordType

def code : JournalRecordType → UInt16
  | unknown => 0 | policyInstalled => 1 | resourceRegistered => 2 | reservationRegistered => 3
  | reservationRetired => 4 | priorityClassRegistered => 5 | qosClassRegistered => 6
  | epochAdvanced => 7 | flowAdmitted => 8 | flowUpdated => 9 | flowReadinessChanged => 10
  | flowCancelled => 11 | flowRetired => 12 | scheduleIssued => 13 | scheduleReleased => 14
  | attemptOpened => 15 | attemptStarted => 16 | attemptClosed => 17 | completionCommitted => 18
  | ambiguityResolved => 19 | checkpoint => 20

def ofCode : UInt16 → Option JournalRecordType
  | 0 => some unknown | 1 => some policyInstalled | 2 => some resourceRegistered
  | 3 => some reservationRegistered | 4 => some reservationRetired
  | 5 => some priorityClassRegistered | 6 => some qosClassRegistered | 7 => some epochAdvanced
  | 8 => some flowAdmitted | 9 => some flowUpdated | 10 => some flowReadinessChanged
  | 11 => some flowCancelled | 12 => some flowRetired | 13 => some scheduleIssued
  | 14 => some scheduleReleased | 15 => some attemptOpened | 16 => some attemptStarted
  | 17 => some attemptClosed | 18 => some completionCommitted | 19 => some ambiguityResolved
  | 20 => some checkpoint | _ => none

@[simp] theorem ofCode_code (t : JournalRecordType) : ofCode t.code = some t := by
  cases t <;> rfl

theorem code_of_ofCode {c : UInt16} {t : JournalRecordType} (h : ofCode c = some t) : t.code = c := by
  unfold ofCode at h
  split at h <;> cases h <;> rfl

end JournalRecordType

def kDurableFormatGeneration : UInt16 := 1
def kJournalRecordMagic : UInt32 := 0x314A5346
def kJournalHeaderBytes : ℕ := 24
def kJournalTrailerBytes : ℕ := 4
def kMaxJournalRecordPayload : ℕ := 0x100000
def kMaxSnapshotPayload : ℕ := 67108864
def kMaxJournalBytes : ℕ := 536870912
def kSnapshotMagic : UInt32 := 0x31535346
def kSnapshotHeaderBytes : ℕ := 20

def journalRecordBytes (payloadLength : ℕ) : ℕ :=
  kJournalHeaderBytes + payloadLength + kJournalTrailerBytes

open RecordWriter in
/-- The first twenty header bytes, the ones its checksum covers. -/
def journalHeader (type : UInt16) (sequence : UInt64) (payloadLength : ℕ) : Bytes :=
  u32 kJournalRecordMagic ++ u16 kDurableFormatGeneration ++ u16 type ++ u64 sequence ++
    littleEndian 4 payloadLength

def buildJournalRecord (type : JournalRecordType) (sequence : UInt64) (payload : Bytes) : Bytes :=
  let header := journalHeader type.code sequence payload.length
  header ++ RecordWriter.u32 (crc32c header) ++ payload ++ RecordWriter.u32 (crc32c payload)

/-- The little-endian field of the given width at an offset. -/
def field (data : Bytes) (offset width : ℕ) : ℕ :=
  fromLittleEndian ((data.drop offset).take width)

structure JournalRecordView where
  type : JournalRecordType
  sequence : UInt64
  payload : Bytes
  deriving DecidableEq, Repr

inductive ScanStop | complete | tornTail
  deriving DecidableEq, Repr

structure ScanOutcome (σ : Type) where
  state : σ
  stop : ScanStop := .complete
  records : ℕ := 0
  validBytes : ℕ := 0
  lastSequence : UInt64 := 0

section Scan

variable {σ : Type} (stopOnUnknown : Bool) (visitor : σ → JournalRecordView → Result σ)

/-- Walk the journal from a record boundary. The fuel bounds the number of records. -/
def scanRecords : ℕ → UInt64 → Bytes → ScanOutcome σ → Result (ScanOutcome σ)
  | 0, _, _, outcome => .ok outcome
  | fuel + 1, expectedSequence, data, outcome => do
    if data = [] then return outcome
    if data.length < kJournalHeaderBytes then return { outcome with stop := .tornTail }
    refuseIf (field data 0 4 ≠ kJournalRecordMagic.toNat) .corruptData
      "journal record magic mismatch (corruption)"
    refuseIf (field data 4 2 ≠ kDurableFormatGeneration.toNat) .unsupported
      ("journal format generation " ++ toString (field data 4 2) ++
        " is not supported by this build")
    let sequence := UInt64.ofNat (field data 8 8)
    let payloadLength := field data 16 4
    refuseIf (field data 20 4 ≠ (crc32c (data.take 20)).toNat) .corruptData
      "journal record header checksum mismatch"
    refuseIf (kMaxJournalRecordPayload < payloadLength) .oversized
      "journal record payload exceeds the configured bound"
    refuseIf (sequence ≠ expectedSequence) .sequenceGap "journal sequence is not contiguous"
    let body := data.drop kJournalHeaderBytes
    if body.length < payloadLength + kJournalTrailerBytes then
      return { outcome with stop := .tornTail }
    let payload := body.take payloadLength
    refuseIf (field body payloadLength 4 ≠ (crc32c payload).toNat) .corruptData
      "journal record payload checksum mismatch"
    let state ← match JournalRecordType.ofCode (UInt16.ofNat (field data 6 2)) with
      | some type => visitor outcome.state { type, sequence, payload }
      | none =>
        if stopOnUnknown then
          .error (failure .unsupported "journal record type is not supported by this build")
        else .ok outcome.state
    scanRecords fuel (sequence + 1) (body.drop (payloadLength + kJournalTrailerBytes))
      { outcome with
        state := state
        records := outcome.records + 1
        validBytes := outcome.validBytes + journalRecordBytes payloadLength
        lastSequence := sequence }

def scanJournal (data : Bytes) (init : σ) : Result (ScanOutcome σ) :=
  scanRecords stopOnUnknown visitor (data.length + 1) 1 data { state := init }

end Scan

structure Directory where
  journal : Bytes := []
  snapshot : Option Bytes := none
  deriving DecidableEq

/-- A file operation that fails, and how many bytes it had already put in the file. A truncation
fails after the cut, in its flush, when that number is positive. -/
structure IoFault where
  operation : String
  written : ℕ := 0
  deriving DecidableEq

structure DurableStore where
  path : String := ""
  files : Directory := {}
  lastSequence : UInt64 := 0
  validBytes : ℕ := 0
  openTailTruncated : Bool := false
  tornTailPending : Bool := false
  /-- What the file system does to the coming journal writes; past its end all succeed. -/
  io : List (Option IoFault) := []
  deriving DecidableEq

def ioFailure (operation path : String) : Error :=
  failure .ioFailure (operation ++ " failed for " ++ path)

namespace DurableStore

def journalPath (d : DurableStore) : String := d.path ++ "/journal.log"
def snapshotTempPath (d : DurableStore) : String := d.path ++ "/snapshot.bin.tmp"

abbrev StoreOp (α : Type) := Op Error DurableStore α

def nextFault : StoreOp (Option IoFault) := do
  let d ← get
  match d.io with
  | [] => return none
  | fault :: rest =>
    set { d with io := rest }
    return fault

/-- Cut the journal file, keeping what lies before the given size. -/
def truncateJournal (size : ℕ) : StoreOp Unit := do
  match ← nextFault with
  | some fault =>
    if 0 < fault.written then
      modify fun d => { d with files.journal := d.files.journal.take size }
    throw (ioFailure fault.operation (← get).journalPath)
  | none => modify fun d => { d with files.journal := d.files.journal.take size }

/-- Write a record at the end of the journal file and flush it. -/
def writeJournal (record : Bytes) : StoreOp Unit := do
  match ← nextFault with
  | some fault =>
    modify fun d => { d with files.journal := d.files.journal ++ record.take fault.written }
    throw (ioFailure fault.operation (← get).journalPath)
  | none => modify fun d => { d with files.journal := d.files.journal ++ record }

/-- The checks an append makes before it touches the file. -/
def appendGuard (d : DurableStore) (type : JournalRecordType) (payload : Bytes) : Status := do
  refuseIf (type = .unknown) .invalidArgument "cannot append an unknown record type"
  refuseIf (kMaxJournalRecordPayload < payload.length) .oversized
    "record payload exceeds the configured bound"
  refuseIf (d.lastSequence = u64Max) .arithmeticOverflow "journal sequence exhausted"
  refuseIf (kMaxJournalBytes < d.validBytes ∨
      kMaxJournalBytes - d.validBytes < journalRecordBytes payload.length) .bounded
    "journal size bound reached; a checkpoint is required"

def append (type : JournalRecordType) (payload : Bytes) : StoreOp Unit := do
  let d ← get
  appendGuard d type payload
  if d.tornTailPending then
    truncateJournal d.validBytes
    modify fun d => { d with tornTailPending := false }
  let sequence := d.lastSequence + 1
  writeJournal (buildJournalRecord type sequence payload)
  modify fun d =>
    { d with
      lastSequence := sequence
      validBytes := d.validBytes + journalRecordBytes payload.length }

/-- Open a store over the files of a directory, scanning the journal for integrity. -/
def openStore (path : String) (files : Directory) : Result DurableStore := do
  refuseIf (path = "") .invalidArgument "durable store requires a non-empty directory"
  let outcome ← scanJournal false (fun _ _ => .ok ()) files.journal ()
  return { path, files
           lastSequence := outcome.lastSequence
           validBytes := outcome.validBytes
           openTailTruncated := outcome.stop = .tornTail
           tornTailPending := outcome.stop = .tornTail }

structure JournalScanReport where
  records : ℕ := 0
  bytes : ℕ := 0
  lastSequence : UInt64 := 0
  tailTruncated : Bool := false
  deriving DecidableEq, Repr

/-- Replay the journal into a visitor; with repair a torn tail is cut off. -/
def replay {σ : Type} (repair : Bool) (visitor : σ → JournalRecordView → Result σ)
    (init : σ) : StoreOp (σ × JournalScanReport) := do
  let outcome ← liftM (scanJournal true visitor (← get).files.journal init)
  let torn := decide (outcome.stop = .tornTail)
  if torn ∧ repair then
    truncateJournal outcome.validBytes
    modify fun d =>
      { d with
        validBytes := outcome.validBytes
        lastSequence := outcome.lastSequence
        tornTailPending := false }
  return (outcome.state,
    { records := outcome.records, bytes := outcome.validBytes
      lastSequence := outcome.lastSequence, tailTruncated := torn })

open RecordWriter in
def snapshotHeader (payload : Bytes) : Bytes :=
  u32 kSnapshotMagic ++ u16 kDurableFormatGeneration ++ u16 0 ++ littleEndian 4 payload.length ++
    u32 (crc32c payload)

def buildSnapshotBlob (payload : Bytes) : Bytes :=
  let header := snapshotHeader payload
  header ++ RecordWriter.u32 (crc32c header) ++ payload

def readSnapshot (d : DurableStore) : Result Bytes := do
  match d.files.snapshot with
  | none => .error (failure .notFound "no snapshot present")
  | some blob =>
    refuseIf (blob.length < kSnapshotHeaderBytes ∨
        kMaxSnapshotPayload + kSnapshotHeaderBytes < blob.length) .corruptData
      "snapshot size is outside the permitted range"
    refuseIf (field blob 0 4 ≠ kSnapshotMagic.toNat) .corruptData "snapshot magic mismatch"
    refuseIf (field blob 4 2 ≠ kDurableFormatGeneration.toNat) .unsupported
      "snapshot format generation is not supported"
    refuseIf (field blob 16 4 ≠ (crc32c (blob.take 16)).toNat) .corruptData
      "snapshot header checksum mismatch"
    refuseIf (field blob 8 4 ≠ blob.length - kSnapshotHeaderBytes) .corruptData
      "snapshot payload length disagrees with the file size"
    let payload := blob.drop kSnapshotHeaderBytes
    refuseIf (field blob 12 4 ≠ (crc32c payload).toNat) .corruptData
      "snapshot payload checksum mismatch"
    return payload

def writeSnapshot (payload : Bytes) : StoreOp Unit := do
  refuseIf (kMaxSnapshotPayload < payload.length) .oversized
    "snapshot payload exceeds the configured bound"
  match ← nextFault with
  | some fault => throw (ioFailure fault.operation (← get).snapshotTempPath)
  | none => modify fun d => { d with files.snapshot := some (buildSnapshotBlob payload) }

/-- Fold the journal into a snapshot: the journal is discarded once the snapshot is in place. -/
def compact (payload : Bytes) : StoreOp Unit := do
  writeSnapshot payload
  truncateJournal 0
  modify fun d => { d with lastSequence := 0, validBytes := 0, tornTailPending := false }

end DurableStore

end FlowScheduler

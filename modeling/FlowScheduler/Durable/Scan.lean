import FlowScheduler.Durable.Journal

/-! # Scanning a journal

The scan gives back exactly the records a journal was built from, in order, and
hands each to its visitor.
-/

namespace FlowScheduler

open ByteCodec

section Fields

theorem field_append (before chunk after : Bytes) :
    field (before ++ (chunk ++ after)) before.length chunk.length = fromLittleEndian chunk := by
  simp [field]

theorem field_littleEndian (before : Bytes) {after : Bytes} {offset width n : ℕ}
    (h : before.length = offset) (hn : n < 256 ^ width) :
    field (before ++ (littleEndian width n ++ after)) offset width = n := by
  subst h
  have := field_append before (littleEndian width n) after
  rw [length_littleEndian] at this
  rw [this, fromLittleEndian_littleEndian width n hn]

end Fields

section Layout

variable (type : JournalRecordType) (sequence : UInt64) (payload rest : Bytes)

theorem length_journalHeader (code : UInt16) (n : ℕ) : (journalHeader code sequence n).length = 20 := by
  simp [journalHeader, RecordWriter.u32, RecordWriter.u16, RecordWriter.u64]

/-- A framed record, as one header, two checksums, the payload and what follows. -/
theorem buildJournalRecord_append :
    buildJournalRecord type sequence payload ++ rest =
      journalHeader type.code sequence payload.length ++
        (littleEndian 4 (crc32c (journalHeader type.code sequence payload.length)).toNat ++
          (payload ++ (littleEndian 4 (crc32c payload).toNat ++ rest))) := by
  simp [buildJournalRecord, RecordWriter.u32]

theorem length_buildJournalRecord :
    (buildJournalRecord type sequence payload).length = journalRecordBytes payload.length := by
  have h := congrArg List.length (buildJournalRecord_append type sequence payload [])
  simp only [List.append_nil, List.length_append, length_journalHeader, length_littleEndian] at h
  rw [h, journalRecordBytes, kJournalHeaderBytes, kJournalTrailerBytes]
  omega

variable {payload}

theorem field_journalHeader (hlen : payload.length ≤ kMaxJournalRecordPayload) :
    field (buildJournalRecord type sequence payload ++ rest) 0 4 = kJournalRecordMagic.toNat ∧
    field (buildJournalRecord type sequence payload ++ rest) 4 2 = kDurableFormatGeneration.toNat ∧
    field (buildJournalRecord type sequence payload ++ rest) 6 2 = type.code.toNat ∧
    field (buildJournalRecord type sequence payload ++ rest) 8 8 = sequence.toNat ∧
    field (buildJournalRecord type sequence payload ++ rest) 16 4 = payload.length ∧
    field (buildJournalRecord type sequence payload ++ rest) 20 4 =
      (crc32c ((buildJournalRecord type sequence payload ++ rest).take 20)).toNat := by
  have htake : (buildJournalRecord type sequence payload ++ rest).take 20 =
      journalHeader type.code sequence payload.length := by
    rw [buildJournalRecord_append, List.take_left' (length_journalHeader _ _ _)]
  rw [htake, buildJournalRecord_append]
  have hsmall : payload.length < 256 ^ 4 := hlen.trans_lt (by decide)
  have hcode : type.code.toNat < 256 ^ 2 := type.code.toNat_lt
  have hsequence : sequence.toNat < 256 ^ 8 := sequence.toNat_lt
  have hcrc := (crc32c (journalHeader type.code sequence payload.length)).toNat_lt
  refine ⟨?_, ?_, ?_, ?_, ?_, field_littleEndian _ (length_journalHeader _ _ _) hcrc⟩ <;>
    simp only [journalHeader, RecordWriter.u32, RecordWriter.u16, RecordWriter.u64,
      List.append_assoc]
  · exact field_littleEndian [] rfl (by decide)
  · exact field_littleEndian (littleEndian 4 _) (by simp) (by decide)
  · simpa only [List.append_assoc] using field_littleEndian
      (littleEndian 4 kJournalRecordMagic.toNat ++ littleEndian 2 kDurableFormatGeneration.toNat)
      (by simp) hcode
  · simpa only [List.append_assoc] using field_littleEndian
      (littleEndian 4 kJournalRecordMagic.toNat ++ (littleEndian 2 kDurableFormatGeneration.toNat ++
        littleEndian 2 type.code.toNat)) (by simp) hsequence
  · simpa only [List.append_assoc] using field_littleEndian
      (littleEndian 4 kJournalRecordMagic.toNat ++ (littleEndian 2 kDurableFormatGeneration.toNat ++
        (littleEndian 2 type.code.toNat ++ littleEndian 8 sequence.toNat))) (by simp) hsmall

theorem drop_header : (buildJournalRecord type sequence payload ++ rest).drop kJournalHeaderBytes =
    payload ++ (littleEndian 4 (crc32c payload).toNat ++ rest) := by
  rw [buildJournalRecord_append, ← List.append_assoc]
  exact List.drop_left' (by simp [length_journalHeader, kJournalHeaderBytes])

end Layout

section Scan

variable {σ : Type} {unknown : Bool} {visitor : σ → JournalRecordView → Result σ}

theorem scanRecords_record {type : JournalRecordType} {sequence : UInt64} {payload rest : Bytes}
    {fuel : ℕ} {outcome : ScanOutcome σ} (hlen : payload.length ≤ kMaxJournalRecordPayload) :
    scanRecords unknown visitor (fuel + 1) sequence
        (buildJournalRecord type sequence payload ++ rest) outcome =
      visitor outcome.state { type, sequence, payload } >>= fun state =>
        scanRecords unknown visitor fuel (sequence + 1) rest
          { outcome with
            state := state
            records := outcome.records + 1
            validBytes := outcome.validBytes + journalRecordBytes payload.length
            lastSequence := sequence } := by
  obtain ⟨hmagic, hformat, hcode, hsequence, hlength, hcrc⟩ :=
    field_journalHeader type sequence rest hlen
  have hbytes : (buildJournalRecord type sequence payload ++ rest).length =
      journalRecordBytes payload.length + rest.length := by
    rw [List.length_append, length_buildJournalRecord]
  have hne : buildJournalRecord type sequence payload ++ rest ≠ [] := by
    intro h
    rw [h] at hbytes
    simp [journalRecordBytes, kJournalHeaderBytes] at hbytes
    omega
  have hheader : ¬ (buildJournalRecord type sequence payload ++ rest).length < kJournalHeaderBytes := by
    rw [hbytes, journalRecordBytes]
    omega
  have hbody : ¬ (payload ++ (littleEndian 4 (crc32c payload).toNat ++ rest)).length <
      payload.length + kJournalTrailerBytes := by
    simp [kJournalTrailerBytes]
  have htrailer : field (payload ++ (littleEndian 4 (crc32c payload).toNat ++ rest))
      payload.length 4 = (crc32c payload).toNat := field_littleEndian payload rfl (UInt32.toNat_lt _)
  have hdrop : (payload ++ (littleEndian 4 (crc32c payload).toNat ++ rest)).drop
      (payload.length + kJournalTrailerBytes) = rest := by
    rw [← List.append_assoc]
    exact List.drop_left' (by simp [kJournalTrailerBytes])
  rw [scanRecords]
  simp only [if_neg hne, if_neg hheader, hmagic, hformat, hcode, hsequence, hlength, ← hcrc,
    drop_header, if_neg hbody, List.take_left', htrailer, hdrop, UInt64.ofNat_toNat,
    UInt16.ofNat_toNat, JournalRecordType.ofCode_code]
  rw [refuseIf_bind (by simp), refuseIf_bind (by simp), refuseIf_bind (by simp),
    refuseIf_bind (by omega), refuseIf_bind (by simp), refuseIf_bind (by simp)]

theorem scanRecords_keeps {P : σ → Prop}
    (keep : ∀ s view s', visitor s view = .ok s' → P s → P s') {fuel : ℕ}
    {expected : UInt64} {data : Bytes} {outcome result : ScanOutcome σ}
    (h : scanRecords unknown visitor fuel expected data outcome = .ok result)
    (hs : P outcome.state) : P result.state := by
  induction fuel generalizing expected data outcome with
  | zero =>
    cases h
    exact hs
  | succ fuel ih =>
    rw [scanRecords] at h
    split at h
    · cases h
      exact hs
    · split at h
      · cases h
        exact hs
      · simp only [bind_eq_ok] at h
        obtain ⟨_, -, _, -, _, -, _, -, _, -, h⟩ := h
        split at h
        · cases h
          exact hs
        · obtain ⟨_, -, h⟩ := bind_eq_ok.mp h
          split at h
          · obtain ⟨state, hstate, h⟩ := bind_eq_ok.mp h
            exact ih h (keep _ _ _ hstate hs)
          · split at h
            · cases h
            · exact ih h hs

/-- The bytes of a run of records whose first has the given sequence number. -/
def journalOf : UInt64 → List (JournalRecordType × Bytes) → Bytes
  | _, [] => []
  | sequence, r :: records =>
    buildJournalRecord r.1 sequence r.2 ++ journalOf (sequence + 1) records

theorem add_one_add_ofNat (sequence : UInt64) (n : ℕ) :
    sequence + 1 + UInt64.ofNat n = sequence + UInt64.ofNat (n + 1) := by
  rw [UInt64.ofNat_add, UInt64.add_assoc, UInt64.add_comm 1]
  rfl

theorem journalOf_append (sequence : UInt64) (rs rs' : List (JournalRecordType × Bytes)) :
    journalOf sequence (rs ++ rs') =
      journalOf sequence rs ++ journalOf (sequence + UInt64.ofNat rs.length) rs' := by
  induction rs generalizing sequence with
  | nil => simp [journalOf]
  | cons r rs ih =>
    rw [List.cons_append, journalOf, ih, add_one_add_ofNat, journalOf, List.append_assoc,
      List.length_cons]

theorem length_le_length_journalOf (sequence : UInt64) (rs : List (JournalRecordType × Bytes)) :
    rs.length ≤ (journalOf sequence rs).length := by
  induction rs generalizing sequence with
  | nil => exact Nat.le_refl _
  | cons r rs ih =>
    have := ih (sequence + 1)
    rw [journalOf, List.length_append, length_buildJournalRecord, List.length_cons]
    simp only [journalRecordBytes, kJournalHeaderBytes]
    omega

/-- The records of a run as a visitor is shown them. -/
def viewsFrom : UInt64 → List (JournalRecordType × Bytes) → List JournalRecordView
  | _, [] => []
  | sequence, r :: records => ⟨r.1, sequence, r.2⟩ :: viewsFrom (sequence + 1) records

theorem viewsFrom_append (sequence : UInt64) (rs rs' : List (JournalRecordType × Bytes)) :
    viewsFrom sequence (rs ++ rs') =
      viewsFrom sequence rs ++ viewsFrom (sequence + UInt64.ofNat rs.length) rs' := by
  induction rs generalizing sequence with
  | nil => simp [viewsFrom]
  | cons r rs ih =>
    rw [List.cons_append, viewsFrom, ih, add_one_add_ofNat, viewsFrom, List.cons_append,
      List.length_cons]

@[simp] theorem length_viewsFrom (sequence : UInt64) (rs : List (JournalRecordType × Bytes)) :
    (viewsFrom sequence rs).length = rs.length := by
  induction rs generalizing sequence with
  | nil => rfl
  | cons r rs ih => rw [viewsFrom, List.length_cons, ih, List.length_cons]

/-- What a scan has seen after the records of a run. -/
def ScanOutcome.past (outcome : ScanOutcome σ) (state : σ) (rs : List (JournalRecordType × Bytes)) :
    ScanOutcome σ :=
  { outcome with
    state := state
    records := outcome.records + rs.length
    validBytes := outcome.validBytes + (journalOf (outcome.lastSequence + 1) rs).length
    lastSequence := outcome.lastSequence + UInt64.ofNat rs.length }

/-- A scan visits exactly the records of a run, then goes on with what follows them. -/
theorem scanRecords_journalOf {rs : List (JournalRecordType × Bytes)}
    (fits : ∀ r ∈ rs, r.2.length ≤ kMaxJournalRecordPayload) (fuel : ℕ) (rest : Bytes)
    (outcome : ScanOutcome σ) :
    scanRecords unknown visitor (rs.length + fuel) (outcome.lastSequence + 1)
        (journalOf (outcome.lastSequence + 1) rs ++ rest) outcome =
      (viewsFrom (outcome.lastSequence + 1) rs).foldlM visitor outcome.state >>= fun state =>
        scanRecords unknown visitor fuel (outcome.lastSequence + UInt64.ofNat rs.length + 1) rest
          (outcome.past state rs) := by
  induction rs generalizing outcome with
  | nil =>
    have hlast : outcome.lastSequence + UInt64.ofNat 0 = outcome.lastSequence := UInt64.add_zero _
    simp only [journalOf, viewsFrom, List.foldlM_nil, pure_bind, List.nil_append, List.length_nil,
      Nat.zero_add, ScanOutcome.past, hlast, Nat.add_zero]
  | cons r rs ih =>
    have hfuel : (r :: rs).length + fuel = rs.length + fuel + 1 := by
      rw [List.length_cons]
      omega
    rw [hfuel, journalOf, List.append_assoc, scanRecords_record (fits r List.mem_cons_self),
      viewsFrom, List.foldlM_cons, bind_assoc]
    refine bind_congr fun state => ?_
    have htail := ih (fun r' hr' => fits r' (List.mem_cons_of_mem _ hr')) { outcome with
      state := state
      records := outcome.records + 1
      validBytes := outcome.validBytes + journalRecordBytes r.2.length
      lastSequence := outcome.lastSequence + 1 }
    rw [htail]
    refine bind_congr fun _ => ?_
    simp only [ScanOutcome.past, journalOf, add_one_add_ofNat, List.length_cons, List.length_append,
      length_buildJournalRecord, Nat.add_assoc, Nat.add_comm 1]

theorem scanJournal_journalOf_append {rs : List (JournalRecordType × Bytes)}
    (fits : ∀ r ∈ rs, r.2.length ≤ kMaxJournalRecordPayload) (rest : Bytes) (init : σ) :
    ∃ fuel, rest.length < fuel ∧ scanJournal unknown visitor (journalOf 1 rs ++ rest) init =
      (viewsFrom 1 rs).foldlM visitor init >>= fun state =>
        scanRecords unknown visitor fuel (UInt64.ofNat rs.length + 1) rest
          { state, records := rs.length, validBytes := (journalOf 1 rs).length
            lastSequence := UInt64.ofNat rs.length } := by
  have hle := length_le_length_journalOf 1 rs
  refine ⟨(journalOf 1 rs).length - rs.length + rest.length + 1, by omega, ?_⟩
  have hfuel : (journalOf 1 rs ++ rest).length + 1 =
      rs.length + ((journalOf 1 rs).length - rs.length + rest.length + 1) := by
    rw [List.length_append]
    omega
  have h := @scanRecords_journalOf σ unknown visitor rs fits
    ((journalOf 1 rs).length - rs.length + rest.length + 1) rest { state := init }
  rw [scanJournal, hfuel]
  simpa [ScanOutcome.past] using h

end Scan

end FlowScheduler

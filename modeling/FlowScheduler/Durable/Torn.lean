import FlowScheduler.Durable.Scan

/-! # Torn tails

What a scan makes of a journal that was cut: the records wholly before the cut
are delivered and a record cut short is a torn tail, never corruption. The tail
is cut off before the sequence continues.
-/

namespace FlowScheduler

open ByteCodec Failing

/-- Bytes that a scan takes for a record cut short by the end of the file. -/
def TornAt (expected : UInt64) (rest : Bytes) : Prop :=
  ∀ (σ : Type) (unknown : Bool) (visitor : σ → JournalRecordView → Result σ) (fuel : ℕ)
    (outcome : ScanOutcome σ), rest.length < fuel →
      scanRecords unknown visitor fuel expected rest outcome =
        .ok { outcome with stop := .tornTail }

/-- The file holds these records, then nothing or a torn tail. -/
def Readable (journal : Bytes) (rs : List (JournalRecordType × Bytes)) : Prop :=
  (∀ r ∈ rs, r.2.length ≤ kMaxJournalRecordPayload) ∧
    ∃ rest, journal = journalOf 1 rs ++ rest ∧
      (rest = [] ∨ TornAt (UInt64.ofNat rs.length + 1) rest)

section Fragment

theorem field_take {data : Bytes} {offset width n : ℕ} (h : offset + width ≤ n) :
    field (data.take n) offset width = field data offset width := by
  have hw : min width (n - offset) = width := by omega
  simp only [field, List.drop_take, List.take_take, hw]

theorem tornAt_take {type : JournalRecordType} {sequence : UInt64} {payload : Bytes} {n : ℕ}
    (fits : payload.length ≤ kMaxJournalRecordPayload) (positive : 0 < n)
    (short : n < journalRecordBytes payload.length) :
    TornAt sequence ((buildJournalRecord type sequence payload).take n) := by
  intro σ unknown visitor fuel outcome hfuel
  obtain ⟨fuel, rfl⟩ : ∃ m, fuel = m + 1 := ⟨fuel - 1, by omega⟩
  have hlen : ((buildJournalRecord type sequence payload).take n).length = n := by
    rw [List.length_take, length_buildJournalRecord]
    omega
  have hne : (buildJournalRecord type sequence payload).take n ≠ [] := by
    intro h
    rw [h] at hlen
    simp at hlen
    omega
  rw [scanRecords, if_neg hne, hlen]
  split
  · rfl
  · rename_i hheader
    have hheader : 24 ≤ n := by simpa [kJournalHeaderBytes] using hheader
    obtain ⟨hmagic, hformat, -, hsequence, hlength, hcrc⟩ :=
      field_journalHeader type sequence [] fits
    rw [List.append_nil] at hmagic hformat hsequence hlength hcrc
    have htake : ((buildJournalRecord type sequence payload).take n).take 20 =
        (buildJournalRecord type sequence payload).take 20 := by
      rw [List.take_take, min_eq_left (by omega)]
    have hbody : (((buildJournalRecord type sequence payload).take n).drop
        kJournalHeaderBytes).length < payload.length + kJournalTrailerBytes := by
      rw [List.length_drop, hlen]
      simp only [journalRecordBytes, kJournalHeaderBytes, kJournalTrailerBytes] at *
      omega
    simp only [field_take (show 0 + 4 ≤ n by omega), field_take (show 4 + 2 ≤ n by omega),
      field_take (show 8 + 8 ≤ n by omega), field_take (show 16 + 4 ≤ n by omega),
      field_take (show 20 + 4 ≤ n by omega), htake, hmagic, hformat, hsequence, hlength, ← hcrc,
      UInt64.ofNat_toNat, if_pos hbody]
    rw [refuseIf_bind (by simp), refuseIf_bind (by simp), refuseIf_bind (by simp),
      refuseIf_bind (by omega), refuseIf_bind (by simp)]
    rfl

end Fragment

section Accepted

theorem take_drop_eq_littleEndian {data : Bytes} {offset width n : ℕ}
    (h : field data offset width = n) (hlen : offset + width ≤ data.length) :
    (data.drop offset).take width = littleEndian width n := by
  have hwidth : ((data.drop offset).take width).length = width := by
    rw [List.length_take, List.length_drop]
    omega
  have hbytes := littleEndian_fromLittleEndian ((data.drop offset).take width)
  rw [hwidth] at hbytes
  rw [← h, ← hbytes, field]

theorem field_lt (data : Bytes) (offset width : ℕ) : field data offset width < 256 ^ width := by
  refine (fromLittleEndian_lt _).trans_le (Nat.pow_le_pow_right (by decide) ?_)
  exact List.length_take_le _ _

theorem eq_buildJournalRecord {data : Bytes} {type : JournalRecordType} {n : ℕ}
    (magic : field data 0 4 = kJournalRecordMagic.toNat)
    (format : field data 4 2 = kDurableFormatGeneration.toNat)
    (code : type.code = UInt16.ofNat (field data 6 2)) (length : field data 16 4 = n)
    (crc : field data 20 4 = (crc32c (data.take 20)).toNat)
    (body : n + 4 ≤ (data.drop 24).length)
    (payload : field (data.drop 24) n 4 = (crc32c ((data.drop 24).take n)).toNat) :
    data = buildJournalRecord type (UInt64.ofNat (field data 8 8)) ((data.drop 24).take n) ++
      (data.drop 24).drop (n + 4) := by
  have hlong : 24 ≤ data.length := by
    rw [List.length_drop] at body
    omega
  have hcode : type.code.toNat = field data 6 2 := by
    rw [code]
    exact Nat.mod_eq_of_lt (field_lt data 6 2)
  have hsequence : (UInt64.ofNat (field data 8 8)).toNat = field data 8 8 :=
    Nat.mod_eq_of_lt (field_lt data 8 8)
  have hheader : data.take 20 = journalHeader type.code (UInt64.ofNat (field data 8 8)) n := by
    have hsplit : data.take 20 = (data.drop 0).take 4 ++ ((data.drop 4).take 2 ++
        ((data.drop 6).take 2 ++ ((data.drop 8).take 8 ++ (data.drop 16).take 4))) := by
      rw [show 20 = 4 + (2 + (2 + (8 + 4))) from rfl]
      simp only [List.take_add, List.drop_drop, List.drop_zero]
    rw [hsplit, take_drop_eq_littleEndian magic (by omega),
      take_drop_eq_littleEndian format (by omega), take_drop_eq_littleEndian hcode.symm (by omega),
      take_drop_eq_littleEndian hsequence.symm (by omega),
      take_drop_eq_littleEndian length (by omega)]
    simp [journalHeader, RecordWriter.u32, RecordWriter.u16, RecordWriter.u64]
  have hlen : ((data.drop 24).take n).length = n := by
    rw [List.length_take]
    omega
  have hdata : data = data.take 20 ++ ((data.drop 20).take 4 ++ ((data.drop 24).take n ++
      (((data.drop 24).drop n).take 4 ++ (data.drop 24).drop (n + 4)))) := by
    have hbody : (data.drop 24).drop (n + 4) = ((data.drop 24).drop n).drop 4 :=
      List.drop_drop.symm
    have hrest : data.drop 24 = (data.drop 20).drop 4 := by rw [List.drop_drop]
    rw [hbody, List.take_append_drop, List.take_append_drop, hrest, List.take_append_drop,
      List.take_append_drop]
  rw [buildJournalRecord_append, hlen, ← hheader, ← take_drop_eq_littleEndian crc (by omega),
    ← take_drop_eq_littleEndian payload body]
  exact hdata

/-- What a replay accepts is a run of framed records, then nothing or a torn tail. -/
theorem eq_journalOf_of_scanRecords {σ : Type} {visitor : σ → JournalRecordView → Result σ}
    {fuel : ℕ} {expected : UInt64} {data : Bytes} {outcome result : ScanOutcome σ}
    (enough : data.length < fuel)
    (h : scanRecords true visitor fuel expected data outcome = .ok result) :
    ∃ rs rest, (∀ r ∈ rs, r.2.length ≤ kMaxJournalRecordPayload) ∧
      data = journalOf expected rs ++ rest ∧
      (rest = [] ∨ TornAt (expected + UInt64.ofNat rs.length) rest) := by
  induction fuel generalizing expected data outcome with
  | zero => omega
  | succ fuel ih =>
    have hzero : expected + UInt64.ofNat 0 = expected := UInt64.add_zero _
    by_cases hempty : data = []
    · exact ⟨[], [], by simp, by simp [hempty, journalOf], .inl rfl⟩
    by_cases hshort : data.length < kJournalHeaderBytes
    · refine ⟨[], data, by simp, by simp [journalOf], .inr ?_⟩
      intro σ unknown visitor fuel outcome hfuel
      obtain ⟨fuel, rfl⟩ : ∃ m, fuel = m + 1 := ⟨fuel - 1, by omega⟩
      rw [scanRecords, if_neg hempty, if_pos hshort]
      rfl
    rw [scanRecords, if_neg hempty, if_neg hshort] at h
    simp only [bind_eq_ok, refuseIf_eq_ok, not_not] at h
    obtain ⟨_, magic, _, format, _, crc, _, small, _, sequence, h⟩ := h
    split at h
    · rename_i hbody
      refine ⟨[], data, by simp, by simp [journalOf], .inr ?_⟩
      intro σ unknown visitor fuel outcome hfuel
      obtain ⟨fuel, rfl⟩ : ∃ m, fuel = m + 1 := ⟨fuel - 1, by omega⟩
      rw [List.length_nil, hzero, scanRecords, if_neg hempty, if_neg hshort,
        refuseIf_bind (by simp [magic]), refuseIf_bind (by simp [format]),
        refuseIf_bind (by simp [crc]), refuseIf_bind small, refuseIf_bind (by simp [sequence]),
        if_pos hbody]
      rfl
    · rename_i hbody
      obtain ⟨_, payload, h⟩ := bind_eq_ok.mp h
      rw [refuseIf_eq_ok, not_not] at payload
      split at h
      · rename_i type htype
        obtain ⟨state, -, h⟩ := bind_eq_ok.mp h
        have hframe := eq_buildJournalRecord magic format
          (JournalRecordType.code_of_ofCode htype) rfl crc (by
            simpa [kJournalHeaderBytes, kJournalTrailerBytes] using hbody) payload
        rw [sequence] at hframe h
        have hrest : ((data.drop kJournalHeaderBytes).drop
            (field data 16 4 + kJournalTrailerBytes)).length < fuel := by
          rw [List.length_drop, List.length_drop]
          simp only [kJournalHeaderBytes] at *
          omega
        obtain ⟨rs, rest, fits, hdata, htorn⟩ := ih hrest h
        refine ⟨(type, (data.drop 24).take (field data 16 4)) :: rs, rest, ?_, ?_, ?_⟩
        · rintro r (_ | ⟨_, hr⟩)
          · exact (List.length_take_le _ _).trans (by omega)
          · exact fits r hr
        · rw [journalOf, List.append_assoc, ← hdata]
          exact hframe
        · rwa [List.length_cons, ← add_one_add_ofNat]
      · cases h

theorem readable_of_scanJournal {σ : Type} {visitor : σ → JournalRecordView → Result σ}
    {data : Bytes} {init : σ} {result : ScanOutcome σ}
    (h : scanJournal true visitor data init = .ok result) : ∃ rs, Readable data rs := by
  obtain ⟨rs, rest, fits, hdata, torn⟩ := eq_journalOf_of_scanRecords (Nat.lt_succ_self _) h
  rw [UInt64.add_comm] at torn
  exact ⟨rs, fits, rest, hdata, torn⟩

end Accepted

section Reading

variable {rs : List (JournalRecordType × Bytes)} {rest : Bytes}

/-- Whether a remainder is torn off, as a scan reports it. -/
def stopAt (rest : Bytes) : ScanStop := if rest = [] then .complete else .tornTail

theorem scanJournal_torn {σ : Type} {unknown : Bool} {visitor : σ → JournalRecordView → Result σ}
    (fits : ∀ r ∈ rs, r.2.length ≤ kMaxJournalRecordPayload)
    (torn : rest = [] ∨ TornAt (UInt64.ofNat rs.length + 1) rest) (init : σ) :
    scanJournal unknown visitor (journalOf 1 rs ++ rest) init =
      (viewsFrom 1 rs).foldlM visitor init >>= fun state =>
        .ok { state, stop := stopAt rest, records := rs.length
              validBytes := (journalOf 1 rs).length, lastSequence := UInt64.ofNat rs.length } := by
  obtain ⟨fuel, hfuel, h⟩ := @scanJournal_journalOf_append σ unknown visitor rs fits rest init
  rw [h]
  refine bind_congr fun state => ?_
  by_cases hrest : rest = []
  · subst hrest
    obtain ⟨fuel, rfl⟩ : ∃ n, fuel = n + 1 := ⟨fuel - 1, by omega⟩
    rfl
  · rw [torn.resolve_left hrest σ unknown visitor fuel _ hfuel, stopAt, if_neg hrest]

theorem openStore_torn {path : String} (named : path ≠ "") {snapshot : Option Bytes}
    (fits : ∀ r ∈ rs, r.2.length ≤ kMaxJournalRecordPayload)
    (torn : rest = [] ∨ TornAt (UInt64.ofNat rs.length + 1) rest) :
    DurableStore.openStore path { journal := journalOf 1 rs ++ rest, snapshot } =
      .ok { path, files := { journal := journalOf 1 rs ++ rest, snapshot }
            lastSequence := UInt64.ofNat rs.length, validBytes := (journalOf 1 rs).length
            openTailTruncated := decide (rest ≠ []), tornTailPending := decide (rest ≠ []) } := by
  have hvisit : ∀ views : List JournalRecordView,
      views.foldlM (fun _ _ => Except.ok ()) () = (.ok () : Result Unit) := by
    intro views
    induction views with
    | nil => rfl
    | cons v views ih => exact ih
  rw [DurableStore.openStore, refuseIf_bind named, scanJournal_torn fits torn, hvisit]
  by_cases hrest : rest = [] <;> simp [stopAt, hrest, pure, Except.pure, bind, Except.bind]

def collect (seen : List JournalRecordView) (view : JournalRecordView) :
    Result (List JournalRecordView) := .ok (seen ++ [view])

theorem foldlM_collect (views seen : List JournalRecordView) :
    views.foldlM collect seen = .ok (seen ++ views) := by
  induction views generalizing seen with
  | nil => simp [pure, Except.pure]
  | cons v views ih =>
    rw [List.foldlM_cons, collect]
    exact (ih _).trans (by simp)

end Reading

section Cut

variable {rs : List (JournalRecordType × Bytes)}

def wholeBefore : ℕ → List (JournalRecordType × Bytes) → List (JournalRecordType × Bytes)
  | _, [] => []
  | cut, r :: rs =>
    if journalRecordBytes r.2.length ≤ cut then
      r :: wholeBefore (cut - journalRecordBytes r.2.length) rs
    else []

/-- The cut falls between two records, or at either end. -/
def OnBoundary (cut : ℕ) (rs : List (JournalRecordType × Bytes)) : Prop :=
  ∃ k, cut = (journalOf 1 (rs.take k)).length

theorem length_journalOf_cons (sequence : UInt64) (r : JournalRecordType × Bytes) :
    (journalOf sequence (r :: rs)).length =
      journalRecordBytes r.2.length + (journalOf (sequence + 1) rs).length := by
  rw [journalOf, List.length_append, length_buildJournalRecord]

theorem isPrefix_wholeBefore (cut : ℕ) : wholeBefore cut rs <+: rs := by
  induction rs generalizing cut with
  | nil => exact List.prefix_refl _
  | cons r rs ih =>
    rw [wholeBefore]
    split
    · exact List.cons_prefix_cons.mpr ⟨rfl, ih _⟩
    · exact List.nil_prefix

/-- A cut journal is the records wholly before the cut, then nothing or a torn tail. -/
theorem take_journalOf (fits : ∀ r ∈ rs, r.2.length ≤ kMaxJournalRecordPayload) (cut : ℕ)
    (sequence : UInt64) : ∃ rest,
      (journalOf sequence rs).take cut = journalOf sequence (wholeBefore cut rs) ++ rest ∧
      (rest = [] ∨ TornAt (sequence + UInt64.ofNat (wholeBefore cut rs).length) rest) := by
  induction rs generalizing cut sequence with
  | nil => exact ⟨[], by simp [journalOf, wholeBefore], .inl rfl⟩
  | cons r rs ih =>
    have hfits := fits r List.mem_cons_self
    rw [wholeBefore]
    split
    · rename_i hcut
      obtain ⟨rest, htake, htorn⟩ := ih (fun r' hr' => fits r' (List.mem_cons_of_mem _ hr'))
        (cut - journalRecordBytes r.2.length) (sequence + 1)
      refine ⟨rest, ?_, ?_⟩
      · rw [journalOf, List.take_append, length_buildJournalRecord, htake, journalOf,
          List.take_of_length_le (by rw [length_buildJournalRecord]; exact hcut),
          List.append_assoc]
      · rwa [List.length_cons, ← add_one_add_ofNat]
    · rename_i hcut
      have hzero : cut - (buildJournalRecord r.1 sequence r.2).length = 0 := by
        rw [length_buildJournalRecord]
        omega
      refine ⟨(buildJournalRecord r.1 sequence r.2).take cut, ?_, ?_⟩
      · simp only [journalOf, List.take_append, hzero, List.take_zero, List.append_nil,
          List.nil_append]
      · rcases Nat.eq_zero_or_pos cut with h0 | hpos
        · exact .inl (by rw [h0, List.take_zero])
        · refine .inr ?_
          have hseq : sequence + UInt64.ofNat 0 = sequence := UInt64.add_zero _
          rw [List.length_nil, hseq]
          exact tornAt_take hfits hpos (by omega)

theorem onBoundary_iff {cut : ℕ} : OnBoundary cut rs ↔
    cut = (journalOf 1 (wholeBefore cut rs)).length := by
  constructor
  · rintro ⟨k, rfl⟩
    have hwhole : ∀ (rs : List (JournalRecordType × Bytes)) (k : ℕ) (sequence : UInt64),
        wholeBefore (journalOf sequence (rs.take k)).length rs = rs.take k := by
      intro rs
      induction rs with
      | nil => simp [wholeBefore]
      | cons r rs ih =>
        intro k sequence
        cases k with
        | zero =>
          have hpos : ¬ journalRecordBytes r.2.length ≤ 0 := by
            simp [journalRecordBytes, kJournalHeaderBytes]
          rw [List.take_zero, journalOf, List.length_nil, wholeBefore, if_neg hpos]
        | succ k =>
          rw [List.take_succ_cons, length_journalOf_cons, wholeBefore, if_pos (by omega),
            Nat.add_sub_cancel_left, ih]
    rw [hwhole]
  · intro h
    refine ⟨(wholeBefore cut rs).length, ?_⟩
    rwa [← List.prefix_iff_eq_take.mp (isPrefix_wholeBefore cut)]

end Cut

end FlowScheduler

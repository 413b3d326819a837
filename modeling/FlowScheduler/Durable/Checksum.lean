import FlowScheduler.Durable.Torn
import FlowScheduler.Library.Crc

/-! # The checksum of the durable formats

The table-driven CRC-32C is the cyclic redundancy check of the Castagnoli
polynomial, so it detects every change of four consecutive bytes. A journal with
such a change in the header of a record, or in its payload and trailer, is
refused when it is scanned, and the changed record reaches no visitor.
-/

namespace FlowScheduler

open ByteCodec

def castagnoli : BitVec 32 := 0x82F63B78#32

def crc32cBitwise (data : Bytes) : UInt32 :=
  .ofBitVec (Crc.feedBits castagnoli 0xFFFFFFFF#32 (Crc.bitsOfBytes data) ^^^ 0xFFFFFFFF#32)

section Table

theorem toBitVec_crc32cBit (crc : UInt32) :
    (crc32cBit crc).toBitVec = Crc.shift castagnoli crc.toBitVec := by
  have hlow : crc &&& 1 ≠ 0 ↔ crc.toBitVec.getLsbD 0 = true := by
    have hone : (crc &&& 1).toBitVec =
        BitVec.setWidth 32 (BitVec.ofBool (crc.toBitVec.getLsbD 0)) :=
      BitVec.and_one_eq_setWidth_ofBool_getLsbD
    rw [ne_eq, ← UInt32.toBitVec_inj, hone]
    cases crc.toBitVec.getLsbD 0 <;> decide
  unfold crc32cBit Crc.shift
  by_cases h : crc.toBitVec.getLsbD 0 = true
  · rw [if_pos (hlow.mpr h), if_pos h]
    rfl
  · rw [if_neg (mt hlow.mp h), if_neg h]
    rfl

theorem toBitVec_crc32cBits (n : ℕ) (crc : UInt32) :
    (crc32cBit^[n] crc).toBitVec = (Crc.shift castagnoli)^[n] crc.toBitVec := by
  induction n generalizing crc with
  | zero => rfl
  | succ n ih => rw [Function.iterate_succ_apply, ih, toBitVec_crc32cBit, Function.iterate_succ_apply]

theorem getD_crc32cTable {i : ℕ} (hi : i < 256) :
    crc32cTable.getD i 0 = crc32cBit^[8] (UInt32.ofNat i) := by
  simp [crc32cTable, hi]

theorem toBitVec_crc32cByte (crc : UInt32) (byte : UInt8) :
    (crc32cByte crc byte).toBitVec =
      Crc.feedBits castagnoli crc.toBitVec (Crc.bitsOf byte) := by
  have hindex : ((crc ^^^ byte.toUInt32) &&& 0xFF).toNat < 256 := by
    rw [UInt32.toNat_and]
    exact Nat.and_le_right.trans_lt (by decide)
  have hbyte : (byte.toBitVec.setWidth 32) >>> 8 = 0#32 := by
    refine BitVec.eq_of_toNat_eq ?_
    have := byte.toBitVec.isLt
    simp only [BitVec.toNat_ushiftRight, BitVec.toNat_setWidth, BitVec.toNat_ofNat,
      Nat.shiftRight_eq_div_pow]
    omega
  rw [crc32cByte, getD_crc32cTable hindex, UInt32.ofNat_toNat, UInt32.toBitVec_xor,
    toBitVec_crc32cBits, Crc.feedBits_eq (by simp), Crc.ofBits_bitsOf, Crc.length_bitsOf,
    Crc.shifts_split (crc.toBitVec ^^^ _), BitVec.ushiftRight_xor_distrib, hbyte, BitVec.xor_zero]
  rfl

theorem toBitVec_foldl_crc32cByte (data : Bytes) (crc : UInt32) :
    (data.foldl crc32cByte crc).toBitVec =
      Crc.feedBits castagnoli crc.toBitVec (Crc.bitsOfBytes data) := by
  induction data generalizing crc with
  | nil => rfl
  | cons byte data ih =>
    rw [List.foldl_cons, ih, toBitVec_crc32cByte, ← Crc.feedBits_append]
    rfl

theorem toBitVec_crc32c (data : Bytes) : (crc32c data).toBitVec =
    Crc.feedBits castagnoli 0xFFFFFFFF#32 (Crc.bitsOfBytes data) ^^^ 0xFFFFFFFF#32 := by
  rw [crc32c, crc32cExtend, UInt32.toBitVec_xor, toBitVec_foldl_crc32cByte]
  rfl

/-- The lookup table computes CRC-32C, and the checksum of a part can be carried on. -/
theorem crc32c_eq_bitwise : (∀ data, crc32c data = crc32cBitwise data) ∧
    ∀ a b, crc32cExtend (crc32c a) b = crc32c (a ++ b) := by
  constructor
  · intro data
    rw [← UInt32.toBitVec_inj, toBitVec_crc32c, crc32cBitwise]
  · intro a b
    simp only [crc32c, crc32cExtend, List.foldl_append, UInt32.xor_assoc, UInt32.xor_self,
      UInt32.xor_zero]

end Table

section Burst

/-- A block of the durable formats: some bytes and their checksum. -/
def checked (data : Bytes) : Bytes := data ++ littleEndian 4 (crc32c data).toNat

/-- Of the blocks that differ only in four consecutive bytes at most one has its checksum. -/
theorem checked_eq_of_burst {data data' before x y after : Bytes} (hx : x.length = 4)
    (hy : y.length = 4) (h : checked data = before ++ x ++ after)
    (h' : checked data' = before ++ y ++ after) : x = y := by
  have hchecked : ∀ d, checked d =
      Crc.withChecksum castagnoli 0xFFFFFFFF#32 0xFFFFFFFF#32 4 d := by
    intro d
    rw [Crc.withChecksum, ← toBitVec_crc32c]
    rfl
  rw [hchecked] at h h'
  exact Crc.eq_of_burst (by decide) (by decide) (hx.trans hy.symm) hx.le h h'

theorem eq_checked {block : Bytes} {n : ℕ} (hlen : block.length = n + 4)
    (h : field block n 4 = (crc32c (block.take n)).toNat) : block = checked (block.take n) := by
  have hlast := take_drop_eq_littleEndian h hlen.ge
  rw [List.take_of_length_le (by rw [List.length_drop]; omega)] at hlast
  rw [checked, ← hlast, List.take_append_drop]

/-- Some bytes of a file are replaced from a position on. -/
def overwrite (data : Bytes) (position : ℕ) (window : Bytes) : Bytes :=
  data.take position ++ window ++ data.drop (position + window.length)

theorem length_overwrite {data window : Bytes} {position : ℕ}
    (inside : position + window.length ≤ data.length) :
    (overwrite data position window).length = data.length := by
  simp only [overwrite, List.length_append, List.length_take, List.length_drop]
  omega

theorem overwrite_append_right {before data window : Bytes} {position : ℕ}
    (h : before.length ≤ position) : overwrite (before ++ data) position window =
      before ++ overwrite data (position - before.length) window := by
  simp only [overwrite, List.append_assoc, List.take_append, List.drop_append,
    List.take_of_length_le h, List.drop_eq_nil_of_le (h.trans (Nat.le_add_right _ _)),
    List.nil_append]
  rw [Nat.sub_add_comm h]

theorem overwrite_append_left {data after window : Bytes} {position : ℕ}
    (h : position + window.length ≤ data.length) : overwrite (data ++ after) position window =
      overwrite data position window ++ after := by
  simp only [overwrite, List.append_assoc]
  rw [List.take_append_of_le_length (by omega), List.drop_append_of_le_length h]

theorem not_checked_overwrite {data window : Bytes} {position : ℕ} (four : window.length = 4)
    (inside : position + 4 ≤ data.length + 4)
    (altered : overwrite (checked data) position window ≠ checked data) (data' : Bytes) :
    overwrite (checked data) position window ≠ checked data' := by
  intro h
  have hlength : (checked data).length = data.length + 4 := by simp [checked]
  have hsplit : checked data = (checked data).take position ++
      ((checked data).drop position).take 4 ++ (checked data).drop (position + 4) := by
    rw [List.append_assoc, ← List.drop_drop, List.take_append_drop, List.take_append_drop]
  have hold : (((checked data).drop position).take 4).length = 4 := by
    rw [List.length_take, List.length_drop, hlength]
    omega
  have hnew : checked data' =
      (checked data).take position ++ window ++ (checked data).drop (position + 4) := by
    rw [← h, overwrite, four]
  have hwindow := checked_eq_of_burst four hold hnew hsplit
  apply altered
  rw [overwrite, four, hwindow, ← hsplit]

end Burst

section Scan

/-- Bytes at which every scan fails, whoever visits. -/
def RefusedAt (expected : UInt64) (rest : Bytes) : Prop :=
  ∃ e : Error, ∀ (σ : Type) (unknown : Bool) (visitor : σ → JournalRecordView → Result σ) (fuel : ℕ)
    (outcome : ScanOutcome σ),
      scanRecords unknown visitor (fuel + 1) expected rest outcome = .error e

theorem refusedAt_header {expected : UInt64} {data : Bytes} (hlong : 24 ≤ data.length)
    (bad : ∀ d, data.take 24 ≠ checked d) : RefusedAt expected data := by
  have hne : data ≠ [] := by
    rintro rfl
    simp at hlong
  have hshort : ¬ data.length < kJournalHeaderBytes := by simpa [kJournalHeaderBytes] using hlong
  have hcrc : field data 20 4 ≠ (crc32c (data.take 20)).toNat := by
    intro h
    have hblock : (data.take 24).length = 20 + 4 := by rw [List.length_take]; omega
    apply bad _ (eq_checked hblock _)
    rw [field_take (by decide), h, List.take_take]
    rfl
  by_cases hmagic : field data 0 4 ≠ kJournalRecordMagic.toNat
  · refine ⟨failure .corruptData "journal record magic mismatch (corruption)",
      fun σ unknown visitor fuel outcome => ?_⟩
    rw [scanRecords, if_neg hne, if_neg hshort, refuseIf_bind_error hmagic]
  by_cases hformat : field data 4 2 ≠ kDurableFormatGeneration.toNat
  · refine ⟨failure .unsupported ("journal format generation " ++ toString (field data 4 2) ++
      " is not supported by this build"), fun σ unknown visitor fuel outcome => ?_⟩
    rw [scanRecords, if_neg hne, if_neg hshort, refuseIf_bind hmagic, refuseIf_bind_error hformat]
  · refine ⟨failure .corruptData "journal record header checksum mismatch",
      fun σ unknown visitor fuel outcome => ?_⟩
    rw [scanRecords, if_neg hne, if_neg hshort, refuseIf_bind hmagic, refuseIf_bind hformat,
      refuseIf_bind_error hcrc]

theorem refusedAt_body {type : JournalRecordType} {sequence : UInt64} {payload body : Bytes}
    (fits : payload.length ≤ kMaxJournalRecordPayload) (hlong : payload.length + 4 ≤ body.length)
    (bad : ∀ d, body.take (payload.length + 4) ≠ checked d) :
    RefusedAt sequence (checked (journalHeader type.code sequence payload.length) ++ body) := by
  have hheader : (checked (journalHeader type.code sequence payload.length)).length = 24 := by
    simp [checked, length_journalHeader]
  have hrecord : buildJournalRecord type sequence payload ++ [] =
      checked (journalHeader type.code sequence payload.length) ++ checked payload := by
    rw [buildJournalRecord_append]
    simp [checked]
  have hfield : ∀ offset width, offset + width ≤ 24 →
      field (checked (journalHeader type.code sequence payload.length) ++ body) offset width =
        field (buildJournalRecord type sequence payload ++ []) offset width := by
    intro offset width hle
    have hsame : ∀ rest, field (checked (journalHeader type.code sequence payload.length) ++ rest)
        offset width = field (checked (journalHeader type.code sequence payload.length))
          offset width := fun rest => by rw [← field_take hle, List.take_left' hheader]
    rw [hrecord, hsame, hsame]
  obtain ⟨hmagic, hformat, -, hsequence, hlength, hcrc⟩ := field_journalHeader type sequence [] fits
  have htake : (checked (journalHeader type.code sequence payload.length) ++ body).take 20 =
      (buildJournalRecord type sequence payload ++ []).take 20 := by
    rw [hrecord, List.take_append_of_le_length (by omega),
      List.take_append_of_le_length (by omega)]
  have hdrop : (checked (journalHeader type.code sequence payload.length) ++ body).drop
      kJournalHeaderBytes = body := List.drop_left' hheader
  have hne : checked (journalHeader type.code sequence payload.length) ++ body ≠ [] := by
    intro h
    have := congrArg List.length h
    rw [List.length_append, hheader, List.length_nil] at this
    omega
  have hshort : ¬ (checked (journalHeader type.code sequence payload.length) ++ body).length <
      kJournalHeaderBytes := by
    rw [List.length_append, hheader, kJournalHeaderBytes]
    omega
  have htrailer : field body payload.length 4 ≠ (crc32c (body.take payload.length)).toNat := by
    intro h
    have hblock : (body.take (payload.length + 4)).length = payload.length + 4 := by
      rw [List.length_take]
      omega
    apply bad _ (eq_checked hblock _)
    rw [field_take le_rfl, h, List.take_take, Nat.min_eq_left (Nat.le_add_right _ _)]
  refine ⟨failure .corruptData "journal record payload checksum mismatch",
    fun σ unknown visitor fuel outcome => ?_⟩
  rw [scanRecords, if_neg hne, if_neg hshort]
  simp only [hfield 0 4 (by decide), hfield 4 2 (by decide), hfield 8 8 (by decide),
    hfield 16 4 (by decide), hfield 20 4 (by decide), htake, hmagic, hformat, hsequence, hlength,
    ← hcrc, hdrop, UInt64.ofNat_toNat]
  rw [refuseIf_bind (by simp), refuseIf_bind (by simp), refuseIf_bind (by simp),
    refuseIf_bind (by omega), refuseIf_bind (by simp),
    if_neg (by rw [kJournalTrailerBytes]; omega), refuseIf_bind_error htrailer]

variable {before after : List (JournalRecordType × Bytes)} {r : JournalRecordType × Bytes}

/-- The four bytes lie within the header of the record after the given ones, or within its payload
and trailer. -/
def WithinRecord (before : List (JournalRecordType × Bytes)) (r : JournalRecordType × Bytes)
    (position : ℕ) : Prop :=
  let start := (journalOf 1 before).length
  (start ≤ position ∧ position + 4 ≤ start + kJournalHeaderBytes) ∨
    (start + kJournalHeaderBytes ≤ position ∧ position + 4 ≤ start + journalRecordBytes r.2.length)

instance (position : ℕ) : Decidable (WithinRecord before r position) :=
  inferInstanceAs (Decidable (_ ∨ _))

/-- What follows the records before the changed one is refused. -/
theorem overwrite_journalOf (fits : r.2.length ≤ kMaxJournalRecordPayload) {position : ℕ}
    {window : Bytes} (four : window.length = 4) (within : WithinRecord before r position)
    (altered : overwrite (journalOf 1 (before ++ r :: after)) position window ≠
      journalOf 1 (before ++ r :: after)) :
    ∃ rest, overwrite (journalOf 1 (before ++ r :: after)) position window =
        journalOf 1 before ++ rest ∧ RefusedAt (UInt64.ofNat before.length + 1) rest := by
  have hjournal : journalOf 1 (before ++ r :: after) = journalOf 1 before ++
      (checked (journalHeader r.1.code (UInt64.ofNat before.length + 1) r.2.length) ++
        (checked r.2 ++ journalOf (UInt64.ofNat before.length + 1 + 1) after)) := by
    rw [journalOf_append, journalOf, buildJournalRecord_append, UInt64.add_comm 1]
    simp [checked]
  generalize hseq : UInt64.ofNat before.length + 1 = sequence at *
  generalize journalOf (sequence + 1) after = tail at *
  have hheader : (checked (journalHeader r.1.code sequence r.2.length)).length = 24 := by
    simp [checked, length_journalHeader]
  have hbody : (checked r.2).length = r.2.length + 4 := by simp [checked]
  generalize hstart : (journalOf 1 before).length = start at *
  have hinside : start ≤ position := by
    rcases within with ⟨h, -⟩ | ⟨h, -⟩ <;> omega
  rw [hjournal, overwrite_append_right (hstart.trans_le hinside), hstart] at altered ⊢
  refine ⟨_, rfl, ?_⟩
  rcases within with ⟨-, hlast⟩ | ⟨hfirst, hlast⟩
  · rw [kJournalHeaderBytes] at hlast
    have hroom : position - start + window.length ≤
        (checked (journalHeader r.1.code sequence r.2.length)).length := by omega
    rw [overwrite_append_left hroom] at altered ⊢
    have hlength : (overwrite (checked (journalHeader r.1.code sequence r.2.length))
        (position - start) window).length = 24 := (length_overwrite hroom).trans hheader
    refine refusedAt_header (by rw [List.length_append, hlength]; omega) fun d => ?_
    rw [List.take_left' hlength]
    refine not_checked_overwrite four (by rw [length_journalHeader]; omega) (fun h => ?_) d
    rw [h] at altered
    exact altered rfl
  · rw [kJournalHeaderBytes] at hfirst
    rw [journalRecordBytes, kJournalHeaderBytes, kJournalTrailerBytes] at hlast
    have hafter : (checked (journalHeader r.1.code sequence r.2.length)).length ≤
        position - start := by omega
    have hroom : position - start - 24 + window.length ≤ (checked r.2).length := by omega
    rw [overwrite_append_right hafter, hheader, overwrite_append_left hroom] at altered ⊢
    have hlength : (overwrite (checked r.2) (position - start - 24) window).length =
        r.2.length + 4 := (length_overwrite hroom).trans hbody
    refine refusedAt_body fits (by rw [List.length_append, hlength]; omega) fun d => ?_
    rw [List.take_left' hlength]
    refine not_checked_overwrite four (by omega) (fun h => ?_) d
    rw [h] at altered
    exact altered rfl

/-- **A change of four consecutive bytes is caught.** The scan delivers the records before the
changed one and fails there. -/
theorem scanJournal_overwrite
    (fits : ∀ r' ∈ before ++ r :: after, r'.2.length ≤ kMaxJournalRecordPayload) {position : ℕ}
    {window : Bytes} (four : window.length = 4) (within : WithinRecord before r position)
    (altered : overwrite (journalOf 1 (before ++ r :: after)) position window ≠
      journalOf 1 (before ++ r :: after)) :
    ∃ e : Error, ∀ (σ : Type) (unknown : Bool) (visitor : σ → JournalRecordView → Result σ) (init : σ),
      scanJournal unknown visitor (overwrite (journalOf 1 (before ++ r :: after)) position window)
        init = (viewsFrom 1 before).foldlM visitor init >>= fun _ => .error e := by
  have hbefore : ∀ r' ∈ before, r'.2.length ≤ kMaxJournalRecordPayload := fun r' hr' =>
    fits r' (List.mem_append_left _ hr')
  obtain ⟨rest, hrest, e, he⟩ := overwrite_journalOf (fits r (by simp)) four within altered
  refine ⟨e, fun σ unknown visitor init => ?_⟩
  obtain ⟨fuel, hfuel, hscan⟩ := scanJournal_journalOf_append hbefore rest init
  obtain ⟨fuel, rfl⟩ : ∃ n, fuel = n + 1 := ⟨fuel - 1, by omega⟩
  rw [hrest, hscan]
  exact bind_congr fun state => he σ unknown visitor fuel _

namespace Sample

/-- The last two payload bytes of a second record and the first two of its trailer are cleared. -/
theorem scanJournal_straddling :
    ∃ e : Error, ∀ (σ : Type) (unknown : Bool) (visitor : σ → JournalRecordView → Result σ) (init : σ),
      scanJournal unknown visitor (overwrite (journalOf 1
          ([(.flowRetired, [7])] ++ (.flowCancelled, [1, 2, 3]) :: [])) 54 [0, 0, 0, 0]) init =
        (viewsFrom 1 [(.flowRetired, [7])]).foldlM visitor init >>= fun _ => .error e :=
  scanJournal_overwrite (by decide) rfl (by decide +kernel) (by decide +kernel)

end Sample

end Scan

end FlowScheduler

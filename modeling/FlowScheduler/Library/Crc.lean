import FlowScheduler.Library.Codec

/-! # Reflected cyclic redundancy checks

A register takes in one bit at a time at its low end and is reduced by a
polynomial. The register is linear in exclusive or and, when the polynomial has
its top bit set, each step can be undone. A run of bits no longer than the
register is therefore determined by the registers before and after it, and two
strings that differ only in such a run leave different registers.
-/

namespace Crc

open ByteCodec

variable {w : ℕ} (poly : BitVec w)

def shift (r : BitVec w) : BitVec w := (r >>> 1) ^^^ (if r.getLsbD 0 then poly else 0)

/-- One bit is taken in: it decides with the low bit whether the polynomial is subtracted. -/
def feedBit (r : BitVec w) (b : Bool) : BitVec w :=
  (r >>> 1) ^^^ (if (r.getLsbD 0 ^^ b) then poly else 0)

def feedBits (r : BitVec w) (bits : List Bool) : BitVec w := bits.foldl (feedBit poly) r

def bitsOf (byte : UInt8) : List Bool := (List.range 8).map byte.toBitVec.getLsbD

def bitsOfBytes (bytes : Bytes) : List Bool := bytes.flatMap bitsOf

def ofBits (w : ℕ) : List Bool → BitVec w
  | [] => 0
  | b :: bits => BitVec.ofNat w b.toNat ^^^ (ofBits w bits <<< 1)

section Linear

variable {poly}

theorem shift_xor (a b : BitVec w) : shift poly (a ^^^ b) = shift poly a ^^^ shift poly b := by
  unfold shift
  rw [BitVec.getLsbD_xor, BitVec.ushiftRight_xor_distrib]
  have hcancel : a >>> 1 ^^^ poly ^^^ (b >>> 1 ^^^ poly) = a >>> 1 ^^^ b >>> 1 := by
    rw [BitVec.xor_comm (b >>> 1), BitVec.xor_assoc, ← BitVec.xor_assoc poly, BitVec.xor_self,
      BitVec.zero_xor]
  cases a.getLsbD 0 <;> cases b.getLsbD 0
  · simp
  · simp [BitVec.xor_assoc]
  · simp [BitVec.xor_assoc, BitVec.xor_comm poly]
  · simpa using hcancel.symm

theorem shifts_xor (n : ℕ) (a b : BitVec w) :
    (shift poly)^[n] (a ^^^ b) = (shift poly)^[n] a ^^^ (shift poly)^[n] b := by
  induction n generalizing a b with
  | zero => rfl
  | succ n ih => simp only [Function.iterate_succ_apply, shift_xor, ih]

theorem shifts_of_clear {r : BitVec w} {n : ℕ} (clear : ∀ i < n, r.getLsbD i = false) :
    (shift poly)^[n] r = r >>> n := by
  induction n with
  | zero => simp
  | succ n ih =>
    have hlow : (r >>> n).getLsbD 0 = false := by simpa using clear n (by omega)
    rw [Function.iterate_succ_apply', ih fun i hi => clear i (by omega)]
    simp [shift, hlow, BitVec.shiftRight_add]

theorem shifts_split (r : BitVec w) (n : ℕ) :
    (shift poly)^[n] r = (shift poly)^[n] (r &&& BitVec.ofNat w (2 ^ n - 1)) ^^^ (r >>> n) := by
  have hmask : ∀ i, (BitVec.ofNat w (2 ^ n - 1)).getLsbD i = (decide (i < w) && decide (i < n)) := by
    intro i
    rw [BitVec.getLsbD_ofNat, Nat.testBit_two_pow_sub_one]
  have hsplit : r = (r &&& BitVec.ofNat w (2 ^ n - 1)) ^^^ (r &&& ~~~BitVec.ofNat w (2 ^ n - 1)) := by
    ext i
    simp only [BitVec.getElem_xor, BitVec.getElem_and, BitVec.getElem_not]
    cases r[i] <;> cases (BitVec.ofNat w (2 ^ n - 1))[i] <;> rfl
  have hclear : ∀ i < n, (r &&& ~~~BitVec.ofNat w (2 ^ n - 1)).getLsbD i = false := by
    intro i hi
    by_cases hw : i < w <;> simp [hmask, hi, hw]
  have hdown : (r &&& ~~~BitVec.ofNat w (2 ^ n - 1)) >>> n = r >>> n := by
    ext i hi
    by_cases hw : n + i < w
    · simp [← BitVec.getLsbD_eq_getElem, hmask, hw]
    · simp [← BitVec.getLsbD_eq_getElem, BitVec.getLsbD_of_ge r (n + i) (by omega)]
  conv_lhs => rw [hsplit]
  rw [shifts_xor, shifts_of_clear hclear, hdown]

end Linear

section Invertible

variable {poly}

/-- With the top bit of the polynomial set, the top bit of the result tells whether it was
subtracted. -/
theorem shift_injective (top : poly.msb = true) : Function.Injective (shift poly) := by
  intro a b h
  have hzero : shift poly (a ^^^ b) = 0 := by simp [shift_xor, h]
  have hw : 0 < w := by
    rcases Nat.eq_zero_or_pos w with rfl | hw
    · simp [BitVec.msb, BitVec.getMsbD] at top
    · exact hw
  rw [← BitVec.xor_eq_zero_iff]
  generalize a ^^^ b = d at hzero
  have hlow : d.getLsbD 0 = false := by
    by_contra hlow
    have hmsb := congrArg BitVec.msb hzero
    simp [shift, Bool.eq_true_of_not_eq_false hlow, top, BitVec.msb_ushiftRight] at hmsb
  have hhigh : d >>> 1 = 0 := by simpa [shift, hlow] using hzero
  ext i hi
  rw [← BitVec.getLsbD_eq_getElem]
  cases i with
  | zero => simp [hlow]
  | succ i =>
    have hbit := congrArg (fun r : BitVec w => r.getLsbD i) hhigh
    simpa [BitVec.getLsbD_ushiftRight, Nat.add_comm] using hbit

theorem shifts_injective (top : poly.msb = true) (n : ℕ) :
    Function.Injective ((shift poly)^[n]) := (shift_injective top).iterate n

end Invertible

section Feeding

variable {poly}

theorem getLsbD_bit (b : Bool) (i : ℕ) :
    (BitVec.ofNat w b.toNat).getLsbD i = (decide (i < w) && (decide (i = 0) && b)) := by
  cases b
  · simp
  · cases i <;> simp

theorem getLsbD_ofBits (bits : List Bool) (i : ℕ) :
    (ofBits w bits).getLsbD i = (decide (i < w) && bits.getD i false) := by
  induction bits generalizing i with
  | nil => simp [ofBits]
  | cons b bits ih =>
    rw [ofBits, BitVec.getLsbD_xor, getLsbD_bit, BitVec.getLsbD_shiftLeft, ih]
    cases i with
    | zero => simp
    | succ i =>
      by_cases hi : i + 1 < w
      · simp [hi, show i < w by omega]
      · simp [hi]

theorem ofBits_injective {x y : List Bool} (hlen : x.length = y.length) (room : x.length ≤ w)
    (h : ofBits w x = ofBits w y) : x = y := by
  refine List.ext_getElem hlen fun i hx hy => ?_
  have hbit := congrArg (fun r : BitVec w => r.getLsbD i) h
  simp only [getLsbD_ofBits, hx.trans_le room] at hbit
  simpa [hx, hy] using hbit

theorem feedBit_eq (r : BitVec w) (b : Bool) :
    feedBit poly r b = shift poly (r ^^^ BitVec.ofNat w b.toNat) := by
  have hdown : BitVec.ofNat w b.toNat >>> 1 = 0 := by
    ext i hi
    rw [← BitVec.getLsbD_eq_getElem, BitVec.getLsbD_ushiftRight, getLsbD_bit]
    simp
  rw [feedBit, shift, BitVec.getLsbD_xor, getLsbD_bit, BitVec.ushiftRight_xor_distrib, hdown]
  rcases Nat.eq_zero_or_pos w with rfl | hw
  · exact Subsingleton.elim _ _
  · simp [hw]

/-- Bits are taken in as one word, as long as the register has room for them. -/
theorem feedBits_eq {bits : List Bool} (room : bits.length ≤ w) (r : BitVec w) :
    feedBits poly r bits = (shift poly)^[bits.length] (r ^^^ ofBits w bits) := by
  induction bits generalizing r with
  | nil => simp [feedBits, ofBits]
  | cons b bits ih =>
    have room : bits.length < w := room
    have hback : shift poly (ofBits w bits <<< 1) = ofBits w bits := by
      have hclear : ∀ i < 1, (ofBits w bits <<< 1).getLsbD i = false := by
        intro i hi
        simp [show i = 0 by omega]
      rw [show shift poly = (shift poly)^[1] from rfl, shifts_of_clear hclear]
      ext i hi
      rw [← BitVec.getLsbD_eq_getElem, ← BitVec.getLsbD_eq_getElem, BitVec.getLsbD_ushiftRight,
        BitVec.getLsbD_shiftLeft, getLsbD_ofBits, getLsbD_ofBits]
      by_cases hlast : 1 + i < w
      · simp [hlast, hi]
      · simp [hlast, List.getElem?_eq_none (show bits.length ≤ i by omega)]
    calc feedBits poly r (b :: bits)
        = feedBits poly (feedBit poly r b) bits := rfl
      _ = (shift poly)^[bits.length] (feedBit poly r b ^^^ ofBits w bits) := ih room.le _
      _ = (shift poly)^[bits.length + 1] (r ^^^ ofBits w (b :: bits)) := by
        rw [Function.iterate_succ_apply, ofBits, ← BitVec.xor_assoc, shift_xor, hback, feedBit_eq]

theorem feedBits_append (r : BitVec w) (x y : List Bool) :
    feedBits poly r (x ++ y) = feedBits poly (feedBits poly r x) y := List.foldl_append

theorem feedBits_injective (top : poly.msb = true) (bits : List Bool) :
    Function.Injective fun r => feedBits poly r bits := by
  induction bits with
  | nil => exact fun _ _ h => h
  | cons b bits ih =>
    intro r r' h
    have hstep : feedBit poly r b = feedBit poly r' b := ih h
    rw [feedBit_eq, feedBit_eq] at hstep
    exact BitVec.xor_left_inj _ |>.mp (shift_injective top hstep)

/-- Two strings that differ only in a run no longer than the register leave different registers. -/
theorem burst (top : poly.msb = true) {r : BitVec w} {before x y after : List Bool}
    (hlen : x.length = y.length) (room : x.length ≤ w)
    (h : feedBits poly r (before ++ x ++ after) = feedBits poly r (before ++ y ++ after)) :
    x = y := by
  simp only [feedBits_append] at h
  have hword : feedBits poly (feedBits poly r before) x = feedBits poly (feedBits poly r before) y :=
    feedBits_injective top after h
  generalize feedBits poly r before = start at hword
  rw [feedBits_eq room, feedBits_eq (hlen.symm.trans_le room), hlen] at hword
  have hxor := shifts_injective top _ hword
  exact ofBits_injective hlen room (BitVec.xor_right_inj _ |>.mp hxor)

end Feeding

section Bytes

variable {poly}

@[simp] theorem length_bitsOf (byte : UInt8) : (bitsOf byte).length = 8 := by simp [bitsOf]

@[simp] theorem length_bitsOfBytes (bytes : Bytes) :
    (bitsOfBytes bytes).length = 8 * bytes.length := by
  induction bytes with
  | nil => rfl
  | cons byte bytes ih =>
    simp only [bitsOfBytes, List.flatMap_cons, List.length_append, length_bitsOf,
      List.length_cons] at ih ⊢
    omega

@[simp] theorem bitsOfBytes_append (x y : Bytes) :
    bitsOfBytes (x ++ y) = bitsOfBytes x ++ bitsOfBytes y := List.flatMap_append

theorem getD_bitsOf (byte : UInt8) (i : ℕ) :
    (bitsOf byte).getD i false = byte.toBitVec.getLsbD i := by
  by_cases hi : i < 8
  · rw [List.getD_eq_getElem _ _ (by simpa using hi)]
    simp only [bitsOf, List.getElem_map, List.getElem_range]
  · rw [List.getD_eq_default _ _ (by simpa using hi), BitVec.getLsbD_of_ge _ i (by omega)]

theorem bitsOf_injective : Function.Injective bitsOf := by
  intro a b h
  refine UInt8.toBitVec_inj.mp (BitVec.eq_of_getLsbD_eq fun i _ => ?_)
  rw [← getD_bitsOf, ← getD_bitsOf, h]

theorem bitsOfBytes_injective {x y : Bytes} (hlen : x.length = y.length)
    (h : bitsOfBytes x = bitsOfBytes y) : x = y := by
  induction x generalizing y with
  | nil => exact (List.length_eq_zero_iff.mp hlen.symm).symm
  | cons a x ih =>
    cases y with
    | nil => cases hlen
    | cons b y =>
      obtain ⟨hfirst, hrest⟩ := List.append_inj h (by simp)
      rw [bitsOf_injective hfirst, ih (Nat.succ.inj hlen) hrest]

theorem ofBits_bitsOf (byte : UInt8) : ofBits w (bitsOf byte) = byte.toBitVec.setWidth w := by
  refine BitVec.eq_of_getLsbD_eq fun i hi => ?_
  rw [getLsbD_ofBits, getD_bitsOf, BitVec.getLsbD_setWidth]

theorem getD_bitsOfBytes_littleEndian (k n i : ℕ) :
    (bitsOfBytes (littleEndian k n)).getD i false = (decide (i < 8 * k) && n.testBit i) := by
  induction k generalizing n i with
  | zero => simp [littleEndian, bitsOfBytes]
  | succ k ih =>
    have hcons : bitsOfBytes (littleEndian (k + 1) n) =
        bitsOf (UInt8.ofNat n) ++ bitsOfBytes (littleEndian k (n / 256)) := rfl
    rw [hcons]
    by_cases hi : i < 8
    · rw [List.getD_append _ _ _ _ (by simpa using hi), getD_bitsOf]
      have hbit : (UInt8.ofNat n).toBitVec.getLsbD i = n.testBit i := by
        rw [UInt8.toBitVec_ofNat', BitVec.getLsbD_ofNat]
        simp [hi]
      simp [hbit, show i < 8 * (k + 1) by omega]
    · obtain ⟨j, rfl⟩ : ∃ j, i = 8 + j := ⟨i - 8, by omega⟩
      rw [List.getD_append_right _ _ _ _ (by simp), length_bitsOf, Nat.add_sub_cancel_left, ih,
        show n / 256 = n / 2 ^ 8 from rfl, Nat.testBit_div_two_pow]
      have hroom : 8 + j < 8 * (k + 1) ↔ j < 8 * k := by omega
      rw [Nat.add_comm j 8, decide_eq_decide.mpr hroom]

theorem ofBits_littleEndian {k : ℕ} (hk : 8 * k = w) (c : BitVec w) :
    ofBits w (bitsOfBytes (littleEndian k c.toNat)) = c := by
  refine BitVec.eq_of_getLsbD_eq fun i hi => ?_
  rw [getLsbD_ofBits, getD_bitsOfBytes_littleEndian, hk]
  simp [hi, BitVec.testBit_toNat]

/-- A string together with its checksum, low byte first. -/
def withChecksum (poly : BitVec w) (init out : BitVec w) (k : ℕ) (data : Bytes) : Bytes :=
  data ++ littleEndian k (feedBits poly init (bitsOfBytes data) ^^^ out).toNat

theorem feedBits_withChecksum {k : ℕ} (hk : 8 * k = w) (init out : BitVec w) (data : Bytes) :
    feedBits poly init (bitsOfBytes (withChecksum poly init out k data)) = (shift poly)^[w] out := by
  have hroom : (bitsOfBytes (littleEndian k
      (feedBits poly init (bitsOfBytes data) ^^^ out).toNat)).length = w := by simp [hk]
  rw [withChecksum, bitsOfBytes_append, feedBits_append, feedBits_eq hroom.le, hroom,
    ofBits_littleEndian hk, ← BitVec.xor_assoc, BitVec.xor_self, BitVec.zero_xor]

/-- **Bursts are detected**: of the strings that differ only in some consecutive bytes, no more than
a checksum has, at most one ends with its checksum. -/
theorem eq_of_burst (top : poly.msb = true) {k : ℕ} (hk : 8 * k = w) {init out : BitVec w}
    {data data' before x y after : Bytes} (hlen : x.length = y.length) (room : x.length ≤ k)
    (h : withChecksum poly init out k data = before ++ x ++ after)
    (h' : withChecksum poly init out k data' = before ++ y ++ after) : x = y := by
  have hsame := (@feedBits_withChecksum w poly k hk init out data).trans
    (feedBits_withChecksum hk init out data').symm
  rw [h, h'] at hsame
  simp only [bitsOfBytes_append] at hsame
  refine bitsOfBytes_injective hlen (burst top (by simp [hlen]) ?_ hsame)
  rw [length_bitsOfBytes]
  omega

end Bytes

end Crc

import Mathlib

/-! # Byte codecs

Little-endian integers, bounded writers and decoders over byte strings. A
decoder reads a prefix and leaves the rest; `Reads` states that it recovers a
value from an encoding whatever follows it.
-/

namespace ByteCodec

abbrev Bytes := List UInt8

/-- The `width` low bytes of a number, least significant first. -/
def littleEndian : ℕ → ℕ → Bytes
  | 0, _ => []
  | width + 1, n => UInt8.ofNat n :: littleEndian width (n / 256)

def fromLittleEndian : Bytes → ℕ
  | [] => 0
  | b :: bs => b.toNat + 256 * fromLittleEndian bs

@[simp] theorem length_littleEndian (width n : ℕ) : (littleEndian width n).length = width := by
  induction width generalizing n with
  | zero => rfl
  | succ width ih => simp [littleEndian, ih]

theorem fromLittleEndian_littleEndian (width n : ℕ) (h : n < 256 ^ width) :
    fromLittleEndian (littleEndian width n) = n := by
  induction width generalizing n with
  | zero => simp_all [littleEndian, fromLittleEndian]
  | succ width ih =>
    have hdiv : n / 256 < 256 ^ width := by
      rw [Nat.div_lt_iff_lt_mul (by norm_num)]
      simpa [pow_succ] using h
    have hlow : (UInt8.ofNat n).toNat = n % 256 := by simp
    simp only [littleEndian, fromLittleEndian, ih _ hdiv, hlow]
    omega

theorem fromLittleEndian_lt (bs : Bytes) : fromLittleEndian bs < 256 ^ bs.length := by
  induction bs with
  | nil => simp [fromLittleEndian]
  | cons b bs ih =>
    have := b.toNat_lt
    rw [fromLittleEndian, List.length_cons, pow_succ]
    omega

theorem littleEndian_fromLittleEndian (bs : Bytes) :
    littleEndian bs.length (fromLittleEndian bs) = bs := by
  induction bs with
  | nil => rfl
  | cons b bs ih =>
    have hlow : UInt8.ofNat (b.toNat + 256 * fromLittleEndian bs) = b := by
      apply UInt8.toNat_inj.mp
      have := b.toNat_lt
      simp
    have hhigh : (b.toNat + 256 * fromLittleEndian bs) / 256 = fromLittleEndian bs := by
      have := b.toNat_lt
      omega
    rw [List.length_cons, fromLittleEndian, littleEndian, hlow, hhigh, ih]

/-- An encoding is the sequence of writes that produces it. -/
abbrev Encoding := List Bytes

/-- A buffer that refuses every write once one would exceed its limit. -/
structure Writer where
  buffer : Bytes := []
  limit : ℕ
  overflowed : Bool := false

namespace Writer

def put (w : Writer) (chunk : Bytes) : Writer :=
  if w.overflowed ∨ w.limit < w.buffer.length + chunk.length then { w with overflowed := true }
  else { w with buffer := w.buffer ++ chunk }

def putAll (w : Writer) (e : Encoding) : Writer := e.foldl put w

@[simp] theorem putAll_nil (w : Writer) : w.putAll [] = w := rfl

@[simp] theorem putAll_cons (w : Writer) (c : Bytes) (e : Encoding) :
    w.putAll (c :: e) = (w.put c).putAll e := rfl

theorem putAll_of_overflowed {w : Writer} (h : w.overflowed = true) (e : Encoding) :
    w.putAll e = w := by
  induction e with
  | nil => rfl
  | cons c e ih =>
    have hput : w.put c = w := by cases w; simp_all [put]
    rw [putAll_cons, hput, ih]

theorem put_of_fits {w : Writer} {c : Bytes} (hw : w.overflowed = false)
    (h : w.buffer.length + c.length ≤ w.limit) : w.put c = { w with buffer := w.buffer ++ c } := by
  simp [put, hw, h]

theorem putAll_of_fits {w : Writer} {e : Encoding} (hw : w.overflowed = false)
    (h : w.buffer.length + e.flatten.length ≤ w.limit) :
    w.putAll e = { w with buffer := w.buffer ++ e.flatten } := by
  induction e generalizing w with
  | nil => simp
  | cons c e ih =>
    simp only [List.flatten_cons, List.length_append] at h
    have htail : (w.buffer ++ c).length + e.flatten.length ≤ w.limit := by
      rw [List.length_append]; omega
    rw [putAll_cons, put_of_fits hw (by omega), ih (by simpa using hw) htail]
    simp

theorem overflowed_putAll {w : Writer} {e : Encoding} (hw : w.overflowed = false)
    (hb : w.buffer.length ≤ w.limit) :
    (w.putAll e).overflowed = false ↔ w.buffer.length + e.flatten.length ≤ w.limit := by
  refine ⟨fun h => ?_, fun h => by rw [putAll_of_fits hw h]; exact hw⟩
  induction e generalizing w with
  | nil => simpa using hb
  | cons c e ih =>
    rw [putAll_cons] at h
    by_cases hc : w.buffer.length + c.length ≤ w.limit
    · rw [put_of_fits hw hc] at h
      have htail := ih (w := { w with buffer := w.buffer ++ c }) hw (by simpa using hc) h
      simp only [List.length_append] at htail
      simp only [List.flatten_cons, List.length_append]
      omega
    · have hover : (w.put c).overflowed = true := by
        have hc' : w.limit < w.buffer.length + c.length := by omega
        simp [put, hc']
      rw [putAll_of_overflowed hover, hover] at h
      cases h

/-- A writer that has refused a write had less room left than that write asked for. -/
theorem limit_lt_of_overflowed {w : Writer} {e : Encoding} {n : ℕ} (hw : w.overflowed = false)
    (small : ∀ c ∈ e, c.length ≤ n) (h : (w.putAll e).overflowed = true) :
    w.limit < (w.putAll e).buffer.length + n := by
  induction e generalizing w with
  | nil =>
    rw [putAll_nil, hw] at h
    cases h
  | cons c e ih =>
    rw [putAll_cons] at h ⊢
    by_cases hc : w.buffer.length + c.length ≤ w.limit
    · rw [put_of_fits hw hc] at h ⊢
      exact ih (w := { w with buffer := w.buffer ++ c }) hw
        (fun d hd => small d (List.mem_cons_of_mem _ hd)) h
    · have hput : w.put c = { w with overflowed := true } := by
        have hc' : w.limit < w.buffer.length + c.length := by omega
        simp [put, hc']
      rw [hput, putAll_of_overflowed rfl]
      have := small c List.mem_cons_self
      dsimp only
      omega

/-- A buffer well below the limit of its writer holds everything that was written. -/
theorem buffer_putAll {limit n bound : ℕ} {e : Encoding} (small : ∀ c ∈ e, c.length ≤ n)
    (room : bound + n ≤ limit) (h : (putAll { limit } e).buffer.length ≤ bound) :
    (putAll { limit } e).buffer = e.flatten := by
  have hover : (putAll { limit } e).overflowed = false := by
    by_contra hne
    have := limit_lt_of_overflowed rfl small (Bool.not_eq_false _ ▸ hne)
    dsimp only at this
    omega
  have hfits := (overflowed_putAll rfl (Nat.zero_le _)).mp hover
  rw [putAll_of_fits rfl hfits]
  rfl

end Writer

/-- A decoder consumes a prefix of its input or fails. -/
abbrev Decoder (ε : Type) := StateT Bytes (Except ε)

section Decoding

variable {ε α β : Type}

/-- The decoder recovers the value from the encoding, whatever follows it. -/
def Reads (r : Decoder ε α) (e : Encoding) (a : α) : Prop :=
  ∀ rest, r.run (e.flatten ++ rest) = .ok (a, rest)

theorem Reads.pure (a : α) : Reads (Pure.pure a : Decoder ε α) [] a := fun _ => rfl

theorem Reads.bind {r : Decoder ε α} {k : α → Decoder ε β} {d e : Encoding} {a : α} {b : β}
    (h : Reads r d a) (h' : Reads (k a) e b) : Reads (r >>= k) (d ++ e) b := by
  intro rest
  have hrun := h (e.flatten ++ rest)
  rw [StateT.run_bind, List.flatten_append, List.append_assoc, hrun]
  exact h' rest

theorem Reads.bind_iff {r : Decoder ε α} {k : α → Decoder ε β} {d e : Encoding} {a : α} {b : β}
    (h : Reads r d a) : Reads (r >>= k) (d ++ e) b ↔ Reads (k a) e b := by
  refine ⟨fun h' rest => ?_, h.bind⟩
  have := h' rest
  rwa [StateT.run_bind, List.flatten_append, List.append_assoc, h (e.flatten ++ rest)] at this

theorem Reads.run_bind {r : Decoder ε α} {e : Encoding} {a : α} (h : Reads r e a)
    (k : α → Decoder ε β) (rest : Bytes) : (r >>= k).run (e.flatten ++ rest) = (k a).run rest := by
  rw [StateT.run_bind, h rest]
  rfl

def Exhausts (r : Decoder ε α) (e : Encoding) (a : α) : Prop := r.run e.flatten = .ok (a, [])

theorem Exhausts.pure (a : α) : Exhausts (Pure.pure a : Decoder ε α) [] a := rfl

theorem Exhausts.bind_iff {r : Decoder ε α} {k : α → Decoder ε β} {d e : Encoding} {a : α} {b : β}
    (h : Reads r d a) : Exhausts (r >>= k) (d ++ e) b ↔ Exhausts (k a) e b := by
  rw [Exhausts, List.flatten_append, h.run_bind]
  exact Iff.rfl

def replicateDecoder (r : Decoder ε α) : ℕ → Decoder ε (List α)
  | 0 => Pure.pure []
  | n + 1 => do
    let a ← r
    let as ← replicateDecoder r n
    return a :: as

theorem Reads.replicate {r : Decoder ε α} {enc : α → Encoding} {as : List α}
    (h : ∀ a ∈ as, Reads r (enc a) a) :
    Reads (replicateDecoder r as.length) (as.flatMap enc) as := by
  induction as with
  | nil => exact Reads.pure []
  | cons a as ih =>
    have htail := ih fun b hb => h b (List.mem_cons_of_mem _ hb)
    have hcons : Reads (Pure.pure (a :: as) : Decoder ε (List α)) [] (a :: as) := Reads.pure _
    have hrest := htail.bind (k := fun as => Pure.pure (a :: as)) hcons
    rw [List.append_nil] at hrest
    rw [List.flatMap_cons]
    exact (h a List.mem_cons_self).bind hrest

/-- The decoder, if it accepts the encoding, recovers the value, whatever follows it. -/
def Recovers (r : Decoder ε α) (e : Encoding) (a : α) : Prop :=
  ∀ rest b rest', r.run (e.flatten ++ rest) = .ok (b, rest') → b = a ∧ rest' = rest

namespace Recovers

variable {r : Decoder ε α} {k : α → Decoder ε β} {d e : Encoding} {a : α} {b : β}

theorem of_reads (h : Reads r e a) : Recovers r e a := by
  intro rest b rest' hb
  rw [h rest] at hb
  cases hb
  exact ⟨rfl, rfl⟩

theorem bind (h : Recovers r d a) (h' : Recovers (k a) e b) : Recovers (r >>= k) (d ++ e) b := by
  intro rest c rest' hc
  rw [StateT.run_bind, List.flatten_append, List.append_assoc] at hc
  cases hr : r.run (d.flatten ++ (e.flatten ++ rest)) with
  | error x =>
    rw [hr] at hc
    cases hc
  | ok p =>
    rw [hr] at hc
    obtain ⟨ha, hrest⟩ := h _ p.1 p.2 hr
    refine h' rest c rest' ?_
    rw [← ha, ← hrest]
    exact hc

theorem after_reads (h : Reads r d a) : Recovers (r >>= k) (d ++ e) b ↔ Recovers (k a) e b := by
  refine ⟨fun h' rest c rest' hc => ?_, (of_reads h).bind⟩
  refine h' rest c rest' ?_
  rw [StateT.run_bind, List.flatten_append, List.append_assoc, h (e.flatten ++ rest)]
  exact hc

theorem skip {check : Decoder ε α} (neutral : ∀ data c rest, check.run data = .ok (c, rest) →
    c = a ∧ rest = data) (h : Recovers (k a) e b) : Recovers (check >>= k) e b := by
  have hcheck : Recovers check [] a := by
    intro rest c rest' hc
    exact neutral _ c rest' hc
  exact hcheck.bind h

theorem replicate {γ : Type} {enc : γ → Encoding} {f : γ → α} {xs : List γ}
    (h : ∀ x ∈ xs, Recovers r (enc x) (f x)) :
    Recovers (replicateDecoder r xs.length) (xs.flatMap enc) (xs.map f) := by
  induction xs with
  | nil => exact of_reads (Reads.pure [])
  | cons x xs ih =>
    have htail := ih fun y hy => h y (List.mem_cons_of_mem _ hy)
    have hcons : Recovers (Pure.pure (f x :: xs.map f) : Decoder ε (List α)) []
        (f x :: xs.map f) := of_reads (Reads.pure _)
    have hrest := htail.bind (k := fun as => Pure.pure (f x :: as)) hcons
    rw [List.append_nil] at hrest
    rw [List.flatMap_cons]
    exact (h x List.mem_cons_self).bind hrest

end Recovers

def Yields (r : Decoder ε α) (P : α → Prop) : Prop :=
  ∀ data a rest, r.run data = .ok (a, rest) → P a

namespace Yields

variable {r : Decoder ε α} {P : α → Prop} {Q : β → Prop}

theorem any : Yields r fun _ => True := fun _ _ _ _ => trivial

theorem pure {a : α} (h : P a) : Yields (Pure.pure a : Decoder ε α) P := by
  rintro data b rest hb
  cases hb
  exact h

theorem lift {x : Except ε α} : Yields (liftM x : Decoder ε α) fun a => x = .ok a := by
  rintro data b rest hb
  cases x with
  | error e => cases hb
  | ok a =>
    cases hb
    rfl

theorem bind {k : α → Decoder ε β} (h : Yields r P) (next : ∀ a, P a → Yields (k a) Q) :
    Yields (r >>= k) Q := by
  intro data b rest hb
  rw [StateT.run_bind] at hb
  cases hr : r.run data with
  | error e =>
    rw [hr] at hb
    cases hb
  | ok p =>
    rw [hr] at hb
    exact next p.1 (h data p.1 p.2 hr) p.2 b rest hb

theorem skip {k : α → Decoder ε β} (next : ∀ a, Yields (k a) Q) : Yields (r >>= k) Q :=
  any.bind fun a _ => next a

theorem replicate (h : Yields r P) (n : ℕ) :
    Yields (replicateDecoder r n) fun as => as.length = n ∧ ∀ a ∈ as, P a := by
  induction n with
  | zero => exact pure ⟨rfl, fun _ ha => nomatch ha⟩
  | succ n ih =>
    refine h.bind fun a ha => ih.bind fun as has => pure ⟨by simp [has.1], ?_⟩
    rintro b (_ | ⟨_, hb⟩)
    · exact ha
    · exact has.2 b hb

end Yields

/-- Whatever the decoder accepts it has read off the front of its input: the property relates the
value to the bytes that were consumed. -/
def Spells (r : Decoder ε α) (P : α → Bytes → Prop) : Prop :=
  ∀ data a rest, r.run data = .ok (a, rest) → ∃ used, data = used ++ rest ∧ P a used

namespace Spells

variable {r : Decoder ε α} {P : α → Bytes → Prop} {Q : β → Bytes → Prop}

theorem pure {a : α} (h : P a []) : Spells (Pure.pure a : Decoder ε α) P := by
  rintro data b rest hb
  cases hb
  exact ⟨[], rfl, h⟩

theorem bind {k : α → Decoder ε β} (h : Spells r P)
    (next : ∀ a used, P a used → Spells (k a) fun b more => Q b (used ++ more)) :
    Spells (r >>= k) Q := by
  intro data b rest hb
  rw [StateT.run_bind] at hb
  cases hr : r.run data with
  | error e =>
    rw [hr] at hb
    cases hb
  | ok p =>
    rw [hr] at hb
    obtain ⟨used, rfl, hP⟩ := h data p.1 p.2 hr
    obtain ⟨more, hmore, hQ⟩ := next p.1 used hP p.2 b rest hb
    exact ⟨used ++ more, by rw [hmore, List.append_assoc], hQ⟩

theorem field {k : α → Decoder ε β} {spelling : α → Bytes}
    (h : Spells r fun a used => used = spelling a)
    (next : ∀ a, Spells (k a) fun b more => Q b (spelling a ++ more)) : Spells (r >>= k) Q := by
  refine h.bind ?_
  rintro a _ rfl
  exact next a

theorem check {k : α → Decoder ε β} {p : Prop} (h : Spells r fun _ used => p ∧ used = [])
    (next : ∀ a, p → Spells (k a) Q) : Spells (r >>= k) Q := by
  refine h.bind ?_
  rintro a _ ⟨hp, rfl⟩
  exact next a hp

theorem get : Spells (MonadState.get : Decoder ε Bytes) fun _ used => used = [] := by
  rintro data b rest hb
  cases hb
  exact ⟨[], rfl, rfl⟩

end Spells

/-- Whatever the decoder accepts it reads to the end. -/
def Drains (r : Decoder ε α) : Prop := ∀ data a rest, r.run data = .ok (a, rest) → rest = []

theorem Drains.after {r : Decoder ε α} {k : α → Decoder ε β} (h : ∀ a, Drains (k a)) :
    Drains (r >>= k) := by
  intro data b rest hb
  rw [StateT.run_bind] at hb
  cases hr : r.run data with
  | error e =>
    rw [hr] at hb
    cases hb
  | ok p =>
    rw [hr] at hb
    exact h p.1 p.2 b rest hb

theorem Drains.bind {r : Decoder ε α} {k : α → Decoder ε β} (h : Drains r)
    (next : ∀ a, Spells (k a) fun _ _ => True) : Drains (r >>= k) := by
  intro data b rest hb
  rw [StateT.run_bind] at hb
  cases hr : r.run data with
  | error e =>
    rw [hr] at hb
    cases hb
  | ok p =>
    rw [hr] at hb
    obtain ⟨used, hused, -⟩ := next p.1 p.2 b rest hb
    rw [h data p.1 p.2 hr] at hused
    exact (List.append_eq_nil_iff.mp hused.symm).2

end Decoding

end ByteCodec

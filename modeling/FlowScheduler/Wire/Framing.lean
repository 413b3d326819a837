import FlowScheduler.Durable.Torn

/-! # Frames

A message travels in a frame: a header with its own checksum, the payload and the
checksum of the payload. The decoder accepts exactly what the encoder writes, so
every message has one frame.
-/

namespace FlowScheduler

open ByteCodec

def kMaxMessageType : UInt16 := 1024
def kFrameMagic : UInt32 := 0x31435346
def kProtocolVersion : UInt16 := 1
def kFrameHeaderBytes : ℕ := 20
def kFrameTrailerBytes : ℕ := 4
def kFrameOverhead : ℕ := kFrameHeaderBytes + kFrameTrailerBytes
def kMaxFramePayload : ℕ := 1048576

structure FrameHeader where
  version : UInt16 := 0
  type : UInt16 := 0
  flags : UInt32 := 0
  payloadLength : UInt32 := 0
  deriving DecidableEq, Repr

open RecordWriter in
/-- The first sixteen header bytes, the ones its checksum covers. -/
def frameHeader (type : UInt16) (flags : UInt32) (payloadLength : ℕ) : Bytes :=
  u32 kFrameMagic ++ u16 kProtocolVersion ++ u16 type ++ u32 flags ++ littleEndian 4 payloadLength

def buildFrame (type : UInt16) (payload : Bytes) (flags : UInt32) : Bytes :=
  let header := frameHeader type flags payload.length
  header ++ RecordWriter.u32 (crc32c header) ++ payload ++ RecordWriter.u32 (crc32c payload)

def encodeFrame (type : UInt16) (payload : Bytes) (flags : UInt32 := 0) : Result Bytes := do
  refuseIf (kMaxFramePayload < payload.length) .oversized
    "frame payload exceeds kMaxFramePayload"
  refuseIf (type = 0 ∨ kMaxMessageType < type) .invalidArgument
    "frame message type is outside the permitted range"
  return buildFrame type payload flags

/-- Validate a candidate frame and split its payload off. Bytes after the frame are not looked at. -/
def decodeFrame (buffer : Bytes) : Result (FrameHeader × Bytes) := do
  refuseIf (buffer.length < kFrameOverhead) .truncated "frame shorter than the minimum frame size"
  refuseIf (field buffer 0 4 ≠ kFrameMagic.toNat) .protocolViolation "frame magic mismatch"
  let header : FrameHeader :=
    { version := UInt16.ofNat (field buffer 4 2)
      type := UInt16.ofNat (field buffer 6 2)
      flags := UInt32.ofNat (field buffer 8 4)
      payloadLength := UInt32.ofNat (field buffer 12 4) }
  refuseIf (header.version ≠ kProtocolVersion) .unsupported
    "frame protocol version is not supported"
  refuseIf (header.flags ≠ 0) .protocolViolation "frame flags must be zero"
  refuseIf (header.type = 0 ∨ kMaxMessageType < header.type) .protocolViolation
    "frame message type is outside the permitted range"
  refuseIf (kMaxFramePayload < header.payloadLength.toNat) .oversized
    "frame payload exceeds kMaxFramePayload"
  refuseIf (field buffer 16 4 ≠ (crc32c (buffer.take 16)).toNat) .corruptData
    "frame header checksum mismatch"
  let total := kFrameOverhead + header.payloadLength.toNat
  refuseIf (buffer.length < total) .truncated "frame body is incomplete"
  let payload := (buffer.drop kFrameHeaderBytes).take header.payloadLength.toNat
  refuseIf (field buffer (kFrameHeaderBytes + header.payloadLength.toNat) 4 ≠
      (crc32c payload).toNat) .corruptData
    "frame payload checksum mismatch"
  return (header, payload)

section Layout

variable {type : UInt16} {payload : Bytes} {flags : UInt32} {rest : Bytes}

theorem length_frameHeader (n : ℕ) : (frameHeader type flags n).length = 16 := by
  simp [frameHeader, RecordWriter.u32, RecordWriter.u16]

theorem buildFrame_append : buildFrame type payload flags ++ rest =
    frameHeader type flags payload.length ++
      (littleEndian 4 (crc32c (frameHeader type flags payload.length)).toNat ++
        (payload ++ (littleEndian 4 (crc32c payload).toNat ++ rest))) := by
  simp [buildFrame, RecordWriter.u32]

theorem length_buildFrame :
    (buildFrame type payload flags).length = kFrameOverhead + payload.length := by
  have h := congrArg List.length
    (buildFrame_append : buildFrame type payload flags ++ [] = _)
  simp only [List.append_nil, List.length_append, length_frameHeader, length_littleEndian] at h
  rw [h, kFrameOverhead, kFrameHeaderBytes, kFrameTrailerBytes]
  omega

theorem field_frameHeader (fits : payload.length ≤ kMaxFramePayload) {buffer : Bytes}
    (h : buffer.take 20 = (buildFrame type payload flags).take 20) :
    field buffer 0 4 = kFrameMagic.toNat ∧ field buffer 4 2 = kProtocolVersion.toNat ∧
    field buffer 6 2 = type.toNat ∧ field buffer 8 4 = flags.toNat ∧
    field buffer 12 4 = payload.length ∧
    field buffer 16 4 = (crc32c (buffer.take 16)).toNat := by
  have hframe : buildFrame type payload flags ++ [] = _ := buildFrame_append
  rw [List.append_nil] at hframe
  have htake : buffer.take 16 = frameHeader type flags payload.length := by
    rw [show buffer.take 16 = (buffer.take 20).take 16 by rw [List.take_take]; rfl, h,
      List.take_take, hframe]
    exact List.take_left' (length_frameHeader _)
  have hfield : ∀ offset width, offset + width ≤ 20 →
      field buffer offset width = field (buildFrame type payload flags) offset width := by
    intro offset width hle
    rw [← field_take hle, h, field_take hle]
  rw [htake, hfield 0 4 (by decide), hfield 4 2 (by decide), hfield 6 2 (by decide),
    hfield 8 4 (by decide), hfield 12 4 (by decide), hfield 16 4 (by decide), hframe]
  have hsmall : payload.length < 256 ^ 4 := fits.trans_lt (by decide)
  have htype : type.toNat < 256 ^ 2 := type.toNat_lt
  have hflags : flags.toNat < 256 ^ 4 := flags.toNat_lt
  have hcrc := (crc32c (frameHeader type flags payload.length)).toNat_lt
  refine ⟨?_, ?_, ?_, ?_, ?_, field_littleEndian _ (length_frameHeader _) hcrc⟩ <;>
    simp only [frameHeader, RecordWriter.u32, RecordWriter.u16, List.append_assoc]
  · exact field_littleEndian [] rfl (by decide)
  · exact field_littleEndian (littleEndian 4 _) (by simp) (by decide)
  · simpa only [List.append_assoc] using field_littleEndian
      (littleEndian 4 kFrameMagic.toNat ++ littleEndian 2 kProtocolVersion.toNat) (by simp) htype
  · simpa only [List.append_assoc] using field_littleEndian
      (littleEndian 4 kFrameMagic.toNat ++ (littleEndian 2 kProtocolVersion.toNat ++
        littleEndian 2 type.toNat)) (by simp) hflags
  · simpa only [List.append_assoc] using field_littleEndian
      (littleEndian 4 kFrameMagic.toNat ++ (littleEndian 2 kProtocolVersion.toNat ++
        (littleEndian 2 type.toNat ++ littleEndian 4 flags.toNat))) (by simp) hsmall

end Layout

section Decode

variable {type : UInt16} {payload b : Bytes}

theorem encodeFrame_eq_ok {flags : UInt32} {frame : Bytes} :
    encodeFrame type payload flags = .ok frame ↔
      payload.length ≤ kMaxFramePayload ∧ (type ≠ 0 ∧ type ≤ kMaxMessageType) ∧
        frame = buildFrame type payload flags := by
  simp only [encodeFrame, bind_eq_ok, refuseIf_eq_ok, not_or, Nat.not_lt, UInt16.not_lt]
  constructor
  · rintro ⟨_, hfits, _, htype, h⟩
    cases h
    exact ⟨hfits, htype, rfl⟩
  · rintro ⟨hfits, htype, rfl⟩
    exact ⟨(), hfits, (), htype, rfl⟩

def headerOf (type : UInt16) (payload : Bytes) : FrameHeader where
  version := kProtocolVersion
  type := type
  flags := 0
  payloadLength := UInt32.ofNat payload.length

theorem toNat_payloadLength (fits : payload.length ≤ kMaxFramePayload) :
    (UInt32.ofNat payload.length).toNat = payload.length := by
  rw [UInt32.toNat_ofNat']
  exact Nat.mod_eq_of_lt (fits.trans_lt (by decide))

/-- The decoder reads back a frame, whatever follows it. -/
theorem decodeFrame_buildFrame (fits : payload.length ≤ kMaxFramePayload)
    (permitted : type ≠ 0 ∧ type ≤ kMaxMessageType) (rest : Bytes) :
    decodeFrame (buildFrame type payload 0 ++ rest) = .ok (headerOf type payload, payload) := by
  have hlength : (buildFrame type payload 0 ++ rest).length =
      kFrameOverhead + payload.length + rest.length := by
    rw [List.length_append, length_buildFrame]
  have htake : (buildFrame type payload 0 ++ rest).take 20 = (buildFrame type payload 0).take 20 := by
    rw [List.take_append_of_le_length]
    rw [length_buildFrame, kFrameOverhead, kFrameHeaderBytes]
    omega
  obtain ⟨hmagic, hversion, htype, hflags, hpayload, hcrc⟩ := field_frameHeader fits htake
  have hdrop : (buildFrame type payload 0 ++ rest).drop kFrameHeaderBytes =
      payload ++ (littleEndian 4 (crc32c payload).toNat ++ rest) := by
    rw [buildFrame_append, ← List.append_assoc]
    exact List.drop_left' (by simp [length_frameHeader, kFrameHeaderBytes])
  have htrailer : field (buildFrame type payload 0 ++ rest) (kFrameHeaderBytes + payload.length) 4 =
      (crc32c payload).toNat := by
    rw [field, ← List.drop_drop, hdrop, ← field]
    exact field_littleEndian payload rfl (UInt32.toNat_lt _)
  unfold decodeFrame
  simp only [hmagic, hversion, htype, hflags, hpayload, ← hcrc, toNat_payloadLength fits, htrailer,
    hdrop, List.take_left', UInt16.ofNat_toNat, UInt32.ofNat_toNat]
  rw [refuseIf_bind (by rw [hlength]; omega), refuseIf_bind (by simp), refuseIf_bind (by simp),
    refuseIf_bind (by simp), refuseIf_bind (by simpa using permitted), refuseIf_bind (by omega),
    refuseIf_bind (by simp), refuseIf_bind (by rw [hlength]; omega), refuseIf_bind (by simp)]
  rfl

theorem eq_buildFrame_of_decodeFrame {header : FrameHeader} (h : decodeFrame b = .ok (header, payload)) :
    payload.length ≤ kMaxFramePayload ∧ (header.type ≠ 0 ∧ header.type ≤ kMaxMessageType) ∧
      header = headerOf header.type payload ∧ buildFrame header.type payload 0 <+: b := by
  simp only [decodeFrame, bind_eq_ok, refuseIf_eq_ok, not_not, Nat.not_lt, not_or,
    UInt16.not_lt] at h
  obtain ⟨_, hshort, _, magic, _, version, _, flags, _, type, _, small, _, crc, _, total, _, trailer,
    h⟩ := h
  cases h
  dsimp only at *
  generalize hn : (UInt32.ofNat (field b 12 4)).toNat = n at *
  have hshort : 24 ≤ b.length := hshort
  have total : 24 + n ≤ b.length := total
  have trailer : field b (20 + n) 4 = (crc32c ((b.drop 20).take n)).toNat := trailer
  have hlength : field b 12 4 = n := by
    rw [← hn, UInt32.toNat_ofNat']
    exact (Nat.mod_eq_of_lt (field_lt b 12 4)).symm
  have hversion : field b 4 2 = kProtocolVersion.toNat := by
    rw [← version, UInt16.toNat_ofNat']
    exact (Nat.mod_eq_of_lt (field_lt b 4 2)).symm
  have htype : field b 6 2 = (UInt16.ofNat (field b 6 2)).toNat :=
    (Nat.mod_eq_of_lt (field_lt b 6 2)).symm
  have hflags : field b 8 4 = (0 : UInt32).toNat := by
    rw [← flags, UInt32.toNat_ofNat']
    exact (Nat.mod_eq_of_lt (field_lt b 8 4)).symm
  have hpayload : ((b.drop 20).take n).length = n := by
    rw [List.length_take, List.length_drop]
    omega
  generalize UInt16.ofNat (field b 6 2) = code at *
  have hheader : b.take 16 = frameHeader code 0 n := by
    have hfields : b.take 16 = (b.drop 0).take 4 ++ ((b.drop 4).take 2 ++
        ((b.drop 6).take 2 ++ ((b.drop 8).take 4 ++ (b.drop 12).take 4))) := by
      rw [show 16 = 4 + (2 + (2 + (4 + 4))) from rfl]
      simp only [List.take_add, List.drop_drop, List.drop_zero]
    rw [hfields, take_drop_eq_littleEndian magic (by omega),
      take_drop_eq_littleEndian hversion (by omega), take_drop_eq_littleEndian htype (by omega),
      take_drop_eq_littleEndian hflags (by omega), take_drop_eq_littleEndian hlength (by omega)]
    simp [frameHeader, RecordWriter.u32, RecordWriter.u16]
  have hsplit : ∀ i j, b.drop i = (b.drop i).take j ++ b.drop (i + j) := by
    intro i j
    rw [← List.drop_drop, List.take_append_drop]
  have hdata : b = b.take 16 ++ ((b.drop 16).take 4 ++ ((b.drop 20).take n ++
      ((b.drop (20 + n)).take 4 ++ b.drop (20 + n + 4)))) := by
    rw [← hsplit (20 + n) 4, ← hsplit 20 n, ← hsplit 16 4, List.take_append_drop]
  have hlen : UInt32.ofNat (field b 12 4) = UInt32.ofNat n := by rw [hlength]
  have hwidth : kFrameHeaderBytes = 20 := rfl
  refine ⟨by rw [hwidth, hpayload]; exact small, type, ?_, b.drop (20 + n + 4), ?_⟩
  · rw [hwidth, headerOf, hpayload, version, flags, hlen]
  · rw [hwidth, buildFrame_append, hpayload, ← hheader, ← take_drop_eq_littleEndian crc (by omega),
      ← take_drop_eq_littleEndian trailer (by omega)]
    exact hdata.symm

/-- The decoder succeeds with a message exactly when the input starts with the frame of it. -/
theorem decodeFrame_iff :
    decodeFrame b = .ok (headerOf type payload, payload) ↔
      (type ≠ 0 ∧ type ≤ kMaxMessageType) ∧ payload.length ≤ kMaxFramePayload ∧
        buildFrame type payload 0 <+: b := by
  constructor
  · intro h
    obtain ⟨fits, permitted, -, hfirst⟩ := eq_buildFrame_of_decodeFrame h
    exact ⟨permitted, fits, hfirst⟩
  · rintro ⟨permitted, fits, rest, rfl⟩
    exact decodeFrame_buildFrame fits permitted rest

/-- The frame format is canonical: the decoder accepts a message exactly where its frame stands, and
one byte string alone is the whole frame of a message. -/
theorem decodeFrame_canonical :
    (∀ (b : Bytes) (t : UInt16) (p : Bytes),
      (∃ header, decodeFrame b = .ok (header, p) ∧ header.type = t) ↔
        (t ≠ 0 ∧ t ≤ kMaxMessageType) ∧ p.length ≤ kMaxFramePayload ∧
          ∃ frame, encodeFrame t p 0 = .ok frame ∧ frame <+: b) ∧
    ∀ (t : UInt16) (p : Bytes), t ≠ 0 → t ≤ kMaxMessageType → p.length ≤ kMaxFramePayload →
      ∃! b : Bytes, b.length = kFrameOverhead + p.length ∧
        ∃ header, decodeFrame b = .ok (header, p) ∧ header.type = t := by
  constructor
  · intro b t p
    constructor
    · rintro ⟨header, h, rfl⟩
      obtain ⟨fits, permitted, -, hfirst⟩ := eq_buildFrame_of_decodeFrame h
      exact ⟨permitted, fits, _, encodeFrame_eq_ok.mpr ⟨fits, permitted, rfl⟩, hfirst⟩
    · rintro ⟨permitted, fits, frame, hframe, hfirst⟩
      obtain ⟨-, -, rfl⟩ := encodeFrame_eq_ok.mp hframe
      exact ⟨headerOf t p, decodeFrame_iff.mpr ⟨permitted, fits, hfirst⟩, rfl⟩
  · intro t p hzero hmax fits
    refine ⟨buildFrame t p 0, ⟨length_buildFrame, headerOf t p,
      decodeFrame_iff.mpr ⟨⟨hzero, hmax⟩, fits, List.prefix_rfl⟩, rfl⟩, ?_⟩
    rintro b ⟨hlength, header, h, rfl⟩
    obtain ⟨-, -, -, hfirst⟩ := eq_buildFrame_of_decodeFrame h
    exact (hfirst.eq_of_length (length_buildFrame.trans hlength.symm)).symm

end Decode

end FlowScheduler

import FlowScheduler.Wire.Framing
import FlowScheduler.Durable.RoundTrip

/-! # Protocol messages

What coordinator and workers say to each other, one message a frame. A decoder
reads the fields in order, refuses bytes after the last one and then checks what
the message requires; an encoder cuts the texts to their bounds.
-/

namespace FlowScheduler

open ByteCodec

def kMaxLabelBytes : ℕ := 128
def kMaxDetailBytes : ℕ := 512

inductive MessageType
  | invalid | hello | helloAck | dispatch | dispatchRejected | started | completion | shutdown
  | error | heartbeat
  deriving DecidableEq, Repr

def MessageType.code : MessageType → UInt16
  | invalid => 0 | hello => 1 | helloAck => 2 | dispatch => 3 | dispatchRejected => 4
  | started => 5 | completion => 6 | shutdown => 7 | error => 8 | heartbeat => 9

/-- An error code on the wire. Any value of the underlying type travels, known or not. -/
abbrev WireCode := UInt16

structure HelloMessage where
  worker : WorkerId := {}
  boot : BootId := {}
  label : Bytes := []
  supportedProtocol : UInt64 := 0
  deriving DecidableEq, Repr

structure HelloAckMessage where
  accepted : Bool := false
  reason : WireCode := 0
  detail : Bytes := []
  worker : WorkerId := {}
  boot : BootId := {}
  epoch : FabricEpoch := {}
  policy : PolicyId := {}
  policyGeneration : Generation := {}
  policyDigest : UInt64 := 0
  maxFramePayload : UInt32 := 0
  heartbeatTicks : Ticks := 0
  deriving DecidableEq, Repr

structure DispatchMessage where
  ticket : DispatchTicket := {}
  nominalWork : UInt64 := 0
  deriving DecidableEq, Repr

structure DispatchRejectedMessage where
  attempt : DispatchAttemptId := {}
  epoch : FabricEpoch := {}
  code : WireCode := 0
  detail : Bytes := []
  deriving DecidableEq, Repr

structure StartedMessage where
  attempt : DispatchAttemptId := {}
  epoch : FabricEpoch := {}
  atTick : Ticks := 0
  deriving DecidableEq, Repr

structure CompletionMessage where
  evidence : CompletionEvidence := {}
  deriving DecidableEq, Repr

structure ShutdownMessage where
  reason : Bytes := []
  deriving DecidableEq, Repr

structure ErrorMessage where
  code : WireCode := 0
  detail : Bytes := []
  deriving DecidableEq, Repr

section Encoders

open RecordWriter

def HelloMessage.encode (m : HelloMessage) : Bytes :=
  take [u64 m.worker.value, u64 m.boot.value, text (m.label.take kMaxLabelBytes),
    u64 m.supportedProtocol]

def HelloAckMessage.encode (m : HelloAckMessage) : Bytes :=
  take [boolean m.accepted, u16 m.reason, text (m.detail.take kMaxDetailBytes),
    u64 m.worker.value, u64 m.boot.value, u64 m.epoch.value, u64 m.policy.value,
    u64 m.policyGeneration.value, u64 m.policyDigest, u32 m.maxFramePayload, u64 m.heartbeatTicks]

def DispatchMessage.encode (m : DispatchMessage) : Bytes :=
  take (writeTicket m.ticket ++ [u64 m.nominalWork])

def DispatchRejectedMessage.encode (m : DispatchRejectedMessage) : Bytes :=
  take [u64 m.attempt.value, u64 m.epoch.value, u16 m.code, text (m.detail.take kMaxDetailBytes)]

def StartedMessage.encode (m : StartedMessage) : Bytes :=
  take [u64 m.attempt.value, u64 m.epoch.value, u64 m.atTick]

def CompletionMessage.encode (m : CompletionMessage) : Bytes := take (writeEvidence m.evidence)

def ShutdownMessage.encode (m : ShutdownMessage) : Bytes :=
  take [text (m.reason.take kMaxDetailBytes)]

def ErrorMessage.encode (m : ErrorMessage) : Bytes :=
  take [u16 m.code, text (m.detail.take kMaxDetailBytes)]

end Encoders

section Decoders

open RecordReader

/-- Every declared field of the message was read and nothing follows. -/
def requireMessageEnd : Reader Unit := do
  let data ← get
  require (data = []) .protocolViolation "message carries trailing bytes after the declared fields"

def boundedText (bound : ℕ) (field : String) : Reader Bytes := do
  let value ← text
  require (value.length ≤ bound) .oversized (field ++ " exceeds its bound")
  return value

def decodeWith {α : Type} (r : Reader α) (payload : Bytes) : Result α := do
  let (message, _) ← r.run payload
  return message

def readHello : Reader HelloMessage := do
  let worker ← id
  let boot ← id
  let label ← boundedText kMaxLabelBytes "worker label"
  let supportedProtocol ← u64
  requireMessageEnd
  require worker.valid .handshakeRejected "worker identity is unbound"
  require (supportedProtocol = kProtocolVersion.toUInt64) .handshakeRejected
    "worker protocol version is not supported"
  return { worker, boot, label, supportedProtocol }

def readHelloAck : Reader HelloAckMessage := do
  let accepted ← boolean
  let reason ← u16
  let detail ← boundedText kMaxDetailBytes "handshake detail"
  let worker ← id
  let boot ← id
  let epoch ← id
  let policy ← id
  let policyGeneration ← id
  let policyDigest ← u64
  let maxFramePayload ← u32
  let heartbeatTicks ← u64
  requireMessageEnd
  require (accepted → worker.valid ∧ boot.valid ∧ epoch.valid) .protocolViolation
    "accepted handshake is missing authority fields"
  require (accepted → maxFramePayload ≠ 0 ∧ maxFramePayload.toNat ≤ kMaxFramePayload)
    .protocolViolation "handshake frame bound is outside the contract"
  return { accepted, reason, detail, worker, boot, epoch, policy, policyGeneration, policyDigest,
           maxFramePayload, heartbeatTicks }

def readDispatch : Reader DispatchMessage := do
  let ticket ← readTicket
  let nominalWork ← u64
  requireMessageEnd
  return { ticket, nominalWork }

def readDispatchRejected : Reader DispatchRejectedMessage := do
  let attempt ← id
  let epoch ← id
  let code ← u16
  let detail ← boundedText kMaxDetailBytes "rejection detail"
  requireMessageEnd
  return { attempt, epoch, code, detail }

def readStarted : Reader StartedMessage := do
  let attempt ← id
  let epoch ← id
  let atTick ← u64
  requireMessageEnd
  require attempt.valid .protocolViolation "started message has an unbound attempt"
  return { attempt, epoch, atTick }

def readCompletion : Reader CompletionMessage := do
  let evidence ← readEvidence
  requireMessageEnd
  return { evidence }

def readShutdown : Reader ShutdownMessage := do
  let reason ← boundedText kMaxDetailBytes "shutdown reason"
  requireMessageEnd
  return { reason }

def readError : Reader ErrorMessage := do
  let code ← u16
  let detail ← boundedText kMaxDetailBytes "error detail"
  requireMessageEnd
  return { code, detail }

def decodeHello (payload : Bytes) : Result HelloMessage := decodeWith readHello payload
def decodeHelloAck (payload : Bytes) : Result HelloAckMessage := decodeWith readHelloAck payload
def decodeDispatch (payload : Bytes) : Result DispatchMessage := decodeWith readDispatch payload
def decodeDispatchRejected (payload : Bytes) : Result DispatchRejectedMessage :=
  decodeWith readDispatchRejected payload
def decodeStarted (payload : Bytes) : Result StartedMessage := decodeWith readStarted payload
def decodeCompletion (payload : Bytes) : Result CompletionMessage := decodeWith readCompletion payload
def decodeShutdown (payload : Bytes) : Result ShutdownMessage := decodeWith readShutdown payload
def decodeError (payload : Bytes) : Result ErrorMessage := decodeWith readError payload

end Decoders

open RecordReader

section Fields

variable {α β : Type} {es : Encoding} {b : β} {P : β → Bytes → Prop}

theorem exhausts_cons {r : Reader α} {k : α → Reader β} {c : Bytes} {a : α} (h : Reads r [c] a) :
    Exhausts (r >>= k) (c :: es) b ↔ Exhausts (k a) es b :=
  Exhausts.bind_iff (e := es) h

theorem exhausts_require {p : Prop} [Decidable p] {code : ErrorCode} {message : String}
    {k : Unit → Reader β} (h : p) :
    Exhausts (require p code message >>= k) es b ↔ Exhausts (k ()) es b :=
  Exhausts.bind_iff (d := []) (reads_require h)

theorem exhausts_end {k : Unit → Reader β} (h : Exhausts (k ()) [] b) :
    Exhausts (requireMessageEnd >>= k) [] b := h

theorem reads_boundedText {bound : ℕ} {field : String} {v : Bytes} (h : v.length ≤ bound)
    (short : bound < 2 ^ 64) : Reads (boundedText bound field) [RecordWriter.text v] v := by
  refine (reads_text (h.trans_lt short)).bind (e := []) ?_
  rw [reads_require_bind h]
  exact Reads.pure v

theorem spells_raw (n : ℕ) : Spells (raw n) fun chunk used => chunk.length = n ∧ used = chunk := by
  intro data chunk rest h
  by_cases hshort : data.length < n
  · simp only [raw, StateT.run, if_pos hshort] at h
    cases h
  · simp only [raw, StateT.run, if_neg hshort] at h
    cases h
    exact ⟨data.take n, (List.take_append_drop n data).symm, List.length_take_of_le (by omega), rfl⟩

theorem spells_littleEndian {width : ℕ} {make : ℕ → α} (back : α → ℕ)
    (h : ∀ n < 256 ^ width, back (make n) = n) :
    Spells (do return make (fromLittleEndian (← raw width)) : Reader α) fun a used =>
      used = littleEndian width (back a) := by
  refine (spells_raw width).bind ?_
  rintro _ chunk ⟨hlength, rfl⟩
  refine .pure ?_
  have hlt := fromLittleEndian_lt chunk
  rw [hlength] at hlt
  rw [List.append_nil, h _ hlt, ← hlength, littleEndian_fromLittleEndian]

theorem spells_u8 : Spells u8 fun v used => used = RecordWriter.u8 v := by
  refine (spells_raw 1).bind ?_
  rintro chunk _ ⟨hlength, rfl⟩
  obtain ⟨v, rfl⟩ := List.length_eq_one_iff.mp hlength
  exact .pure rfl

theorem spells_u16 : Spells u16 fun v used => used = RecordWriter.u16 v :=
  spells_littleEndian UInt16.toNat fun n hn => by
    rw [UInt16.toNat_ofNat']
    exact Nat.mod_eq_of_lt hn

theorem spells_u32 : Spells u32 fun v used => used = RecordWriter.u32 v :=
  spells_littleEndian UInt32.toNat fun n hn => by
    rw [UInt32.toNat_ofNat']
    exact Nat.mod_eq_of_lt hn

theorem spells_u64 : Spells u64 fun v used => used = RecordWriter.u64 v :=
  spells_littleEndian UInt64.toNat fun n hn => by
    rw [UInt64.toNat_ofNat']
    exact Nat.mod_eq_of_lt hn

theorem spells_id {f : IdFamily} : Spells (id : Reader (Id f)) fun v used =>
    used = RecordWriter.u64 v.value := by
  refine spells_u64.bind ?_
  rintro v _ rfl
  exact .pure (List.append_nil _)

theorem spells_require {p : Prop} [Decidable p] {code : ErrorCode} {message : String} :
    Spells (require p code message) fun _ used => p ∧ used = [] := by
  unfold require
  split
  · exact .pure ⟨‹p›, rfl⟩
  · rintro data a rest h
    cases h

theorem spells_boolean : Spells boolean fun v used => used = RecordWriter.boolean v := by
  refine spells_u8.bind ?_
  rintro v _ rfl
  refine spells_require.bind ?_
  rintro _ _ ⟨hle, rfl⟩
  refine .pure ?_
  have hcases : v = 0 ∨ v = 1 := by
    have : v.toNat ≤ 1 := UInt8.le_iff_toNat_le.mp hle
    rcases Nat.le_one_iff_eq_zero_or_eq_one.mp this with h | h
    · exact .inl (UInt8.toNat_inj.mp h)
    · exact .inr (UInt8.toNat_inj.mp h)
  rcases hcases with rfl | rfl <;> rfl

theorem spells_enum {ofCode : UInt8 → Option α} {codeOf : α → UInt8} {code : ErrorCode}
    {message : String} (known : ∀ c a, ofCode c = some a → codeOf a = c) :
    Spells (enum ofCode code message) fun a used => used = RecordWriter.u8 (codeOf a) := by
  refine spells_u8.bind ?_
  rintro c _ rfl
  cases hc : ofCode c with
  | none =>
    rintro data a rest h
    cases h
  | some a => exact .pure (by rw [known c a hc, List.append_nil])

theorem spells_text : Spells text fun v used => used = RecordWriter.text v := by
  refine spells_u64.bind ?_
  rintro length _ rfl
  refine Spells.get.bind ?_
  rintro data _ rfl
  refine spells_require.bind ?_
  rintro _ _ ⟨-, rfl⟩
  intro data v rest h
  obtain ⟨used, hdata, hlength, rfl⟩ := spells_raw length.toNat data v rest h
  refine ⟨used, hdata, ?_⟩
  simp only [RecordWriter.text, RecordWriter.size, hlength, UInt64.ofNat_toNat, List.nil_append]

theorem spells_boundedText {bound : ℕ} {field : String} :
    Spells (boundedText bound field) fun v used =>
      v.length ≤ bound ∧ used = RecordWriter.text v := by
  refine spells_text.bind ?_
  rintro v _ rfl
  refine spells_require.bind ?_
  rintro _ _ ⟨hle, rfl⟩
  exact .pure ⟨hle, by simp⟩

theorem spells_end : Spells requireMessageEnd fun _ used => True ∧ used = [] := by
  refine Spells.get.bind ?_
  rintro data _ rfl
  intro data u rest h
  obtain ⟨used, hdata, -, hused⟩ := spells_require data u rest h
  exact ⟨used, hdata, trivial, hused⟩

theorem drains_end : Drains requireMessageEnd := by
  intro data u rest h
  cases data with
  | nil =>
    cases h
    rfl
  | cons c data => cases h

end Fields

section Nested

theorem ProvenanceOrigin.code_of_ofCode {c : UInt8} {a : ProvenanceOrigin}
    (h : ProvenanceOrigin.ofCode c = some a) : a.code = c := by
  unfold ProvenanceOrigin.ofCode at h
  split at h <;> cases h <;> rfl

theorem AttemptState.code_of_ofCode {c : UInt8} {a : AttemptState}
    (h : AttemptState.ofCode c = some a) : a.code = c := by
  unfold AttemptState.ofCode at h
  split at h <;> cases h <;> rfl

theorem CompletionOutcome.code_of_ofCode {c : UInt8} {a : CompletionOutcome}
    (h : CompletionOutcome.ofCode c = some a) : a.code = c := by
  unfold CompletionOutcome.ofCode at h
  split at h <;> cases h <;> rfl

theorem spells_provenance {code : ErrorCode} {message : String} :
    Spells (readProvenance code message) fun p used => used = (writeProvenance p).flatten := by
  refine (spells_enum fun _ _ => ProvenanceOrigin.code_of_ofCode).field fun _ => ?_
  exact spells_u64.field fun _ => spells_u64.field fun _ => .pure rfl

theorem spells_ticket : Spells readTicket fun t used => used = (writeTicket t).flatten := by
  iterate 20 refine spells_id.field fun _ => ?_
  iterate 4 refine spells_u64.field fun _ => ?_
  refine (spells_enum fun _ _ => AttemptState.code_of_ofCode).field fun _ => ?_
  refine spells_u64.field fun _ => ?_
  iterate 3 refine spells_require.check fun _ _ => ?_
  exact .pure rfl

theorem spells_evidence : Spells readEvidence fun e used => used = (writeEvidence e).flatten := by
  iterate 8 refine spells_id.field fun _ => ?_
  refine (spells_enum fun _ _ => CompletionOutcome.code_of_ofCode).field fun _ => ?_
  refine spells_u64.field fun _ => spells_u32.field fun _ => ?_
  iterate 2 refine spells_u64.field fun _ => ?_
  refine spells_provenance.field fun _ => ?_
  iterate 2 refine spells_require.check fun _ _ => ?_
  exact .pure (by simp [writeEvidence])

end Nested

/-- The message decoder recovers what the encoder wrote of a message, its texts cut to their bounds,
and the encoder writes every payload the decoder accepts. -/
def WellCoded {α : Type} (encode : α → Bytes) (decode : Bytes → Result α) (ok : α → Prop)
    (cut : α → α) : Prop :=
  (∀ m, ok m → decode (encode m) = .ok (cut m)) ∧ ∀ b m, decode b = .ok m → encode m = b

theorem wellCoded_of_fields {α : Type} {encode : α → Bytes} {r : Reader α} {ok : α → Prop}
    {cut : α → α} (within : α → Prop) (fields : α → Encoding)
    (written : ∀ m, encode m = RecordWriter.take (fields (cut m)))
    (cut_within : ∀ m, within (cut m)) (cut_ok : ∀ m, ok m → ok (cut m))
    (cut_eq : ∀ m, within m → cut m = m)
    (fits : ∀ m, within m → (fields m).flatten.length ≤ 4096)
    (exhausts : ∀ m, ok m → within m → Exhausts r (fields m) m)
    (spells : Spells r fun m used => within m ∧ used = (fields m).flatten) (drains : Drains r) :
    WellCoded encode (decodeWith r) ok cut := by
  have hwritten : ∀ m, encode m = (fields (cut m)).flatten := by
    intro m
    rw [written]
    exact RecordWriter.take_of_fits ((fits _ (cut_within m)).trans (by decide))
  constructor
  · intro m hm
    rw [hwritten, decodeWith, exhausts _ (cut_ok m hm) (cut_within m)]
    rfl
  · intro b m h
    obtain ⟨⟨m', rest⟩, hrun, h⟩ := bind_eq_ok.mp h
    cases h
    obtain ⟨used, hb, hwithin, hused⟩ := spells b m rest hrun
    rw [drains b m rest hrun, List.append_nil] at hb
    rw [hwritten, cut_eq m hwithin, hb, hused]

section Messages

open RecordWriter (u16 u32 u64 boolean text)

def HelloMessage.Acceptable (m : HelloMessage) : Prop :=
  m.worker.valid ∧ m.supportedProtocol = kProtocolVersion.toUInt64

def HelloMessage.cut (m : HelloMessage) : HelloMessage :=
  { m with label := m.label.take kMaxLabelBytes }

theorem wellCoded_hello :
    WellCoded HelloMessage.encode decodeHello HelloMessage.Acceptable HelloMessage.cut := by
  refine wellCoded_of_fields (fun m => m.label.length ≤ kMaxLabelBytes)
    (fun m => [u64 m.worker.value, u64 m.boot.value, text m.label, u64 m.supportedProtocol])
    (fun m => rfl) (fun m => List.length_take_le _ _) (fun m hm => hm) (fun m hm => ?_)
    (fun m hm => ?_) (fun m hm hlabel => ?_) ?_ ?_
  · rw [HelloMessage.cut, List.take_of_length_le hm]
  · simp only [List.flatten_cons, List.flatten_nil, List.length_append, RecordWriter.length_u64,
      RecordWriter.length_text, List.length_nil, kMaxLabelBytes] at *
    omega
  · rw [readHello, exhausts_cons (reads_id _), exhausts_cons (reads_id _),
      exhausts_cons (reads_boundedText hlabel (by decide)), exhausts_cons (reads_u64 _)]
    refine exhausts_end ?_
    rw [exhausts_require hm.1, exhausts_require hm.2]
    exact .pure _
  · refine spells_id.field fun _ => spells_id.field fun _ => spells_boundedText.bind ?_
    rintro label _ ⟨hlabel, rfl⟩
    refine spells_u64.field fun _ => spells_end.check fun _ _ => ?_
    exact spells_require.check fun _ _ => spells_require.check fun _ _ => .pure ⟨hlabel, rfl⟩
  · iterate 4 refine .after fun _ => ?_
    exact drains_end.bind fun _ => spells_require.check fun _ _ => spells_require.check fun _ _ =>
      .pure trivial

def HelloAckMessage.Acceptable (m : HelloAckMessage) : Prop :=
  m.accepted → (m.worker.valid ∧ m.boot.valid ∧ m.epoch.valid) ∧
    m.maxFramePayload ≠ 0 ∧ m.maxFramePayload.toNat ≤ kMaxFramePayload

def HelloAckMessage.cut (m : HelloAckMessage) : HelloAckMessage :=
  { m with detail := m.detail.take kMaxDetailBytes }

theorem wellCoded_helloAck :
    WellCoded HelloAckMessage.encode decodeHelloAck HelloAckMessage.Acceptable
      HelloAckMessage.cut := by
  refine wellCoded_of_fields (fun m => m.detail.length ≤ kMaxDetailBytes)
    (fun m => [boolean m.accepted, u16 m.reason, text m.detail, u64 m.worker.value,
      u64 m.boot.value, u64 m.epoch.value, u64 m.policy.value, u64 m.policyGeneration.value,
      u64 m.policyDigest, u32 m.maxFramePayload, u64 m.heartbeatTicks])
    (fun m => rfl) (fun m => List.length_take_le _ _) (fun m hm => hm) (fun m hm => ?_)
    (fun m hm => ?_) (fun m hm hdetail => ?_) ?_ ?_
  · rw [HelloAckMessage.cut, List.take_of_length_le hm]
  · simp only [List.flatten_cons, List.flatten_nil, List.length_append, RecordWriter.length_u64,
      RecordWriter.length_text, RecordWriter.length_u16, RecordWriter.length_u32,
      RecordWriter.length_boolean, List.length_nil, kMaxDetailBytes] at *
    omega
  · rw [readHelloAck, exhausts_cons (reads_boolean _), exhausts_cons (reads_u16 _),
      exhausts_cons (reads_boundedText hdetail (by decide)), exhausts_cons (reads_id _),
      exhausts_cons (reads_id _), exhausts_cons (reads_id _), exhausts_cons (reads_id _),
      exhausts_cons (reads_id _), exhausts_cons (reads_u64 _), exhausts_cons (reads_u32 _),
      exhausts_cons (reads_u64 _)]
    refine exhausts_end ?_
    rw [exhausts_require fun h => (hm h).1, exhausts_require fun h => (hm h).2]
    exact .pure _
  · refine spells_boolean.field fun _ => spells_u16.field fun _ => spells_boundedText.bind ?_
    rintro detail _ ⟨hdetail, rfl⟩
    iterate 5 refine spells_id.field fun _ => ?_
    refine spells_u64.field fun _ => spells_u32.field fun _ => spells_u64.field fun _ => ?_
    refine spells_end.check fun _ _ => ?_
    exact spells_require.check fun _ _ => spells_require.check fun _ _ => .pure ⟨hdetail, rfl⟩
  · iterate 11 refine .after fun _ => ?_
    exact drains_end.bind fun _ => spells_require.check fun _ _ => spells_require.check fun _ _ =>
      .pure trivial

theorem wellCoded_dispatch :
    WellCoded DispatchMessage.encode decodeDispatch (fun m => m.ticket.Storable) fun m => m := by
  refine wellCoded_of_fields (fun _ => True)
    (fun m => writeTicket m.ticket ++ [u64 m.nominalWork])
    (fun m => rfl) (fun m => trivial) (fun m hm => hm) (fun m hm => rfl)
    (fun m hm => ?_) (fun m hm _ => ?_) ?_ ?_
  · simp only [writeTicket, List.flatten_append, List.flatten_cons, List.flatten_nil,
      List.length_append, RecordWriter.length_u64, RecordWriter.length_u8, List.length_nil]
    decide
  · rw [readDispatch, Exhausts.bind_iff (reads_ticket hm), exhausts_cons (reads_u64 _)]
    exact exhausts_end (.pure _)
  · refine spells_ticket.field fun _ => spells_u64.field fun _ => ?_
    refine spells_end.check fun _ _ => .pure ⟨trivial, ?_⟩
    simp
  · iterate 2 refine .after fun _ => ?_
    exact drains_end.bind fun _ => .pure trivial

def DispatchRejectedMessage.cut (m : DispatchRejectedMessage) : DispatchRejectedMessage :=
  { m with detail := m.detail.take kMaxDetailBytes }

theorem wellCoded_dispatchRejected :
    WellCoded DispatchRejectedMessage.encode decodeDispatchRejected (fun _ => True)
      DispatchRejectedMessage.cut := by
  refine wellCoded_of_fields (fun m => m.detail.length ≤ kMaxDetailBytes)
    (fun m => [u64 m.attempt.value, u64 m.epoch.value, u16 m.code, text m.detail])
    (fun m => rfl) (fun m => List.length_take_le _ _) (fun m hm => hm) (fun m hm => ?_)
    (fun m hm => ?_) (fun m _ hdetail => ?_) ?_ ?_
  · rw [DispatchRejectedMessage.cut, List.take_of_length_le hm]
  · simp only [List.flatten_cons, List.flatten_nil, List.length_append, RecordWriter.length_u64,
      RecordWriter.length_text, RecordWriter.length_u16, List.length_nil, kMaxDetailBytes] at *
    omega
  · rw [readDispatchRejected, exhausts_cons (reads_id _), exhausts_cons (reads_id _),
      exhausts_cons (reads_u16 _), exhausts_cons (reads_boundedText hdetail (by decide))]
    exact exhausts_end (.pure _)
  · refine spells_id.field fun _ => spells_id.field fun _ => spells_u16.field fun _ => ?_
    refine spells_boundedText.bind ?_
    rintro detail _ ⟨hdetail, rfl⟩
    exact spells_end.check fun _ _ => .pure ⟨hdetail, rfl⟩
  · iterate 4 refine .after fun _ => ?_
    exact drains_end.bind fun _ => .pure trivial

theorem wellCoded_started :
    WellCoded StartedMessage.encode decodeStarted (fun m => m.attempt.valid) fun m => m := by
  refine wellCoded_of_fields (fun _ => True)
    (fun m => [u64 m.attempt.value, u64 m.epoch.value, u64 m.atTick])
    (fun m => rfl) (fun m => trivial) (fun m hm => hm) (fun m hm => rfl)
    (fun m hm => ?_) (fun m hm _ => ?_) ?_ ?_
  · simp
  · rw [readStarted, exhausts_cons (reads_id _), exhausts_cons (reads_id _),
      exhausts_cons (reads_u64 _)]
    refine exhausts_end ?_
    rw [exhausts_require hm]
    exact .pure _
  · refine spells_id.field fun _ => spells_id.field fun _ => spells_u64.field fun _ => ?_
    exact spells_end.check fun _ _ => spells_require.check fun _ _ => .pure ⟨trivial, rfl⟩
  · iterate 3 refine .after fun _ => ?_
    exact drains_end.bind fun _ => spells_require.check fun _ _ => .pure trivial

theorem wellCoded_completion :
    WellCoded CompletionMessage.encode decodeCompletion (fun m => m.evidence.Storable) fun m => m := by
  refine wellCoded_of_fields (fun _ => True) (fun m => writeEvidence m.evidence)
    (fun m => rfl) (fun m => trivial) (fun m hm => hm) (fun m hm => rfl)
    (fun m hm => ?_) (fun m hm _ => ?_) ?_ ?_
  · simp [writeEvidence, writeProvenance]
  · have hbind := Exhausts.bind_iff (k := fun evidence =>
      (do requireMessageEnd; return { evidence } : Reader CompletionMessage)) (e := []) (b := m)
      (reads_evidence hm)
    rw [List.append_nil] at hbind
    exact hbind.mpr (exhausts_end (.pure _))
  · refine spells_evidence.field fun _ => spells_end.check fun _ _ => .pure ⟨trivial, ?_⟩
    simp
  · refine .after fun _ => ?_
    exact drains_end.bind fun _ => .pure trivial

def ShutdownMessage.cut (m : ShutdownMessage) : ShutdownMessage :=
  { m with reason := m.reason.take kMaxDetailBytes }

theorem wellCoded_shutdown :
    WellCoded ShutdownMessage.encode decodeShutdown (fun _ => True) ShutdownMessage.cut := by
  refine wellCoded_of_fields (fun m => m.reason.length ≤ kMaxDetailBytes)
    (fun m => [text m.reason])
    (fun m => rfl) (fun m => List.length_take_le _ _) (fun m hm => hm) (fun m hm => ?_)
    (fun m hm => ?_) (fun m _ hreason => ?_) ?_ ?_
  · rw [ShutdownMessage.cut, List.take_of_length_le hm]
  · simp only [List.flatten_cons, List.flatten_nil, List.length_append, RecordWriter.length_text,
      List.length_nil, kMaxDetailBytes] at *
    omega
  · rw [readShutdown, exhausts_cons (reads_boundedText hreason (by decide))]
    exact exhausts_end (.pure _)
  · refine spells_boundedText.bind ?_
    rintro reason _ ⟨hreason, rfl⟩
    exact spells_end.check fun _ _ => .pure ⟨hreason, rfl⟩
  · refine .after fun _ => ?_
    exact drains_end.bind fun _ => .pure trivial

def ErrorMessage.cut (m : ErrorMessage) : ErrorMessage :=
  { m with detail := m.detail.take kMaxDetailBytes }

theorem wellCoded_error :
    WellCoded ErrorMessage.encode decodeError (fun _ => True) ErrorMessage.cut := by
  refine wellCoded_of_fields (fun m => m.detail.length ≤ kMaxDetailBytes)
    (fun m => [u16 m.code, text m.detail])
    (fun m => rfl) (fun m => List.length_take_le _ _) (fun m hm => hm) (fun m hm => ?_)
    (fun m hm => ?_) (fun m _ hdetail => ?_) ?_ ?_
  · rw [ErrorMessage.cut, List.take_of_length_le hm]
  · simp only [List.flatten_cons, List.flatten_nil, List.length_append, RecordWriter.length_u16,
      RecordWriter.length_text, List.length_nil, kMaxDetailBytes] at *
    omega
  · rw [readError, exhausts_cons (reads_u16 _), exhausts_cons (reads_boundedText hdetail (by decide))]
    exact exhausts_end (.pure _)
  · refine spells_u16.field fun _ => spells_boundedText.bind ?_
    rintro detail _ ⟨hdetail, rfl⟩
    exact spells_end.check fun _ _ => .pure ⟨hdetail, rfl⟩
  · iterate 2 refine .after fun _ => ?_
    exact drains_end.bind fun _ => .pure trivial

/-- Every message of the protocol is read back from its payload, and has no other payload. -/
theorem messages_wellCoded :
    WellCoded HelloMessage.encode decodeHello HelloMessage.Acceptable HelloMessage.cut ∧
    WellCoded HelloAckMessage.encode decodeHelloAck HelloAckMessage.Acceptable
      HelloAckMessage.cut ∧
    WellCoded DispatchMessage.encode decodeDispatch (fun m => m.ticket.Storable) (fun m => m) ∧
    WellCoded DispatchRejectedMessage.encode decodeDispatchRejected (fun _ => True)
      DispatchRejectedMessage.cut ∧
    WellCoded StartedMessage.encode decodeStarted (fun m => m.attempt.valid) (fun m => m) ∧
    WellCoded CompletionMessage.encode decodeCompletion (fun m => m.evidence.Storable)
      (fun m => m) ∧
    WellCoded ShutdownMessage.encode decodeShutdown (fun _ => True) ShutdownMessage.cut ∧
    WellCoded ErrorMessage.encode decodeError (fun _ => True) ErrorMessage.cut :=
  ⟨wellCoded_hello, wellCoded_helloAck, wellCoded_dispatch, wellCoded_dispatchRejected,
    wellCoded_started, wellCoded_completion, wellCoded_shutdown, wellCoded_error⟩

end Messages

end FlowScheduler

import FlowScheduler.Wire.Framing

/-! # Frames from a stream

A stream hands over the bytes of many frames in pieces that need not end where a
frame does. The accumulator keeps what it cannot deliver yet: a proper part of
one frame.
-/

namespace FlowScheduler

open ByteCodec

def kMaxFrameBytes : ℕ := kMaxFramePayload + kFrameOverhead

structure FrameAccumulator where
  buffer : Bytes := []
  framesDecoded : ℕ := 0
  bytesDiscarded : ℕ := 0
  deriving DecidableEq, Repr

namespace FrameAccumulator

def push (acc : FrameAccumulator) (bytes : Bytes) : Result FrameAccumulator := do
  refuseIf (kMaxFrameBytes < bytes.length ∨
      2 * kMaxFrameBytes < acc.buffer.length + bytes.length) .oversized
    "frame accumulator bound exceeded; peer is not framing correctly"
  return { acc with buffer := acc.buffer ++ bytes }

/-- Pop the next complete frame, if there is one. A corrupt frame stays in the buffer. -/
def next (acc : FrameAccumulator) : Result (Option (FrameHeader × Bytes) × FrameAccumulator) := do
  if acc.buffer.length < kFrameHeaderBytes then return (none, acc)
  let declared := field acc.buffer 12 4
  refuseIf (kMaxFramePayload < declared) .oversized
    "declared frame payload exceeds kMaxFramePayload"
  let total := kFrameOverhead + declared
  if acc.buffer.length < total then return (none, acc)
  let frame ← decodeFrame (acc.buffer.take total)
  return (some frame,
    { acc with buffer := acc.buffer.drop total, framesDecoded := acc.framesDecoded + 1 })

/-- Pop frames until more bytes are needed, at most as many as the fuel allows. -/
def drain : ℕ → FrameAccumulator → Result (List (FrameHeader × Bytes) × FrameAccumulator)
  | 0, acc => .ok ([], acc)
  | fuel + 1, acc => do
    match ← acc.next with
    | (none, acc) => return ([], acc)
    | (some frame, acc) =>
      let (frames, acc) ← drain fuel acc
      return (frame :: frames, acc)

/-- Push the pieces of a stream one by one, popping after each what is complete. A frame takes more
than one byte, so the length of the buffer is fuel enough. -/
def receive (acc : FrameAccumulator) : List Bytes → Result (List (FrameHeader × Bytes) × FrameAccumulator)
  | [] => .ok ([], acc)
  | chunk :: chunks => do
    let pushed ← acc.push chunk
    let (first, drained) ← drain pushed.buffer.length pushed
    let (rest, last) ← receive drained chunks
    return (first ++ rest, last)

end FrameAccumulator

open FrameAccumulator

/-- A message that may be sent: its type and its payload. -/
structure Sendable (message : UInt16 × Bytes) : Prop where
  type : message.1 ≠ 0 ∧ message.1 ≤ kMaxMessageType
  payload : message.2.length ≤ kMaxFramePayload

def frameOf (message : UInt16 × Bytes) : Bytes := buildFrame message.1 message.2 0

def delivered (message : UInt16 × Bytes) : FrameHeader × Bytes :=
  (headerOf message.1 message.2, message.2)

section Next

variable {acc : FrameAccumulator} {m : UInt16 × Bytes} {rest : Bytes}

theorem length_frameOf (m : UInt16 × Bytes) : (frameOf m).length = kFrameOverhead + m.2.length :=
  length_buildFrame

theorem kFrameOverhead_eq : kFrameOverhead = 24 := rfl

theorem length_frameOf_le (sendable : Sendable m) : (frameOf m).length ≤ kMaxFrameBytes := by
  have := sendable.payload
  rw [length_frameOf, kMaxFrameBytes]
  omega

theorem declared_eq (sendable : Sendable m) {tail : Bytes}
    (h : acc.buffer ++ tail = frameOf m ++ rest) (header : kFrameHeaderBytes ≤ acc.buffer.length) :
    field acc.buffer 12 4 = m.2.length := by
  have htake : acc.buffer.take 20 = (buildFrame m.1 m.2 0).take 20 := by
    have hlong : 20 ≤ (buildFrame m.1 m.2 0).length := by
      rw [length_buildFrame, kFrameOverhead_eq]
      omega
    have hboth := congrArg (List.take 20) h
    have header : 20 ≤ acc.buffer.length := header
    rwa [List.take_append_of_le_length header, frameOf, List.take_append_of_le_length hlong] at hboth
  exact (field_frameHeader sendable.payload htake).2.2.2.2.1

theorem next_part (sendable : Sendable m) {tail : Bytes}
    (h : acc.buffer ++ tail = frameOf m ++ rest) (part : acc.buffer.length < (frameOf m).length) :
    acc.next = .ok (none, acc) := by
  unfold next
  split
  · rfl
  · rename_i hheader
    rw [declared_eq sendable h (Nat.not_lt.mp hheader),
      refuseIf_bind (Nat.not_lt.mpr sendable.payload), if_pos (length_frameOf m ▸ part)]
    rfl

theorem next_whole (sendable : Sendable m) (h : acc.buffer = frameOf m ++ rest) :
    acc.next = .ok (some (delivered m),
      { acc with buffer := rest, framesDecoded := acc.framesDecoded + 1 }) := by
  have hlength : acc.buffer.length = kFrameOverhead + m.2.length + rest.length := by
    rw [h, List.length_append, length_frameOf]
  have hheader : ¬ acc.buffer.length < kFrameHeaderBytes := by
    rw [hlength, kFrameOverhead_eq, kFrameHeaderBytes]
    omega
  have hended : acc.buffer ++ [] = frameOf m ++ rest := by rw [List.append_nil, h]
  have hdeclared : field acc.buffer 12 4 = m.2.length :=
    declared_eq sendable hended (Nat.not_lt.mp hheader)
  have htake : acc.buffer.take (kFrameOverhead + m.2.length) = frameOf m := by
    rw [h]
    exact List.take_left' (length_frameOf m)
  have hdrop : acc.buffer.drop (kFrameOverhead + m.2.length) = rest := by
    rw [h]
    exact List.drop_left' (length_frameOf m)
  have hdecode := decodeFrame_buildFrame sendable.payload sendable.type []
  rw [List.append_nil] at hdecode
  unfold next
  rw [if_neg hheader, hdeclared, refuseIf_bind (Nat.not_lt.mpr sendable.payload),
    if_neg (by rw [hlength]; omega), htake, hdrop, frameOf, hdecode]
  rfl

end Next

/-- The buffer holds no whole frame of what is still to come. -/
def Waits (acc : FrameAccumulator) (messages : List (UInt16 × Bytes)) : Prop :=
  ∀ m ∈ messages.head?, acc.buffer.length < (frameOf m).length

section Drain

variable {acc : FrameAccumulator} {messages : List (UInt16 × Bytes)} {tail : Bytes}

theorem next_waits (sendable : ∀ m ∈ messages, Sendable m)
    (h : acc.buffer ++ tail = (messages.map frameOf).flatten) (waits : Waits acc messages) :
    acc.next = .ok (none, acc) := by
  cases messages with
  | nil =>
    have hbuffer : acc.buffer = [] := (List.append_eq_nil_iff.mp h).1
    unfold next
    rw [if_pos (by rw [hbuffer]; decide)]
    rfl
  | cons m messages => exact next_part (sendable m List.mem_cons_self) h (waits m rfl)

/-- Draining delivers the frames that are complete, in order, and keeps the rest. The induction is on
the fuel: each frame popped shortens the buffer. -/
theorem drain_delivers (fuel : ℕ) (sendable : ∀ m ∈ messages, Sendable m)
    (h : acc.buffer ++ tail = (messages.map frameOf).flatten) :
    ∃ k acc', drain fuel acc = .ok ((messages.take k).map delivered, acc') ∧
      acc'.buffer ++ tail = ((messages.drop k).map frameOf).flatten ∧
      acc'.buffer.length ≤ acc.buffer.length ∧
      (acc.buffer.length ≤ fuel → Waits acc' (messages.drop k)) := by
  induction fuel generalizing acc messages with
  | zero =>
    refine ⟨0, acc, rfl, h, le_rfl, fun hempty m hm => ?_⟩
    rw [length_frameOf, kFrameOverhead_eq]
    omega
  | succ fuel ih =>
    have stop : Waits acc messages →
        ∃ k acc', drain (fuel + 1) acc = .ok ((messages.take k).map delivered, acc') ∧
          acc'.buffer ++ tail = ((messages.drop k).map frameOf).flatten ∧
          acc'.buffer.length ≤ acc.buffer.length ∧
          (acc.buffer.length ≤ fuel + 1 → Waits acc' (messages.drop k)) := by
      intro hwaits
      refine ⟨0, acc, ?_, h, le_rfl, fun _ => hwaits⟩
      rw [drain, next_waits sendable h hwaits]
      rfl
    cases messages with
    | nil => exact stop fun m hm => by cases hm
    | cons m messages =>
      rw [List.map_cons, List.flatten_cons] at h
      have hm := sendable m List.mem_cons_self
      by_cases hpart : acc.buffer.length < (frameOf m).length
      · refine stop fun m' hm' => ?_
        cases hm'
        exact hpart
      · -- the buffer starts with the whole frame of the next message
        have hframe : acc.buffer = frameOf m ++ acc.buffer.drop (frameOf m).length := by
          have htake := congrArg (List.take (frameOf m).length) h
          rw [List.take_append_of_le_length (Nat.not_lt.mp hpart), List.take_left] at htake
          rw [← htake, List.length_take, min_eq_left (Nat.not_lt.mp hpart), List.take_append_drop]
        have hshorter : (acc.buffer.drop (frameOf m).length).length < acc.buffer.length := by
          rw [List.length_drop, length_frameOf] at *
          rw [kFrameOverhead_eq] at *
          omega
        have hrest : acc.buffer.drop (frameOf m).length ++ tail = (messages.map frameOf).flatten := by
          rw [hframe, List.append_assoc] at h
          exact List.append_cancel_left h
        let popped : FrameAccumulator := { acc with
          buffer := acc.buffer.drop (frameOf m).length, framesDecoded := acc.framesDecoded + 1 }
        have hpopped : popped.buffer ++ tail = (messages.map frameOf).flatten := hrest
        obtain ⟨k, acc', hdrain, hbuffer, hle, hwaits⟩ :=
          ih (fun m' hm' => sendable m' (List.mem_cons_of_mem _ hm')) hpopped
        refine ⟨k + 1, acc', ?_, hbuffer, hle.trans hshorter.le, fun hfuel => hwaits ?_⟩
        · rw [drain, next_whole hm hframe]
          dsimp only [bind, Except.bind]
          rw [hdrain]
          rfl
        · show (acc.buffer.drop (frameOf m).length).length ≤ fuel
          omega

end Drain

section Receive

variable {acc : FrameAccumulator} {messages : List (UInt16 × Bytes)} {chunk tail : Bytes}

theorem length_lt_of_waits (sendable : ∀ m ∈ messages, Sendable m)
    (h : acc.buffer ++ tail = (messages.map frameOf).flatten) (waits : Waits acc messages) :
    acc.buffer.length < kMaxFrameBytes := by
  cases messages with
  | nil =>
    have hbuffer : acc.buffer = [] := (List.append_eq_nil_iff.mp h).1
    rw [hbuffer]
    decide
  | cons m messages =>
    have := waits m rfl
    have := length_frameOf_le (sendable m List.mem_cons_self)
    omega

theorem push_eq_ok (held : acc.buffer.length ≤ kMaxFrameBytes) (small : chunk.length ≤ kMaxFrameBytes) :
    acc.push chunk = .ok { acc with buffer := acc.buffer ++ chunk } := by
  unfold push
  rw [refuseIf_bind (by omega)]
  rfl

/-- One piece of the stream is taken in: everything complete is delivered, and the accumulator waits
for the rest, having stayed within its bound at every moment. -/
theorem push_drain (sendable : ∀ m ∈ messages, Sendable m)
    (h : acc.buffer ++ (chunk ++ tail) = (messages.map frameOf).flatten) (waits : Waits acc messages)
    (small : chunk.length ≤ kMaxFrameBytes) :
    ∃ pushed, acc.push chunk = .ok pushed ∧
      (∀ fuel, ∃ frames acc', drain fuel pushed = .ok (frames, acc') ∧
        acc'.buffer.length ≤ 2 * kMaxFrameBytes) ∧
      ∃ k acc', drain pushed.buffer.length pushed = .ok ((messages.take k).map delivered, acc') ∧
        acc'.buffer ++ tail = ((messages.drop k).map frameOf).flatten ∧
        Waits acc' (messages.drop k) := by
  have hheld := length_lt_of_waits sendable h waits
  rw [← List.append_assoc] at h
  let pushed : FrameAccumulator := { acc with buffer := acc.buffer ++ chunk }
  have hpushed : pushed.buffer ++ tail = (messages.map frameOf).flatten := h
  refine ⟨pushed, push_eq_ok hheld.le small, fun fuel => ?_, ?_⟩
  · obtain ⟨k, acc', hdrain, -, hle, -⟩ := drain_delivers fuel sendable hpushed
    refine ⟨_, acc', hdrain, hle.trans ?_⟩
    show (acc.buffer ++ chunk).length ≤ _
    rw [List.length_append]
    omega
  · obtain ⟨k, acc', hdrain, hbuffer, -, hwaits⟩ :=
      drain_delivers pushed.buffer.length sendable hpushed
    exact ⟨k, acc', hdrain, hbuffer, hwaits le_rfl⟩

theorem receive_delivers {chunks : List Bytes} (sendable : ∀ m ∈ messages, Sendable m)
    (small : ∀ chunk ∈ chunks, chunk.length ≤ kMaxFrameBytes)
    (h : acc.buffer ++ (chunks.flatten ++ tail) = (messages.map frameOf).flatten)
    (waits : Waits acc messages) :
    ∃ k acc', acc.receive chunks = .ok ((messages.take k).map delivered, acc') ∧
      acc'.buffer ++ tail = ((messages.drop k).map frameOf).flatten ∧
      Waits acc' (messages.drop k) := by
  induction chunks generalizing acc messages with
  | nil => exact ⟨0, acc, rfl, h, waits⟩
  | cons chunk chunks ih =>
    rw [List.flatten_cons, List.append_assoc] at h
    obtain ⟨pushed, hpush, -, k, acc₁, hdrain, hbuffer, hwaits⟩ :=
      push_drain sendable h waits (small chunk List.mem_cons_self)
    obtain ⟨k', acc₂, hreceive, hlast, hwaits'⟩ := ih
      (fun m hm => sendable m (List.mem_of_mem_drop hm))
      (fun c hc => small c (List.mem_cons_of_mem _ hc)) hbuffer hwaits
    rw [List.drop_drop] at hlast hwaits'
    refine ⟨k + k', acc₂, ?_, hlast, hwaits'⟩
    rw [receive, hpush]
    dsimp only [bind, Except.bind]
    rw [hdrain]
    dsimp only
    rw [hreceive, List.take_add, List.map_append]
    rfl

theorem waits_end (h : acc.buffer = (messages.map frameOf).flatten) (waits : Waits acc messages) :
    messages = [] := by
  cases messages with
  | nil => rfl
  | cons m messages =>
    have hlt := waits m rfl
    rw [h, List.map_cons, List.flatten_cons, List.length_append] at hlt
    omega

theorem frames_of_encodeFrame {frames : List Bytes}
    (h : List.Forall₂ (fun m frame => encodeFrame m.1 m.2 = .ok frame) messages frames) :
    (∀ m ∈ messages, Sendable m) ∧ frames = messages.map frameOf := by
  induction h with
  | nil => exact ⟨by simp, rfl⟩
  | @cons m frame messages frames hm _ ih =>
    obtain ⟨fits, permitted, rfl⟩ := encodeFrame_eq_ok.mp hm
    refine ⟨?_, by rw [ih.2]; rfl⟩
    rintro m' (_ | ⟨_, hm'⟩)
    · exact ⟨permitted, fits⟩
    · exact ih.1 m' hm'

/-- However the frames of a list of messages are cut into pieces, the accumulator delivers exactly
these messages, without an error, within its bound, and ends empty. -/
theorem receive_frames (messages : List (UInt16 × Bytes)) (frames chunks : List Bytes)
    (encoded : List.Forall₂ (fun m frame => encodeFrame m.1 m.2 = .ok frame) messages frames)
    (cut : chunks.flatten = frames.flatten)
    (small : ∀ chunk ∈ chunks, chunk.length ≤ kMaxFramePayload + kFrameOverhead) :
    (∃ received acc, receive {} chunks = .ok (received, acc) ∧
      received.map (fun frame => (frame.1.type, frame.2)) = messages ∧ acc.buffer = [] ∧
      acc.next = .ok (none, acc)) ∧
    ∀ before chunk after, chunks = before ++ chunk :: after →
      ∃ received acc pushed, receive {} before = .ok (received, acc) ∧
        acc.next = .ok (none, acc) ∧ acc.push chunk = .ok pushed ∧
        ∀ pops, ∃ popped acc', drain pops pushed = .ok (popped, acc') ∧
          acc'.buffer.length ≤ 2 * (kMaxFramePayload + kFrameOverhead) := by
  obtain ⟨sendable, rfl⟩ := frames_of_encodeFrame encoded
  have start : Waits {} messages := fun m _ => by
    rw [length_frameOf, kFrameOverhead_eq]
    exact Nat.lt_of_lt_of_le (by decide) (Nat.le_add_right 24 _)
  constructor
  · have hcut : ({} : FrameAccumulator).buffer ++ (chunks.flatten ++ []) =
        (messages.map frameOf).flatten := by
      rw [List.append_nil, cut]
      rfl
    obtain ⟨k, acc, hreceive, hbuffer, hwaits⟩ := receive_delivers sendable small hcut start
    have hnext := next_waits (fun m hm => sendable m (List.mem_of_mem_drop hm)) hbuffer hwaits
    rw [List.append_nil] at hbuffer
    have hend := waits_end hbuffer hwaits
    rw [hend] at hbuffer
    refine ⟨_, acc, hreceive, ?_, hbuffer, hnext⟩
    rw [List.take_of_length_le (List.drop_eq_nil_iff.mp hend), List.map_map]
    exact List.map_id' messages
  · rintro before chunk after rfl
    rw [List.flatten_append, List.flatten_cons] at cut
    have hcut : ({} : FrameAccumulator).buffer ++ (before.flatten ++ (chunk ++ after.flatten)) =
        (messages.map frameOf).flatten := cut
    obtain ⟨k, acc, hreceive, hbuffer, hwaits⟩ := receive_delivers sendable
      (fun c hc => small c (List.mem_append_left _ hc)) hcut start
    have hrest : ∀ m ∈ messages.drop k, Sendable m := fun m hm => sendable m (List.mem_of_mem_drop hm)
    obtain ⟨pushed, hpush, hdrain, -⟩ := push_drain hrest hbuffer hwaits (small chunk (by simp))
    exact ⟨_, acc, pushed, hreceive, next_waits hrest hbuffer hwaits, hpush, hdrain⟩

/-- A frame that arrives in two pieces, cut inside its header. -/
theorem receive_frames_halves :
    ∃ received acc, receive {} [(frameOf (1, [7])).take 10, (frameOf (1, [7])).drop 10] =
        .ok (received, acc) ∧
      received.map (fun frame => (frame.1.type, frame.2)) = [(1, [7])] ∧ acc.buffer = [] := by
  have hlength : (frameOf (1, [7])).length ≤ kMaxFramePayload + kFrameOverhead := by
    rw [length_frameOf]
    decide
  obtain ⟨⟨received, acc, hreceive, hmessages, hbuffer, -⟩, -⟩ := receive_frames [(1, [7])]
    [frameOf (1, [7])] [(frameOf (1, [7])).take 10, (frameOf (1, [7])).drop 10]
    (.cons (encodeFrame_eq_ok.mpr ⟨by decide, by decide, rfl⟩) .nil)
    (by rw [List.flatten_cons, List.flatten_singleton, List.take_append_drop, List.flatten_singleton])
    (by
      intro chunk hchunk
      rcases List.mem_pair.mp hchunk with rfl | rfl
      · exact (List.length_take_le' _ _).trans hlength
      · exact (List.length_drop ▸ Nat.sub_le _ _).trans hlength)
  exact ⟨received, acc, hreceive, hmessages, hbuffer⟩

end Receive

section Refusal

variable {acc : FrameAccumulator}

/-- Some frame a peer may send starts with these bytes. -/
def StartsFrame (bytes : Bytes) : Prop := ∃ m, Sendable m ∧ bytes <+: frameOf m

theorem magic_of_startsFrame {bytes : Bytes} (hlen : bytes.length = kFrameHeaderBytes)
    (h : StartsFrame bytes) : field bytes 0 4 = kFrameMagic.toNat := by
  obtain ⟨m, sendable, hfirst⟩ := h
  have htake : bytes.take 20 = (buildFrame m.1 m.2 0).take 20 := by
    have hall : bytes = (frameOf m).take bytes.length := List.prefix_iff_eq_take.mp hfirst
    rw [hlen] at hall
    rw [hall, List.take_take]
    rfl
  exact (field_frameHeader sendable.payload htake).1

theorem decodeFrame_refused {buffer : Bytes} (hlen : kFrameHeaderBytes ≤ buffer.length)
    (invalid : ¬ StartsFrame (buffer.take kFrameHeaderBytes)) : ∃ e, decodeFrame buffer = .error e := by
  cases h : decodeFrame buffer with
  | error e => exact ⟨e, rfl⟩
  | ok p =>
    obtain ⟨header, payload⟩ := p
    obtain ⟨fits, permitted, -, hfirst⟩ := eq_buildFrame_of_decodeFrame h
    exfalso
    apply invalid
    refine ⟨(header.type, payload), ⟨permitted, fits⟩, ?_⟩
    refine List.prefix_of_prefix_length_le (List.take_prefix _ _) hfirst ?_
    rw [List.length_take, length_frameOf, kFrameOverhead]
    omega

/-- A header that starts no frame is refused at once exactly when the length it declares is over the
bound or already there: the rest of the header is looked at only with the whole frame. -/
theorem next_refuses_iff (header : kFrameHeaderBytes ≤ acc.buffer.length)
    (invalid : ¬ StartsFrame (acc.buffer.take kFrameHeaderBytes)) :
    (∃ e, acc.next = .error e) ↔ kMaxFramePayload < field acc.buffer 12 4 ∨
      kFrameOverhead + field acc.buffer 12 4 ≤ acc.buffer.length := by
  unfold next
  rw [if_neg (Nat.not_lt.mpr header)]
  by_cases hover : kMaxFramePayload < field acc.buffer 12 4
  · rw [refuseIf_bind_error hover]
    exact ⟨fun _ => .inl hover, fun _ => ⟨_, rfl⟩⟩
  · rw [refuseIf_bind hover]
    constructor
    · rintro ⟨e, he⟩
      by_contra hwait
      rw [if_pos (by omega)] at he
      cases he
    · intro hwhole
      have hthere : kFrameOverhead + field acc.buffer 12 4 ≤ acc.buffer.length :=
        hwhole.resolve_left hover
      have hframe : kFrameHeaderBytes ≤
          (acc.buffer.take (kFrameOverhead + field acc.buffer 12 4)).length := by
        rw [List.length_take, kFrameOverhead]
        omega
      have hhead : (acc.buffer.take (kFrameOverhead + field acc.buffer 12 4)).take
          kFrameHeaderBytes = acc.buffer.take kFrameHeaderBytes := by
        rw [List.take_take, Nat.min_eq_left (by rw [kFrameOverhead]; omega)]
      obtain ⟨e, he⟩ := decodeFrame_refused hframe (hhead ▸ invalid)
      exact ⟨e, by rw [if_neg (by omega), he]; rfl⟩

/-- A buffer of zeros has no magic and declares an empty payload. Its last byte is waited for. -/
theorem next_refuses_zeros : (∃ e, FrameAccumulator.next { buffer := List.replicate 24 0 } = .error e) ↔
    kMaxFramePayload < 0 ∨ kFrameOverhead ≤ 24 :=
  next_refuses_iff (by decide) fun h => absurd (magic_of_startsFrame rfl h) (by decide)

/-- Twenty zeros start no frame, and the accumulator asks for more. -/
theorem next_waits_zeros : ¬ StartsFrame ((List.replicate 20 0).take kFrameHeaderBytes) ∧
    FrameAccumulator.next { buffer := List.replicate 20 0 } =
      .ok (none, { buffer := List.replicate 20 0 }) := by
  constructor
  · intro h
    exact absurd (magic_of_startsFrame rfl h) (by decide)
  · rfl

end Refusal

end FlowScheduler

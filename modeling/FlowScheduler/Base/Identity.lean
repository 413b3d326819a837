import FlowScheduler.Library.Codec

/-! # Identities, errors and checked arithmetic

Every identity is a 64-bit value tagged with its family, zero being the unbound
sentinel. Failures carry a stable code and a bounded text. Counters advance by
one and refuse to wrap.
-/

namespace FlowScheduler

open ByteCodec (Bytes)

def ascii (text : String) : Bytes := text.toList.map fun c => UInt8.ofNat c.toNat

abbrev Ticks := UInt64

def u64Max : UInt64 := 0xFFFFFFFFFFFFFFFF

def kNoDeadline : Ticks := u64Max
def kNoWindowBound : Ticks := u64Max

def hasDeadline (deadline : Ticks) : Bool := deadline != kNoDeadline

@[irreducible] def saturatingAdd (a b : UInt64) : UInt64 := if u64Max - a < b then u64Max else a + b

theorem toNat_saturatingAdd (a b : UInt64) :
    (saturatingAdd a b).toNat = min (a.toNat + b.toNat) (2 ^ 64 - 1) := by
  have hmax : u64Max.toNat = 2 ^ 64 - 1 := rfl
  have ha := a.toNat_lt
  have hle : a ≤ u64Max := by
    rw [UInt64.le_iff_toNat_le, hmax]
    omega
  unfold saturatingAdd
  split
  · rename_i h
    rw [UInt64.lt_iff_toNat_lt, UInt64.toNat_sub_of_le _ _ hle] at h
    omega
  · rename_i h
    rw [UInt64.lt_iff_toNat_lt, UInt64.toNat_sub_of_le _ _ hle] at h
    rw [UInt64.toNat_add, Nat.mod_eq_of_lt (by omega)]
    omega

inductive ErrorCode
  | ok
  | invalidArgument | outOfRange | arithmeticOverflow | bounded | unsupported | internal
  | notFound | alreadyExists | unknownFlow | unknownSchedule | unknownResource
  | unknownReservation | unknownAttempt | unknownPolicy | unknownWorker
  | staleFlowGeneration | stalePathGeneration | staleResourceGeneration
  | staleReservationGeneration | stalePolicyGeneration | staleQoSGeneration
  | stalePriorityGeneration | staleScheduleGeneration | staleEpoch | staleAttempt
  | staleAuthority | fenced
  | invalidState | notReady | notReleased | dependencyUnsatisfied | capacityUnavailable
  | reservationClosed | reservationExhausted | deadlinePassed | cancelled | zeroQuantum
  | concurrencyLimit | notPreemptible | preemptionThrottled
  | duplicateCompletion | contradictoryCompletion | completionForClosedAttempt
  | ambiguousOutcome
  | corruptData | truncated | oversized | sequenceGap | ioFailure | transportFailure
  | peerClosed | handshakeRejected | protocolViolation | busy
  deriving DecidableEq, Repr

/-- The code describes evidence superseded by newer authority. -/
def ErrorCode.isStaleness : ErrorCode → Bool
  | .staleFlowGeneration | .stalePathGeneration | .staleResourceGeneration
  | .staleReservationGeneration | .stalePolicyGeneration | .staleQoSGeneration
  | .stalePriorityGeneration | .staleScheduleGeneration | .staleEpoch | .staleAttempt
  | .staleAuthority | .fenced | .completionForClosedAttempt => true
  | _ => false

def kMaxErrorMessageBytes : ℕ := 512

structure Error where
  code : ErrorCode
  message : String
  deriving DecidableEq, Repr

/-- Build a failure, cutting its text at the diagnostic bound. -/
def failure (code : ErrorCode) (message : String) : Error :=
  ⟨code, String.ofList (message.toList.take kMaxErrorMessageBytes)⟩

abbrev Result := Except Error
abbrev Status := Result Unit

/-- An early return of the source: fail with the given code when the condition holds. -/
def refuseIf (p : Prop) [Decidable p] (code : ErrorCode) (message : String) : Status :=
  if p then .error (failure code message) else .ok ()

@[simp] theorem refuseIf_eq_ok {p : Prop} [Decidable p] {code : ErrorCode} {message : String}
    {u : Unit} : refuseIf p code message = .ok u ↔ ¬ p := by
  unfold refuseIf; split <;> simp_all

theorem bind_eq_ok {ε α β : Type} {x : Except ε α} {f : α → Except ε β} {b : β} :
    (x >>= f) = .ok b ↔ ∃ a, x = .ok a ∧ f a = .ok b := by
  cases x <;> simp [bind, Except.bind]

theorem refuseIf_bind {α : Type} {p : Prop} [Decidable p] {code : ErrorCode} {message : String}
    {k : Unit → Result α} (h : ¬ p) : (refuseIf p code message >>= k) = k () := by
  rw [refuseIf, if_neg h]
  rfl

theorem refuseIf_bind_error {α : Type} {p : Prop} [Decidable p] {code : ErrorCode} {message : String}
    {k : Unit → Result α} (h : p) :
    (refuseIf p code message >>= k) = .error (failure code message) := by
  rw [refuseIf, if_pos h]
  rfl

/-- A table keyed by an ordered type, iterated in key order. -/
abbrev Table (κ ν : Type) [Ord κ] := Std.ExtTreeMap κ ν compare

abbrev KeySet (κ : Type) [Ord κ] := Std.ExtTreeSet κ compare

inductive IdFamily
  | flow | schedule | attempt | resource | path | reservation | priority | qos | policy
  | epoch | worker | boot | generation | fairnessGroup | trace
  deriving DecidableEq, Repr

def IdFamily.name : IdFamily → String
  | .flow => "flow" | .schedule => "schedule" | .attempt => "attempt"
  | .resource => "resource" | .path => "path" | .reservation => "reservation"
  | .priority => "priority" | .qos => "qos" | .policy => "policy" | .epoch => "epoch"
  | .worker => "worker" | .boot => "boot" | .generation => "generation"
  | .fairnessGroup => "fairness-group" | .trace => "trace"

/-- A strongly typed identity handle; the default value is the unbound sentinel. -/
structure Id (family : IdFamily) where
  value : UInt64 := 0
  deriving DecidableEq, Repr

namespace Id

variable {f : IdFamily}

instance : Inhabited (Id f) := ⟨{}⟩
instance : Ord (Id f) := ⟨fun a b => compare a.value b.value⟩
instance : LT (Id f) := ⟨fun a b => a.value < b.value⟩
instance (a b : Id f) : Decidable (a < b) := inferInstanceAs (Decidable (a.value < b.value))

theorem ext_value {a b : Id f} (h : a.value = b.value) : a = b := by
  cases a; cases b; simp_all

instance : Std.TransOrd (Id f) where
  eq_swap {a b} := Std.OrientedOrd.eq_swap (a := a.value) (b := b.value)
  isLE_trans {a b c} := Std.TransOrd.isLE_trans (a := a.value) (b := b.value) (c := c.value)

instance : Std.LawfulEqOrd (Id f) where
  compare_self {a} := Std.ReflOrd.compare_self (a := a.value)
  eq_of_compare {a b} h :=
    ext_value (Std.LawfulEqOrd.eq_of_compare (show compare a.value b.value = .eq from h))

def valid (id : Id f) : Bool := id.value != 0

def toText (id : Id f) : String := f.name ++ "#" ++ toString id.value.toNat

/-- Advance a counter by exactly one, failing at the numeric limit. -/
def advance (current : Id f) : Result (Id f) :=
  if current.value = u64Max then
    .error (failure .arithmeticOverflow "counter exhausted; generation cannot advance")
  else .ok ⟨current.value + 1⟩

theorem advance_eq_ok {a b : Id f} : a.advance = .ok b ↔ a.value ≠ u64Max ∧ b = ⟨a.value + 1⟩ := by
  unfold advance
  split
  · simp_all
  · simp_all [eq_comm]

theorem toNat_of_advance {a b : Id f} (h : a.advance = .ok b) :
    b.value.toNat = a.value.toNat + 1 := by
  obtain ⟨hmax, rfl⟩ := advance_eq_ok.mp h
  have hlt := a.value.toNat_lt
  have hne : a.value.toNat ≠ 2 ^ 64 - 1 := fun h => hmax (UInt64.toNat_inj.mp h)
  rw [UInt64.toNat_add, UInt64.toNat_one, Nat.mod_eq_of_lt (by omega)]

theorem lt_of_advance {a b : Id f} (h : a.advance = .ok b) : a.value < b.value := by
  rw [UInt64.lt_iff_toNat_lt, toNat_of_advance h]
  exact Nat.lt_succ_self _

theorem valid_of_advance {a b : Id f} (h : a.advance = .ok b) : b.valid := by
  have hlt := lt_of_advance h
  simp only [valid, bne_iff_ne, ne_eq]
  intro hzero
  rw [hzero] at hlt
  exact absurd hlt (by simp)

end Id

abbrev FlowId := Id .flow
abbrev ScheduleId := Id .schedule
abbrev DispatchAttemptId := Id .attempt
abbrev ResourceId := Id .resource
abbrev PathId := Id .path
abbrev ReservationId := Id .reservation
abbrev PriorityClassId := Id .priority
abbrev QoSClassId := Id .qos
abbrev PolicyId := Id .policy
abbrev FabricEpoch := Id .epoch
abbrev WorkerId := Id .worker
abbrev BootId := Id .boot
abbrev Generation := Id .generation
abbrev FairnessGroupId := Id .fairnessGroup
abbrev TraceId := Id .trace

inductive ProvenanceOrigin | unknown | external | internal | recovered | synthetic
  deriving DecidableEq, Repr

def ProvenanceOrigin.code : ProvenanceOrigin → UInt8
  | .unknown => 0 | .external => 1 | .internal => 2 | .recovered => 3 | .synthetic => 4

def ProvenanceOrigin.ofCode : UInt8 → Option ProvenanceOrigin
  | 0 => some .unknown | 1 => some .external | 2 => some .internal | 3 => some .recovered
  | 4 => some .synthetic | _ => none

@[simp] theorem ProvenanceOrigin.ofCode_code (o : ProvenanceOrigin) : ofCode o.code = some o := by
  cases o <;> rfl

/-- Where a definition or a piece of evidence came from. -/
structure Provenance where
  origin : ProvenanceOrigin := .unknown
  sequence : UInt64 := 0
  digest : UInt64 := 0
  deriving DecidableEq, Repr

def Provenance.established (p : Provenance) : Bool := p.origin != .unknown

theorem le_max_tick (a b : UInt64) : a ≤ max a b := by
  change a ≤ if a ≤ b then b else a
  split
  · assumption
  · exact UInt64.le_refl _

theorem tick_le_max (a b : UInt64) : b ≤ max a b := by
  change b ≤ if a ≤ b then b else a
  split
  · exact UInt64.le_refl _
  · exact UInt64.le_of_lt (UInt64.not_le.mp ‹_›)

end FlowScheduler

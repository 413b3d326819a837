import FlowScheduler.Base.Descriptors

/-! # Schedules, tickets and completion evidence

The decisions of an arbitration round, the authority a dispatch carries, and
the evidence a worker returns. Each value binds the exact generations it was
made under, and each is covered by a digest.
-/

namespace FlowScheduler

open ByteCodec (Bytes)

inductive DecisionKind | run | preempt
  deriving DecidableEq, Repr

def DecisionKind.code : DecisionKind → UInt8
  | .run => 0 | .preempt => 1

def DecisionKind.ofCode : UInt8 → Option DecisionKind
  | 0 => some .run | 1 => some .preempt | _ => none

@[simp] theorem DecisionKind.ofCode_code (k : DecisionKind) : ofCode k.code = some k := by
  cases k <;> rfl

inductive DecisionReason
  | selected | awaitingRelease | awaitingDependency | awaitingReservationWindow
  | reservationWindowClosed | resourceCapacityExhausted | concurrencyLimitReached
  | deadlineMissed | scheduleEntryLimitReached | displacedByHigherAuthority
  | preemptionThrottled | incumbentNotPreemptible | noLegalQuantum | alreadyInFlight | terminal
  | ambiguousRequiresResolution | awaitingReadinessSignal | deliveryHorizonExpired
  | resourceUnavailable | preemptionDisabled | preemptionNotAuthorized | reservationExhausted
  | dependencyFailed
  deriving DecidableEq, Repr

namespace DecisionReason

def code : DecisionReason → UInt8
  | selected => 0 | awaitingRelease => 1 | awaitingDependency => 2
  | awaitingReservationWindow => 3 | reservationWindowClosed => 4
  | resourceCapacityExhausted => 5 | concurrencyLimitReached => 6 | deadlineMissed => 7
  | scheduleEntryLimitReached => 8 | displacedByHigherAuthority => 9 | preemptionThrottled => 10
  | incumbentNotPreemptible => 11 | noLegalQuantum => 12 | alreadyInFlight => 13 | terminal => 14
  | ambiguousRequiresResolution => 15 | awaitingReadinessSignal => 16
  | deliveryHorizonExpired => 17 | resourceUnavailable => 18 | preemptionDisabled => 19
  | preemptionNotAuthorized => 20 | reservationExhausted => 21 | dependencyFailed => 22

/-- The durable format admits only the reasons up to the ambiguity code. -/
def ofDurableCode : UInt8 → Option DecisionReason
  | 0 => some selected | 1 => some awaitingRelease | 2 => some awaitingDependency
  | 3 => some awaitingReservationWindow | 4 => some reservationWindowClosed
  | 5 => some resourceCapacityExhausted | 6 => some concurrencyLimitReached
  | 7 => some deadlineMissed | 8 => some scheduleEntryLimitReached
  | 9 => some displacedByHigherAuthority | 10 => some preemptionThrottled
  | 11 => some incumbentNotPreemptible | 12 => some noLegalQuantum | 13 => some alreadyInFlight
  | 14 => some terminal | 15 => some ambiguousRequiresResolution | _ => none

theorem ofDurableCode_code {c : UInt8} {r : DecisionReason} (h : ofDurableCode c = some r) :
    ofDurableCode r.code = some r := by
  unfold ofDurableCode at h
  split at h <;> cases h <;> rfl

/-- The text under which a deferral reports its reason. -/
def toText : DecisionReason → String
  | selected => "selected" | awaitingRelease => "awaiting-release"
  | awaitingDependency => "awaiting-dependency"
  | awaitingReservationWindow => "awaiting-reservation-window"
  | reservationWindowClosed => "reservation-window-closed"
  | resourceCapacityExhausted => "resource-capacity-exhausted"
  | concurrencyLimitReached => "concurrency-limit-reached" | deadlineMissed => "deadline-missed"
  | scheduleEntryLimitReached => "schedule-entry-limit-reached"
  | displacedByHigherAuthority => "displaced-by-higher-authority"
  | preemptionThrottled => "preemption-throttled"
  | incumbentNotPreemptible => "incumbent-not-preemptible" | noLegalQuantum => "no-legal-quantum"
  | alreadyInFlight => "already-in-flight" | terminal => "terminal"
  | ambiguousRequiresResolution => "ambiguous-requires-resolution"
  | awaitingReadinessSignal => "awaiting-readiness-signal"
  | deliveryHorizonExpired => "delivery-horizon-expired"
  | resourceUnavailable => "resource-unavailable" | preemptionDisabled => "preemption-disabled"
  | preemptionNotAuthorized => "preemption-not-authorized"
  | reservationExhausted => "reservation-exhausted" | dependencyFailed => "dependency-failed"

end DecisionReason

def printable (b : UInt8) : UInt8 := if b < 0x20 ∨ b = 0x7F then 0x20 else b

/-- The copy loop of a bounded detail, with the number of bytes already copied. -/
def boundedDetailFrom : ℕ → Bytes → Bytes
  | _, [] => []
  | size, b :: bs =>
    if kMaxExplanationBytes ≤ size + 3 then ascii "..."
    else printable b :: boundedDetailFrom (size + 1) bs

/-- Bound a diagnostic to the explanation limit and make it printable. -/
def boundedDetail (text : Bytes) : Bytes := (boundedDetailFrom 0 text).take kMaxExplanationBytes

theorem length_boundedDetail_le (text : Bytes) :
    (boundedDetail text).length ≤ kMaxExplanationBytes := by
  simp [boundedDetail]

theorem printable_printable (b : UInt8) : printable (printable b) = printable b := by
  unfold printable
  split <;> rfl

theorem boundedDetailFrom_idem (size : ℕ) (text : Bytes) :
    boundedDetailFrom size (boundedDetailFrom size text) = boundedDetailFrom size text := by
  induction text generalizing size with
  | nil => rfl
  | cons b bs ih =>
    by_cases h : kMaxExplanationBytes ≤ size + 3
    · have hcut : boundedDetailFrom size (b :: bs) = ascii "..." := if_pos h
      rw [hcut]
      exact if_pos h
    · have hcopy : ∀ c cs, boundedDetailFrom size (c :: cs) =
          printable c :: boundedDetailFrom (size + 1) cs := fun _ _ => if_neg h
      rw [hcopy, hcopy, ih, printable_printable]

theorem length_boundedDetailFrom_le {size : ℕ} (text : Bytes) (h : size + 3 ≤ kMaxExplanationBytes) :
    size + (boundedDetailFrom size text).length ≤ kMaxExplanationBytes := by
  induction text generalizing size with
  | nil => exact (Nat.le_add_right _ 3).trans h
  | cons b bs ih =>
    unfold boundedDetailFrom
    split
    · exact h
    · rename_i hroom
      have := @ih (size + 1) (by omega)
      rw [List.length_cons]
      omega

theorem boundedDetail_boundedDetail (text : Bytes) :
    boundedDetail (boundedDetail text) = boundedDetail text := by
  have hlen : (boundedDetailFrom 0 text).length ≤ kMaxExplanationBytes := by
    simpa using @length_boundedDetailFrom_le 0 text (by decide)
  unfold boundedDetail
  rw [List.take_of_length_le hlen, boundedDetailFrom_idem, List.take_of_length_le hlen]

/-- One arbitration decision with every generation that justified it. -/
structure ScheduleEntry where
  ordinal : UInt32 := 0
  kind : DecisionKind := .run
  flow : FlowId := {}
  flowGeneration : Generation := {}
  attempt : DispatchAttemptId := {}
  path : PathId := {}
  pathGeneration : Generation := {}
  resource : ResourceId := {}
  resourceGeneration : Generation := {}
  reservation : ReservationId := {}
  reservationGeneration : Generation := {}
  qos : QoSClassId := {}
  qosGeneration : Generation := {}
  priority : PriorityClassId := {}
  priorityGeneration : Generation := {}
  quantum : UInt64 := 0
  startTick : Ticks := 0
  deadlineTick : Ticks := kNoDeadline
  reservationEnd : Ticks := kNoWindowBound
  tier : UInt32 := 0
  reason : DecisionReason := .selected
  detail : Bytes := []
  orderingDigest : UInt64 := 0
  deriving DecidableEq, Repr

namespace ScheduleEntry

def runsOn (e : ScheduleEntry) (id : ResourceId) : Bool := e.kind = .run && e.resource = id

/-- A service window granted under the reservation. -/
def runsUnder (e : ScheduleEntry) (id : ReservationId) : Bool :=
  e.kind = .run && e.reservation = id && (⟨e.reservation, e.reservationGeneration⟩ :
    Binding .reservation).bound

theorem valid_of_runsUnder {e : ScheduleEntry} {id : ReservationId} (h : e.runsUnder id) :
    e.reservation = id ∧ e.reservation.valid := by
  simp only [runsUnder, Binding.bound, Bool.and_eq_true, decide_eq_true_eq] at h
  exact ⟨h.1.2, h.2.1⟩

end ScheduleEntry

/-- The service granted by the entries that satisfy a condition. -/
def serviceOf (p : ScheduleEntry → Bool) (entries : List ScheduleEntry) : ℕ :=
  ((entries.filter p).map (·.quantum.toNat)).sum

section Service

variable {p q : ScheduleEntry → Bool} {entries more : List ScheduleEntry} {e : ScheduleEntry}

theorem serviceOf_append : serviceOf p (entries ++ more) = serviceOf p entries + serviceOf p more := by
  simp [serviceOf, List.filter_append]

theorem serviceOf_append_pos (h : p e) :
    serviceOf p (entries ++ [e]) = serviceOf p entries + e.quantum.toNat := by
  simp [serviceOf, List.filter_append, h]

theorem serviceOf_append_neg (h : ¬ p e) : serviceOf p (entries ++ [e]) = serviceOf p entries := by
  simp [serviceOf, List.filter_append, h]

theorem serviceOf_congr (h : ∀ e ∈ entries, p e = q e) : serviceOf p entries = serviceOf q entries := by
  unfold serviceOf
  rw [List.filter_congr h]

theorem serviceOf_mono (h : ∀ e ∈ entries, p e → q e) : serviceOf p entries ≤ serviceOf q entries := by
  induction entries with
  | nil => exact Nat.le_refl _
  | cons e entries ih =>
    have hrest := ih fun e he => h e (List.mem_cons_of_mem _ he)
    have hhead := h e List.mem_cons_self
    unfold serviceOf at hrest ⊢
    by_cases hp : p e
    · simp only [List.filter_cons, hp, hhead hp, if_true, List.map_cons, List.sum_cons]
      omega
    · by_cases hq : q e
      · simp only [List.filter_cons, hp, hq, if_true, List.map_cons, List.sum_cons,
          Bool.false_eq_true, if_false]
        omega
      · simpa only [List.filter_cons, hp, hq, Bool.false_eq_true, if_false] using hrest

theorem serviceOf_eq_zero (h : ∀ e ∈ entries, ¬ p e) : serviceOf p entries = 0 := by
  simp [serviceOf, List.filter_eq_nil_iff.mpr h]

end Service

structure Schedule where
  schedule : ScheduleId := {}
  generation : Generation := {}
  epoch : FabricEpoch := {}
  policy : PolicyId := {}
  policyGeneration : Generation := {}
  policyBinding : PolicyBinding := {}
  atTick : Ticks := 0
  entries : List ScheduleEntry := []
  digest : UInt64 := 0
  provenance : Provenance := {}
  deriving DecidableEq, Repr

def ScheduleEntry.addTo (d : Digest64) (e : ScheduleEntry) : Digest64 :=
  let d := (d.addU32 e.ordinal).addU8 e.kind.code
  let d := d.addU64s [e.flow.value, e.flowGeneration.value, e.attempt.value, e.path.value,
    e.pathGeneration.value, e.resource.value, e.resourceGeneration.value, e.reservation.value,
    e.reservationGeneration.value, e.qos.value, e.qosGeneration.value, e.priority.value,
    e.priorityGeneration.value, e.quantum, e.startTick, e.deadlineTick, e.reservationEnd]
  let d := (d.addU32 e.tier).addU8 e.reason.code
  (d.addU64 e.orderingDigest).addString e.detail

def computeScheduleDigest (s : Schedule) : UInt64 :=
  let d : Digest64 := {}
  let d := d.addU64s [s.schedule.value, s.generation.value, s.epoch.value, s.policy.value,
    s.policyGeneration.value, s.policyBinding.digest, s.atTick]
  (s.entries.foldl ScheduleEntry.addTo (d.addSize s.entries.length)).state

inductive AttemptState
  | opened | started | committed | preempted | cancelled | abandoned | rejected
  deriving DecidableEq, Repr

namespace AttemptState

def code : AttemptState → UInt8
  | .opened => 0 | started => 1 | committed => 2 | preempted => 3 | cancelled => 4
  | abandoned => 5 | rejected => 6

def ofCode : UInt8 → Option AttemptState
  | 0 => some .opened | 1 => some started | 2 => some committed | 3 => some preempted
  | 4 => some cancelled | 5 => some abandoned | 6 => some rejected | _ => none

@[simp] theorem ofCode_code (a : AttemptState) : ofCode a.code = some a := by cases a <;> rfl

def isTerminal : AttemptState → Bool
  | .opened | started => false
  | _ => true

def toText : AttemptState → String
  | .opened => "open" | started => "started" | committed => "committed"
  | preempted => "preempted" | cancelled => "cancelled" | abandoned => "abandoned"
  | rejected => "rejected"

end AttemptState

structure DispatchTicket where
  attempt : DispatchAttemptId := {}
  epoch : FabricEpoch := {}
  schedule : ScheduleId := {}
  scheduleGeneration : Generation := {}
  flow : FlowId := {}
  flowGeneration : Generation := {}
  path : PathId := {}
  pathGeneration : Generation := {}
  resource : ResourceId := {}
  resourceGeneration : Generation := {}
  reservation : ReservationId := {}
  reservationGeneration : Generation := {}
  qos : QoSClassId := {}
  qosGeneration : Generation := {}
  priority : PriorityClassId := {}
  priorityGeneration : Generation := {}
  policy : PolicyId := {}
  policyGeneration : Generation := {}
  worker : WorkerId := {}
  boot : BootId := {}
  startTick : Ticks := 0
  deadlineTick : Ticks := kNoDeadline
  reservationEnd : Ticks := kNoWindowBound
  quantum : UInt64 := 0
  state : AttemptState := .opened
  digest : UInt64 := 0
  deriving DecidableEq, Repr

/-- The digest a ticket must carry: every field but its state, in order. -/
def DispatchTicket.computeDigest (t : DispatchTicket) : UInt64 :=
  let d : Digest64 := {}
  (d.addU64s [t.attempt.value, t.epoch.value, t.schedule.value, t.scheduleGeneration.value,
    t.flow.value, t.flowGeneration.value, t.path.value, t.pathGeneration.value, t.resource.value,
    t.resourceGeneration.value, t.reservation.value, t.reservationGeneration.value, t.qos.value,
    t.qosGeneration.value, t.priority.value, t.priorityGeneration.value, t.policy.value,
    t.policyGeneration.value, t.worker.value, t.boot.value, t.startTick, t.deadlineTick,
    t.reservationEnd, t.quantum]).state

inductive CompletionOutcome | served | noService | failed
  deriving DecidableEq, Repr

def CompletionOutcome.code : CompletionOutcome → UInt8
  | .served => 0 | .noService => 1 | .failed => 2

def CompletionOutcome.ofCode : UInt8 → Option CompletionOutcome
  | 0 => some .served | 1 => some .noService | 2 => some .failed | _ => none

@[simp] theorem CompletionOutcome.ofCode_code (o : CompletionOutcome) : ofCode o.code = some o := by
  cases o <;> rfl

structure CompletionEvidence where
  schedule : ScheduleId := {}
  scheduleGeneration : Generation := {}
  attempt : DispatchAttemptId := {}
  epoch : FabricEpoch := {}
  flow : FlowId := {}
  flowGeneration : Generation := {}
  worker : WorkerId := {}
  boot : BootId := {}
  outcome : CompletionOutcome := .served
  served : UInt64 := 0
  effectCode : UInt32 := 0
  effectDigest : UInt64 := 0
  observedTick : Ticks := 0
  provenance : Provenance := {}
  deriving DecidableEq, Repr

def CompletionEvidence.digest (e : CompletionEvidence) : UInt64 :=
  let d : Digest64 := {}
  let d := d.addU64s [e.schedule.value, e.scheduleGeneration.value, e.attempt.value,
    e.epoch.value, e.flow.value, e.flowGeneration.value, e.worker.value, e.boot.value]
  let d := ((d.addU8 e.outcome.code).addU64 e.served).addU32 e.effectCode
  let d := (d.addU64s [e.effectDigest, e.observedTick]).addU8 e.provenance.origin.code
  (d.addU64s [e.provenance.sequence, e.provenance.digest]).state

inductive CommitDisposition | applied | idempotentDuplicate | rejected
  deriving DecidableEq, Repr

structure CommitOutcome where
  disposition : CommitDisposition := .rejected
  code : ErrorCode := .ok
  lifecycleAfter : FlowLifecycle := .waiting
  credited : UInt64 := 0
  flowCompleted : Bool := false
  detail : String := ""
  deriving DecidableEq, Repr

structure ExplanationStep where
  atTick : Ticks := 0
  lifecycle : FlowLifecycle := .waiting
  reason : DecisionReason := .selected
  schedule : ScheduleId := {}
  attempt : DispatchAttemptId := {}
  detail : Bytes := []
  deriving DecidableEq, Repr

structure DeferredFlow where
  flow : FlowId := {}
  generation : Generation := {}
  reason : DecisionReason := .awaitingRelease
  detail : Bytes := []
  deriving DecidableEq, Repr

structure ArbitrationOutcome where
  schedule : Schedule := {}
  deferred : List DeferredFlow := []
  deferredTruncated : Bool := false
  deadlineMisses : List FlowId := []
  deliveryReclaims : List FlowId := []
  deriving DecidableEq, Repr

inductive EpochReason | explicit | coordinatorRestart | policyChange | topologyChange | recovery
  deriving DecidableEq, Repr

def EpochReason.code : EpochReason → UInt8
  | .explicit => 0 | .coordinatorRestart => 1 | .policyChange => 2 | .topologyChange => 3
  | .recovery => 4

def EpochReason.ofCode : UInt8 → Option EpochReason
  | 0 => some .explicit | 1 => some .coordinatorRestart | 2 => some .policyChange
  | 3 => some .topologyChange | 4 => some .recovery | _ => none

@[simp] theorem EpochReason.ofCode_code (r : EpochReason) : ofCode r.code = some r := by
  cases r <;> rfl

inductive AmbiguityResolution | retry | abandon
  deriving DecidableEq, Repr

def AmbiguityResolution.code : AmbiguityResolution → UInt8
  | .retry => 0 | .abandon => 1

def AmbiguityResolution.ofCode : UInt8 → Option AmbiguityResolution
  | 0 => some .retry | 1 => some .abandon | _ => none

@[simp] theorem AmbiguityResolution.ofCode_code (r : AmbiguityResolution) :
    ofCode r.code = some r := by cases r <;> rfl

inductive ReadinessSignal | unset | ready | notReady
  deriving DecidableEq, Repr

def ReadinessSignal.code : ReadinessSignal → UInt8
  | .unset => 0 | .ready => 1 | .notReady => 2

def ReadinessSignal.ofCode : UInt8 → Option ReadinessSignal
  | 0 => some .unset | 1 => some .ready | 2 => some .notReady | _ => none

@[simp] theorem ReadinessSignal.ofCode_code (r : ReadinessSignal) : ofCode r.code = some r := by
  cases r <;> rfl

end FlowScheduler

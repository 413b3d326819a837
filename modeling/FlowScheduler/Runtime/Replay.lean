import FlowScheduler.Runtime.Record
import FlowScheduler.Durable.Accepts

/-! # Replay of typed records

What recovery does with a record once its bytes have been read. The bytes of a
record that was appended are read back as that record, with one exception: a
cancellation carries a text its reader does not expect.
-/

namespace FlowScheduler

open ByteCodec RecordReader

namespace Record

def Storable : Record → Prop
  | flowAdmitted d | flowUpdated d =>
    d.readinessSignal ≤ 2 ∧ d.dependencies.length ≤ kMaxDependenciesPerFlow
  | scheduleIssued schedule => schedule.Storable
  | attemptOpened ticket _ _ => ticket.Storable
  | completionCommitted evidence _ _ _ => evidence.Storable
  | _ => True

def Legible : Record → Prop
  | scheduleIssued schedule => ∀ e ∈ schedule.entries, e.detail.length ≤ kMaxExplanationBytes
  | _ => True

theorem Storable.legible {r : Record} (h : r.Storable) : r.Legible := by
  cases r with
  | scheduleIssued schedule => exact fun e he => (h.entries e he).detail
  | _ => exact trivial

def replay (s : Impl) : Record → Result Impl
  | policyInstalled policy => do
    policy.validate
    return s.applyPolicy policy
  | resourceRegistered d => do
    d.validate
    return s.applyResource d
  | reservationRegistered d => do
    d.validate
    return s.applyReservation d
  | reservationRetired reservation generation =>
    return s.applyRetireReservation reservation generation
  | priorityClassRegistered d => do
    d.validate
    return s.applyPriorityClass d
  | qosClassRegistered d => do
    d.validate
    return s.applyQosClass d
  | epochAdvanced _ next _ tick => return s.applyEpochAdvance next tick
  | flowAdmitted d => do
    d.validate
    s.applyAdmit d
  | flowUpdated d => do
    d.validate
    s.applyUpdate d
  | flowReadinessChanged flow generation signal tick =>
    return s.applyReadiness flow generation signal tick
  | flowCancelled flow generation tick _ =>
    return (s.applyCancel flow generation tick).normalizeTransientStates tick
  | flowRetired flow generation => return s.applyRetireFlow flow generation
  | scheduleIssued schedule => return s.applySchedule schedule
  | scheduleReleased schedule tick => return s.applyReleaseSchedule schedule tick
  | attemptOpened ticket nominal tick => return s.applyAttemptOpened ticket nominal tick
  | attemptStarted attempt tick => return s.applyAttemptStarted attempt tick
  | attemptClosed attempt state tick detail =>
    return (s.applyAttemptClosed attempt state detail tick).normalizeTransientStates tick
  | completionCommitted evidence credited lifecycle tick =>
    return s.applyCompletion evidence credited lifecycle tick
  | ambiguityResolved flow generation resolution tick =>
    return s.applyAmbiguityResolved flow generation resolution tick

end Record

open Record

section Accepted

variable {s s' : Impl}

/-- Bytes that recovery accepts are a record, up to the text of a detail, or change nothing. -/
theorem replay_of_applyRecord {type : JournalRecordType} {payload : Bytes}
    (h : s.applyRecord type payload = .ok s') :
    s' = s ∨ ∃ r : Record, r.Storable ∧ r.replay s = .ok s' := by
  obtain ⟨p, hp, hs⟩ := bind_eq_ok.mp h
  cases hs
  refine Yields.bind (P := fun s' => s' = s ∨ ∃ r : Record, r.Storable ∧ r.replay s = .ok s')
    (k := pure) ?_ (fun a ha => .pure ha) payload p.1 p.2 (by rw [bind_pure]; exact hp)
  cases type with
  | policyInstalled =>
    refine .skip fun d => Yields.lift.bind fun _ hd => .skip fun _ => .pure (.inr ?_)
    exact ⟨.policyInstalled d, trivial, by rw [replay, hd]; rfl⟩
  | resourceRegistered =>
    refine .skip fun d => Yields.lift.bind fun _ hd => .skip fun _ => .pure (.inr ?_)
    exact ⟨.resourceRegistered d, trivial, by rw [replay, hd]; rfl⟩
  | reservationRegistered =>
    refine .skip fun d => Yields.lift.bind fun _ hd => .skip fun _ => .pure (.inr ?_)
    exact ⟨.reservationRegistered d, trivial, by rw [replay, hd]; rfl⟩
  | priorityClassRegistered =>
    refine .skip fun d => Yields.lift.bind fun _ hd => .skip fun _ => .pure (.inr ?_)
    exact ⟨.priorityClassRegistered d, trivial, by rw [replay, hd]; rfl⟩
  | qosClassRegistered =>
    refine .skip fun d => Yields.lift.bind fun _ hd => .skip fun _ => .pure (.inr ?_)
    exact ⟨.qosClassRegistered d, trivial, by rw [replay, hd]; rfl⟩
  | reservationRetired =>
    refine .skip fun id => .skip fun generation => .skip fun _ => .pure (.inr ?_)
    exact ⟨.reservationRetired id generation, trivial, rfl⟩
  | epochAdvanced =>
    refine .skip fun previous => .skip fun next => .skip fun reason => .skip fun tick => ?_
    exact .skip fun _ => .pure (.inr ⟨.epochAdvanced previous next reason tick, trivial, rfl⟩)
  | flowAdmitted =>
    refine yields_flowDescriptor.bind fun d hd => Yields.lift.bind fun _ hv => ?_
    refine Yields.lift.bind fun t ht => .skip fun _ => .pure (.inr ?_)
    exact ⟨.flowAdmitted d, hd, by rw [replay, hv]; exact ht⟩
  | flowUpdated =>
    refine yields_flowDescriptor.bind fun d hd => Yields.lift.bind fun _ hv => ?_
    refine Yields.lift.bind fun t ht => .skip fun _ => .pure (.inr ?_)
    exact ⟨.flowUpdated d, hd, by rw [replay, hv]; exact ht⟩
  | flowReadinessChanged =>
    refine .skip fun flow => .skip fun generation => .skip fun signal => .skip fun tick => ?_
    refine .skip fun _ => .pure (.inr ?_)
    exact ⟨.flowReadinessChanged flow generation signal tick, trivial, rfl⟩
  | flowCancelled =>
    refine .skip fun flow => .skip fun generation => .skip fun tick => .skip fun _ => ?_
    exact .pure (.inr ⟨.flowCancelled flow generation tick [], trivial, rfl⟩)
  | flowRetired =>
    refine .skip fun flow => .skip fun generation => .skip fun _ => ?_
    exact .pure (.inr ⟨.flowRetired flow generation, trivial, rfl⟩)
  | scheduleIssued =>
    refine yields_schedule.bind fun schedule h => .skip fun _ => ?_
    exact .pure (.inr ⟨.scheduleIssued schedule, h, rfl⟩)
  | scheduleReleased =>
    refine .skip fun schedule => .skip fun tick => .skip fun _ => ?_
    exact .pure (.inr ⟨.scheduleReleased schedule tick, trivial, rfl⟩)
  | attemptOpened =>
    refine yields_ticket.bind fun ticket h => .skip fun nominal => .skip fun tick => ?_
    exact .skip fun _ => .pure (.inr ⟨.attemptOpened ticket nominal tick, h, rfl⟩)
  | attemptStarted =>
    refine .skip fun attempt => .skip fun tick => .skip fun _ => ?_
    exact .pure (.inr ⟨.attemptStarted attempt tick, trivial, rfl⟩)
  | attemptClosed =>
    refine .skip fun attempt => .skip fun state => .skip fun tick => .skip fun detail => ?_
    exact .skip fun _ => .pure (.inr ⟨.attemptClosed attempt state tick detail, trivial, rfl⟩)
  | completionCommitted =>
    refine yields_evidence.bind fun e h => .skip fun credited => .skip fun lifecycle => ?_
    refine .skip fun tick => .skip fun _ => .pure (.inr ?_)
    exact ⟨.completionCommitted e credited lifecycle tick, h, rfl⟩
  | ambiguityResolved =>
    refine .skip fun flow => .skip fun generation => .skip fun resolution => .skip fun tick => ?_
    refine .skip fun _ => .pure (.inr ?_)
    exact ⟨.ambiguityResolved flow generation resolution tick, trivial, rfl⟩
  | checkpoint => exact .pure (.inl rfl)
  | unknown => exact .pure (.inl rfl)

end Accepted

section Written

def Small (e : Encoding) : Prop := ∀ c ∈ e, c.length ≤ 4096

theorem Small.append {d e : Encoding} (hd : Small d) (he : Small e) : Small (d ++ e) :=
  fun c hc => (List.mem_append.mp hc).elim (hd c) (he c)

theorem Small.flatMap {α : Type} {as : List α} {enc : α → Encoding} (h : ∀ a ∈ as, Small (enc a)) :
    Small (as.flatMap enc) := by
  intro c hc
  obtain ⟨a, ha, hc⟩ := List.mem_flatMap.mp hc
  exact h a ha c hc

theorem small_fields {e : Encoding}
    (h : ∀ c ∈ e, c.length = 1 ∨ c.length = 4 ∨ c.length = 8) : Small e := by
  intro c hc
  rcases h c hc with h | h | h <;> omega

open RecordWriter

theorem small_text {v : Bytes} (h : v.length ≤ kMaxExplanationBytes) : Small [text v] := by
  intro c hc
  rw [List.mem_singleton] at hc
  subst hc
  rw [RecordWriter.text, List.length_append, length_size]
  exact (Nat.add_le_add_left h 8).trans (by decide)

theorem small_provenance (p : Provenance) : Small (writeProvenance p) :=
  small_fields (by simp [writeProvenance])

theorem small_flowDescriptor (d : FlowDescriptor) : Small (writeFlowDescriptor d) := by
  unfold writeFlowDescriptor writeBinding
  refine .append (.append (.append (small_fields (by simp)) (.flatMap fun a _ => ?_)) ?_)
    (small_provenance _)
  · exact small_fields (by simp)
  · exact small_fields (by simp)

theorem small_scheduleEntry {e : ScheduleEntry} (h : e.detail.length ≤ kMaxExplanationBytes) :
    Small (writeScheduleEntry e) :=
  .append (d := (writeScheduleEntry e).dropLast) (small_fields (by simp [writeScheduleEntry]))
    (small_text h)

theorem small_encoding {r : Record} (h : r.Legible) : Small r.encoding := by
  cases r with
  | policyInstalled p => exact .append (small_fields (by simp)) (small_provenance _)
  | resourceRegistered d => exact .append (small_fields (by simp)) (small_provenance _)
  | reservationRegistered d => exact .append (small_fields (by simp)) (small_provenance _)
  | priorityClassRegistered d => exact .append (small_fields (by simp)) (small_provenance _)
  | qosClassRegistered d => exact .append (small_fields (by simp)) (small_provenance _)
  | flowAdmitted d => exact small_flowDescriptor d
  | flowUpdated d => exact small_flowDescriptor d
  | scheduleIssued schedule =>
    refine .append (.append (.append (small_fields (by simp)) (.flatMap fun e he => ?_)) ?_)
      (small_provenance _)
    · exact small_scheduleEntry (h e he)
    · exact small_fields (by simp)
  | flowCancelled flow generation tick reason =>
    exact .append (d := [u64 flow.value, u64 generation.value, u64 tick]) (small_fields (by simp))
      (small_text (length_boundedDetail_le reason))
  | attemptClosed attempt state tick detail =>
    exact .append (d := [u64 attempt.value, u8 state.code, u64 tick]) (small_fields (by simp))
      (small_text (length_boundedDetail_le detail))
  | attemptOpened ticket nominal tick =>
    exact .append (small_fields (by simp [writeTicket])) (small_fields (by simp))
  | completionCommitted evidence credited lifecycle tick =>
    exact .append (.append (small_fields (by simp)) (small_provenance _)) (small_fields (by simp))
  | _ => exact small_fields (by simp [encoding])

theorem payload_eq {r : Record} (h : r.Legible)
    (size : r.payload.length ≤ kMaxJournalRecordPayload) : r.payload = r.encoding.flatten :=
  Writer.buffer_putAll (small_encoding h) (by decide) size

variable {β : Type} {es : Encoding} {k : Unit → Reader β} {s : Impl}

theorem run_cons {α : Type} {r : Reader α} {k : α → Reader β} {c : Bytes} {a : α}
    (h : Reads r [c] a) : (r >>= k).run (c :: es).flatten = (k a).run es.flatten := by
  have := h.run_bind k es.flatten
  simpa using this

theorem run_all {α : Type} {r : Reader α} {k : α → Reader β} {e : Encoding} {a : α}
    (h : Reads r e a) : (r >>= k).run e.flatten = (k a).run [] := by
  have := h.run_bind k []
  simpa using this

theorem run_append {α : Type} {r : Reader α} {k : α → Reader β} {e : Encoding} {a : α}
    (h : Reads r e a) : (r >>= k).run (e ++ es).flatten = (k a).run es.flatten := by
  rw [List.flatten_append]
  exact h.run_bind k _

theorem run_lift {α : Type} {x : Result α} {k : α → Reader β} {data : Bytes} :
    ((liftM x : Reader α) >>= k).run data = x >>= fun a => (k a).run data := by
  cases x <;> rfl

theorem run_exhausted : (requireExhausted >>= k).run [] = (k ()).run [] := by
  rw [requireExhausted, bind_assoc, StateT.run_bind, StateT.run_get]
  rfl

theorem applied_of_run {reader : Reader Impl} {payload : Bytes} {x : Result Impl}
    (h : reader.run payload = x >>= fun t => (pure t : Reader Impl).run []) :
    (do return (← reader.run payload).1 : Result Impl) = x := by
  rw [h]
  cases x <;> rfl

theorem run_checked {α : Type} {r : Reader α} {e : Encoding} {a : α} (h : Reads r e a)
    (check : α → Status) (f : α → Impl) :
    (r >>= fun d => liftM (check d) >>= fun _ => requireExhausted >>= fun _ => pure (f d)).run
        e.flatten =
      (check a >>= fun _ => pure (f a)) >>= fun t => (pure t : Reader Impl).run [] := by
  rw [run_all h, run_lift, bind_assoc]
  simp only [run_exhausted]
  rfl

/-- A descriptor is read, checked, and applied by a transition that may refuse it. -/
theorem run_refusable {α : Type} {r : Reader α} {e : Encoding} {a : α} (h : Reads r e a)
    (check : α → Status) (f : α → Result Impl) :
    (r >>= fun d => liftM (check d) >>= fun _ => liftM (f d) >>= fun t => requireExhausted >>=
        fun _ => pure t).run e.flatten =
      (check a >>= fun _ => f a) >>= fun t => (pure t : Reader Impl).run [] := by
  rw [run_all h, run_lift, bind_assoc]
  simp only [run_lift, run_exhausted]

theorem applyAttemptClosed_boundedDetail {attempt : DispatchAttemptId} {state : AttemptState}
    {detail : Bytes} {now : Ticks} :
    s.applyAttemptClosed attempt state (boundedDetail detail) now =
      s.applyAttemptClosed attempt state detail now := by
  unfold Impl.applyAttemptClosed
  rw [boundedDetail_boundedDetail]

theorem applyRecord_payload {r : Record} (storable : r.Storable)
    (size : r.payload.length ≤ kMaxJournalRecordPayload)
    (kept : ∀ flow generation tick reason, r ≠ .flowCancelled flow generation tick reason) :
    s.applyRecord r.type r.payload = r.replay s := by
  rw [payload_eq storable.legible size]
  refine applied_of_run ?_
  cases r with
  | policyInstalled p => exact run_checked (reads_policy p) _ _
  | resourceRegistered d => exact run_checked (reads_resource d) _ _
  | reservationRegistered d => exact run_checked (reads_reservation d) _ _
  | priorityClassRegistered d => exact run_checked (reads_priorityClass d) _ _
  | qosClassRegistered d => exact run_checked (reads_qosClass d) _ _
  | flowAdmitted d =>
    exact run_refusable (reads_flowDescriptor storable.1 storable.2) FlowDescriptor.validate _
  | flowUpdated d =>
    exact run_refusable (reads_flowDescriptor storable.1 storable.2) FlowDescriptor.validate _
  | reservationRetired id generation =>
    exact (run_cons (reads_id id)).trans (run_cons (reads_id generation))
  | epochAdvanced previous next reason tick =>
    refine (run_cons (reads_id previous)).trans ((run_cons (reads_id next)).trans ?_)
    refine (run_cons (reads_enum (EpochReason.ofCode_code reason))).trans ?_
    exact run_cons (reads_u64 tick)
  | flowReadinessChanged flow generation signal tick =>
    refine (run_cons (reads_id flow)).trans ((run_cons (reads_id generation)).trans ?_)
    refine (run_cons (reads_enum (ReadinessSignal.ofCode_code signal))).trans ?_
    exact run_cons (reads_u64 tick)
  | flowCancelled flow generation tick reason => exact absurd rfl (kept flow generation tick reason)
  | flowRetired flow generation =>
    exact (run_cons (reads_id flow)).trans (run_cons (reads_id generation))
  | scheduleIssued schedule => exact run_all (reads_schedule storable)
  | scheduleReleased schedule tick =>
    exact (run_cons (reads_id schedule)).trans (run_cons (reads_u64 tick))
  | attemptOpened ticket nominal tick =>
    refine (run_append (reads_ticket storable)).trans ((run_cons (reads_u64 nominal)).trans ?_)
    exact run_cons (reads_u64 tick)
  | attemptStarted attempt tick =>
    exact (run_cons (reads_id attempt)).trans (run_cons (reads_u64 tick))
  | attemptClosed attempt state tick detail =>
    refine (run_cons (reads_id attempt)).trans ?_
    refine (run_cons (reads_enum (AttemptState.ofCode_code state))).trans ?_
    refine (run_cons (reads_u64 tick)).trans ((run_cons (reads_text ?_)).trans ?_)
    · exact (length_boundedDetail_le detail).trans_lt (by decide)
    · rw [replay, applyAttemptClosed_boundedDetail]
      rfl
  | completionCommitted evidence credited lifecycle tick =>
    refine (run_append (reads_evidence storable)).trans ((run_cons (reads_u64 credited)).trans ?_)
    refine (run_cons (reads_enum (FlowLifecycle.ofCode_code lifecycle))).trans ?_
    exact run_cons (reads_u64 tick)
  | ambiguityResolved flow generation resolution tick =>
    refine (run_cons (reads_id flow)).trans ((run_cons (reads_id generation)).trans ?_)
    refine (run_cons (reads_enum (AmbiguityResolution.ofCode_code resolution))).trans ?_
    exact run_cons (reads_u64 tick)

/-- A cancellation is never replayed: its reason is left over when its fields have been read. -/
theorem applyRecord_cancelled (flow : FlowId) (generation : Generation) (tick : Ticks)
    (reason : Bytes) :
    s.applyRecord .flowCancelled (Record.flowCancelled flow generation tick reason).payload =
      .error (failure .corruptData
        "durable record carries trailing bytes after its declared fields") := by
  have hreason := length_boundedDetail_le reason
  have hfits : (Record.flowCancelled flow generation tick reason).encoding.flatten.length ≤
      kDefaultLimit := by
    simp only [encoding, List.flatten_cons, List.flatten_nil, List.length_append, length_u64,
      RecordWriter.text, length_size, List.length_nil]
    exact le_trans (by omega) (show 40 + kMaxExplanationBytes ≤ kDefaultLimit by decide)
  have hpayload : (Record.flowCancelled flow generation tick reason).payload =
      (Record.flowCancelled flow generation tick reason).encoding.flatten := by
    rw [payload, take_of_fits hfits]
  rw [hpayload]
  unfold Impl.applyRecord
  dsimp only
  rw [encoding, run_cons (reads_id flow), run_cons (reads_id generation), run_cons (reads_u64 tick)]
  have hrest : [RecordWriter.text (boundedDetail reason)].flatten ≠ [] := by
    intro h
    have := congrArg List.length h
    simp [RecordWriter.text] at this
  rw [requireExhausted, bind_assoc, StateT.run_bind, StateT.run_get]
  generalize [RecordWriter.text (boundedDetail reason)].flatten = rest at hrest
  show (do return (← ((require (rest = []) _ _ >>= fun _ => _ : Reader Impl).run rest)).1) = _
  rw [require, if_neg hrest]
  rfl

/-- What a reader accepts of a written value shows that the value was in its ranges. -/
theorem yielded {α : Type} {r : Reader α} {k : α → Reader β} {e : Encoding} {a : α}
    {P : α → Prop} {p : β × Bytes} (recovers : Recovers r e a) (yields : Yields r P)
    (h : (r >>= k).run (e ++ es).flatten = .ok p) : P a := by
  rw [List.flatten_append, StateT.run_bind] at h
  cases hr : r.run (e.flatten ++ es.flatten) with
  | error x =>
    rw [hr] at h
    cases h
  | ok q =>
    rw [← (recovers _ q.1 q.2 hr).1]
    exact yields _ q.1 q.2 hr

theorem yielded_all {α : Type} {r : Reader α} {k : α → Reader β} {e : Encoding} {a : α}
    {P : α → Prop} {p : β × Bytes} (recovers : Recovers r e a) (yields : Yields r P)
    (h : (r >>= k).run e.flatten = .ok p) : P a := by
  rw [← List.append_nil e] at h
  exact yielded recovers yields h

theorem length_le_flatten {α : Type} {w : α → Encoding} (room : ∀ a, 0 < (w a).flatten.length)
    (as : List α) : as.length ≤ (as.flatMap w).flatten.length := by
  induction as with
  | nil => exact Nat.le_refl _
  | cons a as ih =>
    have := room a
    rw [List.flatMap_cons, List.flatten_append, List.length_append, List.length_cons]
    omega

theorem flatten_le_of_mem {α : Type} {w : α → Encoding} {as : List α} {a : α} (h : a ∈ as) :
    (w a).flatten.length ≤ (as.flatMap w).flatten.length := by
  obtain ⟨before, after, hsplit⟩ := List.append_of_mem h
  rw [hsplit, List.flatMap_append, List.flatMap_cons, List.flatten_append, List.flatten_append,
    List.length_append, List.length_append]
  omega

theorem length_dependencies_le (d : FlowDescriptor) :
    d.dependencies.length ≤ (writeFlowDescriptor d).flatten.length := by
  refine (length_le_flatten (w := fun x : FlowId => [u64 x.value]) (fun x => by simp) _).trans ?_
  simp only [writeFlowDescriptor, List.flatten_append, List.length_append]
  omega

theorem length_entries_le (schedule : Schedule) :
    schedule.entries.length ≤ (writeSchedule schedule).flatten.length := by
  refine (length_le_flatten (w := writeScheduleEntry) (fun e => ?_) _).trans ?_
  · simp [writeScheduleEntry]
  · simp only [writeSchedule, List.flatten_append, List.length_append]
    omega

theorem length_detail_le {schedule : Schedule} {e : ScheduleEntry} (h : e ∈ schedule.entries) :
    e.detail.length ≤ (writeSchedule schedule).flatten.length := by
  have hentry : e.detail.length ≤ (writeScheduleEntry e).flatten.length := by
    simp only [writeScheduleEntry, List.flatten_cons, List.length_append, RecordWriter.text]
    omega
  have hmem := flatten_le_of_mem (w := writeScheduleEntry) h
  simp only [writeSchedule, List.flatten_append, List.length_append]
  omega

/-- A record that is accepted as it was appended was in the ranges of the format. -/
theorem storable_of_applyRecord {r : Record} {s' : Impl} (legible : r.Legible)
    (size : r.payload.length ≤ kMaxJournalRecordPayload)
    (h : s.applyRecord r.type r.payload = .ok s') : r.Storable := by
  rw [payload_eq legible size] at h size
  have hsize : r.encoding.flatten.length < 2 ^ 64 := lt_of_le_of_lt size (by decide)
  obtain ⟨p, hp, -⟩ := bind_eq_ok.mp h
  cases r <;> dsimp only [Record.type, Record.encoding] at hp
  case flowAdmitted d =>
    have hshort : d.dependencies.length < 2 ^ 64 := lt_of_le_of_lt (length_dependencies_le d) hsize
    have hranges := yielded_all (recovers_flowDescriptor hshort) yields_flowDescriptor hp
    exact hranges
  case flowUpdated d =>
    have hshort : d.dependencies.length < 2 ^ 64 := lt_of_le_of_lt (length_dependencies_le d) hsize
    have hranges := yielded_all (recovers_flowDescriptor hshort) yields_flowDescriptor hp
    exact hranges
  case scheduleIssued schedule =>
    have hshort : schedule.entries.length < 2 ^ 64 :=
      lt_of_le_of_lt (length_entries_le schedule) hsize
    have htexts : ∀ e ∈ schedule.entries, e.detail.length < 2 ^ 64 :=
      fun e he => lt_of_le_of_lt (legible e he) (by decide)
    have hranges := yielded_all (recovers_schedule hshort htexts) yields_schedule hp
    exact hranges
  case attemptOpened ticket nominal tick =>
    have hranges := yielded (recovers_ticket ticket) yields_ticket hp
    exact hranges
  case completionCommitted evidence credited lifecycle tick =>
    have hranges := yielded (recovers_evidence evidence) yields_evidence hp
    exact hranges
  all_goals exact trivial

/-- The bytes of an appended record, when they are accepted, are replayed as that record; those of a
cancellation never are. -/
theorem replay_of_payload {r : Record} {s' : Impl} (legible : r.Legible)
    (size : r.payload.length ≤ kMaxJournalRecordPayload)
    (h : s.applyRecord r.type r.payload = .ok s') :
    r.replay s = .ok s' ∧ ∀ flow generation tick reason, r ≠ .flowCancelled flow generation tick reason := by
  have kept : ∀ flow generation tick reason, r ≠ .flowCancelled flow generation tick reason := by
    rintro flow generation tick reason rfl
    rw [show (Record.flowCancelled flow generation tick reason).type = .flowCancelled from rfl,
      applyRecord_cancelled] at h
    cases h
  refine ⟨?_, kept⟩
  rw [← applyRecord_payload (storable_of_applyRecord legible size h) size kept]
  exact h

end Written

end FlowScheduler

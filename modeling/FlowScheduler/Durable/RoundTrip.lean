import FlowScheduler.Durable.Record

/-! # Round trips of the durable fields

Every reader recovers what the matching writer produced, provided the value
passes the reader's own range checks.
-/

namespace FlowScheduler

open ByteCodec RecordReader

namespace RecordWriter

@[simp] theorem length_u8 (v : UInt8) : (u8 v).length = 1 := rfl
@[simp] theorem length_u16 (v : UInt16) : (u16 v).length = 2 := length_littleEndian 2 _
@[simp] theorem length_u32 (v : UInt32) : (u32 v).length = 4 := length_littleEndian 4 _
@[simp] theorem length_u64 (v : UInt64) : (u64 v).length = 8 := length_littleEndian 8 _
@[simp] theorem length_size (n : ℕ) : (size n).length = 8 := length_littleEndian 8 _
@[simp] theorem length_boolean (v : Bool) : (boolean v).length = 1 := rfl

@[simp] theorem length_text (v : Bytes) : (text v).length = 8 + v.length := by
  rw [text, List.length_append, length_size]

theorem take_of_fits {e : Encoding} (h : e.flatten.length ≤ kDefaultLimit) : take e = e.flatten := by
  rw [take, Writer.putAll_of_fits rfl (by simpa using h)]
  rfl

end RecordWriter

theorem run_raw_append (chunk rest : Bytes) :
    (raw chunk.length).run (chunk ++ rest) = .ok (chunk, rest) := by
  simp [raw, StateT.run]

section Fields

variable {β : Type} {es : Encoding} {b : β}

theorem reads_u8 (v : UInt8) : Reads u8 [RecordWriter.u8 v] v := by
  intro rest
  have hraw := run_raw_append (RecordWriter.u8 v) rest
  rw [show (RecordWriter.u8 v).length = 1 from rfl] at hraw
  simp only [u8, List.flatten_cons, List.flatten_nil, List.append_nil, StateT.run_bind, hraw]
  rfl

theorem reads_littleEndian {α : Type} {width n : ℕ} {make : ℕ → α} {v : α} (hn : n < 256 ^ width)
    (hv : make n = v) :
    Reads (do return make (fromLittleEndian (← raw width)) : Reader α) [littleEndian width n] v := by
  intro rest
  have hraw := run_raw_append (littleEndian width n) rest
  rw [length_littleEndian] at hraw
  simp only [List.flatten_cons, List.flatten_nil, List.append_nil, StateT.run_bind, hraw]
  have hback := fromLittleEndian_littleEndian width n hn
  show Except.ok (make (fromLittleEndian (littleEndian width n)), rest) = _
  rw [hback, hv]

theorem reads_u16 (v : UInt16) : Reads u16 [RecordWriter.u16 v] v :=
  reads_littleEndian (by simpa using v.toNat_lt) (by simp)

theorem reads_u32 (v : UInt32) : Reads u32 [RecordWriter.u32 v] v :=
  reads_littleEndian (by simpa using v.toNat_lt) (by simp)

theorem reads_u64 (v : UInt64) : Reads u64 [RecordWriter.u64 v] v :=
  reads_littleEndian (by simpa using v.toNat_lt) (by simp)

theorem reads_id {f : IdFamily} (v : Id f) : Reads id [RecordWriter.u64 v.value] v :=
  (reads_u64 v.value).bind (Reads.pure v)

theorem reads_require {p : Prop} [Decidable p] {code : ErrorCode} {message : String} (h : p) :
    Reads (require p code message) [] () := by
  intro rest; simp [require, h]; rfl

theorem reads_boolean (v : Bool) : Reads boolean [RecordWriter.boolean v] v := by
  refine (reads_u8 _).bind (e := []) (Reads.bind (d := []) (reads_require ?_) ?_)
  · cases v <;> decide
  · cases v <;> exact Reads.pure _

theorem reads_enum {α : Type} {ofCode : UInt8 → Option α} {code : ErrorCode} {message : String}
    {c : UInt8} {a : α} (h : ofCode c = some a) :
    Reads (enum ofCode code message) [RecordWriter.u8 c] a := by
  refine (reads_u8 c).bind (e := []) ?_
  rw [h]
  exact Reads.pure a

theorem reads_text {v : Bytes} (h : v.length < 2 ^ 64) : Reads text [RecordWriter.text v] v := by
  intro rest
  have hlen : (UInt64.ofNat v.length).toNat = v.length := by
    rw [UInt64.toNat_ofNat']; exact Nat.mod_eq_of_lt h
  have hsize := reads_u64 (UInt64.ofNat v.length) (v ++ rest)
  simp only [List.flatten_cons, List.flatten_nil, List.append_nil] at hsize
  simp only [RecordWriter.text, RecordWriter.size, text, List.flatten_cons, List.flatten_nil,
    List.append_nil, List.append_assoc, StateT.run_bind, hsize]
  have hfits : (UInt64.ofNat v.length).toNat ≤ (v ++ rest).length := by
    rw [hlen, List.length_append]; omega
  show StateT.run (require _ _ _ >>= fun _ => raw _) (v ++ rest) = _
  rw [StateT.run_bind, show (require _ _ _).run (v ++ rest) = .ok ((), v ++ rest) from
    reads_require hfits (v ++ rest)]
  show (raw (UInt64.ofNat v.length).toNat).run (v ++ rest) = _
  rw [hlen]
  exact run_raw_append v rest

theorem reads_cons {α : Type} {r : Reader α} {k : α → Reader β} {c : Bytes} {a : α}
    (h : Reads r [c] a) : Reads (r >>= k) (c :: es) b ↔ Reads (k a) es b :=
  h.bind_iff (e := es)

@[simp] theorem reads_u8_cons {k : UInt8 → Reader β} (v : UInt8) :
    Reads (u8 >>= k) (RecordWriter.u8 v :: es) b ↔ Reads (k v) es b := reads_cons (reads_u8 v)

@[simp] theorem reads_u16_cons {k : UInt16 → Reader β} (v : UInt16) :
    Reads (u16 >>= k) (RecordWriter.u16 v :: es) b ↔ Reads (k v) es b := reads_cons (reads_u16 v)

@[simp] theorem reads_u32_cons {k : UInt32 → Reader β} (v : UInt32) :
    Reads (u32 >>= k) (RecordWriter.u32 v :: es) b ↔ Reads (k v) es b := reads_cons (reads_u32 v)

@[simp] theorem reads_u64_cons {k : UInt64 → Reader β} (v : UInt64) :
    Reads (u64 >>= k) (RecordWriter.u64 v :: es) b ↔ Reads (k v) es b := reads_cons (reads_u64 v)

@[simp] theorem reads_id_cons {f : IdFamily} {k : Id f → Reader β} (v : Id f) :
    Reads (id >>= k) (RecordWriter.u64 v.value :: es) b ↔ Reads (k v) es b :=
  reads_cons (reads_id v)

@[simp] theorem reads_boolean_cons {k : Bool → Reader β} (v : Bool) :
    Reads (boolean >>= k) (RecordWriter.boolean v :: es) b ↔ Reads (k v) es b :=
  reads_cons (reads_boolean v)

theorem reads_size_cons {k : UInt64 → Reader β} (n : ℕ) :
    Reads (u64 >>= k) (RecordWriter.size n :: es) b ↔ Reads (k (UInt64.ofNat n)) es b :=
  reads_cons (reads_u64 _)

theorem reads_enum_cons {α : Type} {ofCode : UInt8 → Option α} {code : ErrorCode}
    {message : String} {k : α → Reader β} {c : UInt8} {a : α} (h : ofCode c = some a) :
    Reads (enum ofCode code message >>= k) (RecordWriter.u8 c :: es) b ↔ Reads (k a) es b :=
  reads_cons (reads_enum h)

theorem reads_text_cons {k : Bytes → Reader β} {v : Bytes} (h : v.length < 2 ^ 64) :
    Reads (text >>= k) (RecordWriter.text v :: es) b ↔ Reads (k v) es b :=
  reads_cons (reads_text h)

theorem reads_require_bind {p : Prop} [Decidable p] {code : ErrorCode} {message : String}
    {k : Unit → Reader β} (h : p) :
    Reads (require p code message >>= k) es b ↔ Reads (k ()) es b :=
  (reads_require h).bind_iff (d := []) (e := es)

theorem reads_provenance {code : ErrorCode} {message : String} (p : Provenance) :
    Reads (readProvenance code message) (writeProvenance p) p := by
  simp only [readProvenance, writeProvenance,
    reads_enum_cons (ProvenanceOrigin.ofCode_code p.origin), reads_u64_cons]
  exact Reads.pure p

theorem reads_binding {f : IdFamily} (v : Binding f) : Reads readBinding (writeBinding v) v := by
  simp only [readBinding, writeBinding, reads_id_cons]
  exact Reads.pure v

theorem reads_provenance_last {code : ErrorCode} {message : String} {k : Provenance → Reader β}
    {p : Provenance} (h : Reads (k p) [] b) :
    Reads (readProvenance code message >>= k) (writeProvenance p) b := by
  simpa using (reads_provenance p).bind h

theorem reads_binding_append {f : IdFamily} {k : Binding f → Reader β} (v : Binding f) :
    Reads (readBinding >>= k) (writeBinding v ++ es) b ↔ Reads (k v) es b :=
  (reads_binding v).bind_iff

theorem reads_replicate_append {α : Type} {r : Reader α} {enc : α → Encoding}
    {k : List α → Reader β} {as : List α} (h : ∀ a ∈ as, Reads r (enc a) a) :
    Reads (replicateDecoder r as.length >>= k) (as.flatMap enc ++ es) b ↔ Reads (k as) es b :=
  (Reads.replicate h).bind_iff

end Fields

theorem toNat_ofNat_of_le {n bound : ℕ} (h : n ≤ bound) (hb : bound < 2 ^ 64) :
    (UInt64.ofNat n).toNat = n := by
  rw [UInt64.toNat_ofNat']; exact Nat.mod_eq_of_lt (by omega)

theorem reads_resource (d : ResourceDescriptor) : Reads readResource (writeResource d) d := by
  simp only [readResource, writeResource, List.cons_append, List.nil_append, reads_id_cons,
    reads_u64_cons]
  exact reads_provenance_last (Reads.pure d)

theorem reads_reservation (d : ReservationDescriptor) :
    Reads readReservation (writeReservation d) d := by
  simp only [readReservation, writeReservation, List.cons_append, List.nil_append, reads_id_cons,
    reads_u64_cons, reads_boolean_cons]
  exact reads_provenance_last (Reads.pure d)

theorem reads_priorityClass (d : PriorityClassDescriptor) :
    Reads readPriorityClass (writePriorityClass d) d := by
  simp only [readPriorityClass, writePriorityClass, List.cons_append, List.nil_append,
    reads_id_cons, reads_u32_cons, reads_u64_cons]
  exact reads_provenance_last (Reads.pure d)

theorem reads_qosClass (d : QoSClassDescriptor) : Reads readQosClass (writeQosClass d) d := by
  simp only [readQosClass, writeQosClass, List.cons_append, List.nil_append, reads_id_cons,
    reads_boolean_cons, reads_u64_cons]
  exact reads_provenance_last (Reads.pure d)

theorem reads_policy (p : SchedulingPolicy) : Reads readPolicy (writePolicy p) p := by
  simp only [readPolicy, writePolicy, List.cons_append, List.nil_append, reads_id_cons,
    reads_boolean_cons, reads_u32_cons, reads_u64_cons,
    reads_enum_cons (PreemptionMode.ofCode_code p.preemption)]
  exact reads_provenance_last (Reads.pure p)

theorem reads_flowDescriptor {d : FlowDescriptor} (hs : d.readinessSignal ≤ 2)
    (hd : d.dependencies.length ≤ kMaxDependenciesPerFlow) :
    Reads readFlowDescriptor (writeFlowDescriptor d) d := by
  have hn : (UInt64.ofNat d.dependencies.length).toNat = d.dependencies.length :=
    toNat_ofNat_of_le hd (by decide)
  have hcount : (UInt64.ofNat d.dependencies.length).toNat ≤ kMaxDependenciesPerFlow := by
    rwa [hn]
  have hdeps : ∀ a ∈ d.dependencies, Reads id ((fun x : FlowId => [RecordWriter.u64 x.value]) a) a :=
    fun a _ => reads_id a
  simp only [readFlowDescriptor, writeFlowDescriptor, List.cons_append, List.nil_append,
    List.append_assoc, reads_id_cons, reads_binding_append, reads_u64_cons, reads_boolean_cons,
    reads_u8_cons, reads_require_bind hs, reads_size_cons, reads_require_bind hcount]
  rw [hn, reads_replicate_append hdeps]
  simp only [reads_id_cons]
  exact reads_provenance_last (Reads.pure d)

/-- What the durable format requires of a schedule entry. -/
structure ScheduleEntry.Storable (e : ScheduleEntry) : Prop where
  reason : DecisionReason.ofDurableCode e.reason.code = some e.reason
  detail : e.detail.length ≤ kMaxExplanationBytes

theorem reads_scheduleEntry {e : ScheduleEntry} (h : e.Storable) :
    Reads readScheduleEntry (writeScheduleEntry e) e := by
  have hlen : e.detail.length < 2 ^ 64 := lt_of_le_of_lt h.detail (by decide)
  simp only [readScheduleEntry, writeScheduleEntry, reads_id_cons, reads_u64_cons, reads_u32_cons,
    reads_enum_cons (DecisionKind.ofCode_code e.kind), reads_enum_cons h.reason,
    reads_text_cons hlen, reads_require_bind h.detail]
  exact Reads.pure e

structure Schedule.Storable (s : Schedule) : Prop where
  count : s.entries.length ≤ kMaxEntriesPerSchedule.toNat
  entries : ∀ e ∈ s.entries, e.Storable

theorem reads_schedule {s : Schedule} (h : s.Storable) : Reads readSchedule (writeSchedule s) s := by
  have hn : (UInt64.ofNat s.entries.length).toNat = s.entries.length :=
    toNat_ofNat_of_le h.count (by decide)
  have hcount : (UInt64.ofNat s.entries.length).toNat ≤ kMaxEntriesPerSchedule.toNat := by
    rw [hn]; exact h.count
  have hentries : ∀ a ∈ s.entries, Reads readScheduleEntry (writeScheduleEntry a) a :=
    fun a ha => reads_scheduleEntry (h.entries a ha)
  simp only [readSchedule, writeSchedule, List.cons_append, List.nil_append, List.append_assoc,
    reads_id_cons, reads_u64_cons, reads_size_cons, reads_require_bind hcount]
  rw [hn, reads_replicate_append hentries]
  simp only [reads_u64_cons]
  exact reads_provenance_last (Reads.pure s)

structure DispatchTicket.Storable (t : DispatchTicket) : Prop where
  bound : t.bound
  positive : t.quantum ≠ 0
  bounded : t.quantum ≤ kMaxQuantum

theorem reads_ticket {t : DispatchTicket} (h : t.Storable) : Reads readTicket (writeTicket t) t := by
  simp only [readTicket, writeTicket, reads_id_cons, reads_u64_cons,
    reads_enum_cons (AttemptState.ofCode_code t.state), reads_require_bind h.bound,
    reads_require_bind h.positive, reads_require_bind h.bounded]
  exact Reads.pure t

structure CompletionEvidence.Storable (e : CompletionEvidence) : Prop where
  bound : e.bound
  served : e.served ≤ kMaxServiceUnits

theorem reads_evidence {e : CompletionEvidence} (h : e.Storable) :
    Reads readEvidence (writeEvidence e) e := by
  simp only [readEvidence, writeEvidence, List.cons_append, List.nil_append, reads_id_cons,
    reads_u64_cons, reads_u32_cons, reads_enum_cons (CompletionOutcome.ofCode_code e.outcome)]
  refine reads_provenance_last ?_
  rw [reads_require_bind h.bound, reads_require_bind h.served]
  exact Reads.pure e

section Accepted

theorem yields_require {p : Prop} [Decidable p] {code : ErrorCode} {message : String} :
    Yields (require p code message) fun _ => p := by
  unfold require
  split
  · exact .pure ‹p›
  · rintro data a rest h
    cases h

theorem yields_enum {α : Type} {ofCode : UInt8 → Option α} {code : ErrorCode} {message : String} :
    Yields (enum ofCode code message) fun a => ∃ c, ofCode c = some a := by
  refine .skip fun c => ?_
  cases h : ofCode c with
  | none =>
    rintro data a rest ha
    cases ha
  | some a => exact .pure ⟨c, h⟩

theorem yields_flowDescriptor : Yields readFlowDescriptor fun d =>
    d.readinessSignal ≤ 2 ∧ d.dependencies.length ≤ kMaxDependenciesPerFlow := by
  iterate 18 refine .skip fun _ => ?_
  refine yields_require.bind fun _ hsignal => .skip fun n => yields_require.bind fun _ hn => ?_
  refine (Yields.any.replicate _).bind fun deps hdeps => .skip fun _ => .skip fun _ => ?_
  exact .pure ⟨hsignal, by rw [hdeps.1]; exact hn⟩

theorem yields_scheduleEntry : Yields readScheduleEntry ScheduleEntry.Storable := by
  iterate 20 refine .skip fun _ => ?_
  refine yields_enum.bind fun reason hreason => .skip fun _ => .skip fun _ => ?_
  refine yields_require.bind fun _ hdetail => .pure ⟨?_, hdetail⟩
  obtain ⟨c, hc⟩ := hreason
  exact DecisionReason.ofDurableCode_code hc

theorem yields_schedule : Yields readSchedule Schedule.Storable := by
  iterate 9 refine .skip fun _ => ?_
  refine .skip fun n => yields_require.bind fun _ hn => ?_
  refine (yields_scheduleEntry.replicate _).bind fun entries hentries => ?_
  refine .skip fun _ => .skip fun _ => .pure ⟨?_, hentries.2⟩
  exact hentries.1 ▸ hn

theorem yields_ticket : Yields readTicket DispatchTicket.Storable := by
  iterate 26 refine .skip fun _ => ?_
  refine yields_require.bind fun _ hbound => yields_require.bind fun _ hpositive => ?_
  exact yields_require.bind fun _ hbounded => .pure ⟨hbound, hpositive, hbounded⟩

theorem yields_evidence : Yields readEvidence CompletionEvidence.Storable := by
  iterate 14 refine .skip fun _ => ?_
  exact yields_require.bind fun _ hbound => yields_require.bind fun _ hserved =>
    .pure ⟨hbound, hserved⟩

end Accepted

end FlowScheduler

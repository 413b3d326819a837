import FlowScheduler.Recovery.Opening
import FlowScheduler.Durable.Accepts

/-! # The image of a state

A snapshot written by a checkpoint, when it is accepted, restores the tables of
the state it was taken from. The starvation marks, the explanation histories and
the texts of closed attempts are not part of it.
-/

namespace FlowScheduler

open ByteCodec RecordReader Failing OrderedMap

/-- Every table is keyed by the identities of what it holds. -/
structure Impl.Filed (s : Impl) : Prop where
  resources : ∀ (id : ResourceId) r, s.resources[id]? = some r → r.descriptor.resource = id
  reservations : ∀ (id : ReservationId) r, s.reservations[id]? = some r →
    r.descriptor.reservation = id
  priorityClasses : ∀ (id : PriorityClassId) d, s.priorityClasses[id]? = some d → d.priority = id
  qosClasses : ∀ (id : QoSClassId) d, s.qosClasses[id]? = some d → d.qos = id
  flows : ∀ (id : FlowId) r, s.flows[id]? = some r → r.descriptor.flow = id
  attempts : ∀ (id : DispatchAttemptId) r, s.attempts[id]? = some r → r.ticket.attempt = id
  schedules : ∀ (id : ScheduleId) r, s.schedules[id]? = some r → r.schedule.schedule = id

def FlowRuntime.imaged (r : FlowRuntime) : FlowRuntime :=
  { r with starvationCounted := false, history := [], historyTruncated := false }

def AttemptRuntime.imaged (r : AttemptRuntime) : AttemptRuntime := { r with closeDetail := [] }

section Tables

variable {κ ν : Type} [Ord κ] [Std.TransOrd κ] [Std.LawfulEqOrd κ] [DecidableEq κ]

/-- A table built from a list without repeated keys holds everything in the list. -/
theorem get_tableOf_of_mem {entries : List (κ × ν)} (nodup : (entries.map Prod.fst).Nodup) {k : κ}
    {v : ν} (h : (k, v) ∈ entries) : (tableOf entries)[k]? = some v := by
  have hfold : ∀ (entries : List (κ × ν)) (t : Table κ ν), (entries.map Prod.fst).Nodup →
      ((k, v) ∈ entries ∨ (t[k]? = some v ∧ k ∉ entries.map Prod.fst)) →
        (entries.foldl (fun t entry => t.insert entry.1 entry.2) t)[k]? = some v := by
    intro entries
    induction entries with
    | nil =>
      rintro t - (hmem | ⟨ht, -⟩)
      · cases hmem
      · exact ht
    | cons entry entries ih =>
      intro t hnodup hk
      obtain ⟨hfresh, hnodup⟩ := List.nodup_cons.mp hnodup
      refine ih _ hnodup ?_
      rcases hk with hmem | ⟨ht, hnot⟩
      · rcases List.mem_cons.mp hmem with rfl | hmem
        · exact .inr ⟨by rw [get_insert, if_pos rfl], hfresh⟩
        · exact .inl hmem
      · rw [List.map_cons, List.mem_cons, not_or] at hnot
        exact .inr ⟨by rw [get_insert, if_neg hnot.1]; exact ht, hnot.2⟩
  exact hfold entries ∅ nodup (.inl h)

theorem tableOf_toList (t : Table κ ν) (f : ν → ν) :
    tableOf (t.toList.map fun entry => (entry.1, f entry.2)) = t.map fun _ v => f v := by
  have hkeys : (t.toList.map fun entry => (entry.1, f entry.2)).map Prod.fst = t.keys := by
    rw [List.map_map, ← Std.ExtTreeMap.map_fst_toList_eq_keys]
    rfl
  refine Std.ExtTreeMap.ext_getElem? fun a => ?_
  rw [Std.ExtTreeMap.getElem?_map]
  cases ht : t[a]? with
  | some v =>
    refine get_tableOf_of_mem (by rw [hkeys]; exact nodup_keys t) ?_
    exact List.mem_map.mpr ⟨(a, v), mem_toList.mpr ht, rfl⟩
  | none =>
    cases hget : (tableOf (t.toList.map fun entry => (entry.1, f entry.2)))[a]? with
    | none => rfl
    | some v =>
      obtain ⟨entry, he, hv⟩ := List.mem_map.mp (mem_of_get_tableOf hget)
      obtain ⟨rfl, -⟩ := Prod.mk.inj hv
      rw [mem_toList.mp he] at ht
      cases ht

omit [DecidableEq κ] in
/-- The values of a table under the keys found in them, each up to what its encoding keeps. -/
theorem keyed_values {t : Table κ ν} {key : ν → κ} {f : ν → ν}
    (filed : ∀ (k : κ) v, t[k]? = some v → key (f v) = k) :
    (t.toList.map fun entry => f entry.2).map (fun v => (key v, v)) =
      t.toList.map fun entry => (entry.1, f entry.2) := by
  rw [List.map_map]
  refine List.map_congr_left fun entry he => ?_
  exact Prod.ext (filed entry.1 entry.2 (mem_toList.mp he)) rfl

theorem tableOf_keyed {t : Table κ ν} {key : ν → κ} {f : ν → ν}
    (filed : ∀ (k : κ) v, t[k]? = some v → key (f v) = k) :
    tableOf ((t.toList.map fun entry => f entry.2).map fun v => (key v, v)) =
      t.map fun _ v => f v := by
  rw [keyed_values filed, tableOf_toList]

omit [DecidableEq κ] in
theorem map_id_table (t : Table κ ν) : (t.map fun _ v => v) = t := by
  refine Std.ExtTreeMap.ext_getElem? fun a => ?_
  rw [Std.ExtTreeMap.getElem?_map]
  cases t[a]? <;> rfl

theorem tableOf_self {t : Table κ ν} {key : ν → κ}
    (filed : ∀ (k : κ) v, t[k]? = some v → key v = k) :
    tableOf ((t.toList.map fun entry => entry.2).map fun v => (key v, v)) = t :=
  (tableOf_keyed (f := fun v => v) filed).trans (map_id_table t)

end Tables

section Values

theorem recovers_resourceRuntime (r : ResourceRuntime) :
    Recovers readResourceRuntime (writeResourceRuntime r) r := by
  rw [readResourceRuntime, writeResourceRuntime, Recovers.after_reads (reads_resource _)]
  simp only [recovers_cons (reads_u64 _), recovers_cons (reads_boolean _)]
  exact recovers_pure r

theorem recovers_reservationRuntime (r : ReservationRuntime) :
    Recovers readReservationRuntime (writeReservationRuntime r) r := by
  rw [readReservationRuntime, writeReservationRuntime, Recovers.after_reads (reads_reservation _)]
  simp only [recovers_cons (reads_u64 _), recovers_cons (reads_boolean _)]
  exact recovers_pure r

theorem recovers_flowRuntime {r : FlowRuntime} (short : r.descriptor.dependencies.length < 2 ^ 64) :
    Recovers readFlowRuntime (writeFlowRuntime r) r.imaged := by
  refine (recovers_flowDescriptor short).bind ?_
  simp only [recovers_cons (reads_enum (FlowLifecycle.ofCode_code r.lifecycle)),
    recovers_cons (reads_u64 _), recovers_cons (reads_id _), recovers_cons (reads_u32 _),
    recovers_cons (reads_boolean _)]
  exact recovers_pure r.imaged

theorem recovers_attemptRuntime (r : AttemptRuntime) :
    Recovers readAttemptRuntime (writeAttemptRuntime r) r.imaged := by
  refine (recovers_ticket r.ticket).bind ?_
  simp only [recovers_cons (reads_enum (AttemptState.ofCode_code r.state)),
    recovers_cons (reads_u64 _), recovers_cons (reads_boolean _)]
  exact recovers_pure r.imaged

theorem recovers_scheduleRuntime {r : ScheduleRuntime} (short : r.schedule.entries.length < 2 ^ 64)
    (each : ∀ e ∈ r.schedule.entries, e.detail.length < 2 ^ 64)
    (marks : r.consumed.length < 2 ^ 64) :
    Recovers readScheduleRuntime (writeScheduleRuntime r) r := by
  have hconsumed : ∀ c ∈ r.consumed,
      Recovers readConsumed ((fun c : UInt8 => [RecordWriter.u8 c]) c) ((fun c => c) c) := by
    intro c _
    rw [readConsumed, recovers_cons (reads_u8 c)]
    exact recovers_require fun _ => recovers_pure c
  rw [readScheduleRuntime, writeScheduleRuntime, List.append_assoc, List.append_assoc]
  refine (recovers_schedule short each).bind ?_
  rw [List.cons_append, List.nil_append, RecordWriter.size, recovers_cons (reads_u64 _)]
  refine recovers_require fun _ => ?_
  rw [UInt64.toNat_ofNat', Nat.mod_eq_of_lt marks]
  refine (Recovers.replicate hconsumed).bind ?_
  simp only [recovers_cons (reads_u64 _), List.map_id']
  exact recovers_pure r

end Values

section Table

variable {κ ν α : Type} [Ord κ] [Std.TransOrd κ] {write : κ × ν → Encoding} {t : Table κ ν}

/-- A table whose encoding is bounded is read back when each of its values is. -/
theorem recovers_table {κ' : Type} {read : Reader α} {f : κ × ν → α} {key : α → κ'} {bound : ℕ}
    {message : String} (room : ∀ entry, 0 < (write entry).flatten.length)
    (short : (writeTable write t).flatten.length < 2 ^ 64)
    (each : ∀ entry ∈ t.toList, (write entry).flatten.length < 2 ^ 64 →
      Recovers read (write entry) (f entry)) :
    Recovers (readEntries read key bound message) (writeTable write t)
      ((t.toList.map f).map fun v => (key v, v)) := by
  rw [writeTable, List.flatten_append, List.length_append] at short
  have hcount := length_le_flatten room t.toList
  have hvalue : ∀ entry ∈ t.toList, (write entry).flatten.length < 2 ^ 64 := by
    intro entry he
    have := flatten_le_of_mem (w := write) he
    omega
  rw [readEntries, writeTable, ← Std.ExtTreeMap.length_toList,
    ← List.append_nil ([RecordWriter.size _] ++ _), List.append_assoc, List.singleton_append]
  exact recovers_counted (by omega) (fun entry he => each entry he (hvalue entry he))
    (recovers_pure _)

end Table

namespace Impl

/-- What a checkpointed state restores to: the clocks, the tables and the identity counters. -/
structure Images (c i : Impl) : Prop where
  policy : i.policy = c.policy
  policyBinding : i.policyBinding = c.policy.binding
  epoch : i.epoch = c.epoch
  lastTick : i.lastTick = c.lastTick
  resources : i.resources = c.resources
  reservations : i.reservations = c.reservations
  priorityClasses : i.priorityClasses = c.priorityClasses
  qosClasses : i.qosClasses = c.qosClasses
  flows : i.flows = c.flows.map fun _ r => r.imaged
  attempts : i.attempts = c.attempts.map fun _ r => r.imaged
  schedules : i.schedules = c.schedules
  scheduleOrder : i.scheduleOrder = c.schedules.keys
  nextAttempt : i.nextAttempt = c.nextAttempt
  nextSchedule : i.nextSchedule = c.nextSchedule
  nextScheduleGeneration : i.nextScheduleGeneration = c.nextScheduleGeneration

variable {c i : Impl}

def tablesEncoding (c : Impl) : Encoding :=
  writeTable (fun entry => writeResourceRuntime entry.2) c.resources ++
  writeTable (fun entry => writeReservationRuntime entry.2) c.reservations ++
  writeTable (fun entry => writePriorityClass entry.2) c.priorityClasses ++
  writeTable (fun entry => writeQosClass entry.2) c.qosClasses ++
  writeTable (fun entry => writeFlowRuntime entry.2) c.flows ++
  writeTable (fun entry => writeAttemptRuntime entry.2) c.attempts ++
  writeTable (fun entry => writeScheduleRuntime entry.2) c.schedules ++
  writeTable (fun entry => [RecordWriter.u64 entry.1.value, RecordWriter.u64 entry.2]) c.virtualTime

def withTables (s c : Impl) : Impl :=
  { s with
    resources := c.resources
    reservations := c.reservations
    priorityClasses := c.priorityClasses
    qosClasses := c.qosClasses
    flows := c.flows.map fun _ r => r.imaged
    attempts := c.attempts.map fun _ r => r.imaged
    schedules := c.schedules
    virtualTime := c.virtualTime
    scheduleAttempts := groupAttempts (c.attempts.map fun _ r => r.imaged)
    scheduleOrder := c.schedules.keys }

theorem recovers_snapshotTables (s : Impl) (filed : c.Filed)
    (short : c.tablesEncoding.flatten.length < 2 ^ 64) :
    Recovers s.readSnapshotTables c.tablesEncoding (s.withTables c) := by
  simp only [tablesEncoding, List.flatten_append, List.length_append] at short
  simp only [readSnapshotTables, tablesEncoding, List.append_assoc]
  refine (recovers_table (by simp [writeResourceRuntime, writeResource]) (by omega) fun entry _ _ =>
    recovers_resourceRuntime entry.2).bind ?_
  refine (recovers_table (by simp [writeReservationRuntime, writeReservation]) (by omega)
    fun entry _ _ => recovers_reservationRuntime entry.2).bind ?_
  refine (recovers_table (by simp [writePriorityClass]) (by omega) fun entry _ _ =>
    .of_reads (reads_priorityClass entry.2)).bind ?_
  refine (recovers_table (by simp [writeQosClass]) (by omega) fun entry _ _ =>
    .of_reads (reads_qosClass entry.2)).bind ?_
  refine (recovers_table (by simp [writeFlowRuntime, writeFlowDescriptor]) (by omega)
    fun entry _ h => recovers_flowRuntime ?_).bind ?_
  · have hle := length_dependencies_le entry.2.descriptor
    rw [writeFlowRuntime, List.flatten_append, List.length_append] at h
    omega
  refine (recovers_table (by simp [writeAttemptRuntime, writeTicket]) (by omega) fun entry _ _ =>
    recovers_attemptRuntime entry.2).bind ?_
  refine (recovers_table (by simp [writeScheduleRuntime, writeSchedule]) (by omega)
    fun entry _ h => recovers_scheduleRuntime ?_ ?_ ?_).bind ?_
  · have hle := length_entries_le entry.2.schedule
    simp only [writeScheduleRuntime, List.flatten_append, List.length_append] at h
    omega
  · intro e he
    have hle := length_detail_le he
    simp only [writeScheduleRuntime, List.flatten_append, List.length_append] at h
    omega
  · have hle := length_le_flatten (w := fun c : UInt8 => [RecordWriter.u8 c])
      (fun c => by simp) entry.2.consumed
    simp only [writeScheduleRuntime, List.flatten_append, List.length_append] at h
    omega
  rw [← List.append_nil (writeTable _ c.virtualTime)]
  refine (recovers_table (f := fun entry => entry) (by simp) (by omega) fun entry _ _ => ?_).bind ?_
  · simp only [recovers_cons (reads_id _), recovers_cons (reads_u64 _)]
    exact recovers_pure entry
  have horder : ((c.schedules.toList.map fun entry => entry.2).map fun v =>
      (v.schedule.schedule, v)).map Prod.fst = c.schedules.keys := by
    have hkeyed := keyed_values (f := fun v => v) filed.schedules
    rw [hkeyed, List.map_map, ← Std.ExtTreeMap.map_fst_toList_eq_keys]
    rfl
  have hclocks : tableOf (((c.virtualTime.toList.map fun entry => entry).map fun v =>
      (v.1, v)).map Prod.snd) = c.virtualTime := by
    have htable := tableOf_toList c.virtualTime fun v => v
    rw [map_id_table] at htable
    rw [List.map_id', List.map_map]
    exact htable
  rw [tableOf_self filed.resources, tableOf_self filed.reservations,
    tableOf_self filed.priorityClasses, tableOf_self filed.qosClasses,
    tableOf_keyed (f := FlowRuntime.imaged) filed.flows,
    tableOf_keyed (f := AttemptRuntime.imaged) filed.attempts, tableOf_self filed.schedules, horder,
    hclocks]
  exact recovers_pure _

open RecordWriter in
def countersEncoding (c : Impl) : Encoding :=
  [u64 c.nextAttempt.value, u64 c.nextSchedule.value, u64 c.nextScheduleGeneration.value,
    u64 c.arbitrationRounds, u64 c.schedulesIssued, u64 c.scheduleEntriesIssued,
    u64 c.completionReports, u64 c.completionsApplied, u64 c.completionsDuplicate,
    u64 c.completionsRejected, u64 c.deadlineMisses, u64 c.preemptionsIssued,
    u64 c.reservationsRetired]

/-- A state with the counters of a checkpointed one. -/
def withCounters (s c : Impl) : Impl :=
  { s with
    nextAttempt := c.nextAttempt
    nextSchedule := c.nextSchedule
    nextScheduleGeneration := c.nextScheduleGeneration
    arbitrationRounds := c.arbitrationRounds
    schedulesIssued := c.schedulesIssued
    scheduleEntriesIssued := c.scheduleEntriesIssued
    completionReports := c.completionReports
    completionsApplied := c.completionsApplied
    completionsDuplicate := c.completionsDuplicate
    completionsRejected := c.completionsRejected
    deadlineMisses := c.deadlineMisses
    preemptionsIssued := c.preemptionsIssued
    reservationsRetired := c.reservationsRetired }

theorem recovers_snapshotCounters (s : Impl) :
    Recovers s.readSnapshotCounters c.countersEncoding (s.withCounters c) := by
  simp only [readSnapshotCounters, countersEncoding, recovers_cons (reads_id _),
    recovers_cons (reads_u64 _)]
  exact recovers_pure _

open RecordWriter in
theorem snapshotEncoding_eq (c : Impl) : c.snapshotEncoding =
    u16 kDurableFormatGeneration :: u64 c.epoch.value ::
      (writePolicy c.policy ++ (u64 c.lastTick :: (c.tablesEncoding ++ c.countersEncoding))) := by
  simp only [snapshotEncoding, tablesEncoding, countersEncoding, List.append_assoc,
    List.cons_append, List.nil_append]

theorem recovers_exhausted {β : Type} {code : ErrorCode} {message : String} (b : β) :
    Recovers (do let rest ← get; require (rest = []) code message; return b : Reader β) [] b := by
  intro rest c rest' h
  have hcheck : Recovers (require (([].flatten : Bytes) ++ rest = []) code message >>= fun _ =>
      pure b : Reader β) [] b := recovers_require fun _ => recovers_pure b
  exact hcheck rest c rest' h

/-- A written image, when it is accepted, restores the state it was taken from. -/
theorem recovers_stateSnapshot (s : Impl) (filed : c.Filed)
    (short : c.snapshotEncoding.flatten.length < 2 ^ 64) :
    Recovers s.readStateSnapshot c.snapshotEncoding
      ((({ s.applyPolicy c.policy with epoch := c.epoch, lastTick := c.lastTick } : Impl).withTables
        c).withCounters c).reindexAll.reportRestored := by
  rw [snapshotEncoding_eq] at short ⊢
  simp only [List.flatten_cons, List.flatten_append, List.length_append] at short
  rw [readStateSnapshot, recovers_cons (reads_u16 _)]
  refine recovers_require fun _ => ?_
  rw [recovers_cons (reads_id _), Recovers.after_reads (reads_policy _)]
  refine recovers_check ?_
  rw [recovers_cons (reads_u64 _)]
  refine (recovers_snapshotTables _ filed (by omega)).bind ?_
  rw [← List.append_nil c.countersEncoding]
  exact (recovers_snapshotCounters _).bind (recovers_exhausted _)

theorem encodeStateSnapshot_eq (written : c.encodeStateSnapshot ≠ []) :
    c.encodeStateSnapshot = c.snapshotEncoding.flatten ∧
      c.snapshotEncoding.flatten.length ≤ kMaxSnapshotPayload := by
  unfold encodeStateSnapshot at written ⊢
  dsimp only at written ⊢
  split at written
  · exact absurd rfl written
  · rename_i hfits
    rw [if_neg hfits]
    have hbound := (Writer.overflowed_putAll (w := { limit := kMaxSnapshotPayload }) rfl
      (Nat.zero_le _)).mp (Bool.eq_false_iff.mpr hfits)
    rw [Writer.putAll_of_fits rfl hbound]
    simpa using hbound

theorem images_of_applyStateSnapshot {s : Impl} (filed : c.Filed)
    (written : c.encodeStateSnapshot ≠ [])
    (h : s.applyStateSnapshot c.encodeStateSnapshot = .ok i) : c.Images i := by
  obtain ⟨hpayload, hbound⟩ := encodeStateSnapshot_eq written
  rw [hpayload] at h
  obtain ⟨p, hp, hi⟩ := bind_eq_ok.mp h
  cases hi
  rw [← List.append_nil c.snapshotEncoding.flatten] at hp
  have hshort : c.snapshotEncoding.flatten.length < 2 ^ 64 := lt_of_le_of_lt hbound (by decide)
  obtain ⟨hstate, -⟩ := recovers_stateSnapshot s filed hshort [] p.1 p.2 hp
  rw [hstate]
  exact ⟨rfl, rfl, rfl, rfl, rfl, rfl, rfl, rfl, rfl, rfl, rfl, rfl, rfl, rfl, rfl⟩

end Impl

end FlowScheduler

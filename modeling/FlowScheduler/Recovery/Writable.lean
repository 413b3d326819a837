import FlowScheduler.Budget.Quanta
import FlowScheduler.Recovery.Lives
import FlowScheduler.Recovery.Validity

/-! # What is written is read back

A writer drops what exceeds its limit, the journal refuses a record that is too
long, and a reader refuses values out of range. None of this happens to what a
scheduler writes: definitions are checked before, a round grants no more windows
than fit in one record, and a ticket is made of definitions in force and of a
window the round has bounded.
-/

namespace FlowScheduler

open ByteCodec Failing SchedOp OrderedMap Impl

/-- The encoding is written whole, fits in one record, and is read back to its end as the value. -/
structure Durably {α : Type} (reader : Reader α) (e : Encoding) (a : α) : Prop where
  whole : (Writer.putAll { limit := RecordWriter.kDefaultLimit } e).overflowed = false
  fits : (RecordWriter.take e).length ≤ kMaxJournalRecordPayload
  reads : reader.run (RecordWriter.take e) = .ok (a, [])

section Sizes

theorem Durably.of_reads {α : Type} {reader : Reader α} {e : Encoding} {a : α} (h : Reads reader e a)
    (fits : e.flatten.length ≤ kMaxJournalRecordPayload) : Durably reader e a := by
  have hlimit : e.flatten.length ≤ RecordWriter.kDefaultLimit := fits.trans (by decide)
  have htake : RecordWriter.take e = e.flatten := RecordWriter.take_of_fits hlimit
  constructor
  · rw [Writer.putAll_of_fits rfl (by simpa using hlimit)]
  · rw [htake]
    exact fits
  · rw [htake, ← List.append_nil e.flatten]
    exact h []

variable {d : FlowDescriptor} {s : Schedule} {e : ScheduleEntry} {entries : List ScheduleEntry}

theorem length_writePolicy (p : SchedulingPolicy) : (writePolicy p).flatten.length = 118 := by
  simp [writePolicy, writeProvenance]

theorem length_writeResource (d : ResourceDescriptor) : (writeResource d).flatten.length = 57 := by
  simp [writeResource, writeProvenance]

theorem length_writeReservation (d : ReservationDescriptor) :
    (writeReservation d).flatten.length = 74 := by
  simp [writeReservation, writeProvenance]

theorem length_writePriorityClass (d : PriorityClassDescriptor) :
    (writePriorityClass d).flatten.length = 45 := by
  simp [writePriorityClass, writeProvenance]

theorem length_writeQosClass (d : QoSClassDescriptor) : (writeQosClass d).flatten.length = 42 := by
  simp [writeQosClass, writeProvenance]

theorem length_writeTicket (t : DispatchTicket) : (writeTicket t).flatten.length = 201 := by
  simp [writeTicket]

theorem length_writeEvidence (e : CompletionEvidence) : (writeEvidence e).flatten.length = 110 := by
  simp [writeEvidence, writeProvenance]

theorem length_flatMap_le {α : Type} {enc : α → Encoding} {bound : ℕ} {as : List α}
    (each : ∀ a ∈ as, (enc a).flatten.length ≤ bound) :
    (as.flatMap enc).flatten.length ≤ as.length * bound := by
  induction as with
  | nil => simp
  | cons a as ih =>
    have hfirst := each a List.mem_cons_self
    have hrest := ih fun a' ha' => each a' (List.mem_cons_of_mem _ ha')
    rw [List.flatMap_cons, List.flatten_append, List.length_append, List.length_cons, Nat.add_mul]
    omega

theorem length_writeFlowDescriptor_le (d : FlowDescriptor) :
    (writeFlowDescriptor d).flatten.length ≤ 196 + d.dependencies.length * 8 := by
  have hdependencies : (d.dependencies.flatMap fun dependency =>
      [RecordWriter.u64 dependency.value]).flatten.length ≤ d.dependencies.length * 8 :=
    length_flatMap_le fun _ _ => by simp
  simp only [writeFlowDescriptor, writeBinding, writeProvenance, List.flatten_append,
    List.flatten_cons, List.flatten_nil, List.length_append, List.length_nil, RecordWriter.length_u64,
    RecordWriter.length_u8, RecordWriter.length_size, RecordWriter.length_boolean]
  omega

theorem length_writeScheduleEntry (e : ScheduleEntry) :
    (writeScheduleEntry e).flatten.length = 162 + e.detail.length := by
  simp only [writeScheduleEntry, List.flatten_cons, List.flatten_nil, List.length_append,
    List.length_nil, RecordWriter.length_u64, RecordWriter.length_u32, RecordWriter.length_u8,
    RecordWriter.length_text]
  omega

theorem length_writeSchedule_le {bound : ℕ} (s : Schedule)
    (each : ∀ e ∈ s.entries, e.detail.length ≤ bound) :
    (writeSchedule s).flatten.length ≤ 105 + s.entries.length * (162 + bound) := by
  have hentries : (s.entries.flatMap writeScheduleEntry).flatten.length ≤
      s.entries.length * (162 + bound) := by
    refine length_flatMap_le fun e he => ?_
    rw [length_writeScheduleEntry]
    have := each e he
    omega
  simp only [writeSchedule, writeProvenance, List.flatten_append, List.flatten_cons,
    List.flatten_nil, List.length_append, List.length_nil, RecordWriter.length_u64,
    RecordWriter.length_u8, RecordWriter.length_size]
  omega

end Sizes

section Details

theorem length_boundedDetailFrom_le_length (size : ℕ) (text : Bytes) :
    (boundedDetailFrom size text).length ≤ text.length + 2 := by
  induction text generalizing size with
  | nil => simp [boundedDetailFrom]
  | cons b bs ih =>
    unfold boundedDetailFrom
    have hrest := ih (size + 1)
    split
    · simp [ascii]
    · simp only [List.length_cons]
      omega

theorem length_boundedDetail_ascii_le (text : String) :
    (boundedDetail (ascii text)).length ≤ text.length + 2 := by
  have hfrom := length_boundedDetailFrom_le_length 0 (ascii text)
  have hascii : (ascii text).length = text.length := by
    rw [ascii, List.length_map, String.length_toList]
  rw [boundedDetail, List.length_take]
  omega

theorem length_decimal_le {n : ℕ} (h : n < 2 ^ 64) : (toString n).length ≤ 20 :=
  Nat.repr_length n 20 (by decide) (h.trans (by decide))

theorem Impl.Issues.detail_le {s : Impl} {now : Ticks} {entries : List ScheduleEntry}
    {e : ScheduleEntry} (h : s.Issues now entries) (mem : e ∈ entries) : e.detail.length ≤ 60 := by
  by_cases hk : e.kind = .run
  · obtain ⟨flow, hgrants⟩ := h.run e mem hk
    obtain ⟨candidate, hentry⟩ := hgrants.entry
    have htier := length_decimal_le (candidate.key.tier.toNat_lt.trans (by decide))
    have hrank := length_decimal_le (candidate.key.priorityRank.toNat_lt.trans (by decide))
    rw [hentry]
    refine (length_boundedDetail_ascii_le _).trans ?_
    simp only [String.length_append]
    have htext : "tier ".length = 5 ∧ " priority ".length = 10 := ⟨rfl, rfl⟩
    omega
  · obtain ⟨v, candidate, d, hentry⟩ := h.other e mem hk
    have hflow := length_decimal_le d.flow.value.toNat_lt
    rw [hentry]
    refine (length_boundedDetail_ascii_le _).trans ?_
    simp only [Id.toText, String.length_append]
    have htext : "displaced by ".length = 13 ∧ "#".length = 1 ∧ (IdFamily.flow.name).length = 4 :=
      ⟨rfl, rfl, rfl⟩
    omega

theorem Impl.Issues.durably {s : Impl} {now : Ticks} {schedule : Schedule}
    (h : s.Issues now schedule.entries) : Durably readSchedule (writeSchedule schedule) schedule := by
  have hbound : kEntryBound = 3276 := by decide
  have hsize := h.size
  refine .of_reads (reads_schedule ⟨?_, fun e he => ⟨?_, ?_⟩⟩) ?_
  · have hmax : kMaxEntriesPerSchedule.toNat = 65536 := rfl
    omega
  · by_cases hk : e.kind = .run
    · obtain ⟨flow, hgrants⟩ := h.run e he hk
      obtain ⟨candidate, hentry⟩ := hgrants.entry
      rw [hentry]
      rfl
    · obtain ⟨v, candidate, d, hentry⟩ := h.other e he hk
      rw [hentry]
      rfl
  · exact (h.detail_le he).trans (by decide)
  · have hlength := length_writeSchedule_le schedule fun e he => h.detail_le he
    have hpayload : kMaxJournalRecordPayload = 1048576 := rfl
    omega

end Details

/-- The definitions in force pass their checks, and the next identities are real. -/
structure Impl.Numbered (i : Impl) : Prop where
  valid : i.Valid
  attempt : i.nextAttempt.valid
  schedule : i.nextSchedule.valid
  generation : i.nextScheduleGeneration.valid

/-- The schedule is named, and its windows are in the range of a ticket. -/
structure Schedule.Ranged (s : Schedule) : Prop where
  schedule : s.schedule.valid
  generation : s.generation.valid
  quantum : ∀ e ∈ s.entries, e.kind = .run → e.quantum ≠ 0 ∧ e.quantum ≤ kMaxQuantum

def Impl.Ranged (i : Impl) : Prop :=
  ∀ (id : ScheduleId) (t : ScheduleRuntime), i.schedules[id]? = some t → t.schedule.Ranged

section Invariants

variable {i i' : Impl} {now : Ticks} {c : Call} {r : Option Record}

theorem Impl.Numbered.move (h : i.Numbered) (move : Move c i r i') : i'.Numbered := by
  refine ⟨move.valid h.valid, move.nextAttempt_valid h.attempt, ?_, ?_⟩
  · rcases move.numbers with ⟨⟨hsame, -⟩, -⟩ | ⟨hadvance, -⟩
    · rw [hsame]
      exact h.schedule
    · exact Id.valid_of_advance hadvance
  · rcases move.numbers with ⟨⟨-, hsame⟩, -⟩ | ⟨-, hadvance⟩
    · rw [hsame]
      exact h.generation
    · exact Id.valid_of_advance hadvance

theorem survives_numbered : Survives Impl.Numbered where
  fresh policy epoch valid := by
    obtain ⟨hpolicy, hresources, hreservations, hpriorities, hqos, hflows⟩ := Impl.valid_fresh valid
    exact ⟨⟨hpolicy, hresources, hreservations, hpriorities, hqos, hflows⟩, rfl, rfl, rfl⟩
  image c i hc images := by
    refine ⟨Ledger.Valid.congr hc.valid ?_ ?_, ?_, ?_, ?_⟩
    · simp only [Ledger.registry, Impl.ledger, images.policy, images.epoch, images.resources,
        images.reservations, images.priorityClasses, images.qosClasses]
    · funext id
      rw [Impl.roster_eq, Impl.roster_eq, images.flows, Std.ExtTreeMap.getElem?_map, Option.map_map]
      rfl
    · rw [images.nextAttempt]
      exact hc.attempt
    · rw [images.nextSchedule]
      exact hc.schedule
    · rw [images.nextScheduleGeneration]
      exact hc.generation
  replay i r i' hr hi := by
    have hcounters := counters_replay hr
    refine ⟨hi.valid.replay hr, ?_, ?_, ?_⟩
    · rw [show i'.nextAttempt = i.nextAttempt from congrArg (·.1) hcounters]
      exact hi.attempt
    · rw [show i'.nextSchedule = i.nextSchedule from congrArg (·.2.1) hcounters]
      exact hi.schedule
    · rw [show i'.nextScheduleGeneration = i.nextScheduleGeneration from congrArg (·.2.2.1) hcounters]
      exact hi.generation
  report i recovery h := ⟨h.valid, h.attempt, h.schedule, h.generation⟩

namespace Impl.Ranged

theorem narrows (h : i.Ranged) (narrow : Narrows i i') : i'.Ranged := by
  intro id t' ht'
  obtain ⟨t, ht, drained⟩ := narrow.schedule id t' ht'
  rw [drained.schedule]
  exact h id t ht

theorem empty (h : i.schedules = ∅) : i.Ranged := by
  intro id t ht
  simp [h] at ht

theorem callMove (h : i.Ranged) (move : CallMove c i r i') : i'.Ranged := by
  rcases Narrows.callMove move with narrow | hempty
  · exact h.narrows narrow
  · exact empty hempty

/-- No window of a round exceeds the quantum of a policy that passes its check. -/
theorem issueMove (h : i.Ranged) (numbered : i.Numbered)
    (move : IssueMove now (fun i entries => ∃ round : Round, round.Serving i now [] ∧
      entries = round.entries) i r i') : i'.Ranged := by
  obtain ⟨move, may⟩ := move
  cases move with
  | @issue entries clock issues =>
    obtain ⟨round, serving, hentries⟩ := may _ rfl
    intro id t ht
    rw [schedules_advanceSchedule] at ht
    rcases schedules_applySchedule ht with ⟨-, hschedule, -⟩ | ⟨-, hold⟩
    · rw [hschedule]
      refine ⟨numbered.schedule, numbered.generation, fun e he hk => ?_⟩
      obtain ⟨-, flow, hserves⟩ := serving e (hentries ▸ he) hk
      refine ⟨(UInt64.pos_iff_ne_zero.mp hserves.positive), UInt64.le_trans hserves.policy ?_⟩
      have hvalid := numbered.valid.policy
      simp only [SchedulingPolicy.validate, bind_eq_ok, refuseIf_eq_ok, exists_const] at hvalid
      obtain ⟨-, -, -, -, -, -, hquantum, -⟩ := hvalid
      exact UInt64.not_lt.mp fun hlt => hquantum (.inr hlt)
    · exact h id t hold
  | common move => exact h.narrows (.commonMove move)
  | failDependency => exact h.narrows .failFlow
  | failDeadline => exact h.narrows (Narrows.countDeadlineMiss.trans .failFlow)
  | tick | roll | forget => exact h.narrows (.of_eq rfl rfl)
  | @retire front =>
    have hdrop : Narrows i (i.dropSchedule front) := .dropSchedule
    exact h.narrows (hdrop.trans (.of_eq rfl rfl))

end Impl.Ranged

end Invariants

section Lived

variable {allowed : Scheduler → Call → Prop} {stops : Scheduler → Prop} {past : List Record}
  {s : Scheduler}

theorem Lived.numbered (h : Lived allowed stops past s) : s.impl.Numbered :=
  (h.keeps survives_numbered fun _ _ _ _ _ _ move hi => hi.move move).2.1.1

theorem Lived.ranged (h : Lived allowed stops past s) : s.impl.Ranged := by
  induction h with
  | created hs => exact .empty (empty_create hs).1
  | faulty _ _ ih => exact ih
  | reopened _ _ _ _ opened _ => exact .empty (empty_create opened).1
  | @called past s h c ok ih =>
    by_cases hround : ∃ now, c = .arbitrate now
    · obtain ⟨now, rfl⟩ := hround
      have hrun := (runs_arbitrate_from (servingInvariant now) h.sound
        fun _ _ _ _ _ e he => by cases he).1
      have hmakes := makes_done (f := Response.outcome) hrun
      obtain ⟨_, steps⟩ := hmakes
      have hboth := steps.preserves (P := fun i => i.Numbered ∧ i.Ranged)
        (fun i r i' move hi => ⟨hi.1.move (.inr ⟨now, rfl, move.1⟩), hi.2.issueMove hi.1 move⟩)
        ⟨h.numbered, ih⟩
      exact hboth.2
    · by_cases himage : c = .checkpoint
      · subst himage
        rw [impl_checkpoint]
        exact ih
      · obtain ⟨_, steps⟩ := makes_call (s := s) (fun now hc => hround ⟨now, hc⟩) himage
        exact steps.preserves (fun _ _ _ move hi => hi.callMove move) ih

end Lived

section Tickets

variable {i : Impl} {schedule : ScheduleId} {generation : Generation} {ordinal : UInt32}
  {worker : WorkerId} {boot : BootId} {now : Ticks} {entry : ScheduleEntry} {flow : FlowRuntime}

theorem FlowDescriptor.named_of_validate {d : FlowDescriptor} (h : d.validate = .ok ()) :
    d.flow.valid ∧ d.generation.valid ∧ d.path.id.valid ∧ d.path.generation.valid := by
  simp only [FlowDescriptor.validate, bind_eq_ok, refuseIf_eq_ok, exists_const, not_not] at h
  obtain ⟨hflow, hgeneration, hpath, -⟩ := h
  obtain ⟨hpath, hpathGeneration⟩ := Bool.and_eq_true_iff.mp hpath
  exact ⟨hflow, hgeneration, hpath, hpathGeneration⟩

theorem ResourceDescriptor.named_of_validate {d : ResourceDescriptor} (h : d.validate = .ok ()) :
    d.resource.valid ∧ d.generation.valid := by
  simp only [ResourceDescriptor.validate, bind_eq_ok, refuseIf_eq_ok, exists_const, not_not] at h
  exact ⟨h.1, h.2.1⟩

theorem PriorityClassDescriptor.named_of_validate {d : PriorityClassDescriptor}
    (h : d.validate = .ok ()) : d.priority.valid ∧ d.generation.valid := by
  simp only [PriorityClassDescriptor.validate, bind_eq_ok, refuseIf_eq_ok, exists_const, not_not] at h
  exact ⟨h.1, h.2.1⟩

theorem QoSClassDescriptor.named_of_validate {d : QoSClassDescriptor} (h : d.validate = .ok ()) :
    d.qos.valid ∧ d.generation.valid := by
  simp only [QoSClassDescriptor.validate, bind_eq_ok, refuseIf_eq_ok, exists_const, not_not] at h
  exact ⟨h.1, h.2.1⟩

theorem SchedulingPolicy.named_of_validate {p : SchedulingPolicy} (h : p.validate = .ok ()) :
    p.policy.valid ∧ p.generation.valid := by
  simp only [SchedulingPolicy.validate, bind_eq_ok, refuseIf_eq_ok, exists_const, not_not] at h
  exact ⟨h.1, h.2.1⟩

/-- A ticket names definitions in force, real counters and a window in range. -/
theorem Impl.Dispatches.storable
    (h : i.Dispatches schedule generation ordinal worker boot now entry flow)
    (numbered : i.Numbered) (ranged : i.Ranged) (filed : i.Filed) :
    (i.issueTicket schedule generation entry worker boot now).Storable := by
  obtain ⟨hledger, hschedules⟩ := filed_iff.mp filed
  obtain ⟨runtime, hruntime, hgeneration, -, hentry, -⟩ := h.retained
  have hranged := ranged schedule runtime hruntime
  have hquantum := hranged.quantum entry (List.mem_of_getElem? hentry) h.run
  have hschedule : schedule.valid := hschedules schedule runtime hruntime ▸ hranged.schedule
  have hgeneration : generation.valid := hgeneration ▸ hranged.generation
  have hflow : entry.flow.valid ∧ entry.flowGeneration.valid ∧ entry.path.valid ∧
      entry.pathGeneration.valid := by
    obtain ⟨r, hr, hflowGeneration, hpath, hpathGeneration⟩ := h.authority.flow
    have hroster : i.ledger.roster entry.flow = some r.descriptor :=
      Impl.roster_eq.trans (congrArg (Option.map _) hr)
    obtain ⟨hflow, hnamed⟩ := FlowDescriptor.named_of_validate (numbered.valid.flows _ _ hroster)
    rw [hledger.flows _ _ hroster] at hflow
    rw [hflowGeneration, hpath, hpathGeneration] at hnamed
    exact ⟨hflow, hnamed⟩
  have hresource : entry.resource.valid ∧ entry.resourceGeneration.valid := by
    obtain ⟨r, hr, hcurrent⟩ := h.authority.resource
    have hfound : i.ledger.registry.resources entry.resource = some r.descriptor :=
      congrArg (Option.map _) hr
    have hnamed := ResourceDescriptor.named_of_validate (numbered.valid.resources _ _ hfound)
    rwa [hledger.resources _ _ hfound, hcurrent] at hnamed
  have hpriority : entry.priority.valid ∧ entry.priorityGeneration.valid := by
    obtain ⟨d, hd, hcurrent⟩ := h.authority.priority
    have hnamed := PriorityClassDescriptor.named_of_validate (numbered.valid.priorityClasses _ d hd)
    rwa [hledger.priorityClasses _ d hd, hcurrent] at hnamed
  have hqos : entry.qos.valid ∧ entry.qosGeneration.valid := by
    obtain ⟨d, hd, hcurrent⟩ := h.authority.qos
    have hnamed := QoSClassDescriptor.named_of_validate (numbered.valid.qosClasses _ d hd)
    rwa [hledger.qosClasses _ d hd, hcurrent] at hnamed
  have hpolicy := SchedulingPolicy.named_of_validate numbered.valid.policy
  have hepoch : i.epoch.valid := h.authority.epochValid
  refine ⟨?_, hquantum.1, hquantum.2⟩
  simp only [DispatchTicket.bound, issueTicket, Bool.and_eq_true]
  exact ⟨⟨⟨⟨⟨⟨⟨⟨⟨⟨⟨⟨⟨⟨⟨numbered.attempt, hepoch⟩, hschedule⟩, hgeneration⟩, hflow.1⟩, hflow.2.1⟩,
    hflow.2.2.1⟩, hflow.2.2.2⟩, hresource.1⟩, hresource.2⟩, hpolicy.1⟩, hpolicy.2⟩, hqos.1⟩, hqos.2⟩,
    hpriority.1⟩, hpriority.2⟩

end Tickets

section Values

variable {allowed : Scheduler → Call → Prop} {stops : Scheduler → Prop} {past : List Record}
  {s t : Scheduler} {now : Ticks}

theorem Move.issued_durably {c : Call} {i i' : Impl} {schedule : Schedule}
    (move : Move c i (some (.scheduleIssued schedule)) i') :
    Durably readSchedule (writeSchedule schedule) schedule := by
  rcases move with move | ⟨now, -, move⟩
  · cases move with
    | common move => cases move
  · cases move with
    | common move => cases move
    | issue _ issues => exact issues.durably

/-- Every schedule an incarnation has issued, whether or not the call that issued it succeeded. -/
theorem Lived.issued_durably (h : Lived allowed stops past s) (schedule : Schedule)
    (issued : .scheduleIssued schedule ∈ s.accepted) :
    Durably readSchedule (writeSchedule schedule) schedule := by
  have hopened : ∀ {options : SchedulerOptions} {files : Directory} {s : Scheduler},
      create options files = .ok s → Record.scheduleIssued schedule ∉ s.accepted := by
    intro options files s hs
    rcases accepted_create hs with hnone | ⟨_, _, _, _, hone⟩
    · simp [hnone]
    · simp [hone]
  induction h with
  | created hs => exact absurd issued (hopened hs)
  | reopened _ _ _ _ opened _ => exact absurd issued (hopened opened)
  | faulty _ _ ih => exact ih issued
  | @called past s h c ok ih =>
    refine preserves_call_history (P := fun _ l => Record.scheduleIssued schedule ∈ l →
      Durably readSchedule (writeSchedule schedule) schedule) (fun _ _ _ _ hl => hl) ?_ h.sound ih issued
    intro i r i' l move hl hmem
    rcases List.mem_append.mp hmem with hold | hnew
    · exact hl hold
    · obtain rfl := List.mem_singleton.mp hnew
      exact move.issued_durably

theorem returned_durably {o : ArbitrationOutcome} (sound : Sound s.impl)
    (round : exec (arbitrate now) s = (.ok o, t)) :
    Durably readSchedule (writeSchedule o.schedule) o.schedule := by
  have hrun := (runs_arbitrate_from (grantedInvariant now) sound fun _ _ o _ _ => .start o).2
  rw [round] at hrun
  obtain ⟨u, decided, hgranted, hentries, -⟩ := hrun o rfl
  by_cases hempty : decided.entries = []
  · have hnone : o.schedule.entries = [] := hentries.trans hempty
    refine .of_reads (reads_schedule ⟨by simp [hnone], by simp [hnone]⟩) ?_
    have hdetails : ∀ e ∈ o.schedule.entries, e.detail.length ≤ 0 := by simp [hnone]
    have hlength := length_writeSchedule_le o.schedule hdetails
    rw [hnone, List.length_nil, Nat.zero_mul] at hlength
    exact hlength.trans (by decide)
  · have hissues := hgranted.issues hempty
    rw [← hentries] at hissues
    exact hissues.durably

theorem ticket_durably {schedule : ScheduleId} {generation : Generation} {ordinal : UInt32}
    {worker : WorkerId} {boot : BootId} {ticket : DispatchTicket} (h : Lived allowed stops past s)
    (dispatch : exec (beginDispatch schedule generation ordinal worker boot now) s = (.ok ticket, t)) :
    Durably readTicket (writeTicket ticket) ticket := by
  unfold beginDispatch touch at dispatch
  rw [exec_modifyImpl_bind, exec_readImpl_bind] at dispatch
  obtain ⟨⟨entry, flow⟩, u, hguard, dispatch⟩ := exec_bind_ok.mp dispatch
  rw [exec_lift] at hguard
  obtain ⟨hchecked, rfl⟩ := Prod.mk.inj hguard
  obtain ⟨_, v, -, dispatch⟩ := exec_bind_ok.mp dispatch
  rw [exec_modifyImpl_bind, exec_readImpl_bind] at dispatch
  obtain ⟨next, w, -, dispatch⟩ := exec_bind_ok.mp dispatch
  cases dispatch
  obtain ⟨hvalid, hattempt, hschedule, hgeneration⟩ := h.numbered
  obtain ⟨h₁, h₂, h₃, h₄, h₅, h₆, h₇⟩ := h.filed
  refine .of_reads (reads_ticket ?_) ((length_writeTicket _).trans_le (by decide))
  exact (beginDispatchGuard_eq_ok.mp hchecked).storable ⟨hvalid, hattempt, hschedule, hgeneration⟩
    h.ranged ⟨h₁, h₂, h₃, h₄, h₅, h₆, h₇⟩

theorem evidence_durably {e : CompletionEvidence} {o : CommitOutcome}
    (completed : exec (complete e now) s = (.ok o, t)) (applied : o.disposition = .applied) :
    Durably readEvidence (writeEvidence e) e := by
  unfold complete touch at completed
  rw [exec_modifyImpl_bind, exec_modifyImpl_bind, exec_readImpl_bind] at completed
  split at completed
  · cases completed
    cases applied
  · cases completed
    cases applied
  · rename_i hverdict
    refine .of_reads (reads_evidence ?_) ((length_writeEvidence _).trans_le (by decide))
    obtain ⟨_, -, hverdict⟩ := bind_eq_ok.mp hverdict
    obtain ⟨_, hbound, hverdict⟩ := bind_eq_ok.mp hverdict
    obtain ⟨_, hserved, -⟩ := bind_eq_ok.mp hverdict
    rw [rejectIf_eq_ok, not_not] at hbound
    rw [rejectIf_eq_ok, UInt64.not_lt] at hserved
    exact ⟨hbound, hserved⟩

end Values

/-- Definitions that pass their checks, the schedules a round issues or returns, the tickets of
dispatches and the evidence that is applied, in every life of a directory, are all written whole, fit
in a record and are read back. -/
theorem durable_values_round_trip :
    (∀ p : SchedulingPolicy, p.validate = .ok () → Durably readPolicy (writePolicy p) p) ∧
    (∀ d : ResourceDescriptor, d.validate = .ok () → Durably readResource (writeResource d) d) ∧
    (∀ d : ReservationDescriptor, d.validate = .ok () →
      Durably readReservation (writeReservation d) d) ∧
    (∀ d : PriorityClassDescriptor, d.validate = .ok () →
      Durably readPriorityClass (writePriorityClass d) d) ∧
    (∀ d : QoSClassDescriptor, d.validate = .ok () → Durably readQosClass (writeQosClass d) d) ∧
    (∀ d : FlowDescriptor, d.validate = .ok () →
      Durably readFlowDescriptor (writeFlowDescriptor d) d) ∧
    ∀ (past : List Record) (s : Scheduler), Lived (fun _ _ => True) (fun _ => True) past s →
      (∀ schedule, .scheduleIssued schedule ∈ s.accepted →
        Durably readSchedule (writeSchedule schedule) schedule) ∧
      (∀ now o t, exec (arbitrate now) s = (.ok o, t) →
        Durably readSchedule (writeSchedule o.schedule) o.schedule) ∧
      (∀ schedule generation ordinal worker boot now ticket t,
        exec (beginDispatch schedule generation ordinal worker boot now) s = (.ok ticket, t) →
        Durably readTicket (writeTicket ticket) ticket) ∧
      (∀ e now o t, exec (complete e now) s = (.ok o, t) → o.disposition = .applied →
        Durably readEvidence (writeEvidence e) e) := by
  refine ⟨?_, ?_, ?_, ?_, ?_, ?_, ?_⟩
  · exact fun p _ => .of_reads (reads_policy p) ((length_writePolicy p).trans_le (by decide))
  · exact fun d _ => .of_reads (reads_resource d) ((length_writeResource d).trans_le (by decide))
  · exact fun d _ => .of_reads (reads_reservation d) ((length_writeReservation d).trans_le (by decide))
  · exact fun d _ =>
      .of_reads (reads_priorityClass d) ((length_writePriorityClass d).trans_le (by decide))
  · exact fun d _ => .of_reads (reads_qosClass d) ((length_writeQosClass d).trans_le (by decide))
  · intro d hvalid
    simp only [FlowDescriptor.validate, bind_eq_ok, refuseIf_eq_ok, exists_const] at hvalid
    obtain ⟨-, -, -, -, -, -, -, -, -, -, -, -, -, -, -, -, -, hcount, hsignal, -⟩ := hvalid
    have hcount := Nat.not_lt.mp hcount
    refine .of_reads (reads_flowDescriptor (UInt8.not_lt.mp hsignal) hcount) ?_
    have hlength := length_writeFlowDescriptor_le d
    have hmax : kMaxDependenciesPerFlow = 4096 := rfl
    have hpayload : kMaxJournalRecordPayload = 1048576 := rfl
    omega
  · intro past s lived
    refine ⟨lived.issued_durably, ?_, ?_, ?_⟩
    · exact fun now o t round => returned_durably lived.sound round
    · exact fun _ _ _ _ _ _ _ _ dispatch => ticket_durably lived dispatch
    · exact fun _ _ _ _ completed applied => evidence_durably completed applied

namespace Sample

set_option maxRecDepth 100000 in
/-- The definitions of the deployment, its first schedule and the ticket of its first dispatch. -/
theorem durable_values_round_trip_dispatched :
    Durably readPolicy (writePolicy policy) policy ∧
    Durably readFlowDescriptor (writeFlowDescriptor (flow 1)) (flow 1) ∧
    ∃ (s : Scheduler) (o : ArbitrationOutcome) (ticket : DispatchTicket),
      o ∈ (exec (arbitrate 5) s).1.toOption ∧ o.schedule.entries.length = 1 ∧
      ticket ∈ (exec (beginDispatch ⟨1⟩ ⟨1⟩ 0 ⟨7⟩ ⟨8⟩ 5) (s.call (.arbitrate 5)).2).1.toOption ∧
      Durably readSchedule (writeSchedule o.schedule) o.schedule ∧
      Durably readTicket (writeTicket ticket) ticket := by
  obtain ⟨hpolicy, -, -, -, -, hflow, hlived⟩ := durable_values_round_trip
  obtain ⟨s, lived, ⟨o, ho, hone⟩, ticket, hticket, -⟩ : ∃ s,
      Lived (fun _ _ => True) (fun _ => True) [] s ∧
        (∃ o ∈ (exec (arbitrate 5) s).1.toOption, o.schedule.entries.length = 1) ∧
        ∃ ticket ∈ (exec (beginDispatch ⟨1⟩ ⟨1⟩ 0 ⟨7⟩ ⟨8⟩ 5)
          (s.call (.arbitrate 5)).2).1.toOption, ticket.quantum = 5 :=
    @exists_lived _ _ setup durable _ (by decide +kernel)
  obtain ⟨-, hreturned, -, -⟩ := hlived [] s lived
  obtain ⟨-, -, hdispatched, -⟩ := hlived [] _ (lived.called (.arbitrate 5) trivial)
  exact ⟨hpolicy policy (by decide), hflow (flow 1) (by decide), s, o, ticket, ho, hone, hticket,
    hreturned 5 o _ (exec_eq_of_mem ho), hdispatched _ _ _ _ _ _ ticket _ (exec_eq_of_mem hticket)⟩

end Sample

end FlowScheduler

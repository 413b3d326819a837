import FlowScheduler.Recovery.Opening
import FlowScheduler.Steps.Registry

/-! # Recovered definitions

A record of the journal is checked before it is applied; the definitions of a
snapshot are not. What a directory restores therefore passes its own checks
exactly when what its image holds does.
-/

namespace FlowScheduler

open ByteCodec (Bytes Yields)
open Failing SchedOp OrderedMap

/-- Every definition in force passes its own check. -/
structure Ledger.Valid (l : Ledger) : Prop where
  policy : l.registry.policy.validate = .ok ()
  resources : ∀ id d, l.registry.resources id = some d → d.validate = .ok ()
  reservations : ∀ id d, l.registry.reservations id = some d → d.validate = .ok ()
  priorityClasses : ∀ id d, l.registry.priorityClasses id = some d → d.validate = .ok ()
  qosClasses : ∀ id d, l.registry.qosClasses id = some d → d.validate = .ok ()
  flows : ∀ id d, l.roster id = some d → d.validate = .ok ()

/-- The definition a record carries, if any, passes its check. -/
def Record.Valid : Record → Prop
  | .policyInstalled policy => policy.validate = .ok ()
  | .resourceRegistered d => d.validate = .ok ()
  | .reservationRegistered d => d.validate = .ok ()
  | .priorityClassRegistered d => d.validate = .ok ()
  | .qosClassRegistered d => d.validate = .ok ()
  | .flowAdmitted d | .flowUpdated d => d.validate = .ok ()
  | _ => True

theorem FlowDescriptor.Signalled.validate {d d' : FlowDescriptor} (h : d.Signalled d')
    (valid : d.validate = .ok ()) : d'.validate = .ok () := by
  rcases h with rfl | ⟨signal, rfl⟩
  · exact valid
  · have hcode : ¬ 2 < signal.code := by cases signal <;> decide
    simp only [FlowDescriptor.validate, bind_eq_ok, refuseIf_eq_ok, exists_const] at valid ⊢
    obtain ⟨h₁, h₂, h₃, h₄, h₅, h₆, h₇, h₈, h₉, h₁₀, h₁₁, h₁₂, h₁₃, h₁₄, h₁₅, h₁₆, h₁₇, h₁₈, -, h⟩ :=
      valid
    exact ⟨h₁, h₂, h₃, h₄, h₅, h₆, h₇, h₈, h₉, h₁₀, h₁₁, h₁₂, h₁₃, h₁₄, h₁₅, h₁₆, h₁₇, h₁₈, hcode, h⟩

namespace Ledger.Valid

variable {l l' : Ledger}

theorem congr (h : l.Valid) (registry : l'.registry = l.registry) (roster : l'.roster = l.roster) :
    l'.Valid := by
  obtain ⟨policy, resources, reservations, priorityClasses, qosClasses, flows⟩ := h
  rw [← registry] at policy resources reservations priorityClasses qosClasses
  rw [← roster] at flows
  exact ⟨policy, resources, reservations, priorityClasses, qosClasses, flows⟩

theorem register {κ α : Type} [DecidableEq κ] {table : κ → Option α} {check : α → Status} {k : κ}
    {d : α} (h : ∀ id d, table id = some d → check d = .ok ()) (valid : check d = .ok ()) (id : κ)
    (d' : α) (found : Function.update table k (some d) id = some d') : check d' = .ok () := by
  rw [Function.update_apply] at found
  split at found
  · cases found
    exact valid
  · exact h id d' found

theorem apply (h : l.Valid) {r : Record} (valid : r.Valid) : (l.apply r).Valid := by
  have hflows : ∀ id d, (l.apply r).roster id = some d → d.validate = .ok () := by
    intro id d' hd'
    rcases Ledger.roster_apply hd' with ⟨d, hd, hsame⟩ | ⟨-, rfl | rfl⟩
    · exact hsame.validate (h.flows id d hd)
    · exact valid
    · exact valid
  have hregistry := l.registry_apply r
  cases r with
  | policyInstalled policy =>
    exact ⟨valid, h.resources, h.reservations, h.priorityClasses, h.qosClasses, hflows⟩
  | resourceRegistered d =>
    exact ⟨h.policy, register h.resources valid, h.reservations, h.priorityClasses, h.qosClasses,
      hflows⟩
  | reservationRegistered d =>
    refine ⟨h.policy, h.resources, ?_, h.priorityClasses, h.qosClasses, hflows⟩
    rw [hregistry]
    exact register h.reservations valid
  | priorityClassRegistered d =>
    exact ⟨h.policy, h.resources, h.reservations, register h.priorityClasses valid, h.qosClasses,
      hflows⟩
  | qosClassRegistered d =>
    exact ⟨h.policy, h.resources, h.reservations, h.priorityClasses, register h.qosClasses valid,
      hflows⟩
  | _ =>
    obtain ⟨policy, resources, reservations, priorityClasses, qosClasses, -⟩ := h
    refine ⟨?_, ?_, ?_, ?_, ?_, hflows⟩ <;> rw [hregistry] <;> assumption

end Ledger.Valid

/-- Every definition the scheduler holds passes its own check. -/
def Impl.Valid (s : Impl) : Prop := s.ledger.Valid

section Moves

variable {c : Call} {s s' : Impl} {r : Option Record}

theorem CallMove.valid_record {record : Record} (move : CallMove c s (some record) s') :
    record.Valid := by
  cases move with
  | common move => cases move <;> exact trivial
  | registerResource guard | registerReservation guard | registerPriorityClass guard
  | registerQosClass guard | admitFlow guard | admitRefused guard | update guard
  | updateRefused guard | installPolicy guard =>
    obtain ⟨_, hvalid, -⟩ := bind_eq_ok.mp guard
    exact hvalid
  | _ => exact trivial

theorem Move.valid (move : Move c s r s') (h : s.Valid) : s'.Valid := by
  rcases move with move | ⟨now, -, move⟩
  · cases r with
    | none =>
      rw [Impl.Valid, move.quiet]
      exact h
    | some record =>
      rcases move.ledger with hl | ⟨-, rfl⟩
      · rw [Impl.Valid, hl]
        exact Ledger.Valid.apply h move.valid_record
      · exact h
  · cases r with
    | none => exact Ledger.Valid.congr h move.quiet.registry move.quiet.roster
    | some record =>
      rw [Impl.Valid, move.ledger]
      refine Ledger.Valid.apply h ?_
      cases move with
      | common move => cases move <;> exact trivial
      | issue => exact trivial

end Moves

section Replay

variable {s s' : Impl}

theorem ledger_applyRunEntry_or (schedule : Schedule) (e : ScheduleEntry) :
    (s.applyRunEntry schedule e).ledger = s.ledger ∨
      (s.applyRunEntry schedule e).ledger = s.ledger.runEntry e := by
  by_cases hpreempting : ∃ r, s.flows[e.flow]? = some r ∧ r.lifecycle = .preempting
  · obtain ⟨r, hr, hl⟩ := hpreempting
    have hsame : s.applyRunEntry schedule e = s := by
      unfold Impl.applyRunEntry
      rw [hr]
      dsimp only
      split
      · rfl
      · rw [if_pos (.inr (by rw [hl]; rfl))]
    exact .inl (congrArg Impl.ledger hsame)
  · exact .inr (Impl.ledger_applyRunEntry fun r hr hl => hpreempting ⟨r, hr, hl⟩)

theorem registered_applyRunEntry (schedule : Schedule) (e : ScheduleEntry) :
    (s.applyRunEntry schedule e).ledger.registry = s.ledger.registry ∧
      (s.applyRunEntry schedule e).ledger.roster = s.ledger.roster := by
  rcases ledger_applyRunEntry_or (s := s) schedule e with hledger | hledger <;> rw [hledger]
  · exact ⟨rfl, rfl⟩
  · exact ⟨Ledger.registry_runEntry e, Ledger.roster_runEntry e⟩

theorem registered_applySchedule (schedule : Schedule) :
    (s.applySchedule schedule).ledger.registry = s.ledger.registry ∧
      (s.applySchedule schedule).ledger.roster = s.ledger.roster := by
  refine foldl_keeps (P := fun t : Impl => t.ledger.registry = s.ledger.registry ∧
    t.ledger.roster = s.ledger.roster) (fun t e ht => ?_) _ ⟨rfl, rfl⟩
  split
  · exact ht
  · obtain ⟨hregistry, hroster⟩ := registered_applyRunEntry (s := t) schedule e
    exact ⟨hregistry.trans ht.1, hroster.trans ht.2⟩

theorem attempts_applyRunEntry (schedule : Schedule) (e : ScheduleEntry) :
    (s.applyRunEntry schedule e).attempts = s.attempts := by
  rcases s.applyRunEntry_cases schedule e with ⟨-, hs⟩ | ⟨r, reservations, virtualTime, -, hs, -⟩
  · rw [hs]
  · rw [hs]
    rfl

theorem attempts_applySchedule (schedule : Schedule) :
    (s.applySchedule schedule).attempts = s.attempts := by
  refine foldl_keeps (P := fun t : Impl => t.attempts = s.attempts) (fun t e ht => ?_) _ rfl
  split
  · exact ht
  · exact (attempts_applyRunEntry schedule e).trans ht

/-- A replayed record acts on the ledger as what it means, the issue of a schedule apart: in a
replay a flow of the schedule may still be on its way out of an attempt. -/
theorem ledger_replay {r : Record} (hr : r.replay s = .ok s') :
    s'.ledger = s.ledger.apply r ∨ ∃ schedule, r = .scheduleIssued schedule := by
  cases r with
  | policyInstalled =>
    obtain ⟨_, -, hr⟩ := bind_eq_ok.mp hr
    cases hr
    exact .inl rfl
  | resourceRegistered =>
    obtain ⟨_, -, hr⟩ := bind_eq_ok.mp hr
    cases hr
    exact .inl (Impl.ledger_applyResource _)
  | reservationRegistered =>
    obtain ⟨_, -, hr⟩ := bind_eq_ok.mp hr
    cases hr
    exact .inl (Impl.ledger_applyReservation _)
  | priorityClassRegistered =>
    obtain ⟨_, -, hr⟩ := bind_eq_ok.mp hr
    cases hr
    exact .inl (Impl.ledger_applyPriorityClass _)
  | qosClassRegistered =>
    obtain ⟨_, -, hr⟩ := bind_eq_ok.mp hr
    cases hr
    exact .inl (Impl.ledger_applyQosClass _)
  | flowAdmitted =>
    obtain ⟨_, -, hr⟩ := bind_eq_ok.mp hr
    exact .inl (Impl.ledger_applyAdmit hr)
  | flowUpdated =>
    obtain ⟨_, -, hr⟩ := bind_eq_ok.mp hr
    exact .inl (Impl.ledger_applyUpdate hr)
  | scheduleIssued schedule => exact .inr ⟨schedule, rfl⟩
  | reservationRetired => cases hr; exact .inl (Impl.ledger_applyRetireReservation _ _)
  | epochAdvanced => cases hr; exact .inl (Impl.ledger_applyEpochAdvance _ _)
  | flowReadinessChanged => cases hr; exact .inl (Impl.ledger_applyReadiness _ _ _ _)
  | flowCancelled =>
    cases hr
    exact .inl ((Impl.ledger_normalizeTransientStates _).trans (Impl.ledger_applyCancel _ _ _))
  | flowRetired => cases hr; exact .inl (Impl.ledger_applyRetireFlow _ _)
  | scheduleReleased => cases hr; exact .inl (Impl.ledger_applyReleaseSchedule _ _)
  | attemptOpened => cases hr; exact .inl (Impl.ledger_applyAttemptOpened _ _ _)
  | attemptStarted => cases hr; exact .inl (Impl.ledger_applyAttemptStarted _ _)
  | attemptClosed =>
    cases hr
    exact .inl ((Impl.ledger_normalizeTransientStates _).trans (Impl.ledger_applyAttemptClosed ..))
  | completionCommitted => cases hr; exact .inl (Impl.ledger_applyCompletion _ _ _ _)
  | ambiguityResolved => cases hr; exact .inl (Impl.ledger_applyAmbiguityResolved _ _ _ _)

theorem Record.valid_of_replay {r : Record} (hr : r.replay s = .ok s') : r.Valid := by
  cases r with
  | policyInstalled | resourceRegistered | reservationRegistered | priorityClassRegistered
  | qosClassRegistered | flowAdmitted | flowUpdated =>
    obtain ⟨_, hvalid, -⟩ := bind_eq_ok.mp hr
    exact hvalid
  | _ => exact trivial

theorem Impl.Valid.replay {r : Record} (h : s.Valid) (hr : r.replay s = .ok s') : s'.Valid := by
  rcases ledger_replay hr with hl | ⟨schedule, rfl⟩
  · rw [Impl.Valid, hl]
    exact Ledger.Valid.apply h (Record.valid_of_replay hr)
  · cases hr
    obtain ⟨hregistry, hroster⟩ := registered_applySchedule (s := s) schedule
    exact Ledger.Valid.congr h hregistry hroster

theorem Impl.Valid.applyRecord {type : JournalRecordType} {payload : Bytes} (h : s.Valid)
    (hr : s.applyRecord type payload = .ok s') : s'.Valid := by
  rcases replay_of_applyRecord hr with rfl | ⟨r, -, hr⟩
  · exact h
  · exact h.replay hr

end Replay

theorem Ledger.Valid.of_advanceEpoch {l : Ledger} {next : FabricEpoch}
    (h : (l.advanceEpoch next).Valid) : l.Valid := by
  refine ⟨h.policy, h.resources, h.reservations, h.priorityClasses, h.qosClasses, ?_⟩
  rw [← Ledger.roster_advanceEpoch next]
  exact h.flows

section Opening

variable {options : SchedulerOptions} {files : Directory} {s t : Scheduler}

theorem Impl.valid_fresh {policy : SchedulingPolicy} (valid : policy.validate = .ok ()) :
    (Impl.fresh policy).Valid := by
  refine ⟨valid, ?_, ?_, ?_, ?_, ?_⟩ <;> intro id d hd <;>
    simp [Ledger.registry, Ledger.roster, Impl.ledger, Impl.fresh] at hd

/-- The definitions of the image in a snapshot pass their checks. -/
def ValidImage (options : SchedulerOptions) (snapshot : Option Bytes) : Prop :=
  ∀ payload i, DurableStore.readSnapshot { files := { snapshot } } = .ok payload →
    (Impl.fresh options.policy).applyStateSnapshot payload = .ok i → i.Valid

theorem valid_restore {i : Impl} (valid : options.policy.validate = .ok ())
    (image : ValidImage options files.snapshot)
    (h : (Impl.fresh options.policy).restore files.snapshot = .ok i) : i.Valid := by
  unfold Impl.restore at h
  split at h
  · rename_i payload hpayload
    obtain ⟨i', hi', h⟩ := bind_eq_ok.mp h
    cases h
    exact image payload i' hpayload hi'
  · split at h
    · cases h
      exact Impl.valid_fresh valid
    · cases h

/-- Opened on an image that passes the checks, a scheduler holds only definitions that do. -/
theorem valid_create (image : options.stateDirectory ≠ "" → ValidImage options files.snapshot)
    (h : create options files = .ok s) : s.impl.Valid := by
  obtain ⟨valid, rfl | ⟨durable, store, -, rfl, hrecover⟩⟩ := create_ok h
  · obtain ⟨policy, resources, reservations, priorityClasses, qosClasses, flows⟩ :=
      Impl.valid_fresh valid
    exact ⟨policy, resources, reservations, priorityClasses, qosClasses, flows⟩
  · obtain ⟨b, report, s₁, s₂, s₃, next, before, after, h₁, h₂, -, -, rfl⟩ := recover_ok hrecover
    have hrestored : s₁.impl.Valid := by
      obtain ⟨i, hi, rfl⟩ := restored_of_ok h₁
      exact valid_restore valid (image durable) hi
    have hreplayed : s₂.impl.Valid :=
      replayJournal_keeps (fun _ _ _ _ hr hi => Impl.Valid.applyRecord hi hr) hrestored h₂
    have hbefore : Impl.Valid { s₂.impl with recovery := before } := hreplayed
    have hadvanced : Impl.Valid (({ s₂.impl with recovery := before } : Impl).applyEpochAdvance next
        s₂.impl.lastTick) := by
      rw [Impl.Valid, Impl.ledger_applyEpochAdvance]
      exact Ledger.Valid.apply (r := .epochAdvanced {} next .recovery 0) hbefore trivial
    exact hadvanced

theorem length_payload_epochAdvanced (previous next : FabricEpoch) (reason : EpochReason)
    (tick : Ticks) : (Record.epochAdvanced previous next reason tick).payload.length = 25 := by
  have hfits : (Record.epochAdvanced previous next reason tick).encoding.flatten.length = 25 := by
    simp [Record.encoding]
  rw [Record.payload, RecordWriter.take_of_fits (by rw [hfits]; decide)]
  exact hfits

/-- A journal that resets the epoch, so that every image can be opened. -/
theorem exists_create_of_restore {i : Impl} (valid : options.policy.validate = .ok ())
    (durable : options.stateDirectory ≠ "") (snapshot : Option Bytes)
    (restored : (Impl.fresh options.policy).restore snapshot = .ok i) :
    ∃ journal s, create options { journal, snapshot } = .ok s ∧
      s.impl.ledger = (i.ledger.advanceEpoch ⟨1⟩).advanceEpoch ⟨2⟩ := by
  have hsize : (Record.epochAdvanced {} ⟨1⟩ .recovery 0).payload.length ≤
      kMaxJournalRecordPayload := by
    rw [length_payload_epochAdvanced]
    decide
  have hreadable : Readable (journalOf 1 [(.epochAdvanced,
      (Record.epochAdvanced {} ⟨1⟩ .recovery 0).payload)]) [(.epochAdvanced,
      (Record.epochAdvanced {} ⟨1⟩ .recovery 0).payload)] := by
    refine ⟨fun r hr => ?_, [], (List.append_nil _).symm, .inl rfl⟩
    rw [List.mem_singleton.mp hr]
    exact hsize
  have hreplay : i.replayAll [(.epochAdvanced, (Record.epochAdvanced {} ⟨1⟩ .recovery 0).payload)] =
      .ok (i.applyEpochAdvance ⟨1⟩ 0) := by
    have hone : i.applyRecord .epochAdvanced (Record.epochAdvanced {} ⟨1⟩ .recovery 0).payload =
        .ok (i.applyEpochAdvance ⟨1⟩ 0) :=
      applyRecord_payload (r := .epochAdvanced {} ⟨1⟩ .recovery 0) trivial hsize (by simp)
    rw [Impl.replayAll, List.foldlM_cons, hone]
    rfl
  have hnext : (i.applyEpochAdvance ⟨1⟩ 0).epoch.advance = .ok ⟨2⟩ := rfl
  obtain ⟨s, hs⟩ := exists_create { snapshot, journal := journalOf 1 [(.epochAdvanced,
    (Record.epochAdvanced {} ⟨1⟩ .recovery 0).payload)] } valid durable hreadable restored hreplay
    hnext fun d keeps => by
      rw [DurableStore.appendGuard, keeps.holds.sequence, keeps.holds.bytes,
        length_journalOf_cons, length_payload_epochAdvanced, length_payload_epochAdvanced]
      rfl
  refine ⟨_, s, hs, ?_⟩
  obtain ⟨i', P, hi', hP, opened⟩ := create_durable durable hreadable hs
  obtain rfl := Except.ok.inj (restored.symm.trans hi')
  obtain rfl := Except.ok.inj (hreplay.symm.trans hP)
  have hepoch : s.impl.epoch = ⟨2⟩ := Except.ok.inj (opened.advanced.symm.trans hnext)
  obtain ⟨before, after, hmemory⟩ := opened.memory
  rw [hepoch] at hmemory
  have hledger : s.impl.ledger = (({ i.applyEpochAdvance ⟨1⟩ 0 with recovery := before } :
      Impl).applyEpochAdvance ⟨2⟩ (i.applyEpochAdvance ⟨1⟩ 0).lastTick).ledger := by
    rw [hmemory]
    rfl
  rw [hledger, Impl.ledger_applyEpochAdvance]
  exact congrArg (Ledger.advanceEpoch · ⟨2⟩) (Impl.ledger_applyEpochAdvance ⟨1⟩ 0)

/-- The resources of a scheduler whose definitions pass their checks have an interval. -/
theorem Impl.Valid.interval_ne_zero {i : Impl} (h : i.Valid) {id : ResourceId}
    {r : ResourceRuntime} (found : i.resources[id]? = some r) : r.descriptor.interval ≠ 0 := by
  have hvalid := h.resources id r.descriptor (by simp [Ledger.registry, Impl.ledger, found])
  simp only [ResourceDescriptor.validate, bind_eq_ok, refuseIf_eq_ok, exists_const] at hvalid
  obtain ⟨-, -, -, hinterval, -⟩ := hvalid
  exact fun hzero => hinterval (.inl hzero)

/-- Whatever the journal holds, everything in force in a recovered scheduler and later passes its
check, and no interval is zero, exactly when what the snapshot holds passes its check. -/
theorem recovered_definitions_valid (options : SchedulerOptions) (snapshot : Option Bytes) :
    (∀ journal s, create options { journal, snapshot } = .ok s → ∀ t, LaterBy (fun _ _ => True) s t →
      t.impl.Valid ∧ ∀ (id : ResourceId) r, t.impl.resources[id]? = some r →
        r.descriptor.interval ≠ 0) ↔
    (options.policy.validate = .ok () → options.stateDirectory ≠ "" →
      ValidImage options snapshot) := by
  constructor
  · intro h valid durable payload i hpayload hi
    obtain ⟨journal, s, hs, hledger⟩ := exists_create_of_restore valid durable snapshot
      (i := { i with recovery.snapshotRecords := 1 }) (by rw [Impl.restore, hpayload]; simp [hi])
    have hvalid := (h journal s hs s .refl).1
    rw [Impl.Valid, hledger] at hvalid
    exact hvalid.of_advanceEpoch.of_advanceEpoch
  · intro image journal s hs t later
    have hpolicy : options.policy.validate = .ok () := by
      obtain ⟨_, hpolicy, -⟩ := bind_eq_ok.mp hs
      exact hpolicy
    have hvalid := (later.preserves (sound_create hs) (fun _ _ _ _ _ _ move hi => move.valid hi)
      (valid_create (fun durable => image hpolicy durable) hs)).2
    exact ⟨hvalid, fun id r hr => hvalid.interval_ne_zero hr⟩

end Opening

def Sample.brokenSnapshot : Bytes :=
  DurableStore.buildSnapshotBlob (Impl.encodeStateSnapshot
    ((Impl.fresh Sample.policy).applyResource { Sample.resource with interval := 0 }))

set_option maxRecDepth 100000 in
theorem not_recovered_definitions_valid :
    ∃ s ∈ (create Sample.durable { snapshot := some Sample.brokenSnapshot }).toOption,
      ∃ r ∈ s.impl.resources[(⟨1⟩ : ResourceId)]?, r.descriptor.interval = 0 := by
  decide +kernel

end FlowScheduler

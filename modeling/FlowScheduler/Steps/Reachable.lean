import FlowScheduler.Steps.Round
import FlowScheduler.Runtime.Replay
import FlowScheduler.Durable.Scan

/-! # Reachable schedulers

A scheduler opened on a directory, whatever the directory holds, starts without
any attempt and with keyed tables. From there every call makes moves only, so
what the moves preserve holds in every state a scheduler can reach.
-/

namespace FlowScheduler

open ByteCodec (Bytes Yields)
open Failing SchedOp OrderedMap

namespace Keyed

variable {s s' : Impl}

theorem replay {r : Record} (h : Keyed s) (hr : r.replay s = .ok s') : Keyed s' := by
  cases r with
  | policyInstalled | resourceRegistered | reservationRegistered | priorityClassRegistered
  | qosClassRegistered =>
    obtain ⟨_, -, hr⟩ := bind_eq_ok.mp hr
    cases hr
    exact h.congr rfl rfl
  | flowAdmitted d =>
    obtain ⟨_, -, hr⟩ := bind_eq_ok.mp hr
    exact h.applyAdmit hr
  | flowUpdated d =>
    obtain ⟨_, -, hr⟩ := bind_eq_ok.mp hr
    exact h.applyUpdate hr
  | reservationRetired => cases hr; exact (@keeps 0).applyRetireReservation h
  | epochAdvanced => cases hr; exact h.applyEpochAdvance
  | flowReadinessChanged => cases hr; exact keeps.applyReadiness h
  | flowCancelled =>
    cases hr
    exact keeps.normalizeTransientStates (keeps.applyCancel trivial h)
  | flowRetired => cases hr; exact h.applyRetireFlow
  | scheduleIssued => cases hr; exact (@keeps 0).applySchedule h
  | scheduleReleased => cases hr; exact keeps.applyReleaseSchedule h
  | attemptOpened => cases hr; exact keeps.applyAttemptOpened h
  | attemptStarted => cases hr; exact keeps.applyAttemptStarted h
  | attemptClosed =>
    cases hr
    exact keeps.normalizeTransientStates (keeps.applyAttemptClosed (fun _ => trivial) h)
  | completionCommitted =>
    cases hr
    exact keeps.applyCompletion (fun _ => trivial) (fun _ _ _ => creditFlow) h
  | ambiguityResolved => cases hr; exact keeps.applyAmbiguityResolved h

theorem applyRecord {type : JournalRecordType} {payload : Bytes} (h : Keyed s)
    (hr : s.applyRecord type payload = .ok s') : Keyed s' := by
  rcases replay_of_applyRecord hr with rfl | ⟨r, -, hr⟩
  · exact h
  · exact h.replay hr

end Keyed

/-- A replay changes neither the counters nor the clock, and the policy only by installing one. -/
theorem setting_replay {s s' : Impl} {r : Record} (h : r.replay s = .ok s') :
    { s'.setting with priorityClasses := s.priorityClasses, qosClasses := s.qosClasses } = s.setting ∨
      ∃ policy, s' = s.applyPolicy policy := by
  have kept : ∀ {t : Impl}, t.setting = s.setting → { t.setting with
      priorityClasses := s.priorityClasses, qosClasses := s.qosClasses } = s.setting := by
    intro t ht
    rw [ht]
    rfl
  cases r with
  | policyInstalled policy =>
    obtain ⟨_, -, h⟩ := bind_eq_ok.mp h
    cases h
    exact .inr ⟨policy, rfl⟩
  | resourceRegistered | reservationRegistered | priorityClassRegistered | qosClassRegistered =>
    obtain ⟨_, -, h⟩ := bind_eq_ok.mp h
    cases h
    exact .inl rfl
  | flowAdmitted =>
    obtain ⟨_, -, h⟩ := bind_eq_ok.mp h
    exact .inl (kept (Impl.setting_applyAdmit h))
  | flowUpdated =>
    obtain ⟨_, -, h⟩ := bind_eq_ok.mp h
    exact .inl (kept (Impl.setting_applyUpdate h))
  | reservationRetired => cases h; exact .inl (kept (Impl.setting_applyRetireReservation ..))
  | epochAdvanced => cases h; exact .inl (kept (Impl.setting_applyEpochAdvance ..))
  | flowReadinessChanged => cases h; exact .inl (kept (Impl.setting_applyReadiness ..))
  | flowCancelled =>
    cases h
    exact .inl (kept ((Impl.setting_normalizeTransientStates _).trans (Impl.setting_applyCancel ..)))
  | flowRetired => cases h; exact .inl (kept (Impl.setting_applyRetireFlow ..))
  | scheduleIssued => cases h; exact .inl (kept (Impl.setting_applySchedule _))
  | scheduleReleased => cases h; exact .inl (kept (Impl.setting_applyReleaseSchedule ..))
  | attemptOpened => cases h; exact .inl (kept (Impl.setting_applyAttemptOpened ..))
  | attemptStarted => cases h; exact .inl (kept (Impl.setting_applyAttemptStarted ..))
  | attemptClosed =>
    cases h
    refine .inl (kept ((Impl.setting_normalizeTransientStates _).trans ?_))
    exact Impl.setting_applyAttemptClosed ..
  | completionCommitted => cases h; exact .inl (kept (Impl.setting_applyCompletion ..))
  | ambiguityResolved => cases h; exact .inl (kept (Impl.setting_applyAmbiguityResolved ..))

section Snapshot

theorem mem_of_get_tableOf {κ ν : Type} [Ord κ] [Std.TransOrd κ] [Std.LawfulEqOrd κ] [DecidableEq κ]
    {entries : List (κ × ν)} {k : κ} {v : ν} (h : (tableOf entries)[k]? = some v) :
    (k, v) ∈ entries := by
  have hfold : ∀ (entries : List (κ × ν)) (t : Table κ ν),
      (entries.foldl (fun t entry => t.insert entry.1 entry.2) t)[k]? = some v →
        t[k]? = some v ∨ (k, v) ∈ entries := by
    intro entries
    induction entries with
    | nil => exact fun t ht => .inl ht
    | cons entry entries ih =>
      intro t ht
      rcases ih _ ht with ht | ht
      · rw [get_insert] at ht
        split at ht
        · rename_i hk
          cases ht
          exact .inr (by rw [hk]; exact List.mem_cons_self)
        · exact .inl ht
      · exact .inr (List.mem_cons_of_mem _ ht)
  refine (hfold entries ∅ h).resolve_left fun hempty => ?_
  simp at hempty

theorem yields_readEntries {κ ν : Type} {read : Reader ν} {key : ν → κ} {bound : ℕ}
    {message : String} {P : ν → Prop} (h : Yields read P) :
    Yields (readEntries read key bound message) fun entries =>
      ∀ entry ∈ entries, entry.1 = key entry.2 ∧ P entry.2 := by
  refine .skip fun n => .skip fun _ => (h.replicate _).bind fun values hv => .pure ?_
  intro entry he
  obtain ⟨v, hmem, rfl⟩ := List.mem_map.mp he
  exact ⟨rfl, hv.2 v hmem⟩

theorem yields_readSnapshotTables (s : Impl) : Yields (Impl.readSnapshotTables s) fun t =>
    ∀ (id : FlowId) (r : FlowRuntime), t.flows[id]? = some r → r.descriptor.flow = id := by
  iterate 4 refine .skip fun _ => ?_
  refine (yields_readEntries .any).bind fun flows hflows => ?_
  iterate 3 refine .skip fun _ => ?_
  refine .pure fun id r hr => ?_
  exact (hflows _ (mem_of_get_tableOf hr)).1.symm

theorem yields_readSnapshotCounters (s : Impl) :
    Yields (Impl.readSnapshotCounters s) fun t => t.flows = s.flows := by
  iterate 13 refine .skip fun _ => ?_
  exact .pure rfl

theorem yields_readStateSnapshot (s : Impl) : Yields s.readStateSnapshot Keyed := by
  iterate 6 refine .skip fun _ => ?_
  refine (yields_readSnapshotTables _).bind fun t ht => ?_
  refine (yields_readSnapshotCounters _).bind fun u hu => .skip fun _ => .skip fun _ => .pure ?_
  have hkeyed : Keyed u.reindexAll := Keyed.reindexAll (by rw [hu]; exact ht)
  exact hkeyed.congr rfl rfl

end Snapshot

section Opening

variable {s t : Scheduler}

theorem keyed_fresh (policy : SchedulingPolicy) : Keyed (Impl.fresh policy) where
  key id r hr := by simp [Impl.fresh] at hr
  index id slot _ := by cases slot <;> simp [Impl.fresh, FlowIndexes.members]

theorem restoreSnapshot_ok {b : Bool} (h : exec restoreSnapshot s = (.ok b, t)) :
    t = s ∨ ∃ payload i, s.impl.applyStateSnapshot payload = .ok i ∧
      t = { s with impl := { i with recovery.snapshotRecords := 1 } } := by
  rw [restoreSnapshot, exec_bind, exec_get] at h
  dsimp only at h
  split at h
  · cases h
    exact .inl rfl
  · split at h
    · rename_i payload _
      rw [exec_lift_bind] at h
      split at h
      · rename_i i hi
        cases h
        exact .inr ⟨payload, i, hi, rfl⟩
      · cases h
    · split at h <;> cases h
      exact .inl rfl

theorem restoreSnapshot_keeps {P : Impl → Prop} {b : Bool}
    (read : Yields s.impl.readStateSnapshot P)
    (blind : ∀ i report, P i → P { i with recovery := report }) (hs : P s.impl)
    (h : exec restoreSnapshot s = (.ok b, t)) : P t.impl := by
  rcases restoreSnapshot_ok h with rfl | ⟨payload, i, hi, rfl⟩
  · exact hs
  · obtain ⟨p, hp, hi⟩ := bind_eq_ok.mp hi
    cases hi
    exact blind _ _ (read payload p.1 p.2 hp)

theorem replay_keeps {P : Impl → Prop} {store store' : DurableStore} {i i' : Impl}
    {report : DurableStore.JournalScanReport}
    (keep : ∀ i type payload i', i.applyRecord type payload = .ok i' → P i → P i') (hi : P i)
    (h : exec (DurableStore.replay true Impl.visit i) store = (.ok (i', report), store')) :
    P i' := by
  rw [DurableStore.replay, exec_bind, exec_get] at h
  dsimp only at h
  rw [exec_bind, exec_lift] at h
  cases hscan : scanJournal true Impl.visit store.files.journal i with
  | error e =>
    rw [hscan] at h
    cases h
  | ok outcome =>
    rw [hscan] at h
    have hstate : P outcome.state := scanRecords_keeps (fun _ _ _ hv => keep _ _ _ _ hv) hscan hi
    dsimp only at h
    split at h
    · obtain ⟨_, _, -, h⟩ := exec_bind_ok.mp h
      obtain ⟨_, _, -, h⟩ := exec_bind_ok.mp h
      cases h
      exact hstate
    · cases h
      exact hstate

theorem replayJournal_keeps {P : Impl → Prop} {report : DurableStore.JournalScanReport}
    (keep : ∀ i type payload i', i.applyRecord type payload = .ok i' → P i → P i') (hs : P s.impl)
    (h : exec replayJournal s = (.ok report, t)) : P t.impl := by
  rw [replayJournal, exec_bind, exec_get] at h
  dsimp only at h
  cases hstore : s.store with
  | none =>
    rw [hstore] at h
    cases h
    exact hs
  | some store =>
    rw [hstore] at h
    dsimp only at h
    cases hr : exec (DurableStore.replay true Impl.visit s.impl) store with
    | mk result store' =>
      rw [hr] at h
      cases result with
      | error e => cases h
      | ok p =>
        cases h
        exact replay_keeps keep hs hr

theorem sound_applyEpochAdvance {i : Impl} (keyed : Keyed i) (next : FabricEpoch) (now : Ticks) :
    Sound (i.applyEpochAdvance next now) := by
  refine ⟨keyed.applyEpochAdvance, ?_⟩
  rw [Impl.ledger_applyEpochAdvance]
  exact Ledger.Sound.advanceEpoch next

theorem Sound.withRecovery {i : Impl} (h : Sound i) (report : RecoveryReport) :
    Sound { i with recovery := report } :=
  ⟨h.keyed.congr rfl rfl, h.ledger.congr rfl rfl⟩

/-- A recovery restores, replays, and enters the next epoch under a record of its own. -/
theorem recover_ok (h : exec recover s = (.ok (), t)) :
    ∃ b report s₁ s₂ s₃ next before after,
      exec restoreSnapshot s = (.ok b, s₁) ∧ exec replayJournal s₁ = (.ok report, s₂) ∧
      s₂.impl.epoch.advance = .ok next ∧
      exec (journal (.epochAdvanced s₂.impl.epoch next .recovery s₂.impl.lastTick))
        { s₂ with impl := { s₂.impl with recovery := before } } = (.ok (), s₃) ∧
      t = { s₃ with impl :=
        { ({ s₂.impl with recovery := before } : Impl).applyEpochAdvance next s₂.impl.lastTick with
          recovery := after } } := by
  obtain ⟨b, s₁, h₁, h⟩ := exec_bind_ok.mp h
  obtain ⟨report, s₂, h₂, h⟩ := exec_bind_ok.mp h
  obtain ⟨_, _, hget, h⟩ := exec_bind_ok.mp h
  cases hget
  rw [exec_modifyImpl_bind, exec_readImpl_bind, exec_lift_bind] at h
  dsimp only [Impl.reportRestored] at h
  cases hnext : s₂.impl.epoch.advance with
  | error e =>
    rw [hnext] at h
    cases h
  | ok next =>
    rw [hnext] at h
    obtain ⟨_, s₃, happ, h⟩ := exec_bind_ok.mp h
    rw [exec_modifyImpl_bind, exec_modifyImpl, impl_of_append happ] at h
    cases h
    exact ⟨b, report, s₁, s₂, s₃, next, _, _, h₁, h₂, hnext, happ, rfl⟩

theorem sound_recover (keyed : Keyed s.impl) (h : exec recover s = (.ok (), t)) :
    Sound t.impl := by
  obtain ⟨b, report, s₁, s₂, s₃, next, before, after, h₁, h₂, -, -, rfl⟩ := recover_ok h
  have keyed₂ := replayJournal_keeps (fun _ _ _ _ hr hi => Keyed.applyRecord hi hr)
    (restoreSnapshot_keeps (yields_readStateSnapshot _) (fun _ _ hi => hi.congr rfl rfl) keyed h₁) h₂
  have hbefore : Keyed { s₂.impl with recovery := before } := keyed₂.congr rfl rfl
  exact (sound_applyEpochAdvance hbefore next _).withRecovery after

/-- A scheduler starts on fresh memory, or recovers what its directory holds. -/
theorem create_ok {options : SchedulerOptions} {files : Directory}
    (h : create options files = .ok s) : options.policy.validate = .ok () ∧
      (s = { impl := { Impl.fresh options.policy with epoch := ⟨1⟩ } } ∨
        options.stateDirectory ≠ "" ∧ ∃ store : DurableStore, store.path = options.stateDirectory ∧
          store.files = files ∧
          exec recover { impl := Impl.fresh options.policy, store := some store } = (.ok (), s)) := by
  obtain ⟨_, hvalid, h⟩ := bind_eq_ok.mp h
  refine ⟨hvalid, ?_⟩
  split at h
  · cases h
    exact .inl rfl
  · rename_i hdurable
    obtain ⟨store, hopen, h⟩ := bind_eq_ok.mp h
    have hstore : store.path = options.stateDirectory ∧ store.files = files := by
      obtain ⟨_, -, hopen⟩ := bind_eq_ok.mp hopen
      obtain ⟨_, -, hopen⟩ := bind_eq_ok.mp hopen
      cases hopen
      exact ⟨rfl, rfl⟩
    split at h
    · rename_i hrecover
      cases h
      exact .inr ⟨hdurable, store, hstore.1, hstore.2, hrecover⟩
    · cases h

theorem sound_create {options : SchedulerOptions} {files : Directory}
    (h : create options files = .ok s) : Sound s.impl := by
  obtain ⟨-, rfl | ⟨-, store, -, -, hrecover⟩⟩ := create_ok h
  · refine ⟨(keyed_fresh options.policy).congr rfl rfl, fun id r hr => ?_⟩
    simp [Impl.ledger, Impl.fresh] at hr
  · exact sound_recover (keyed_fresh options.policy) hrecover

theorem accepted_restoreSnapshot {b : Bool} (h : exec restoreSnapshot s = (.ok b, t)) :
    t.accepted = s.accepted := by
  rcases restoreSnapshot_ok h with rfl | ⟨_, _, -, rfl⟩ <;> rfl

theorem accepted_replayJournal {report : DurableStore.JournalScanReport}
    (h : exec replayJournal s = (.ok report, t)) : t.accepted = s.accepted := by
  rw [replayJournal, exec_bind, exec_get] at h
  dsimp only at h
  split at h
  · cases h
    rfl
  · split at h
    · cases h
      rfl
    · cases h

/-- A scheduler that was just opened holds nothing of what was in flight before. -/
theorem empty_create {options : SchedulerOptions} {files : Directory} {s : Scheduler}
    (h : create options files = .ok s) : s.impl.schedules = ∅ ∧ s.impl.attempts = ∅ := by
  obtain ⟨-, rfl | ⟨-, store, -, -, hrecover⟩⟩ := create_ok h
  · exact ⟨rfl, rfl⟩
  · obtain ⟨b, report, s₁, s₂, s₃, next, before, after, -, -, -, -, rfl⟩ := recover_ok hrecover
    exact ⟨rfl, rfl⟩

theorem schedules_create {options : SchedulerOptions} {files : Directory} {s : Scheduler}
    (h : create options files = .ok s) : s.impl.schedules = ∅ := (empty_create h).1

/-- An opened scheduler has accepted nothing but, when durable, the record of its epoch. -/
theorem accepted_create {options : SchedulerOptions} {files : Directory}
    (h : create options files = .ok s) :
    s.accepted = [] ∨ ∃ previous next reason now,
      s.accepted = [.epochAdvanced previous next reason now] := by
  obtain ⟨-, rfl | ⟨-, store, -, -, hrecover⟩⟩ := create_ok h
  · exact .inl rfl
  · obtain ⟨b, report, s₁, s₂, s₃, next, before, after, h₁, h₂, -, h₃, rfl⟩ := recover_ok hrecover
    have hsame : s₂.accepted = [] :=
      (accepted_replayJournal h₂).trans (accepted_restoreSnapshot h₁)
    have haccepted := accepted_of_append h₃
    rw [hsame] at haccepted
    exact .inr ⟨_, _, _, _, haccepted⟩

end Opening

section Calls

variable {s : Scheduler}

/-- Replace what the file system will do to the coming writes. -/
def Scheduler.withFaults (s : Scheduler) (io : List (Option IoFault)) : Scheduler :=
  { s with store := s.store.map fun store => { store with io } }

theorem exec_done {α : Type} (m : SchedOp α) (f : α → Response) :
    (exec (m >>= fun a => pure (f a)) s).2 = (exec m s).2 := by
  rw [exec_bind]
  rcases exec m s with ⟨_ | _, _⟩ <;> rfl

/-- A round before the tick reached is refused and does nothing. -/
theorem call_arbitrate_late {now : Ticks} (late : now < s.impl.lastTick) :
    s.call (.arbitrate now) =
      (.error (failure .invalidArgument "arbitration tick moved backwards"), s) := by
  rw [Scheduler.call, Call.op, exec_bind, arbitrate, exec_readImpl_bind, exec_lift_bind, refuseIf,
    if_pos late]

theorem makes_done {R : Impl → Option Record → Impl → Prop} {α : Type} {m : SchedOp α}
    {f : α → Response} (h : Makes R s (exec m s).2) :
    Makes R s (exec (m >>= fun a => pure (f a)) s).2 := by
  rwa [exec_done]

theorem makes_call {c : Call} (round : ∀ now, c ≠ .arbitrate now) (image : c ≠ .checkpoint) :
    Makes (CallMove c) s (s.call c).2 := by
  unfold Scheduler.call
  cases c with
  | registerResource d => exact makes_done (makes_registerResource d)
  | registerReservation d => exact makes_done (makes_registerReservation d)
  | retireReservation id generation => exact makes_done (makes_retireReservation id generation)
  | registerPriorityClass d => exact makes_done (makes_registerPriorityClass d)
  | registerQosClass d => exact makes_done (makes_registerQosClass d)
  | admitFlow d => exact makes_done (makes_admitFlow d)
  | updateFlow d => exact makes_done (makes_updateFlow d)
  | cancelFlow flow generation reason now => exact makes_done (makes_cancelFlow ..)
  | notifyReadiness flow generation signal now => exact makes_done (makes_notifyReadiness ..)
  | resolveAmbiguous flow generation resolution now => exact makes_done (makes_resolveAmbiguous ..)
  | retireFlow flow generation => exact makes_done (makes_retireFlow ..)
  | installPolicy policy => exact makes_done (makes_installPolicy policy)
  | advanceEpoch reason now => exact makes_done (makes_advanceEpoch reason now)
  | arbitrate now => exact absurd rfl (round now)
  | releaseSchedule schedule generation now => exact makes_done (makes_releaseSchedule ..)
  | beginDispatch schedule generation ordinal worker boot now =>
    exact makes_done (makes_beginDispatch ..)
  | revalidate ticket now =>
    refine makes_done ?_
    rw [revalidate, exec_readImpl_bind, exec_lift]
    exact .refl
  | markStarted ticket now => exact makes_done (makes_markStarted ticket now)
  | abandonAttempt attempt reason now => exact makes_done (makes_abandonAttempt ..)
  | preemptAttempt attempt reason now => exact makes_done (makes_preemptAttempt ..)
  | complete evidence now => exact makes_done (makes_complete evidence now)
  | checkpoint => exact absurd rfl image

theorem makes_arbitrate (sound : Sound s.impl) (now : Ticks) :
    Makes (RoundMove now) s (s.call (.arbitrate now)).2 :=
  makes_done (runs_arbitrate sound).1

/-- A checkpoint does nothing but write the image, if there is one to write and a store for it. -/
theorem checkpoint_stores : (s.call .checkpoint).2 = s ∨
    ∃ d, s.store = some d ∧ s.impl.encodeStateSnapshot ≠ [] ∧ (s.call .checkpoint).2 =
      { s with store := some (exec (DurableStore.compact s.impl.encodeStateSnapshot) d).2 } := by
  rw [Scheduler.call, Call.op, exec_done, checkpoint, exec_bind, exec_get]
  dsimp only
  split
  · exact .inl rfl
  · rename_i d hstore
    rw [exec_lift_bind]
    cases hrefuse : refuseIf (s.impl.encodeStateSnapshot = []) .bounded
        "state image exceeds the snapshot bound; checkpoint refused" with
    | error e => exact .inl rfl
    | ok u =>
      refine .inr ⟨d, hstore, refuseIf_eq_ok.mp hrefuse, ?_⟩
      dsimp only
      rcases exec (DurableStore.compact s.impl.encodeStateSnapshot) d with ⟨_ | _, d'⟩ <;> rfl

theorem call_checkpoint : ∃ store, (s.call .checkpoint).2 = { s with store := store } := by
  rcases checkpoint_stores (s := s) with h | ⟨d, -, -, h⟩
  · exact ⟨s.store, h⟩
  · exact ⟨_, h⟩

theorem impl_checkpoint : (s.call .checkpoint).2.impl = s.impl := by
  obtain ⟨store, h⟩ := call_checkpoint (s := s)
  rw [h]

theorem makes_move {c : Call} (sound : Sound s.impl) (image : c ≠ .checkpoint) :
    Makes (Move c) s (s.call c).2 := by
  by_cases hround : ∃ now, c = .arbitrate now
  · obtain ⟨now, rfl⟩ := hround
    exact (makes_arbitrate sound now).mono fun _ _ _ move => .inr ⟨now, rfl, move⟩
  · exact (makes_call (fun now hc => hround ⟨now, hc⟩) image).mono fun _ _ _ move => .inl move

theorem preserves_call {P : Impl → Prop} {c : Call} (keep : ∀ i r i', Move c i r i' → P i → P i')
    (sound : Sound s.impl) (h : P s.impl) : P (s.call c).2.impl := by
  by_cases himage : c = .checkpoint
  · subst himage
    rw [impl_checkpoint]
    exact h
  · obtain ⟨rs, hm⟩ := makes_move sound himage
    exact hm.preserves keep h

/-- What every move preserves of the memory and the history together, every call preserves. -/
theorem preserves_call_history {P : Impl → List Record → Prop} {c : Call}
    (quiet : ∀ i i' l, Move c i none i' → P i l → P i' l)
    (record : ∀ i r i' l, Move c i (some r) i' → P i l → P i' (l ++ [r]))
    (sound : Sound s.impl) (h : P s.impl s.accepted) :
    P (s.call c).2.impl (s.call c).2.accepted := by
  by_cases himage : c = .checkpoint
  · subst himage
    obtain ⟨store, hcall⟩ := call_checkpoint (s := s)
    rw [hcall]
    exact h
  · obtain ⟨rs, hm⟩ := makes_move sound himage
    exact hm.preserves_history quiet record h

theorem sound_call (sound : Sound s.impl) (c : Call) : Sound (s.call c).2.impl :=
  preserves_call (fun _ _ _ move h => h.move move) sound sound

end Calls

/-- A state a scheduler can be in when every call is allowed where it is made: the scheduler was
opened on a directory with any content, and any of its writes may have failed. -/
inductive ReachableBy (allowed : Scheduler → Call → Prop) : Scheduler → Prop
  | opened {options files s} (h : create options files = .ok s) : ReachableBy allowed s
  | called {s} (h : ReachableBy allowed s) (c : Call) (ok : allowed s c) :
      ReachableBy allowed (s.call c).2
  | faulty {s} (h : ReachableBy allowed s) (io : List (Option IoFault)) :
      ReachableBy allowed (s.withFaults io)

/-- A state a scheduler can be in, whatever is called. -/
abbrev Reachable : Scheduler → Prop := ReachableBy fun _ _ => True

namespace ReachableBy

variable {allowed : Scheduler → Call → Prop} {s : Scheduler}

theorem sound (h : ReachableBy allowed s) : Sound s.impl := by
  induction h with
  | opened h => exact sound_create h
  | called _ c _ ih => exact sound_call ih c
  | faulty _ io ih => exact ih

theorem calls (h : Reachable s) (cs : List Call) : Reachable (s.calls cs) := by
  induction cs generalizing s with
  | nil => exact h
  | cons c cs ih => exact ih (h.called c trivial)

/-- What holds of every opened scheduler and is preserved by every allowed call holds throughout. -/
theorem invariant {P : Impl → Prop}
    (start : ∀ options files s, create options files = .ok s → P s.impl)
    (keep : ∀ s c, Sound s.impl → allowed s c → P s.impl → P (s.call c).2.impl)
    (h : ReachableBy allowed s) : P s.impl := by
  induction h with
  | opened h => exact start _ _ _ h
  | called h c ok ih => exact keep _ c h.sound ok ih
  | faulty _ io ih => exact ih

end ReachableBy

theorem ReachableBy.invariant_history {allowed : Scheduler → Call → Prop} {s : Scheduler}
    {P : Impl → List Record → Prop}
    (start : ∀ options files s, create options files = .ok s → P s.impl s.accepted)
    (keep : ∀ s c, Sound s.impl → allowed s c → P s.impl s.accepted →
      P (s.call c).2.impl (s.call c).2.accepted)
    (h : ReachableBy allowed s) : P s.impl s.accepted := by
  induction h with
  | opened h => exact start _ _ _ h
  | called h c ok ih => exact keep _ c h.sound ok ih
  | faulty _ io ih => exact ih

/-- A later state of the same incarnation, when every call in between is allowed. -/
inductive LaterBy (allowed : Scheduler → Call → Prop) (s : Scheduler) : Scheduler → Prop
  | refl : LaterBy allowed s s
  | called {t} (h : LaterBy allowed s t) (c : Call) (ok : allowed t c) :
      LaterBy allowed s (t.call c).2
  | faulty {t} (h : LaterBy allowed s t) (io : List (Option IoFault)) :
      LaterBy allowed s (t.withFaults io)

/-- What holds of a sound state and is preserved by every move allowed holds later. -/
theorem LaterBy.preserves {allowed : Scheduler → Call → Prop} {P : Impl → Prop} {s t : Scheduler}
    (h : LaterBy allowed s t) (sound : Sound s.impl)
    (keep : ∀ u c i r i', allowed u c → Move c i r i' → P i → P i') (hs : P s.impl) :
    Sound t.impl ∧ P t.impl := by
  induction h with
  | refl => exact ⟨sound, hs⟩
  | called _ c ok ih =>
    exact ⟨sound_call ih.1 c, preserves_call (fun i r i' => keep _ c i r i' ok) ih.1 ih.2⟩
  | faulty _ io ih => exact ih

theorem LaterBy.preserves_history {allowed : Scheduler → Call → Prop}
    {P : Impl → List Record → Prop} {s t : Scheduler} (h : LaterBy allowed s t)
    (sound : Sound s.impl)
    (quiet : ∀ u c i i' l, allowed u c → Move c i none i' → P i l → P i' l)
    (record : ∀ u c i r i' l, allowed u c → Move c i (some r) i' → P i l → P i' (l ++ [r]))
    (hs : P s.impl s.accepted) : Sound t.impl ∧ P t.impl t.accepted := by
  induction h with
  | refl => exact ⟨sound, hs⟩
  | called _ c ok ih =>
    refine ⟨sound_call ih.1 c, ?_⟩
    exact preserves_call_history (fun i i' l => quiet _ c i i' l ok)
      (fun i r i' l => record _ c i r i' l ok) ih.1 ih.2
  | faulty _ io ih => exact ih

/-- Every call of the sequence is allowed where it is made. -/
def Along (allowed : Scheduler → Call → Prop) (s : Scheduler) : List Call → Prop
  | [] => True
  | c :: cs => allowed s c ∧ Along allowed (s.call c).2 cs

instance Along.decidable {allowed : Scheduler → Call → Prop} [∀ s c, Decidable (allowed s c)] :
    ∀ s cs, Decidable (Along allowed s cs)
  | _, [] => .isTrue trivial
  | s, c :: cs => @instDecidableAnd _ _ _ (Along.decidable (s.call c).2 cs)

theorem ReachableBy.along {allowed : Scheduler → Call → Prop} {s : Scheduler} {cs : List Call}
    (h : ReachableBy allowed s) (ok : Along allowed s cs) : ReachableBy allowed (s.calls cs) := by
  induction cs generalizing s with
  | nil => exact h
  | cons c cs ih => exact ih (h.called c ok.1) ok.2

/-- Every call of the list succeeds when they are made in turn. -/
def Scheduler.AllSucceed (s : Scheduler) : List Call → Prop
  | [] => True
  | c :: cs => (∃ response, (s.call c).1 = .ok response) ∧ (s.call c).2.AllSucceed cs

instance Scheduler.decidableAllSucceed (s : Scheduler) : (cs : List Call) → Decidable (s.AllSucceed cs)
  | [] => isTrue trivial
  | c :: cs =>
    have := (s.call c).2.decidableAllSucceed cs
    decidable_of_iff ((s.call c).1.toOption.isSome ∧ (s.call c).2.AllSucceed cs) <| by
      cases h : (s.call c).1 <;> simp [Scheduler.AllSucceed, h, Except.toOption]

section Deployments

/-- The scheduler after calls on an empty directory, if it could be created. -/
def deploy (options : SchedulerOptions) (cs : List Call) : Option Scheduler :=
  (create options {}).toOption.map (·.calls cs)

variable {options : SchedulerOptions} {cs : List Call} {P : Scheduler → Prop}
  {allowed : Scheduler → Call → Prop}

theorem call_of_isSome {s : Scheduler} {c : Call} (h : (s.call c).1.toOption.isSome) :
    ∃ response t, s.call c = (.ok response, t) := by
  rcases hc : s.call c with ⟨e | response, t⟩
  · simp [hc, Except.toOption] at h
  · exact ⟨response, t, rfl⟩

theorem exists_reachableBy (h : ∃ s ∈ (create options {}).toOption,
    Along allowed s cs ∧ P (s.calls cs)) : ∃ s, ReachableBy allowed s ∧ P s := by
  obtain ⟨s, hs, ok, hP⟩ := h
  cases hc : create options {} with
  | error e =>
    rw [hc] at hs
    cases hs
  | ok s₀ =>
    rw [hc] at hs
    cases hs
    exact ⟨_, (ReachableBy.opened hc).along ok, hP⟩

theorem exists_reachable (h : ∃ s ∈ deploy options cs, P s) : ∃ s, Reachable s ∧ P s := by
  obtain ⟨t, ht, hP⟩ := h
  obtain ⟨s, hs, rfl⟩ := Option.map_eq_some_iff.mp ht
  cases hc : create options {} with
  | error e =>
    rw [hc] at hs
    cases hs
  | ok s₀ =>
    rw [hc] at hs
    cases hs
    exact ⟨_, (ReachableBy.opened hc).calls cs, hP⟩

theorem exec_eq_of_mem {α : Type} {m : SchedOp α} {s : Scheduler} {a : α}
    (h : a ∈ (exec m s).1.toOption) : exec m s = (.ok a, (exec m s).2) := by
  refine Prod.ext ?_ rfl
  cases hm : (exec m s).1 with
  | error _ =>
    rw [hm] at h
    cases h
  | ok _ =>
    rw [hm] at h
    cases h
    rfl

end Deployments

/-! A small deployment: one resource with one slot, one class of each kind, and flows of ten units
served five at a time. -/

namespace Sample

def provenance : Provenance := { origin := .external, sequence := 1 }

def policy : SchedulingPolicy := { policy := ⟨1⟩, generation := ⟨1⟩, provenance }

def resource : ResourceDescriptor :=
  { resource := ⟨1⟩, generation := ⟨1⟩, capacity := 100, interval := 10, maxOverlap := 1
    provenance }

def priority : PriorityClassDescriptor :=
  { priority := ⟨1⟩, generation := ⟨1⟩, rank := 1, provenance }

def qos : QoSClassDescriptor := { qos := ⟨1⟩, generation := ⟨1⟩, provenance }

def flow (n : UInt64) : FlowDescriptor :=
  { flow := ⟨n⟩, generation := ⟨1⟩, path := ⟨⟨1⟩, ⟨1⟩⟩, resource := ⟨⟨1⟩, ⟨1⟩⟩
    priority := ⟨⟨1⟩, ⟨1⟩⟩, qos := ⟨⟨1⟩, ⟨1⟩⟩, fairnessGroup := ⟨1⟩, estimatedWork := 10
    serviceQuantum := 5, provenance }

/-- Register the definitions and admit the first flow. -/
def setup : List Call :=
  [.registerResource resource, .registerPriorityClass priority, .registerQosClass qos,
    .admitFlow (flow 1)]

def transient : SchedulerOptions := { policy }

def durable : SchedulerOptions := { policy, stateDirectory := "state" }

/-- The image of a scheduler that is about to give out its last attempt identity. -/
def lastAttempt (policy : SchedulingPolicy) : Directory where
  snapshot := some (DurableStore.buildSnapshotBlob (Impl.encodeStateSnapshot
    { Impl.fresh policy with nextAttempt := ⟨u64Max⟩ }))

/-- Incumbents are displaced by rank, whatever they have been served. -/
def ranked : SchedulingPolicy :=
  { policy with preemption := .strictPriority, minPreemptService := 0 }

/-- Dispatch the first entry of the first schedule. -/
def dispatch (now : Ticks) : Call := .beginDispatch ⟨1⟩ ⟨1⟩ 0 ⟨7⟩ ⟨8⟩ now

end Sample

end FlowScheduler

import FlowScheduler.Recovery.Lives

/-! # Recovered twins

While no write fails, the journal holds what was accepted since the last
checkpoint. Whatever opens the directory next replays it over the image, and
finds a twin of the state in memory: not the same state, but one that is related
to it. The relation is a parameter; it is shown once per move, per checkpoint and
per restart.
-/

namespace FlowScheduler

open ByteCodec (Bytes)
open Failing SchedOp OrderedMap DurableStore

def Steady (s : Scheduler) : Prop := ∀ d ∈ s.store, d.io = []

instance (s : Scheduler) : Decidable (Steady s) := by
  unfold Steady
  infer_instance

def Record.framed (r : Record) : JournalRecordType × Bytes := (r.type, r.payload)

section Legible

variable {i i' : Impl} {r : Record}

theorem legible_of_issues {now : Ticks} {entries : List ScheduleEntry} (h : i.Issues now entries)
    {e : ScheduleEntry} (he : e ∈ entries) : e.detail.length ≤ kMaxExplanationBytes := by
  by_cases hk : e.kind = .run
  · obtain ⟨flow, hgrants⟩ := h.run e he hk
    obtain ⟨candidate, hentry⟩ := hgrants.entry
    rw [hentry]
    exact length_boundedDetail_le _
  · obtain ⟨v, candidate, d, hentry⟩ := h.other e he hk
    rw [hentry]
    exact length_boundedDetail_le _

theorem Move.legible {c : Call} (move : Move c i (some r) i') : r.Legible := by
  rcases move with move | ⟨now, -, move⟩
  · cases move with
    | common move => cases move <;> trivial
    | _ => trivial
  · cases move with
    | common move => cases move <;> trivial
    | issue _ issues => exact fun e he => legible_of_issues issues he

end Legible

/-- The state an incarnation starts in, given what was recovered. -/
def Impl.Starts (m i : Impl) (next : FabricEpoch) : Prop :=
  ∃ before after, i = { ({ m with recovery := before } : Impl).applyEpochAdvance next m.lastTick with
    recovery := after }

def Impl.opening (m : Impl) (next : FabricEpoch) : Record :=
  .epochAdvanced m.epoch next .recovery m.lastTick

/-- A move of the call made in state `s`: an admission or an update is its first. -/
def Effect (c : Call) (s u : Impl) (r : Option Record) (i : Impl) : Prop :=
  Move c u r i ∧ ∀ d, r = some (.flowAdmitted d) ∨ r = some (.flowUpdated d) → u = s

theorem makes_effect {s : Scheduler} {c : Call} (sound : Sound s.impl) (image : c ≠ .checkpoint) :
    Makes (Effect c s.impl) s (s.call c).2 := by
  by_cases hadmit : ∃ d, c = .admitFlow d
  · obtain ⟨d, rfl⟩ := hadmit
    exact makes_done ((makes_admitFlow_first d).mono fun _ _ _ h => ⟨.inl h.2, fun _ _ => h.1⟩)
  by_cases hupdate : ∃ d, c = .updateFlow d
  · obtain ⟨d, rfl⟩ := hupdate
    exact makes_done ((makes_updateFlow_first d).mono fun _ _ _ h => ⟨.inl h.2, fun _ _ => h.1⟩)
  · refine (makes_move sound image).mono fun u r i move => ⟨move, fun d hr => ?_⟩
    -- no other call appends such a record
    rcases move with move | ⟨now, -, move⟩
    · cases move with
      | common move => cases move <;> simp at hr
      | admitFlow | admitRefused => exact absurd ⟨_, rfl⟩ hadmit
      | update | updateRefused => exact absurd ⟨_, rfl⟩ hupdate
      | _ => simp at hr
    · cases move with
      | common move => cases move <;> simp at hr
      | _ => simp at hr

/-- What has to be shown about a property of the memory and the records accepted so far, and about a
relation between the memory and what would be recovered in its place. -/
structure Twins (allowed : Scheduler → Call → Prop) (Live : List Record → Impl → Prop)
    (Tw : Impl → Impl → Prop) : Prop where
  fresh : ∀ policy epoch, Live [] { Impl.fresh policy with epoch }
  start : ∀ policy policy', Tw (Impl.fresh policy) (Impl.fresh policy')
  silent : ∀ {s c u i h}, allowed s c → Live h u → Effect c s.impl u none i →
    Live h i ∧ ∀ m, Tw u m → Tw i m
  journaled : ∀ {s c u i h r}, allowed s c → Live h u → Effect c s.impl u (some r) i →
    Live (h ++ [r]) i ∧ ∀ m m', Tw u m → r.replay m = .ok m' → Tw i m'
  image : ∀ {l i}, l.Images i → Tw l i
  reopened : ∀ {h l m i next}, Live h l → Tw l m → m.epoch.advance = .ok next → m.Starts i next →
    Live (h ++ [m.opening next]) i ∧
      ∀ m', Tw l m' → Tw i (m'.applyEpochAdvance next m.lastTick)

/-- Whoever opens the directory finds a twin of the memory. -/
def Mirrored (Tw : Impl → Impl → Prop) (s : Scheduler) : Prop :=
  ∀ d, s.store = some d → ∃ js : List Record,
    ({ d with io := [] } : DurableStore).Keeps (js.map Record.framed) ∧ (∀ r ∈ js, r.Legible) ∧
    ∀ policy i m, (Impl.fresh policy).restore d.files.snapshot = .ok i →
      i.replayAll (js.map Record.framed) = .ok m → Tw s.impl m

section Journal

variable {Tw : Impl → Impl → Prop} {s t : Scheduler} {i : Impl} {r : Record}

theorem replayAll_concat {js : List Record} {m' : Impl} (legible : r.Legible)
    (fits : r.payload.length ≤ kMaxJournalRecordPayload)
    (h : i.replayAll ((js ++ [r]).map Record.framed) = .ok m') :
    ∃ m, i.replayAll (js.map Record.framed) = .ok m ∧ r.replay m = .ok m' := by
  rw [List.map_append, Impl.replayAll, List.foldlM_append] at h
  obtain ⟨m, hm, h⟩ := bind_eq_ok.mp h
  rw [List.map_singleton, List.foldlM_cons] at h
  obtain ⟨m₁, hm₁, h⟩ := bind_eq_ok.mp h
  cases h
  exact ⟨m, hm, (replay_of_payload legible fits hm₁).1⟩

theorem Mirrored.silent (h : Mirrored Tw s)
    (twin : ∀ m, Tw s.impl m → Tw i m) : Mirrored Tw { s with impl := i } := by
  intro d hd
  obtain ⟨js, hkeeps, hlegible, htwin⟩ := h d hd
  exact ⟨js, hkeeps, hlegible, fun policy i₀ m hi₀ hm => twin m (htwin policy i₀ m hi₀ hm)⟩

theorem withIo_eq {d : DurableStore} (h : d.io = []) : ({ d with io := [] } : DurableStore) = d := by
  obtain ⟨path, files, last, valid, opened, torn, io⟩ := d
  cases h
  rfl

theorem Mirrored.journaled (h : Mirrored Tw s) (steady : Steady s) (legible : r.Legible)
    (append : exec (journal r) s = (.ok (), t))
    (twin : ∀ m m', Tw s.impl m → r.replay m = .ok m' → Tw i m') :
    Mirrored Tw { t with impl := i } ∧ Steady t := by
  rw [exec_journal] at append
  cases hstore : s.store with
  | none =>
    rw [hstore] at append
    cases append
    constructor <;> intro d hd <;> cases hd
  | some d =>
    rw [hstore] at append
    dsimp only at append
    obtain ⟨js, hkeeps, hlegible, htwin⟩ := h d hstore
    rw [withIo_eq (steady d hstore)] at hkeeps
    rcases happend : exec (DurableStore.append r.type r.payload) d with ⟨e | u, d'⟩
    · rw [happend] at append
      cases append
    · rw [happend] at append
      cases append
      rcases hkeeps.append happend with ⟨e, he, -⟩ | ⟨-, hkeeps', -, hsnapshot⟩
      · cases he
      have hframed : js.map Record.framed ++ [(r.type, r.payload)] =
          (js ++ [r]).map Record.framed := by
        rw [List.map_append]
        rfl
      rw [hframed] at hkeeps'
      constructor
      · rintro _ ⟨⟩
        rw [withIo_eq hkeeps'.script, hsnapshot]
        refine ⟨js ++ [r], hkeeps', ?_, fun policy i₀ m' hi₀ hm' => ?_⟩
        · simpa [or_imp, forall_and] using ⟨hlegible, legible⟩
        · have hfits : r.payload.length ≤ kMaxJournalRecordPayload :=
            hkeeps'.holds.fits r.framed (by simp)
          obtain ⟨m, hm, hreplay⟩ := replayAll_concat legible hfits hm'
          exact twin m m' (htwin policy i₀ m hi₀ hm) hreplay
      · rintro _ ⟨⟩
        exact hkeeps'.script

theorem Mirrored.refused {e : Error} (h : Mirrored Tw s) (steady : Steady s)
    (append : exec (journal r) s = (.error e, t)) : Mirrored Tw t ∧ Steady t := by
  rw [exec_journal] at append
  cases hstore : s.store with
  | none =>
    rw [hstore] at append
    cases append
  | some d =>
    rw [hstore] at append
    dsimp only at append
    obtain ⟨js, hkeeps, hlegible, htwin⟩ := h d hstore
    rcases happend : exec (DurableStore.append r.type r.payload) d with ⟨e | u, d'⟩
    · rw [happend] at append
      cases append
      rw [withIo_eq (steady d hstore)] at hkeeps
      rcases hkeeps.append happend with ⟨e, -, rfl⟩ | ⟨hok, -⟩
      · constructor
        · rintro _ ⟨⟩
          rw [withIo_eq (steady _ hstore)]
          exact ⟨js, hkeeps, hlegible, htwin⟩
        · rintro _ ⟨⟩
          exact steady _ hstore
      · cases hok
    · rw [happend] at append
      cases append

end Journal

section Calls

variable {allowed : Scheduler → Call → Prop} {Live : List Record → Impl → Prop}
  {Tw : Impl → Impl → Prop} {past rs : List Record} {s t : Scheduler} {c : Call}

theorem Twins.steps (twins : Twins allowed Live Tw) (ok : allowed s c) (steady : Steady s)
    (live : Live (past ++ s.accepted) s.impl) (mirrored : Mirrored Tw s)
    (h : Steps (Effect c s.impl) s rs t) :
    Live (past ++ t.accepted) t.impl ∧ Mirrored Tw t ∧ Steady t := by
  induction h with
  | refl => exact ⟨live, mirrored, steady⟩
  | silent run move ih =>
    obtain ⟨live, mirrored, steady⟩ := ih
    obtain ⟨live', twin⟩ := twins.silent ok live move
    exact ⟨live', mirrored.silent twin, steady⟩
  | journaled run move append ih =>
    obtain ⟨live, mirrored, steady⟩ := ih
    obtain ⟨live', twin⟩ := twins.journaled ok live move
    obtain ⟨mirrored', steady'⟩ := mirrored.journaled steady move.1.legible append twin
    refine ⟨?_, mirrored', steady'⟩
    dsimp only
    rw [accepted_of_append append, ← List.append_assoc]
    exact live'
  | refused run append ih =>
    obtain ⟨live, mirrored, steady⟩ := ih
    obtain ⟨mirrored', steady'⟩ := mirrored.refused steady append
    rw [impl_of_append append, accepted_of_refused append]
    exact ⟨live, mirrored', steady'⟩

theorem DurableStore.Calm.compact {d : DurableStore} (calm : d.Calm) (payload : Bytes) :
    (∃ e, exec (DurableStore.compact payload) d = (.error e, d)) ∨
      payload.length ≤ kMaxSnapshotPayload ∧ exec (DurableStore.compact payload) d = (.ok (),
        { d with
          files := { journal := [], snapshot := some (buildSnapshotBlob payload) }
          lastSequence := 0
          validBytes := 0 }) := by
  obtain ⟨path, files, last, valid, opened, torn, io⟩ := d
  obtain ⟨rfl, rfl⟩ := calm
  rw [DurableStore.compact, exec_bind, writeSnapshot, exec_bind, exec_lift]
  cases hrefuse : refuseIf (kMaxSnapshotPayload < payload.length) .oversized
      "snapshot payload exceeds the configured bound" with
  | error e => exact .inl ⟨e, rfl⟩
  | ok u =>
    refine .inr ⟨Nat.le_of_not_lt (refuseIf_eq_ok.mp hrefuse), ?_⟩
    dsimp only
    rw [exec_bind, exec_nextFault]
    rfl

/-- A checkpoint in calm folds the journal into the image, or leaves everything as it was. -/
theorem call_checkpoint_calm {d : DurableStore} (store : s.store = some d) (calm : d.Calm) :
    (s.call .checkpoint).2 = s ∨
      s.impl.encodeStateSnapshot ≠ [] ∧ s.impl.encodeStateSnapshot.length ≤ kMaxSnapshotPayload ∧
      (s.call .checkpoint).2 = { s with store := some { d with
        files := { journal := [], snapshot := some (buildSnapshotBlob s.impl.encodeStateSnapshot) }
        lastSequence := 0
        validBytes := 0 } } := by
  rcases checkpoint_stores (s := s) with h | ⟨_, hstore, hwritten, h⟩
  · exact .inl h
  · obtain rfl := Option.some.inj (store.symm.trans hstore)
    rw [h]
    rcases calm.compact s.impl.encodeStateSnapshot with ⟨e, he⟩ | ⟨hfits, hok⟩
    · rw [he, ← store]
      exact .inl rfl
    · rw [hok]
      exact .inr ⟨hwritten, hfits, rfl⟩

/-- After a checkpoint whoever opens the directory finds the image of the memory. -/
theorem Mirrored.checkpoint (h : Mirrored Tw s) (steady : Steady s) (filed : s.impl.Filed)
    (image : ∀ {l i}, l.Images i → Tw l i) :
    Mirrored Tw (s.call .checkpoint).2 ∧ (s.call .checkpoint).2.accepted = s.accepted := by
  cases hstore : s.store with
  | none =>
    rcases checkpoint_stores (s := s) with hsame | ⟨d, hd, -⟩
    · rw [hsame]
      exact ⟨h, rfl⟩
    · cases hstore.symm.trans hd
  | some d =>
    obtain ⟨js, hkeeps, -, -⟩ := h d hstore
    rw [withIo_eq (steady d hstore)] at hkeeps
    rcases call_checkpoint_calm hstore hkeeps.toCalm with hsame | ⟨hwritten, hfits, hnew⟩
    · rw [hsame]
      exact ⟨h, rfl⟩
    · rw [hnew]
      refine ⟨?_, rfl⟩
      rintro _ ⟨⟩
      have hempty : (journalOf 1 ([] : List (JournalRecordType × Bytes))) = [] := rfl
      refine ⟨[], ⟨⟨rfl, hkeeps.settled⟩, hkeeps.holds.named, ?_, rfl, ?_, by simp⟩, by simp, ?_⟩
      · rw [List.map_nil, hempty]
        rfl
      · rw [List.map_nil, hempty]
        rfl
      · intro policy i m hi hm
        cases hm
        exact image (images_of_restore filed hwritten hfits hi)

theorem Twins.create (twins : Twins allowed Live Tw) {options : SchedulerOptions}
    {files : Directory} {h js : List Record} {l : Impl} (durable : options.stateDirectory ≠ "")
    (readable : Readable files.journal (js.map Record.framed)) (legible : ∀ r ∈ js, r.Legible)
    (live : Live h l)
    (twin : ∀ policy i m, (Impl.fresh policy).restore files.snapshot = .ok i →
      i.replayAll (js.map Record.framed) = .ok m → Tw l m)
    (opened : create options files = .ok s) :
    Live (h ++ s.accepted) s.impl ∧ Mirrored Tw s := by
  obtain ⟨i, m, hi, hm, from_⟩ := create_durable durable readable opened
  have haccepted : s.accepted = [m.opening s.impl.epoch] := from_.accepted
  obtain ⟨live', twin'⟩ := twins.reopened live (twin _ i m hi hm) from_.advanced from_.memory
  rw [haccepted]
  refine ⟨live', fun d hd => ?_⟩
  obtain ⟨d', hd', -, hsnapshot, hkeeps⟩ := from_.store
  obtain rfl := Option.some.inj (hd'.symm.trans hd)
  rw [haccepted] at hkeeps
  have hframed : js.map Record.framed ++ [m.opening s.impl.epoch].map (fun r => (r.type, r.payload)) =
      (js ++ [m.opening s.impl.epoch]).map Record.framed := by
    rw [List.map_append]
    rfl
  rw [hframed] at hkeeps
  have hlegible : (m.opening s.impl.epoch).Legible := trivial
  refine ⟨js ++ [m.opening s.impl.epoch], ?_, ?_, fun policy i₀ m₀ hi₀ hm₀ => ?_⟩
  · rw [withIo_eq hkeeps.script]
    exact hkeeps
  · simpa [or_imp, forall_and] using ⟨legible, hlegible⟩
  · have hfits := hkeeps.holds.fits (m.opening s.impl.epoch).framed (by simp)
    obtain ⟨m₁, hm₁, hreplay⟩ := replayAll_concat hlegible hfits hm₀
    cases hreplay
    rw [hsnapshot] at hi₀
    exact twin' m₁ (twin policy i₀ m₁ hi₀ hm₁)

/-- What moves, checkpoints and restarts preserve holds in every incarnation of a directory that is
only called while no write fails. -/
theorem Lived.mirrored {stops : Scheduler → Prop} (h : Lived allowed stops past s)
    (twins : Twins allowed Live Tw) (calm : ∀ s c, allowed s c → Steady s) :
    Live (past ++ s.accepted) s.impl ∧ Mirrored Tw s := by
  induction h with
  | @created options s hs =>
    by_cases durable : options.stateDirectory = ""
    · obtain ⟨_, -, hs⟩ := bind_eq_ok.mp hs
      rw [if_pos durable] at hs
      cases hs
      exact ⟨twins.fresh _ _, fun d hd => by cases hd⟩
    · have hempty : Readable [] (([] : List Record).map Record.framed) :=
        ⟨by simp, [], rfl, .inl rfl⟩
      refine twins.create (h := []) (l := Impl.fresh options.policy) durable hempty (by simp)
        (twins.fresh options.policy {}) ?_ hs
      intro policy i m hi hm
      cases hi
      cases hm
      exact twins.start options.policy policy
  | @called past s hs c ok ih =>
    obtain ⟨live, mirrored⟩ := ih
    have steady := calm s c ok
    by_cases himage : c = .checkpoint
    · subst himage
      obtain ⟨mirrored', haccepted⟩ :=
        mirrored.checkpoint steady hs.filed twins.image
      rw [impl_checkpoint, haccepted]
      exact ⟨live, mirrored'⟩
    · obtain ⟨rs, hsteps⟩ := makes_effect hs.sound himage
      obtain ⟨live', mirrored', -⟩ := twins.steps ok steady live mirrored hsteps
      exact ⟨live', mirrored'⟩
  | @faulty past s hs io ih =>
    refine ⟨ih.1, fun d hd => ?_⟩
    obtain ⟨d₀, hd₀, rfl⟩ := Option.map_eq_some_iff.mp hd
    exact ih.2 d₀ hd₀
  | @reopened past s d options t hs stop store same opened ih =>
    obtain ⟨live, mirrored⟩ := ih
    obtain ⟨js, hkeeps, legible, twin⟩ := mirrored d store
    have hjournal : d.files.journal = journalOf 1 (js.map Record.framed) ++ [] := hkeeps.holds.journal
    have hnamed : d.path ≠ "" := hkeeps.holds.named
    exact twins.create (same ▸ hnamed) ⟨hkeeps.holds.fits, [], hjournal, .inl rfl⟩ legible live twin
      opened

end Calls

end FlowScheduler

import FlowScheduler.Durable.Torn

/-! # Appends that may fail

Every way an append can end, what it leaves in the file, and what a store that
is opened on the file afterwards delivers.
-/

namespace FlowScheduler

open ByteCodec Failing

namespace DurableStore

section Append

variable {d d' : DurableStore} {type : JournalRecordType} {payload : Bytes}

/-- The part of the journal file that an append keeps. -/
def kept (d : DurableStore) : Bytes :=
  if d.tornTailPending then d.files.journal.take d.validBytes else d.files.journal

inductive AppendEnd (d : DurableStore) (type : JournalRecordType) (payload : Bytes) :
    Status → DurableStore → Prop
  | refused {e} (guard : appendGuard d type payload = .error e) : AppendEnd d type payload (.error e) d
  | untouched {e io} (pending : d.tornTailPending) :
      AppendEnd d type payload (.error e) { d with io }
  | cut {e io} (guard : appendGuard d type payload = .ok ()) (pending : d.tornTailPending) :
      AppendEnd d type payload (.error e)
        { d with io, files.journal := d.files.journal.take d.validBytes }
  | failed {e io} (guard : appendGuard d type payload = .ok ()) (written : ℕ) :
      AppendEnd d type payload (.error e)
        { d with
          io, tornTailPending := false
          files.journal :=
            d.kept ++ (buildJournalRecord type (d.lastSequence + 1) payload).take written }
  | acknowledged {io} (guard : appendGuard d type payload = .ok ()) :
      AppendEnd d type payload (.ok ())
        { d with
          io, tornTailPending := false
          files.journal := d.kept ++ buildJournalRecord type (d.lastSequence + 1) payload
          lastSequence := d.lastSequence + 1
          validBytes := d.validBytes + journalRecordBytes payload.length }

theorem exec_nextFault : exec nextFault d = (.ok d.io.head?.join, { d with io := d.io.tail }) := by
  obtain ⟨path, files, last, valid, opened, torn, io⟩ := d
  cases io <;> rfl

theorem exec_truncateJournal (size : ℕ) : exec (truncateJournal size) d =
    match d.io.head?.join with
    | none => (.ok (), { d with io := d.io.tail, files.journal := d.files.journal.take size })
    | some fault => (.error (ioFailure fault.operation d.journalPath),
        if 0 < fault.written then
          { d with io := d.io.tail, files.journal := d.files.journal.take size }
        else { d with io := d.io.tail }) := by
  rw [truncateJournal, exec_bind, exec_nextFault]
  dsimp only
  cases d.io.head?.join with
  | none => rfl
  | some fault =>
    dsimp only
    split <;> rfl

theorem exec_writeJournal (record : Bytes) : exec (writeJournal record) d =
    match d.io.head?.join with
    | none => (.ok (), { d with io := d.io.tail, files.journal := d.files.journal ++ record })
    | some fault => (.error (ioFailure fault.operation d.journalPath),
        { d with
          io := d.io.tail, files.journal := d.files.journal ++ record.take fault.written }) := by
  rw [writeJournal, exec_bind, exec_nextFault]
  dsimp only
  cases d.io.head?.join <;> rfl

theorem appendEnd_write {base : DurableStore} (guard : appendGuard d type payload = .ok ())
    (hbase : ∃ io, base = { d with io, tornTailPending := false, files.journal := d.kept }) :
    AppendEnd d type payload
      (exec (writeJournal (buildJournalRecord type (d.lastSequence + 1) payload) >>= fun _ =>
        modify fun b => { b with
          lastSequence := d.lastSequence + 1
          validBytes := b.validBytes + journalRecordBytes payload.length }) base).1
      (exec (writeJournal (buildJournalRecord type (d.lastSequence + 1) payload) >>= fun _ =>
        modify fun b => { b with
          lastSequence := d.lastSequence + 1
          validBytes := b.validBytes + journalRecordBytes payload.length }) base).2 := by
  obtain ⟨io, rfl⟩ := hbase
  rw [exec_bind, exec_writeJournal]
  cases io.head?.join with
  | none => exact .acknowledged guard
  | some fault => exact .failed guard fault.written

theorem appendEnd (d : DurableStore) (type : JournalRecordType) (payload : Bytes) :
    AppendEnd d type payload (exec (append type payload) d).1 (exec (append type payload) d).2 := by
  rw [append, exec_bind, exec_get]
  dsimp only
  rw [exec_bind, exec_lift]
  cases hguard : appendGuard d type payload with
  | error e => exact .refused hguard
  | ok u =>
    dsimp only
    cases hpending : d.tornTailPending with
    | false =>
      refine appendEnd_write hguard ⟨d.io, ?_⟩
      obtain ⟨path, files, last, valid, opened, torn, io⟩ := d
      cases hpending
      rfl
    | true =>
      simp only [if_true]
      rw [exec_bind, exec_truncateJournal]
      cases d.io.head?.join with
      | none =>
        refine appendEnd_write hguard ⟨d.io.tail, ?_⟩
        simp [kept, hpending]
      | some fault =>
        dsimp only
        split
        · exact .cut hguard hpending
        · exact .untouched hpending

end Append

theorem exec_replay {σ : Type} {visitor : σ → JournalRecordView → Result σ} {init : σ}
    {d : DurableStore} {outcome : ScanOutcome σ}
    (scanned : scanJournal true visitor d.files.journal init = .ok outcome) (calm : d.io = [])
    (repair : Bool) :
    exec (replay repair visitor init) d =
      (.ok (outcome.state,
        { records := outcome.records, bytes := outcome.validBytes
          lastSequence := outcome.lastSequence
          tailTruncated := decide (outcome.stop = .tornTail) }),
        if outcome.stop = .tornTail ∧ repair then
          { d with
            files.journal := d.files.journal.take outcome.validBytes
            validBytes := outcome.validBytes
            lastSequence := outcome.lastSequence
            tornTailPending := false }
        else d) := by
  rw [replay, exec_bind, exec_get]
  dsimp only
  rw [exec_bind, exec_lift, scanned]
  dsimp only
  by_cases hcut : outcome.stop = .tornTail ∧ repair
  · simp only [hcut, decide_true, and_self, if_true]
    rw [exec_bind, exec_truncateJournal, calm]
    cases d
    cases calm
    rfl
  · simp only [decide_eq_true_eq, if_neg hcut]
    rfl

section Holds

/-- The store has acknowledged these records; the file goes on with the remainder. -/
structure Holds (d : DurableStore) (rs : List (JournalRecordType × Bytes)) (rest : Bytes) : Prop where
  named : d.path ≠ ""
  journal : d.files.journal = journalOf 1 rs ++ rest
  sequence : d.lastSequence = UInt64.ofNat rs.length
  bytes : d.validBytes = (journalOf 1 rs).length
  fits : ∀ r ∈ rs, r.2.length ≤ kMaxJournalRecordPayload

/-- What the next append cuts off, or nothing, follows the acknowledged records. -/
def Settled (d : DurableStore) (rest : Bytes) : Prop := rest = [] ∨ d.tornTailPending

variable {d d' : DurableStore} {rs : List (JournalRecordType × Bytes)} {rest : Bytes}
  {type : JournalRecordType} {payload : Bytes}

theorem fits_of_appendGuard (h : appendGuard d type payload = .ok ()) :
    payload.length ≤ kMaxJournalRecordPayload := by
  simp only [appendGuard, bind_eq_ok, refuseIf_eq_ok] at h
  obtain ⟨_, -, _, hlen, -⟩ := h
  omega

namespace Holds

theorem kept (h : Holds d rs rest) (settled : d.Settled rest) : d.kept = journalOf 1 rs := by
  unfold DurableStore.kept
  split
  · rw [h.journal, h.bytes, List.take_left]
  · rename_i hpending
    rw [h.journal, settled.resolve_right hpending, List.append_nil]

theorem snoc (h : Holds d rs rest) :
    journalOf 1 rs ++ buildJournalRecord type (d.lastSequence + 1) payload =
      journalOf 1 (rs ++ [(type, payload)]) := by
  rw [journalOf_append, h.sequence, UInt64.add_comm]
  simp [journalOf]

theorem withFaults (h : Holds d rs rest) (io : List (Option IoFault)) :
    Holds { d with io } rs rest := ⟨h.named, h.journal, h.sequence, h.bytes, h.fits⟩

theorem acknowledged (h : Holds d rs rest) (settled : d.Settled rest)
    (happend : exec (append type payload) d = (.ok (), d')) :
    Holds d' (rs ++ [(type, payload)]) [] ∧ d'.path = d.path ∧
      d'.files.snapshot = d.files.snapshot := by
  have hend := appendEnd d type payload
  rw [happend] at hend
  cases hend with
  | acknowledged guard =>
    refine ⟨⟨h.named, ?_, ?_, ?_, ?_⟩, rfl, rfl⟩
    · rw [List.append_nil, ← h.snoc, ← h.kept settled]
    · simp [h.sequence]
    · simp only [h.bytes]
      rw [← h.snoc, List.length_append, length_buildJournalRecord]
    · intro r hr
      rcases List.mem_append.mp hr with hr | hr
      · exact h.fits r hr
      · rw [List.mem_singleton.mp hr]
        exact fits_of_appendGuard guard

theorem reopen (h : Holds d rs rest) (torn : rest = [] ∨ TornAt (UInt64.ofNat rs.length + 1) rest) :
    ∃ d', openStore d.path d.files = .ok d' ∧ Holds d' rs rest ∧ d'.path = d.path ∧
      d'.io = [] ∧ d'.openTailTruncated = decide (rest ≠ []) ∧
      d'.tornTailPending = decide (rest ≠ []) := by
  have hfiles : d.files = { journal := journalOf 1 rs ++ rest, snapshot := d.files.snapshot } := by
    rw [← h.journal]
  rw [hfiles, openStore_torn h.named h.fits torn]
  exact ⟨_, rfl, ⟨h.named, rfl, rfl, rfl, h.fits⟩, rfl, rfl, rfl, rfl⟩

theorem replay (h : Holds d rs rest) (torn : rest = [] ∨ TornAt (UInt64.ofNat rs.length + 1) rest)
    (calm : d.io = []) (settled : d.Settled rest) (repair : Bool) :
    ∃ d' report rest', exec (replay repair collect []) d = (.ok (viewsFrom 1 rs, report), d') ∧
      report.tailTruncated = decide (rest ≠ []) ∧ Holds d' rs rest' ∧ d'.Settled rest' ∧
      (rest' = [] ∨ rest' = rest) ∧ d'.path = d.path := by
  have hscan := @scanJournal_torn rs rest _ true collect h.fits torn []
  rw [← h.journal, foldlM_collect] at hscan
  have hexec := exec_replay hscan calm repair
  by_cases hcut : stopAt rest = .tornTail ∧ repair
  · rw [if_pos hcut] at hexec
    refine ⟨_, _, [], hexec, ?_, ⟨h.named, ?_, rfl, rfl, h.fits⟩, .inl rfl, .inl rfl, rfl⟩
    · simp [stopAt]
    · simp [h.journal]
  · rw [if_neg hcut] at hexec
    exact ⟨_, _, rest, hexec, by simp [stopAt], h, settled, .inr rfl, rfl⟩

end Holds

end Holds

section Cut

/-- Append records one after another; the first refusal stops. -/
def appendAll : List (JournalRecordType × Bytes) → StoreOp Unit
  | [] => pure ()
  | r :: rs => do
    append r.1 r.2
    appendAll rs

variable {d d' : DurableStore} {rs more : List (JournalRecordType × Bytes)} {rest : Bytes}

theorem Holds.appendAll (h : Holds d rs rest) (settled : d.Settled rest)
    (happend : exec (appendAll more) d = (.ok (), d')) :
    ((more = [] ∧ d' = d) ∨ Holds d' (rs ++ more) []) ∧ d'.path = d.path := by
  induction more generalizing d rs rest with
  | nil =>
    cases happend
    exact ⟨.inl ⟨rfl, rfl⟩, rfl⟩
  | cons r more ih =>
    obtain ⟨_, d₁, happ, happend⟩ := exec_bind_ok.mp happend
    obtain ⟨h₁, hpath, -⟩ := h.acknowledged settled happ
    obtain ⟨hend, hpath'⟩ := ih h₁ (.inl rfl) happend
    refine ⟨.inr ?_, hpath'.trans hpath⟩
    rcases hend with ⟨rfl, rfl⟩ | hend
    · exact h₁
    · rwa [List.append_assoc] at hend

/-- Reopening a store that records were appended to delivers what it held and the new records. -/
theorem Holds.reopen_appended (h : Holds d rs rest) (settled : d.Settled rest)
    (torn : rest = [] ∨ TornAt (UInt64.ofNat rs.length + 1) rest)
    (happend : exec (DurableStore.appendAll more) d = (.ok (), d')) (repair : Bool) :
    ∃ d₁ d₂ report, openStore d.path d'.files = .ok d₁ ∧
      exec (DurableStore.replay repair collect []) d₁ =
        (.ok (viewsFrom 1 (rs ++ more), report), d₂) := by
  obtain ⟨hend, hpath⟩ := h.appendAll settled happend
  have hfinal : ∃ rest', Holds d' (rs ++ more) rest' ∧
      (rest' = [] ∨ TornAt (UInt64.ofNat (rs ++ more).length + 1) rest') := by
    rcases hend with ⟨rfl, rfl⟩ | hend
    · rw [List.append_nil]
      exact ⟨rest, h, torn⟩
    · exact ⟨[], hend, .inl rfl⟩
  obtain ⟨rest', h', torn'⟩ := hfinal
  obtain ⟨d₁, hopen, h₁, -, hcalm, -, hpending⟩ := h'.reopen torn'
  have hsettled : d₁.Settled rest' := by
    by_cases hrest : rest' = []
    · exact .inl hrest
    · exact .inr (by simp [hpending, hrest])
  obtain ⟨d₂, report, -, hreplay, -⟩ := h₁.replay torn' hcalm hsettled repair
  rw [hpath] at hopen
  exact ⟨d₁, d₂, report, hopen, hreplay⟩

/-- A journal of acknowledged records, cut anywhere, opens and replays the records wholly before
the cut; the tail is reported torn exactly when the cut is not between two records, and appends made
after the reopening continue the sequence. -/
theorem reopen_after_cut {path : String} {snapshot : Option Bytes} {d₀ : DurableStore}
    {io : List (Option IoFault)} (opened : openStore path { snapshot } = .ok d₀)
    (appended : exec (appendAll rs) { d₀ with io } = (.ok (), d)) {cut : ℕ}
    (inside : cut ≤ d.files.journal.length) (repair : Bool) :
    ∃ d₁ d₂ report,
      openStore path { d.files with journal := d.files.journal.take cut } = .ok d₁ ∧
      exec (replay repair collect []) d₁ =
        (.ok (viewsFrom 1 (wholeBefore cut rs), report), d₂) ∧
      (d₁.openTailTruncated ↔ ¬ OnBoundary cut rs) ∧ (report.tailTruncated ↔ ¬ OnBoundary cut rs) ∧
      ∀ (more : List (JournalRecordType × Bytes)) (io : List (Option IoFault)) (d₃ : DurableStore),
        exec (appendAll more) { d₁ with io } = (.ok (), d₃) ∨
          exec (appendAll more) { d₂ with io } = (.ok (), d₃) →
        ∃ d₄ d₅ report', openStore path d₃.files = .ok d₄ ∧
          exec (replay repair collect []) d₄ =
            (.ok (viewsFrom 1 (wholeBefore cut rs ++ more), report'), d₅) := by
  obtain ⟨named, hd₀⟩ : path ≠ "" ∧ d₀ = { path, files := { snapshot } } := by
    obtain ⟨_, hpath, hopen⟩ := bind_eq_ok.mp opened
    cases hopen
    exact ⟨refuseIf_eq_ok.mp hpath, rfl⟩
  subst hd₀
  have hempty : Holds { path, files := { snapshot }, io } [] [] :=
    ⟨named, rfl, rfl, rfl, fun r hr => by cases hr⟩
  obtain ⟨hend, hpath⟩ := hempty.appendAll (.inl rfl) appended
  have hfull : Holds d rs [] := by
    rcases hend with ⟨rfl, rfl⟩ | hend
    · exact hempty
    · exact hend
  -- The file that is left, as the whole records and what remains of the next one.
  obtain ⟨rest, htake, htorn⟩ := take_journalOf hfull.fits cut 1
  rw [UInt64.add_comm] at htorn
  have hjournal : d.files.journal = journalOf 1 rs := by rw [hfull.journal, List.append_nil]
  have hfits : ∀ r ∈ wholeBefore cut rs, r.2.length ≤ kMaxJournalRecordPayload :=
    fun r hr => hfull.fits r ((isPrefix_wholeBefore cut).subset hr)
  have hboundary : OnBoundary cut rs ↔ rest = [] := by
    have hlen := congrArg List.length htake
    rw [← hjournal, List.length_take, min_eq_left inside, List.length_append] at hlen
    rw [onBoundary_iff, ← List.length_eq_zero_iff]
    omega
  have hleft : Holds { path, files := { d.files with journal := d.files.journal.take cut }
                       lastSequence := UInt64.ofNat (wholeBefore cut rs).length
                       validBytes := (journalOf 1 (wholeBefore cut rs)).length }
      (wholeBefore cut rs) rest := ⟨named, by rw [hjournal]; exact htake, rfl, rfl, hfits⟩
  obtain ⟨d₁, hopen, h₁, hpath₁, hcalm, hreport, hpending⟩ := hleft.reopen htorn
  have hsettled : d₁.Settled rest := by
    by_cases hrest : rest = []
    · exact .inl hrest
    · exact .inr (by simp [hpending, hrest])
  obtain ⟨d₂, report, rest', hreplay, htail, h₂, hsettled₂, hrest', hpath₂⟩ :=
    h₁.replay htorn hcalm hsettled repair
  refine ⟨d₁, d₂, report, hopen, hreplay, ?_, ?_, ?_⟩
  · rw [hboundary, hreport, decide_eq_true_iff]
  · rw [hboundary, htail, decide_eq_true_iff]
  · rintro more io d₃ (happend | happend)
    · have hnext := (h₁.withFaults io).reopen_appended hsettled htorn happend repair
      rwa [show ({ d₁ with io } : DurableStore).path = path from hpath₁] at hnext
    · have htorn' : rest' = [] ∨ TornAt (UInt64.ofNat (wholeBefore cut rs).length + 1) rest' := by
        rcases hrest' with hrest' | rfl
        · exact .inl hrest'
        · exact htorn
      have hnext := (h₂.withFaults io).reopen_appended hsettled₂ htorn' happend repair
      rwa [show ({ d₂ with io } : DurableStore).path = path from hpath₂.trans hpath₁] at hnext

theorem reopen_after_cut_inside_header :
    ∃ d₁ d₂ report,
      openStore "state" { journal := (buildJournalRecord .checkpoint 1 []).take 9 } = .ok d₁ ∧
      exec (replay true collect []) d₁ = (.ok ([], report), d₂) ∧
      (d₁.openTailTruncated ↔ ¬ OnBoundary 9 [(.checkpoint, [])]) := by
  have happended : exec (appendAll [(.checkpoint, [])]) { path := "state" } =
      (.ok (), { path := "state", files := { journal := buildJournalRecord .checkpoint 1 [] }
                 lastSequence := 1, validBytes := 28 }) := by decide +kernel
  have hopened : openStore "state" { snapshot := none } = .ok { path := "state" } := rfl
  have hinside : 9 ≤ (buildJournalRecord .checkpoint 1 []).length := by decide +kernel
  obtain ⟨d₁, d₂, report, hopen, hreplay, htorn, -⟩ :=
    reopen_after_cut hopened happended hinside true
  exact ⟨d₁, d₂, report, hopen, hreplay, htorn⟩

end Cut

section Faults

structure AppendReport where
  record : JournalRecordType × Bytes
  result : Status
  /-- Every byte of the record reached the file. -/
  complete : Bool

/-- Make appends one after another, whether or not they succeed. -/
def appendEach : List (JournalRecordType × Bytes) → DurableStore → List AppendReport × DurableStore
  | [], d => ([], d)
  | r :: rs, d =>
    let (result, d') := exec (append r.1 r.2) d
    let complete := d'.files.journal = d.kept ++ buildJournalRecord r.1 (d.lastSequence + 1) r.2
    let (reports, last) := appendEach rs d'
    ({ record := r, result, complete := decide complete } :: reports, last)

/-- The records delivered are the acknowledged ones, in order, and possibly some whose append failed
after all of their bytes had reached the file. -/
inductive Delivery : List AppendReport → List (JournalRecordType × Bytes) → Prop
  | nil : Delivery [] []
  | acknowledged {a reports delivered} (ok : a.result = .ok ()) (h : Delivery reports delivered) :
      Delivery (a :: reports) (a.record :: delivered)
  | lost {a reports delivered} (failed : a.result ≠ .ok ()) (h : Delivery reports delivered) :
      Delivery (a :: reports) delivered
  | unacknowledged {a reports delivered} (failed : a.result ≠ .ok ()) (complete : a.complete)
      (h : Delivery reports delivered) : Delivery (a :: reports) (a.record :: delivered)

/-- No append that passes its checks is made while bytes of a failed one follow the acknowledged
records, unless they are marked for truncation. -/
def SettledAppends : List (JournalRecordType × Bytes) → DurableStore → Prop
  | [], _ => True
  | r :: rs, d =>
    (appendGuard d r.1 r.2 = .ok () →
      d.files.journal.length = d.validBytes ∨ d.tornTailPending) ∧
    SettledAppends rs (exec (append r.1 r.2) d).2

variable {d : DurableStore} {held rs : List (JournalRecordType × Bytes)} {rest : Bytes}

/-- On a file that ends in a fragment, only appends that are refused at once are made. -/
theorem appendEach_unsettled (dirty : d.files.journal.length ≠ d.validBytes)
    (unmarked : d.tornTailPending = false) (settled : SettledAppends rs d) :
    (appendEach rs d).2 = d ∧ Delivery (appendEach rs d).1 [] := by
  induction rs with
  | nil => exact ⟨rfl, .nil⟩
  | cons r rs ih =>
    obtain ⟨hguard, hrest⟩ := settled
    have hrefused : ∃ e, exec (append r.1 r.2) d = (.error e, d) := by
      cases hg : appendGuard d r.1 r.2 with
      | ok u =>
        rcases hguard hg with h | h
        · exact absurd h dirty
        · rw [unmarked] at h
          cases h
      | error e =>
        refine ⟨e, ?_⟩
        rw [append, exec_bind, exec_get]
        dsimp only
        rw [exec_bind, exec_lift, hg]
    obtain ⟨e, hrefused⟩ := hrefused
    rw [hrefused] at hrest
    obtain ⟨hlast, hdelivery⟩ := ih hrest
    simp only [appendEach, hrefused]
    exact ⟨hlast, .lost (by simp) hdelivery⟩

/-- What one append leaves behind on a settled store: one record more, a store that is settled
still, or a fragment, which may be the whole record. -/
theorem append_settled (h : Holds d held rest) (settled : d.Settled rest)
    (torn : rest = [] ∨ TornAt (UInt64.ofNat held.length + 1) rest)
    (r : JournalRecordType × Bytes) {result : Status} {d' : DurableStore}
    (happend : exec (append r.1 r.2) d = (result, d')) :
    (result = .ok () ∧ Holds d' (held ++ [r]) []) ∨
    (result ≠ .ok () ∧ ∃ rest', Holds d' held rest' ∧ d'.Settled rest' ∧
      (rest' = [] ∨ TornAt (UInt64.ofNat held.length + 1) rest')) ∨
    (result ≠ .ok () ∧ d'.files.journal.length ≠ d'.validBytes ∧ d'.tornTailPending = false ∧
      (Readable d'.files.journal held ∨
        d'.files.journal = d.kept ++ buildJournalRecord r.1 (d.lastSequence + 1) r.2 ∧
          Readable d'.files.journal (held ++ [r]))) := by
  have hend := appendEnd d r.1 r.2
  rw [happend] at hend
  dsimp only at hend
  generalize hresult : result = result₀ at hend
  generalize hd' : d' = d₀ at hend
  cases hend with
  | refused => exact .inr (.inl ⟨by simp, rest, h, settled, torn⟩)
  | untouched pending =>
    exact .inr (.inl ⟨by simp, rest, h.withFaults _, .inr pending, torn⟩)
  | cut guard pending =>
    refine .inr (.inl ⟨by simp, [], ⟨h.named, ?_, h.sequence, h.bytes, h.fits⟩, .inl rfl, .inl rfl⟩)
    simp [h.journal, h.bytes]
  | failed guard written =>
    have hfits := fits_of_appendGuard guard
    have hlen := length_buildJournalRecord r.1 (d.lastSequence + 1) r.2
    have hkept := h.kept settled
    rcases Nat.eq_zero_or_pos written with rfl | hpos
    · -- nothing was written
      refine .inr (.inl ⟨by simp, [], ⟨h.named, ?_, h.sequence, h.bytes, h.fits⟩, .inl rfl, .inl rfl⟩)
      simp [hkept]
    · right
      right
      refine ⟨by simp, ?_, rfl, ?_⟩
      · simp only [hkept, h.bytes, List.length_append, List.length_take, hlen]
        simp only [journalRecordBytes, kJournalHeaderBytes]
        omega
      · by_cases hwhole : journalRecordBytes r.2.length ≤ written
        · -- the whole record is in the file although its append failed
          have htake : (buildJournalRecord r.1 (d.lastSequence + 1) r.2).take written =
              buildJournalRecord r.1 (d.lastSequence + 1) r.2 :=
            List.take_of_length_le (by rwa [hlen])
          refine .inr ⟨by simp only [htake], ?_, [], ?_, .inl rfl⟩
          · intro r' hr'
            rcases List.mem_append.mp hr' with hr' | hr'
            · exact h.fits r' hr'
            · rw [List.mem_singleton.mp hr']
              exact hfits
          · simp only [htake, hkept, h.snoc, List.append_nil]
        · refine .inl ⟨h.fits, (buildJournalRecord r.1 (d.lastSequence + 1) r.2).take written,
            by simp only [hkept], .inr ?_⟩
          rw [h.sequence]
          exact tornAt_take hfits hpos (Nat.lt_of_not_le hwhole)
  | acknowledged =>
    subst hresult hd'
    exact .inl ⟨rfl, (h.acknowledged settled happend).1⟩

theorem appendEach_settled (h : Holds d held rest) (settled : d.Settled rest)
    (torn : rest = [] ∨ TornAt (UInt64.ofNat held.length + 1) rest) (run : SettledAppends rs d) :
    ∃ delivered, Delivery (appendEach rs d).1 delivered ∧
      Readable (appendEach rs d).2.files.journal (held ++ delivered) := by
  induction rs generalizing d held rest with
  | nil =>
    refine ⟨[], .nil, ?_⟩
    rw [List.append_nil]
    exact ⟨h.fits, rest, h.journal, torn⟩
  | cons r rs ih =>
    obtain ⟨-, run⟩ := run
    cases happend : exec (append r.1 r.2) d with
    | mk result d' =>
      rw [happend] at run
      simp only [appendEach, happend]
      rcases append_settled h settled torn r happend with
        ⟨hok, h'⟩ | ⟨hfail, rest', h', settled', torn'⟩ | ⟨hfail, dirty, unmarked, hread⟩
      · obtain ⟨delivered, hdelivery, hread⟩ := ih h' (.inl rfl) (.inl rfl) run
        rw [List.append_assoc] at hread
        exact ⟨r :: delivered, .acknowledged hok hdelivery, hread⟩
      · obtain ⟨delivered, hdelivery, hread⟩ := ih h' settled' torn' run
        exact ⟨delivered, .lost hfail hdelivery, hread⟩
      · obtain ⟨hlast, hdelivery⟩ := appendEach_unsettled dirty unmarked run
        rw [hlast]
        rcases hread with hread | ⟨hcomplete, hread⟩
        · exact ⟨[], .lost hfail hdelivery, by rwa [List.append_nil]⟩
        · exact ⟨[r], .unacknowledged hfail (by simp [hcomplete]) hdelivery, hread⟩

/-- A store opened on readable records, and what its replay delivers and leaves. -/
theorem replay_of_readable {path : String} (named : path ≠ "") {files : Directory}
    (h : Readable files.journal rs) : ∃ d₀ d₁ report rest rest', openStore path files = .ok d₀ ∧
      exec (replay true collect []) d₀ = (.ok (viewsFrom 1 rs, report), d₁) ∧
      (Holds d₀ rs rest ∧ d₀.Settled rest ∧
        (rest = [] ∨ TornAt (UInt64.ofNat rs.length + 1) rest)) ∧
      Holds d₁ rs rest' ∧ d₁.Settled rest' ∧
        (rest' = [] ∨ TornAt (UInt64.ofNat rs.length + 1) rest') := by
  obtain ⟨fits, rest, hjournal, torn⟩ := h
  have hd : Holds { path, files, lastSequence := UInt64.ofNat rs.length
                    validBytes := (journalOf 1 rs).length } rs rest :=
    ⟨named, hjournal, rfl, rfl, fits⟩
  obtain ⟨d₀, hopen, h₀, -, hcalm, -, hpending⟩ := hd.reopen torn
  have hsettled : d₀.Settled rest := by
    by_cases hrest : rest = []
    · exact .inl hrest
    · exact .inr (by simp [hpending, hrest])
  obtain ⟨d₁, report, rest', hreplay, -, h₁, hsettled₁, hrest', -⟩ :=
    h₀.replay torn hcalm hsettled true
  refine ⟨d₀, d₁, report, rest, rest', hopen, hreplay, ⟨h₀, hsettled, torn⟩, h₁, hsettled₁, ?_⟩
  rcases hrest' with hrest' | rfl
  · exact .inl hrest'
  · exact torn

/-- Whatever its directory held, after appends that may each fail with any number of bytes written
a new store on the directory opens and delivers the old records, every acknowledged one and possibly
failed ones that were wholly written, when no append is made behind the bytes of a failed one. -/
theorem reopen_after_faults {path : String} {files : Directory} {d₀ d₁ d : DurableStore}
    {before : List JournalRecordView} {report : JournalScanReport}
    (opened : openStore path files = .ok d₀)
    (replayed : exec (replay true collect []) d₀ = (.ok (before, report), d₁))
    (start : d = d₀ ∨ d = d₁) (io : List (Option IoFault))
    (settled : SettledAppends rs { d with io }) :
    ∃ d₂ d₃ report' delivered,
      openStore path (appendEach rs { d with io }).2.files = .ok d₂ ∧
      Delivery (appendEach rs { d with io }).1 delivered ∧
      exec (replay true collect []) d₂ =
        (.ok (before ++ viewsFrom (UInt64.ofNat before.length + 1) delivered, report'), d₃) := by
  obtain ⟨named, hfiles⟩ : path ≠ "" ∧ d₀.files = files := by
    obtain ⟨_, hpath, hopen⟩ := bind_eq_ok.mp opened
    obtain ⟨_, -, hopen⟩ := bind_eq_ok.mp hopen
    cases hopen
    exact ⟨refuseIf_eq_ok.mp hpath, rfl⟩
  obtain ⟨held, hread⟩ : ∃ held, Readable files.journal held := by
    obtain ⟨_, _, hget, hrun⟩ := exec_bind_ok.mp replayed
    cases hget
    obtain ⟨outcome, _, hscan, -⟩ := exec_bind_ok.mp hrun
    rw [exec_lift, hfiles] at hscan
    exact readable_of_scanJournal (Prod.mk.inj hscan).1
  obtain ⟨d₀', d₁', report', rest, rest', hopen, hreplay, ⟨h₀, settled₀, torn₀⟩, h₁, settled₁, torn₁⟩ :=
    replay_of_readable named hread
  obtain rfl : d₀ = d₀' := Except.ok.inj (opened.symm.trans hopen)
  obtain ⟨hbefore, rfl⟩ := Prod.mk.inj (replayed.symm.trans hreplay)
  obtain rfl : before = viewsFrom 1 held := (Prod.mk.inj (Except.ok.inj hbefore)).1
  have hfinal : ∃ delivered, Delivery (appendEach rs { d with io }).1 delivered ∧
      Readable (appendEach rs { d with io }).2.files.journal (held ++ delivered) := by
    rcases start with rfl | rfl
    · exact appendEach_settled (h₀.withFaults io) settled₀ torn₀ settled
    · exact appendEach_settled (h₁.withFaults io) settled₁ torn₁ settled
  obtain ⟨delivered, hdelivery, hfinal⟩ := hfinal
  obtain ⟨d₂, d₃, report', -, -, hopen', hreplay', -⟩ := replay_of_readable named hfinal
  refine ⟨d₂, d₃, report', delivered, hopen', hdelivery, ?_⟩
  rw [length_viewsFrom, UInt64.add_comm, ← viewsFrom_append]
  exact hreplay'

/-- A store opened on an empty directory, whose first append fails after one byte. -/
def faultyStore : DurableStore :=
  { path := "state", io := [some { operation := "fwrite", written := 1 }] }

/-- The record acknowledged after the failed append is buried behind its byte: the directory does
not open again. -/
theorem not_reopen_after_faults :
    openStore "state" {} = .ok { faultyStore with io := [] } ∧
    (appendEach [(.checkpoint, []), (.checkpoint, [])] faultyStore).1.map (·.result) =
      [.error (ioFailure "fwrite" "state/journal.log"), .ok ()] ∧
    openStore "state" (appendEach [(.checkpoint, []), (.checkpoint, [])] faultyStore).2.files =
      .error (failure .corruptData "journal record magic mismatch (corruption)") := by
  decide +kernel

theorem reopen_after_faults_failed_last :
    ∃ d₂ d₃ report' delivered,
      openStore "state" (appendEach [(.checkpoint, [])] faultyStore).2.files = .ok d₂ ∧
      Delivery (appendEach [(.checkpoint, [])] faultyStore).1 delivered ∧
      exec (replay true collect []) d₂ = (.ok ([] ++ viewsFrom (0 + 1) delivered, report'), d₃) := by
  have hopened : openStore "state" {} = .ok { path := "state" } := rfl
  have hreplayed : exec (replay true collect []) { path := "state" } =
      (.ok ([], {}), { path := "state" }) := rfl
  exact reopen_after_faults hopened hreplayed (.inl rfl) _ ⟨fun _ => .inl rfl, trivial⟩

end Faults

end DurableStore

end FlowScheduler

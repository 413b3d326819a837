import FlowScheduler.Coordinator.Tables

/-! # The reachable states of a coordinator

In every state a coordinator can be in, its table and the attempts of its
scheduler agree on the tickets, and every entry of the table is filed under the
connection of the worker that was given the attempt.
-/

namespace FlowScheduler

open ByteCodec (Bytes)
open Failing OrderedMap

/-- The ticket was issued to the worker behind the connection. -/
def Peer.Holds (p : Peer) (ticket : DispatchTicket) : Prop :=
  ticket.worker = p.worker ∧ ticket.boot = p.boot

instance (p : Peer) (ticket : DispatchTicket) : Decidable (p.Holds ticket) :=
  inferInstanceAs (Decidable (_ ∧ _))

namespace Coordinator

/-- No two connections announce one incarnation of a worker. -/
def Distinct (peers : List Peer) : Prop :=
  ∀ (i j : ℕ) (p q : Peer), peers[i]? = some p → peers[j]? = some q →
    p.worker = q.worker → p.boot = q.boot → i = j

structure Coherent (c : Coordinator) : Prop where
  sound : Sound c.scheduler.impl
  distinct : Distinct c.peers
  filed : ∀ (a : DispatchAttemptId) (o : OpenAttempt), c.attempts[a]? = some o →
    o.ticket.attempt = a ∧ a.value < c.scheduler.impl.nextAttempt.value ∧
      ∃ p, c.peers[o.peer]? = some p ∧ p.Holds o.ticket
  same : ∀ (a : DispatchAttemptId) (o : OpenAttempt) (x : AttemptRuntime),
    c.attempts[a]? = some o → c.scheduler.impl.attempts[a]? = some x → x.ticket = o.ticket

/-- A later state of the coordinator, without a dispatch in between. -/
structure Follows (c d : Coordinator) : Prop where
  options : d.options = c.options
  scheduler : c.scheduler.Follows d.scheduler
  peers : ∀ i : ℕ, d.peers[i]?.map (fun p => (p.worker, p.boot)) =
    c.peers[i]?.map fun p => (p.worker, p.boot)
  table : ∀ (a : DispatchAttemptId) (o' : OpenAttempt), d.attempts[a]? = some o' →
    ∃ o, c.attempts[a]? = some o ∧ o'.peer = o.peer ∧ o'.ticket = o.ticket

variable {c d e : Coordinator}

namespace Follows

theorem refl (sound : Sound c.scheduler.impl) : c.Follows c where
  options := rfl
  scheduler := .refl sound
  peers _ := rfl
  table _ o ho := ⟨o, ho, rfl, rfl⟩

theorem trans (h : c.Follows d) (h' : d.Follows e) : c.Follows e where
  options := h'.options.trans h.options
  scheduler := h.scheduler.trans h'.scheduler
  peers i := (h'.peers i).trans (h.peers i)
  table a o₂ h₂ := by
    obtain ⟨o₁, h₁, hpeer₂, hticket₂⟩ := h'.table a o₂ h₂
    obtain ⟨o, ho, hpeer₁, hticket₁⟩ := h.table a o₁ h₁
    exact ⟨o, ho, hpeer₂.trans hpeer₁, hticket₂.trans hticket₁⟩

theorem congr (h : c.Follows d) (options : e.options = d.options)
    (scheduler : e.scheduler = d.scheduler) (peers : e.peers = d.peers)
    (table : e.attempts = d.attempts) : c.Follows e where
  options := options.trans h.options
  scheduler := by
    rw [scheduler]
    exact h.scheduler
  peers := by
    rw [peers]
    exact h.peers
  table := by
    rw [table]
    exact h.table

theorem peer (h : c.Follows d) {i : ℕ} {p : Peer} (found : c.peers[i]? = some p) :
    ∃ q, d.peers[i]? = some q ∧ q.worker = p.worker ∧ q.boot = p.boot := by
  have hi := h.peers i
  rw [found] at hi
  obtain ⟨q, hq, hsame⟩ := Option.map_eq_some_iff.mp hi
  exact ⟨q, hq, (Prod.mk.inj hsame).1, (Prod.mk.inj hsame).2⟩

theorem peer_of (h : c.Follows d) {i : ℕ} {q : Peer} (found : d.peers[i]? = some q) :
    ∃ p, c.peers[i]? = some p ∧ q.worker = p.worker ∧ q.boot = p.boot := by
  have hi := h.peers i
  rw [found] at hi
  obtain ⟨p, hp, hsame⟩ := Option.map_eq_some_iff.mp hi.symm
  exact ⟨p, hp, (Prod.mk.inj hsame).1.symm, (Prod.mk.inj hsame).2.symm⟩

end Follows

theorem Coherent.follows (h : c.Coherent) (later : c.Follows d) : d.Coherent where
  sound := later.scheduler.sound
  distinct i j p q hp hq hworker hboot := by
    obtain ⟨p', hp', hpw, hpb⟩ := later.peer_of hp
    obtain ⟨q', hq', hqw, hqb⟩ := later.peer_of hq
    exact h.distinct i j p' q' hp' hq' (by rw [← hpw, ← hqw, hworker]) (by rw [← hpb, ← hqb, hboot])
  filed a o' ho' := by
    obtain ⟨o, ho, hpeer, hticket⟩ := later.table a o' ho'
    obtain ⟨hattempt, hlt, p, hp, hholds⟩ := h.filed a o ho
    obtain ⟨q, hq, hworker, hboot⟩ := later.peer hp
    rw [hpeer, hticket]
    refine ⟨hattempt, UInt64.lt_of_lt_of_le hlt later.scheduler.next, q, hq, ?_⟩
    exact ⟨hholds.1.trans hworker.symm, hholds.2.trans hboot.symm⟩
  same a o' x' ho' hx' := by
    obtain ⟨o, ho, -, hticket⟩ := later.table a o' ho'
    obtain ⟨x, hx, hsame, -⟩ := later.scheduler.attempts a x' hx'
    rw [hsame, hticket]
    exact h.same a o x ho hx

theorem Coherent.holds (h : c.Coherent) {a : DispatchAttemptId} {o : OpenAttempt} {p : Peer}
    {x : AttemptRuntime} (filed : c.attempts[a]? = some o) (peer : c.peers[o.peer]? = some p)
    (found : c.scheduler.impl.attempts[a]? = some x) : p.Holds x.ticket := by
  obtain ⟨-, -, q, hq, hholds⟩ := h.filed a o filed
  obtain rfl := Option.some.inj (hq.symm.trans peer)
  rw [h.same a o x filed found]
  exact hholds

section Steps

theorem follows_ask (sound : Sound c.scheduler.impl) {call : Call} (other : ¬ call.isDispatch) :
    c.Follows (c.ask call) :=
  { Follows.refl sound with scheduler := .call sound other }

theorem follows_resolveAmbiguousFlow (sound : Sound c.scheduler.impl) (flow : FlowId) :
    c.Follows (c.resolveAmbiguousFlow flow) := by
  unfold resolveAmbiguousFlow
  split
  · exact .refl sound
  · split
    · exact .refl sound
    · exact follows_ask sound (by simp [Call.isDispatch])

theorem follows_foldl {α : Type} {step : Coordinator → α → Coordinator}
    (keep : ∀ (c : Coordinator) x, Sound c.scheduler.impl → c.Follows (step c x)) (xs : List α)
    (sound : Sound c.scheduler.impl) : c.Follows (xs.foldl step c) := by
  induction xs generalizing c with
  | nil => exact .refl sound
  | cons x xs ih =>
    have hstep := keep c x sound
    exact hstep.trans (ih hstep.scheduler.sound)

theorem follows_resolveAmbiguousFlows (sound : Sound c.scheduler.impl) :
    c.Follows c.resolveAmbiguousFlows :=
  follows_foldl (fun _ _ sound => follows_resolveAmbiguousFlow sound _) _ sound

theorem follows_erase (sound : Sound c.scheduler.impl) {t : Scheduler}
    (later : c.scheduler.Follows t) (a : DispatchAttemptId) :
    c.Follows { c with scheduler := t, attempts := c.attempts.erase a } :=
  { Follows.refl sound with
    scheduler := later
    table := fun b o ho => by
      dsimp only at ho
      rw [get_erase] at ho
      split at ho
      · cases ho
      · exact ⟨o, ho, rfl, rfl⟩ }

theorem follows_dropAttempt (sound : Sound c.scheduler.impl) (reason : Bytes)
    (a : DispatchAttemptId) : c.Follows (c.dropAttempt reason a) :=
  follows_erase sound
    (.call (c := .abandonAttempt a reason c.now) sound Bool.false_ne_true) a

theorem follows_dropAttempts (sound : Sound c.scheduler.impl) (reason : Bytes)
    (ids : List DispatchAttemptId) : c.Follows (c.dropAttempts reason ids) :=
  follows_foldl (fun _ a sound => follows_dropAttempt sound reason a) ids sound

theorem follows_retire (sound : Sound c.scheduler.impl) (i : ℕ) :
    c.Follows { c with peers := c.peers.modify i fun p => { p with alive := false } } :=
  { Follows.refl sound with
    peers := fun j => by
      dsimp only
      rw [List.getElem?_modify]
      cases c.peers[j]? with
      | none => rfl
      | some p =>
        by_cases hj : i = j
        · simp [hj]
        · simp [hj] }

theorem follows_retirePeer (sound : Sound c.scheduler.impl) (i : ℕ) (reason : Bytes) :
    c.Follows (c.retirePeer i reason) := by
  unfold retirePeer
  split
  · exact .refl sound
  · have hretire := follows_retire sound i
    refine hretire.trans ?_
    have hdrop := follows_dropAttempts hretire.scheduler.sound reason
      (attemptsOf { c with peers := c.peers.modify i fun p => { p with alive := false } } i)
    exact hdrop.trans (follows_resolveAmbiguousFlows hdrop.scheduler.sound)

theorem follows_maybeFinishAfterCompletion (sound : Sound c.scheduler.impl) :
    c.Follows c.maybeFinishAfterCompletion := by
  unfold maybeFinishAfterCompletion
  split
  · exact (Follows.refl sound).congr rfl rfl rfl rfl
  · split
    · have hkilled : c.Follows { c with workerKilled := true } :=
        (Follows.refl sound).congr rfl rfl rfl rfl
      exact hkilled.trans (follows_retirePeer hkilled.scheduler.sound 0 _)
    · exact .refl sound

theorem follows_handleStarted (sound : Sound c.scheduler.impl) (m : StartedMessage) :
    c.Follows (c.handleStarted m) := by
  unfold handleStarted
  split
  · exact .refl sound
  · rename_i found hfound
    split
    · exact .refl sound
    · have hcall : c.scheduler.Follows (c.scheduler.call (.markStarted found.ticket c.now)).2 :=
        .call sound (by simp [Call.isDispatch])
      split
      · rename_i response t ht
        rw [ht] at hcall
        refine { Follows.refl sound with scheduler := hcall, table := fun b o ho => ?_ }
        dsimp only at ho
        rw [get_insert] at ho
        split at ho
        · rename_i hb
          cases ho
          exact ⟨found, by rw [hb]; exact hfound, rfl, rfl⟩
        · exact ⟨o, ho, rfl, rfl⟩
      · rename_i err t ht
        rw [ht] at hcall
        exact { Follows.refl sound with scheduler := hcall }

theorem follows_handleCompletion (sound : Sound c.scheduler.impl) (m : CompletionMessage) :
    c.Follows (c.handleCompletion m) := by
  have hcall : c.scheduler.Follows (c.scheduler.call (.complete m.evidence c.now)).2 :=
    .call sound (by simp [Call.isDispatch])
  unfold handleCompletion
  split
  all_goals
    rename_i t ht
    rw [ht] at hcall
  · exact { Follows.refl sound with scheduler := hcall }
  · split
    · have herase := (follows_erase sound hcall m.evidence.attempt).congr (e := { c with
          scheduler := t, attempts := c.attempts.erase m.evidence.attempt
          completionsApplied := c.completionsApplied + 1 }) rfl rfl rfl rfl
      exact herase.trans (follows_maybeFinishAfterCompletion hcall.sound)
    · exact { Follows.refl sound with scheduler := hcall }
  · exact { Follows.refl sound with scheduler := hcall }

theorem follows_handleDispatchRejected (sound : Sound c.scheduler.impl)
    (m : DispatchRejectedMessage) : c.Follows (c.handleDispatchRejected m) := by
  unfold handleDispatchRejected
  split
  · exact .refl sound
  · exact follows_dropAttempt sound _ _

theorem follows_handleFrame (sound : Sound c.scheduler.impl) (i : ℕ) (type : UInt16)
    (payload : Bytes) : c.Follows (c.handleFrame i type payload) := by
  unfold handleFrame
  split
  · split
    · exact follows_handleStarted sound _
    · exact .refl sound
  · split
    · split
      · exact follows_handleCompletion sound _
      · exact .refl sound
    · split
      · split
        · exact follows_handleDispatchRejected sound _
        · exact .refl sound
      · split
        · exact follows_retirePeer sound _ _
        · exact follows_retirePeer sound _ _

theorem follows_receive (sound : Sound c.scheduler.impl) (i : ℕ) (what : Received) :
    c.Follows (c.receive i what) := by
  unfold receive
  split
  · cases what with
    | frame type payload => exact follows_handleFrame sound i type payload
    | closed => exact follows_retirePeer sound _ _
    | failed detail => exact follows_retirePeer sound _ _
  · exact .refl sound

end Steps

section Dispatch

variable {schedule : Schedule} {delivered : DispatchMessage → Bool} {entry : ScheduleEntry}
  {index : ℕ} {p : Peer}

/-- Filing a new attempt under the worker it was issued to keeps the tables together. -/
theorem Coherent.file (h : c.Coherent) {t : Scheduler} {ticket : DispatchTicket} {x : AttemptRuntime}
    (sound : Sound t.impl) (peer : c.peers[index]? = some p) (holds : p.Holds ticket)
    (fresh : ticket.attempt = c.scheduler.impl.nextAttempt)
    (advance : c.scheduler.impl.nextAttempt.advance = .ok t.impl.nextAttempt)
    (opened : x.ticket = ticket)
    (attempts : ∀ b : DispatchAttemptId, t.impl.attempts[b]? =
      if b = ticket.attempt then some x else c.scheduler.impl.attempts[b]?) :
    Coherent { c with
      scheduler := t, attempts := c.attempts.insert ticket.attempt { peer := index, ticket } } where
  sound := sound
  distinct := h.distinct
  filed a o ho := by
    dsimp only at ho ⊢
    rw [get_insert] at ho
    split at ho
    · rename_i ha
      cases ho
      refine ⟨ha.symm, ?_, p, peer, holds⟩
      rw [ha, fresh]
      exact Id.lt_of_advance advance
    · obtain ⟨hattempt, hlt, hpeer⟩ := h.filed a o ho
      exact ⟨hattempt, UInt64.lt_trans hlt (Id.lt_of_advance advance), hpeer⟩
  same a o y ho hy := by
    dsimp only at ho hy
    rw [get_insert] at ho
    rw [attempts] at hy
    split at ho
    · rename_i ha
      rw [if_pos ha] at hy
      cases ho
      cases hy
      exact opened
    · rename_i ha
      rw [if_neg ha] at hy
      exact h.same a o y ho hy

theorem Coherent.refuse (h : c.Coherent) {t : Scheduler} (sound : Sound t.impl)
    (next : t.impl.nextAttempt = c.scheduler.impl.nextAttempt)
    (attempts : ∀ b : DispatchAttemptId, b ≠ c.scheduler.impl.nextAttempt →
      t.impl.attempts[b]? = c.scheduler.impl.attempts[b]?) :
    Coherent { c with scheduler := t } where
  sound := sound
  distinct := h.distinct
  filed a o ho := by
    dsimp only
    rw [next]
    exact h.filed a o ho
  same a o y ho hy := by
    have hlt := (h.filed a o ho).2.1
    have ha : a ≠ c.scheduler.impl.nextAttempt := by
      rintro rfl
      exact absurd hlt (UInt64.lt_irrefl _)
    exact h.same a o y ho ((attempts a ha).symm.trans hy)

theorem Coherent.dispatchEntry (h : c.Coherent) (peer : c.peers[index]? = some p) :
    (c.dispatchEntry schedule delivered entry index p).Coherent := by
  unfold Coordinator.dispatchEntry
  dsimp only
  have hsound := sound_call h.sound (.beginDispatch schedule.schedule schedule.generation
    entry.ordinal p.worker p.boot c.now)
  cases hcall : c.scheduler.call (.beginDispatch schedule.schedule schedule.generation
      entry.ordinal p.worker p.boot c.now) with
  | mk result t =>
    rw [hcall] at hsound
    have hturn : Coherent { c with roundRobin := (index + 1) % c.peers.length } :=
      h.follows ((Follows.refl h.sound).congr rfl rfl rfl rfl)
    rcases attempts_beginDispatch hcall with ⟨ticket, x, rfl, hfresh, hw, hb, hadvance, hx, hattempts⟩ |
        ⟨e, rfl, hnext, hattempts⟩
    · have hfile := hturn.file hsound peer ⟨hw, hb⟩ hfresh hadvance hx hattempts
      dsimp only
      split
      · exact hfile
      · exact hfile.follows (follows_retirePeer hfile.sound _ _)
    · refine hturn.refuse hsound hnext fun b hb => ?_
      rcases hattempts with hsame | ⟨-, hsame⟩
      · exact hsame b
      · exact hsame b hb

theorem Coherent.dispatchSchedule (entries : List ScheduleEntry) (h : c.Coherent) :
    (Coordinator.dispatchSchedule schedule delivered entries c).Coherent := by
  induction entries generalizing c with
  | nil => exact h
  | cons entry rest ih =>
    unfold Coordinator.dispatchSchedule
    split
    · exact ih h
    · split
      · exact h
      · split
        · exact h
        · rename_i hpeer
          exact ih (h.dispatchEntry hpeer)

theorem Coherent.round (h : c.Coherent) : (c.round delivered).Coherent := by
  have hcall : c.scheduler.Follows (c.scheduler.call (.arbitrate c.now)).2 :=
    .call h.sound (by simp [Call.isDispatch])
  unfold Coordinator.round
  split
  · exact h.follows ((Follows.refl h.sound).congr rfl rfl rfl rfl)
  · split
    all_goals
      rename_i t ht
      rw [ht] at hcall
    · refine Coherent.dispatchSchedule _ (h.follows ?_)
      exact { Follows.refl h.sound with scheduler := hcall }
    · exact h.follows { Follows.refl h.sound with scheduler := hcall }

theorem Coherent.step (h : c.Coherent) (e : Event) : (c.step e).Coherent := by
  unfold Coordinator.step
  split
  · exact h
  · cases e with
    | round delivered => exact h.round
    | received i what => exact h.follows (follows_receive h.sound i what)
    | tick => exact h.follows ((Follows.refl h.sound).congr rfl rfl rfl rfl)

end Dispatch

section Opening

structure Idle (c : Coordinator) : Prop where
  sound : Sound c.scheduler.impl
  table : c.attempts = ∅
  attempts : c.scheduler.impl.attempts = ∅

theorem Idle.follows (h : c.Idle) (later : c.Follows d) : d.Idle where
  sound := later.scheduler.sound
  table := by
    refine Std.ExtTreeMap.ext_getElem? fun a => ?_
    cases ho : d.attempts[a]? with
    | none => simp
    | some o =>
      obtain ⟨o', ho', -⟩ := later.table a o ho
      simp [h.table] at ho'
  attempts := by
    refine Std.ExtTreeMap.ext_getElem? fun a => ?_
    cases hx : d.scheduler.impl.attempts[a]? with
    | none => simp
    | some x =>
      obtain ⟨x', hx', -⟩ := later.scheduler.attempts a x hx
      simp [h.attempts] at hx'

theorem follows_require (sound : Sound c.scheduler.impl) {call : Call} (other : ¬ call.isDispatch)
    (h : c.require call = some d) : c.Follows d := by
  have hcall : c.scheduler.Follows (c.scheduler.call call).2 := .call sound other
  unfold require at h
  split at h
  · rename_i t ht
    rw [ht] at hcall
    cases h
    exact { Follows.refl sound with scheduler := hcall }
  · cases h

theorem follows_foldlM {α : Type} {request : Coordinator → α → Option Coordinator} {xs : List α}
    (keep : ∀ (c d : Coordinator) x, x ∈ xs → Sound c.scheduler.impl → request c x = some d →
      c.Follows d) (sound : Sound c.scheduler.impl) (h : xs.foldlM request c = some d) :
    c.Follows d := by
  induction xs generalizing c with
  | nil =>
    cases h
    exact .refl sound
  | cons x xs ih =>
    obtain ⟨c', hc', h⟩ := Option.bind_eq_some_iff.mp h
    have hstep := keep c c' x List.mem_cons_self sound hc'
    exact hstep.trans (ih (fun c d x hx => keep c d x (List.mem_cons_of_mem _ hx))
      hstep.scheduler.sound h)

theorem follows_registerTopology (sound : Sound c.scheduler.impl)
    (h : c.registerTopology = some d) : c.Follows d := by
  refine follows_foldlM (fun c d call hcall sound => follows_require sound ?_) sound h
  simp only [CoordinatorOptions.topology, List.mem_append, List.mem_singleton, List.mem_map] at hcall
  rcases hcall with (rfl | ⟨_, -, rfl⟩) | rfl <;> exact Bool.false_ne_true

theorem follows_admitFlows {draws : ℕ → Draw} (sound : Sound c.scheduler.impl)
    (h : c.admitFlows draws = some d) : c.Follows d := by
  obtain ⟨c', hc', h⟩ := Option.bind_eq_some_iff.mp h
  cases h
  have hadmitted : c.Follows c' := by
    refine follows_foldlM (fun c d index _ sound hd => follows_require sound ?_ hd) sound hc'
    exact Bool.false_ne_true
  exact hadmitted.congr rfl rfl rfl rfl

theorem Follows.peers_nil (h : c.Follows d) (none : c.peers = []) : d.peers = [] := by
  refine List.ext_getElem? fun i => ?_
  have hi := h.peers i
  rw [none] at hi
  simpa using hi

/-- A run starts without any attempt, whatever the state directory holds. -/
theorem idle_openScheduler {options : CoordinatorOptions} {draws : ℕ → Draw} {files : Directory}
    (h : openScheduler options draws files = some c) : c.Idle ∧ c.peers = [] := by
  obtain ⟨s, hs, h⟩ := Option.bind_eq_some_iff.mp h
  have hcreate : create { policy := options.makePolicy, stateDirectory := options.state } files =
      .ok s := by
    cases hc : create { policy := options.makePolicy, stateDirectory := options.state } files with
    | error err =>
      rw [hc] at hs
      cases hs
    | ok s' =>
      rw [hc] at hs
      cases hs
      rfl
  have hidle : Idle { options, scheduler := s } :=
    ⟨sound_create hcreate, rfl, (empty_create hcreate).2⟩
  have hlater : ({ options, scheduler := s } : Coordinator).Follows c := by
    dsimp only at h
    split at h
    · cases h
      refine Follows.trans ?_ (follows_resolveAmbiguousFlows hidle.sound)
      exact (Follows.refl hidle.sound).congr rfl rfl rfl rfl
    · obtain ⟨c₁, h₁, h⟩ := Option.bind_eq_some_iff.mp h
      have htopology := follows_registerTopology hidle.sound h₁
      exact htopology.trans (follows_admitFlows htopology.scheduler.sound h)
  exact ⟨hidle.follows hlater, hlater.peers_nil rfl⟩

theorem Distinct.concat {peers : List Peer} {p : Peer} (h : Distinct peers)
    (new : ∀ q ∈ peers, ¬ (q.worker = p.worker ∧ q.boot = p.boot)) : Distinct (peers ++ [p]) := by
  have hlast : ∀ {i q}, (peers ++ [p])[i]? = some q →
      peers[i]? = some q ∨ (i = peers.length ∧ q = p) := by
    intro i q hq
    rcases Nat.lt_trichotomy i peers.length with hi | hi | hi
    · rw [List.getElem?_append_left hi] at hq
      exact .inl hq
    · rw [hi, List.getElem?_concat_length] at hq
      exact .inr ⟨hi, (Option.some.inj hq).symm⟩
    · rw [List.getElem?_eq_none (by simp; omega)] at hq
      cases hq
  intro i j q r hq hr hworker hboot
  rcases hlast hq with hq' | ⟨rfl, rfl⟩ <;> rcases hlast hr with hr' | ⟨rfl, rfl⟩
  · exact h i j q r hq' hr' hworker hboot
  · exact absurd ⟨hworker, hboot⟩ (new q (List.mem_of_getElem? hq'))
  · exact absurd ⟨hworker.symm, hboot.symm⟩ (new r (List.mem_of_getElem? hr'))
  · rfl

theorem idle_handshake {hellos : List Bytes} (h : c.Idle) (distinct : Distinct c.peers)
    (greeted : hellos.foldlM greet c = some d) : d.Idle ∧ Distinct d.peers := by
  induction hellos generalizing c with
  | nil =>
    cases greeted
    exact ⟨h, distinct⟩
  | cons payload hellos ih =>
    obtain ⟨c', hc', greeted⟩ := Option.bind_eq_some_iff.mp greeted
    unfold greet at hc'
    split at hc'
    · cases hc'
    · split at hc'
      · cases hc'
      · rename_i hello _ hnew
        cases hc'
        have hconcat : Distinct (c.peers ++ [⟨hello.worker, hello.boot, true⟩]) := by
          refine distinct.concat fun q hq hsame => ?_
          exact hnew (List.any_eq_true.mpr ⟨q, hq, decide_eq_true hsame⟩)
        have hidle : Idle { c with peers := c.peers ++ [⟨hello.worker, hello.boot, true⟩] } :=
          ⟨h.sound, h.table, h.attempts⟩
        exact ih hidle hconcat greeted

theorem coherent_handshake {hellos : List Bytes} (h : c.Idle) (fresh : c.peers = [])
    (greeted : c.handshake hellos = some d) : d.Coherent ∧ d.Idle := by
  unfold handshake at greeted
  split at greeted
  · obtain ⟨hidle, hdistinct⟩ := idle_handshake h (by rw [fresh]; intro i j p q hp; cases hp) greeted
    refine ⟨⟨hidle.sound, hdistinct, fun a o ho => ?_, fun a o x ho => ?_⟩, hidle⟩
    · simp [hidle.table] at ho
    · simp [hidle.table] at ho
  · cases greeted

/-- Replace what the file system will do to the coming writes. -/
def withFaults (c : Coordinator) (io : List (Option IoFault)) : Coordinator :=
  { c with scheduler := c.scheduler.withFaults io }

/-- A state a coordinator can be in: the state directory held anything, the workers said anything,
and any send or write may have failed. -/
inductive Reached : Coordinator → Prop
  | opened {options draws files hellos} {c d : Coordinator}
      (opened : openScheduler options draws files = some c)
      (greeted : c.handshake hellos = some d) : Reached d
  | stepped {c : Coordinator} (h : Reached c) (e : Event) : Reached (c.step e)
  | faulty {c : Coordinator} (h : Reached c) (io : List (Option IoFault)) : Reached (c.withFaults io)

theorem Reached.coherent (h : c.Reached) : c.Coherent := by
  induction h with
  | opened opened greeted =>
    obtain ⟨hidle, hfresh⟩ := idle_openScheduler opened
    exact (coherent_handshake hidle hfresh greeted).1
  | stepped _ e ih => exact ih.step e
  | faulty _ io ih => exact ⟨ih.sound, ih.distinct, ih.filed, ih.same⟩

end Opening

section Losing

variable {a b : DispatchAttemptId}

theorem mem_attemptsOf {i : ℕ} : a ∈ c.attemptsOf i ↔ ∃ o, c.attempts[a]? = some o ∧ o.peer = i := by
  unfold attemptsOf
  constructor
  · intro h
    obtain ⟨⟨_, o⟩, hmem, rfl⟩ := List.mem_map.mp h
    obtain ⟨hmem, hpeer⟩ := List.mem_filter.mp hmem
    exact ⟨o, mem_toList.mp hmem, of_decide_eq_true hpeer⟩
  · rintro ⟨o, ho, hpeer⟩
    refine List.mem_map.mpr ⟨(a, o), List.mem_filter.mpr ⟨mem_toList.mpr ho, ?_⟩, rfl⟩
    exact decide_eq_true hpeer

theorem resolveAmbiguousFlows_spares :
    c.resolveAmbiguousFlows.scheduler.impl.attempts = c.scheduler.impl.attempts ∧
      c.resolveAmbiguousFlows.attempts = c.attempts ∧ c.resolveAmbiguousFlows.peers = c.peers := by
  refine foldl_keeps (P := fun d : Coordinator => d.scheduler.impl.attempts =
    c.scheduler.impl.attempts ∧ d.attempts = c.attempts ∧ d.peers = c.peers)
    (fun d index hd => ?_) _ ⟨rfl, rfl, rfl⟩
  unfold resolveAmbiguousFlow
  split
  · exact hd
  · split
    · exact hd
    · exact ⟨(attempts_resolveAmbiguous ..).trans hd.1, hd.2⟩

theorem dropAttempt_spares (reason : Bytes) (h : b ≠ a) :
    (c.dropAttempt reason a).scheduler.impl.attempts[b]? = c.scheduler.impl.attempts[b]? ∧
      (c.dropAttempt reason a).attempts[b]? = c.attempts[b]? :=
  ⟨(spares_abandonAttempt reason c.now).spares h, (get_erase).trans (if_neg h)⟩

theorem dropAttempts_spares (reason : Bytes) {ids : List DispatchAttemptId} (h : b ∉ ids) :
    (c.dropAttempts reason ids).scheduler.impl.attempts[b]? = c.scheduler.impl.attempts[b]? ∧
      (c.dropAttempts reason ids).attempts[b]? = c.attempts[b]? := by
  induction ids generalizing c with
  | nil => exact ⟨rfl, rfl⟩
  | cons a ids ih =>
    obtain ⟨hne, hrest⟩ := not_or.mp (List.mem_cons.not.mp h)
    obtain ⟨hscheduler, htable⟩ := dropAttempt_spares (c := c) reason hne
    obtain ⟨hs, ht⟩ := ih (c := c.dropAttempt reason a) hrest
    exact ⟨hs.trans hscheduler, ht.trans htable⟩

end Losing

section Launches

variable {options : CoordinatorOptions} {files : Directory} {hellos : List Bytes}
  {events : List Event} {P : Coordinator → Prop}

/-- The coordinator after a number of events, if its run could be started. -/
def launch (options : CoordinatorOptions) (files : Directory) (hellos : List Bytes)
    (events : List Event) : Option Coordinator := do
  let c ← openScheduler options (fun _ => {}) files
  return events.foldl step (← c.handshake hellos)

theorem Reached.steps (h : c.Reached) (events : List Event) : (events.foldl step c).Reached := by
  induction events generalizing c with
  | nil => exact h
  | cons e events ih => exact ih (h.stepped e)

theorem exists_reached (h : ∃ c ∈ launch options files hellos events, P c) :
    ∃ c : Coordinator, c.Reached ∧ P c := by
  obtain ⟨d, hd, hP⟩ := h
  obtain ⟨c, hc, hd⟩ := Option.bind_eq_some_iff.mp hd
  obtain ⟨c', hc', hd⟩ := Option.bind_eq_some_iff.mp hd
  cases hd
  exact ⟨_, (Reached.opened hc hc').steps events, hP⟩

end Launches

end Coordinator

namespace Sample

def pair : CoordinatorOptions := { workers := 2, flows := 1, interval := 1 }

def hello (n : UInt64) : Bytes :=
  HelloMessage.encode
    { worker := ⟨n⟩, boot := ⟨n⟩, supportedProtocol := kProtocolVersion.toUInt64 }

end Sample

end FlowScheduler

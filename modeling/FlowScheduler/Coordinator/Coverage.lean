import FlowScheduler.Coordinator.Coherence

/-! # Coverage of the open attempts

The coordinator can withdraw from a lost worker only what is in its table. Every
open attempt of the scheduler is there, under a live connection of the worker
that was given it, as long as no append is refused and the scheduler does not run
out of attempt identities: a dispatch that takes the last one fails after it has
been applied.
-/

namespace FlowScheduler

open ByteCodec (Bytes)
open Failing OrderedMap

namespace Coordinator

variable {c d : Coordinator} {lost lost' : ℕ → Prop}

/-- Every open attempt is in the table, under the worker its ticket names. The connection is alive,
or among those that are being given up. -/
def Covered (lost : ℕ → Prop) (c : Coordinator) : Prop :=
  ∀ (a : DispatchAttemptId) (x : AttemptRuntime), c.scheduler.impl.attempts[a]? = some x →
    ¬ x.state.isTerminal → ∃ o p, c.attempts[a]? = some o ∧ c.peers[o.peer]? = some p ∧
      p.Holds x.ticket ∧ (p.alive ∨ lost o.peer)

def Bereft (c : Coordinator) (p : Peer) : Prop :=
  ∀ (a : DispatchAttemptId) (x : AttemptRuntime), c.scheduler.impl.attempts[a]? = some x →
    ¬ x.state.isTerminal → ¬ p.Holds x.ticket

namespace Covered

theorem later (h : Covered lost c) (follows : c.Follows d)
    (table : ∀ (a : DispatchAttemptId) (x : AttemptRuntime) (o : OpenAttempt),
      d.scheduler.impl.attempts[a]? = some x → ¬ x.state.isTerminal → c.attempts[a]? = some o →
        ∃ o', d.attempts[a]? = some o' ∧ o'.peer = o.peer)
    (alive : ∀ (i : ℕ) (p q : Peer), c.peers[i]? = some p → d.peers[i]? = some q →
      p.alive ∨ lost i → q.alive ∨ lost' i) : Covered lost' d := by
  intro a x hx hopen
  obtain ⟨x₀, hx₀, hticket, hstate⟩ := follows.scheduler.attempts a x hx
  obtain ⟨o, p, ho, hp, hholds, hcover⟩ := h a x₀ hx₀ fun hterminal => hopen (hstate hterminal)
  obtain ⟨o', ho', hpeer⟩ := table a x o hx hopen ho
  obtain ⟨q, hq, hworker, hboot⟩ := follows.peer hp
  rw [hticket]
  refine ⟨o', q, ho', by rwa [hpeer], ⟨?_, ?_⟩, ?_⟩
  · rw [hworker]
    exact hholds.1
  · rw [hboot]
    exact hholds.2
  · rw [hpeer]
    exact alive o.peer p q hp hq hcover

theorem keep (h : Covered lost c) (follows : c.Follows d) (table : d.attempts = c.attempts)
    (peers : d.peers = c.peers) : Covered lost d := by
  refine h.later follows (fun a x o _ _ ho => ⟨o, by rwa [table], rfl⟩) fun i p q hp hq hcover => ?_
  rw [peers] at hq
  obtain rfl := Option.some.inj (hp.symm.trans hq)
  exact hcover

theorem bereft (h : Covered (fun _ => False) c) (coherent : c.Coherent) {i : ℕ} {p : Peer}
    (peer : c.peers[i]? = some p) (dead : p.alive = false) : c.Bereft p := by
  intro a x hx hopen hholds
  obtain ⟨o, q, -, hq, hother, hcover⟩ := h a x hx hopen
  obtain rfl := coherent.distinct i o.peer p q peer hq
    (hholds.1.symm.trans hother.1) (hholds.2.symm.trans hother.2)
  obtain rfl := Option.some.inj (peer.symm.trans hq)
  rcases hcover with halive | hfalse
  · rw [dead] at halive
    cases halive
  · exact hfalse

end Covered

section Losing

theorem Covered.dropAttempt (h : Covered lost c) (sound : Sound c.scheduler.impl) {reason : Bytes}
    {a : DispatchAttemptId} (appended : (c.dropAttempt reason a).scheduler.refusedAppends = 0) :
    Covered lost (c.dropAttempt reason a) := by
  have hfollows := follows_dropAttempt sound reason a
  refine h.later hfollows (fun b x o hx hopen ho => ?_) fun i p q hp hq hcover => ?_
  · have hne : b ≠ a := by
      rintro rfl
      refine hopen (terminal_abandonAttempt ?_ hx)
      have hle := hfollows.scheduler.refused
      have hzero : (c.scheduler.call (.abandonAttempt b reason c.now)).2.refusedAppends = 0 :=
        appended
      omega
    exact ⟨o, (dropAttempt_spares reason hne).2.trans ho, rfl⟩
  · obtain rfl := Option.some.inj (hp.symm.trans hq)
    exact hcover

theorem Covered.dropAttempts {reason : Bytes} {ids : List DispatchAttemptId} (h : Covered lost c)
    (sound : Sound c.scheduler.impl)
    (appended : (c.dropAttempts reason ids).scheduler.refusedAppends = 0) :
    Covered lost (c.dropAttempts reason ids) := by
  induction ids generalizing c with
  | nil => exact h
  | cons a ids ih =>
    have hdrop := follows_dropAttempt sound reason a
    have hle := (follows_dropAttempts hdrop.scheduler.sound reason ids).scheduler.refused
    change ((c.dropAttempt reason a).dropAttempts reason ids).scheduler.refusedAppends = 0 at appended
    exact ih (h.dropAttempt sound (by omega)) hdrop.scheduler.sound appended

theorem dropAttempts_erased {reason : Bytes} {ids : List DispatchAttemptId} {a : DispatchAttemptId}
    (h : a ∈ ids) : (c.dropAttempts reason ids).attempts[a]? = none := by
  induction ids generalizing c with
  | nil => cases h
  | cons b ids ih =>
    change ((c.dropAttempt reason b).dropAttempts reason ids).attempts[a]? = none
    by_cases hmem : a ∈ ids
    · exact ih hmem
    · obtain rfl : a = b := (List.mem_cons.mp h).resolve_right hmem
      rw [(dropAttempts_spares reason hmem).2]
      exact get_erase.trans (if_pos rfl)

theorem retirePeer_peers (i : ℕ) (reason : Bytes) :
    (c.retirePeer i reason).peers =
      c.peers.modify i fun p => { p with alive := false } := by
  unfold retirePeer
  split
  · rename_i hlen
    exact (List.modify_eq_self hlen).symm
  · rw [resolveAmbiguousFlows_spares.2.2]
    have hdrop : ∀ (d : Coordinator) (a : DispatchAttemptId),
        (d.dropAttempt reason a).peers = d.peers := fun _ _ => rfl
    exact foldl_frame hdrop _ _

theorem Covered.retirePeer (h : Covered (fun _ => False) c) (sound : Sound c.scheduler.impl)
    {i : ℕ} {reason : Bytes} (appended : (c.retirePeer i reason).scheduler.refusedAppends = 0) :
    Covered (fun _ => False) (c.retirePeer i reason) := by
  revert appended
  unfold Coordinator.retirePeer
  split
  · exact fun _ => h
  · generalize hd : ({ c with peers := c.peers.modify i fun p => { p with alive := false } } :
      Coordinator) = d
    intro appended
    dsimp only at appended
    have hretire : c.Follows d := by
      rw [← hd]
      exact follows_retire sound i
    have hlost : Covered (· = i) d := by
      refine h.later hretire (fun a x o _ _ ho => ⟨o, ?_, rfl⟩) fun j p q hp hq hcover => ?_
      · rw [← hd]
        exact ho
      · rw [← hd] at hq
        dsimp only at hq
        rw [List.getElem?_modify, hp] at hq
        by_cases hj : i = j
        · exact .inr hj.symm
        · simp only [hj, if_false, Option.map_eq_map, Option.map_some] at hq
          obtain rfl := Option.some.inj hq
          exact .inl (hcover.resolve_right id)
    have hdrops := follows_dropAttempts hretire.scheduler.sound reason (d.attemptsOf i)
    have hresolve := follows_resolveAmbiguousFlows hdrops.scheduler.sound
    have hle := hresolve.scheduler.refused
    have hdropped : Covered (· = i) (d.dropAttempts reason (d.attemptsOf i)) :=
      hlost.dropAttempts hretire.scheduler.sound (by omega)
    obtain ⟨-, htable, hpeers⟩ := resolveAmbiguousFlows_spares
      (c := d.dropAttempts reason (d.attemptsOf i))
    refine Covered.keep (fun a x hx hopen => ?_) hresolve htable hpeers
    obtain ⟨o, p, ho, hp, hholds, hcover⟩ := hdropped a x hx hopen
    refine ⟨o, p, ho, hp, hholds, .inl (hcover.resolve_right fun hpeer => ?_)⟩
    -- An entry filed under the lost worker would have been dropped.
    obtain ⟨o', ho', hsame, -⟩ := hdrops.table a o ho
    have hmem : a ∈ d.attemptsOf i := mem_attemptsOf.mpr ⟨o', ho', hsame.symm.trans hpeer⟩
    rw [dropAttempts_erased hmem] at ho
    cases ho

end Losing

/-- No append was refused, and there is another attempt identity to hand out. -/
def Fit (s : Scheduler) : Prop := s.refusedAppends = 0 ∧ s.impl.nextAttempt.value ≠ u64Max

theorem Fit.before {s t : Scheduler} (h : Fit t) (grows : s.Grows t) : Fit s := by
  constructor
  · have hle := grows.refused
    have hzero := h.1
    omega
  · intro hmax
    have hle := UInt64.le_iff_toNat_le.mp grows.next
    rw [hmax] at hle
    refine h.2 (UInt64.toNat_inj.mp ?_)
    have hlt := t.impl.nextAttempt.value.toNat_lt
    have hbound : u64Max.toNat = 2 ^ 64 - 1 := rfl
    omega

section Frames

variable (h : Covered (fun _ => False) c) (sound : Sound c.scheduler.impl)

include h sound

theorem covered_maybeFinishAfterCompletion
    (appended : c.maybeFinishAfterCompletion.scheduler.refusedAppends = 0) :
    Covered (fun _ => False) c.maybeFinishAfterCompletion := by
  revert appended
  unfold maybeFinishAfterCompletion
  split
  · exact fun _ => h
  · split
    · have hkilled : Covered (fun _ => False) { c with workerKilled := true } := h
      exact fun appended => hkilled.retirePeer sound appended
    · exact fun _ => h

theorem covered_handleStarted (m : StartedMessage) :
    Covered (fun _ => False) (c.handleStarted m) := by
  have hlater := follows_handleStarted sound m
  refine h.later hlater (fun a x o hx hopen ho => ?_) fun i p q hp hq hcover => ?_
  · unfold handleStarted
    split
    · exact ⟨o, ho, rfl⟩
    · rename_i found hfound
      split
      · exact ⟨o, ho, rfl⟩
      · split
        · dsimp only
          rw [get_insert]
          split
          · rename_i ha
            rw [ha] at ho
            obtain rfl := Option.some.inj (hfound.symm.trans ho)
            exact ⟨_, rfl, rfl⟩
          · exact ⟨o, ho, rfl⟩
        · exact ⟨o, ho, rfl⟩
  · have hpeers : (c.handleStarted m).peers = c.peers := by
      unfold handleStarted
      split
      · rfl
      · split
        · rfl
        · split <;> rfl
    rw [hpeers] at hq
    obtain rfl := Option.some.inj (hp.symm.trans hq)
    exact hcover

theorem covered_handleCompletion (m : CompletionMessage)
    (appended : (c.handleCompletion m).scheduler.refusedAppends = 0) :
    Covered (fun _ => False) (c.handleCompletion m) := by
  have hcall : c.scheduler.Follows (c.scheduler.call (.complete m.evidence c.now)).2 :=
    .call sound Bool.false_ne_true
  revert appended
  unfold handleCompletion
  split
  all_goals
    rename_i t ht
    rw [ht] at hcall
    intro appended
  · exact h.keep { Follows.refl sound with scheduler := hcall } rfl rfl
  · split at appended
    · rename_i happlied
      rw [if_pos happlied]
      refine covered_maybeFinishAfterCompletion ?_ hcall.sound appended
      refine h.later ((follows_erase sound hcall m.evidence.attempt).congr rfl rfl rfl rfl)
        (fun a x o hx hopen ho => ⟨o, ?_, rfl⟩) fun i p q hp hq hcover => ?_
      · have hne : a ≠ m.evidence.attempt := by
          rintro rfl
          exact hopen ((commit_of_applied ht happlied).2 _ hx)
        exact get_erase.trans ((if_neg hne).trans ho)
      · obtain rfl := Option.some.inj (hp.symm.trans hq)
        exact hcover
    · rename_i happlied
      rw [if_neg happlied]
      exact h.keep { Follows.refl sound with scheduler := hcall } rfl rfl
  · exact h.keep { Follows.refl sound with scheduler := hcall } rfl rfl

theorem covered_handleFrame (i : ℕ) (type : UInt16) (payload : Bytes)
    (appended : (c.handleFrame i type payload).scheduler.refusedAppends = 0) :
    Covered (fun _ => False) (c.handleFrame i type payload) := by
  revert appended
  unfold handleFrame
  split
  · split
    · exact fun _ => covered_handleStarted h sound _
    · exact fun _ => h
  · split
    · split
      · exact covered_handleCompletion h sound _
      · exact fun _ => h
    · split
      · split
        · unfold handleDispatchRejected
          split
          · exact fun _ => h
          · exact fun appended => h.dropAttempt sound appended
        · exact fun _ => h
      · split
        · exact fun appended => h.retirePeer sound appended
        · exact fun appended => h.retirePeer sound appended

theorem covered_receive (i : ℕ) (what : Received)
    (appended : (c.receive i what).scheduler.refusedAppends = 0) :
    Covered (fun _ => False) (c.receive i what) := by
  revert appended
  unfold receive
  split
  · cases what with
    | frame type payload => exact covered_handleFrame h sound i type payload
    | closed => exact fun appended => h.retirePeer sound appended
    | failed detail => exact fun appended => h.retirePeer sound appended
  · exact fun _ => h

end Frames

section Dispatch

variable {schedule : Schedule} {delivered : DispatchMessage → Bool} {entry : ScheduleEntry}
  {index : ℕ} {p : Peer}

theorem grows_dispatchEntry (h : c.Coherent) :
    c.scheduler.Grows (c.dispatchEntry schedule delivered entry index p).scheduler := by
  have hcall := Scheduler.Grows.call h.sound (.beginDispatch schedule.schedule schedule.generation
    entry.ordinal p.worker p.boot c.now)
  have hsound := sound_call h.sound (.beginDispatch schedule.schedule schedule.generation
    entry.ordinal p.worker p.boot c.now)
  unfold Coordinator.dispatchEntry
  dsimp only
  split
  all_goals
    rename_i t ht
    rw [ht] at hcall hsound
  · split
    · exact hcall
    · exact hcall.trans (follows_retirePeer (c := { c with
        scheduler := t, attempts := _, roundRobin := _ }) hsound _ _).scheduler.toGrows
  · exact hcall

theorem grows_dispatchSchedule (entries : List ScheduleEntry) (h : c.Coherent) :
    c.scheduler.Grows (dispatchSchedule schedule delivered entries c).scheduler := by
  induction entries generalizing c with
  | nil => exact .refl
  | cons entry rest ih =>
    unfold dispatchSchedule
    split
    · exact ih h
    · split
      · exact .refl
      · split
        · exact .refl
        · rename_i hpeer
          exact (grows_dispatchEntry h).trans (ih (h.dispatchEntry hpeer))

/-- A dispatch is covered, or the worker it could not be delivered to is lost. -/
theorem Covered.dispatchEntry (h : Covered (fun _ => False) c) (coherent : c.Coherent)
    (peer : c.peers[index]? = some p) (alive : p.alive)
    (fit : Fit (c.dispatchEntry schedule delivered entry index p).scheduler) :
    Covered (fun _ => False) (c.dispatchEntry schedule delivered entry index p) := by
  have hsound := sound_call coherent.sound (.beginDispatch schedule.schedule schedule.generation
    entry.ordinal p.worker p.boot c.now)
  revert fit
  unfold Coordinator.dispatchEntry
  dsimp only
  cases hcall : c.scheduler.call (.beginDispatch schedule.schedule schedule.generation
      entry.ordinal p.worker p.boot c.now) with
  | mk result t =>
    rw [hcall] at hsound
    rcases attempts_beginDispatch hcall with ⟨ticket, x, rfl, hfresh, hw, hb, hadvance, hx, hattempts⟩ |
        ⟨e, rfl, hnext, hattempts⟩
    · intro fit
      have hfiled : Covered (fun _ => False) { c with
          scheduler := t, attempts := c.attempts.insert ticket.attempt { peer := index, ticket }
          roundRobin := (index + 1) % c.peers.length } := by
        intro a y hy hopen
        dsimp only at hy ⊢
        rw [hattempts] at hy
        rw [get_insert]
        split at hy
        · rename_i ha
          cases hy
          rw [if_pos ha, hx]
          exact ⟨_, p, rfl, peer, ⟨hw, hb⟩, .inl alive⟩
        · rename_i ha
          rw [if_neg ha]
          exact h a y hy hopen
      dsimp only at fit ⊢
      split at fit
      · rename_i hsent
        rw [if_pos hsent]
        exact hfiled
      · rename_i hsent
        rw [if_neg hsent]
        exact hfiled.retirePeer hsound fit.1
    · rintro ⟨-, hroom⟩
      dsimp only at hroom
      rw [hnext] at hroom
      have hsame := hattempts.resolve_right fun hlast => hroom hlast.1
      intro a y hy hopen
      exact h a y ((hsame a).symm.trans hy) hopen

theorem alive_of_pickWorker (picked : c.pickWorker = some index) (peer : c.peers[index]? = some p) :
    p.alive := by
  have halive := List.find?_some picked
  rw [peer] at halive
  exact halive

theorem Covered.dispatchSchedule (entries : List ScheduleEntry) (h : Covered (fun _ => False) c)
    (coherent : c.Coherent)
    (fit : Fit (Coordinator.dispatchSchedule schedule delivered entries c).scheduler) :
    Covered (fun _ => False) (Coordinator.dispatchSchedule schedule delivered entries c) := by
  induction entries generalizing c with
  | nil => exact h
  | cons entry rest ih =>
    revert fit
    unfold Coordinator.dispatchSchedule
    split
    · exact ih h coherent
    · split
      · exact fun _ => h
      · rename_i index hpicked
        split
        · exact fun _ => h
        · rename_i p hpeer
          intro fit
          have hcoherent : (c.dispatchEntry schedule delivered entry index p).Coherent :=
            coherent.dispatchEntry hpeer
          refine ih (h.dispatchEntry coherent hpeer (alive_of_pickWorker hpicked hpeer) ?_)
            hcoherent fit
          exact fit.before (grows_dispatchSchedule rest hcoherent)

theorem Covered.round (h : Covered (fun _ => False) c) (coherent : c.Coherent)
    (fit : Fit (c.round delivered).scheduler) : Covered (fun _ => False) (c.round delivered) := by
  have hcall : c.scheduler.Follows (c.scheduler.call (.arbitrate c.now)).2 :=
    .call coherent.sound Bool.false_ne_true
  revert fit
  unfold Coordinator.round
  split
  · exact fun _ => h
  · split
    all_goals
      rename_i t ht
      rw [ht] at hcall
      intro fit
    · have hlater : c.Follows { c with scheduler := t, roundsRun := c.roundsRun + 1 } :=
        { Follows.refl coherent.sound with scheduler := hcall }
      exact Covered.dispatchSchedule _ (h.keep hlater rfl rfl) (coherent.follows hlater) fit
    · exact h.keep { Follows.refl coherent.sound with scheduler := hcall } rfl rfl

theorem Covered.step (h : Covered (fun _ => False) c) (coherent : c.Coherent) {e : Event}
    (fit : Fit (c.step e).scheduler) : Covered (fun _ => False) (c.step e) := by
  revert fit
  unfold Coordinator.step
  split
  · exact fun _ => h
  · cases e with
    | round delivered => exact h.round coherent
    | received i what => exact fun fit => covered_receive h coherent.sound i what fit.1
    | tick => exact fun _ => h

theorem grows_step (coherent : c.Coherent) (e : Event) :
    c.scheduler.Grows (c.step e).scheduler := by
  unfold step
  split
  · exact .refl
  · cases e with
    | round delivered =>
      have hcall : c.scheduler.Follows (c.scheduler.call (.arbitrate c.now)).2 :=
        .call coherent.sound Bool.false_ne_true
      dsimp only
      unfold round
      split
      · exact .refl
      · split
        all_goals
          rename_i t ht
          rw [ht] at hcall
        · have hlater : c.Follows { c with scheduler := t, roundsRun := c.roundsRun + 1 } :=
            { Follows.refl coherent.sound with scheduler := hcall }
          exact hcall.toGrows.trans (grows_dispatchSchedule _ (coherent.follows hlater))
        · exact hcall.toGrows
    | received i what => exact (follows_receive coherent.sound i what).scheduler.toGrows
    | tick => exact .refl

theorem Reached.covered (h : c.Reached) (fit : Fit c.scheduler) : Covered (fun _ => False) c := by
  induction h with
  | opened opened greeted =>
    obtain ⟨hidle, hfresh⟩ := idle_openScheduler opened
    obtain ⟨-, hidle⟩ := coherent_handshake hidle hfresh greeted
    intro a x hx
    simp [hidle.attempts] at hx
  | stepped h e ih =>
    exact (ih (fit.before (grows_step h.coherent e))).step h.coherent fit
  | faulty _ io ih => exact ih fit

end Dispatch

/-- In every state a coordinator can be in, as long as no append was refused and there is another
attempt identity to hand out: every open attempt is in the table under the worker its ticket names,
no open attempt names a worker that was lost, and none names a worker that is declared lost now. -/
theorem open_attempts_covered (reached : c.Reached) (appended : c.scheduler.refusedAppends = 0)
    (room : c.scheduler.impl.nextAttempt.value ≠ u64Max) :
    (∀ (a : DispatchAttemptId) (x : AttemptRuntime), c.scheduler.impl.attempts[a]? = some x →
      ¬ x.state.isTerminal →
        ∃ o p, c.attempts[a]? = some o ∧ c.peers[o.peer]? = some p ∧ p.Holds x.ticket) ∧
    (∀ p ∈ c.peers, p.alive = false → c.Bereft p) ∧
    ∀ (i : ℕ) (p : Peer) (reason : Bytes), c.peers[i]? = some p →
      (c.retirePeer i reason).scheduler.refusedAppends = 0 → (c.retirePeer i reason).Bereft p := by
  have hcovered := reached.covered ⟨appended, room⟩
  have hcoherent := reached.coherent
  refine ⟨fun a x hx hopen => ?_, fun p hp hdead => ?_, fun i p reason hp happended => ?_⟩
  · obtain ⟨o, p, ho, hp, hholds, -⟩ := hcovered a x hx hopen
    exact ⟨o, p, ho, hp, hholds⟩
  · obtain ⟨i, hi⟩ := List.mem_iff_getElem?.mp hp
    exact hcovered.bereft hcoherent hi hdead
  · have hfollows := follows_retirePeer hcoherent.sound i reason
    have hdead : (c.retirePeer i reason).peers[i]? = some { p with alive := false } := by
      rw [retirePeer_peers, List.getElem?_modify, hp]
      simp
    have hbereft := (hcovered.retirePeer hcoherent.sound happended).bereft
      (hcoherent.follows hfollows) hdead
    exact hbereft rfl

end Coordinator

namespace Sample

open Coordinator

set_option maxRecDepth 100000 in
/-- The first worker is lost with the attempt it was given. -/
theorem open_attempts_covered_lost : ∃ (c : Coordinator) (p : Peer), c.Reached ∧
    c.peers[0]? = some p ∧ c.scheduler.impl.openAttemptIds = [⟨1⟩] ∧
    (c.retirePeer 0 []).Bereft p := by
  obtain ⟨c, reached, p, hp, happended, hroom, hretired, hopen⟩ : ∃ c : Coordinator, c.Reached ∧
      ∃ p ∈ c.peers[0]?, c.scheduler.refusedAppends = 0 ∧
        c.scheduler.impl.nextAttempt.value ≠ u64Max ∧
        (c.retirePeer 0 []).scheduler.refusedAppends = 0 ∧
        c.scheduler.impl.openAttemptIds = [⟨1⟩] :=
    @exists_reached pair {} [hello 1, hello 2] [.round fun _ => true] _ (by decide +kernel)
  exact ⟨c, p, reached, hp, hopen,
    (open_attempts_covered reached happended hroom).2.2 0 p [] hp hretired⟩

set_option maxRecDepth 100000 in
/-- The last attempt is open, not in the table, and stays open when its worker is lost. -/
theorem not_open_attempts_covered : ∃ (c : Coordinator) (p : Peer), c.Reached ∧
    c.peers[0]? = some p ∧ (c.retirePeer 0 []).scheduler.refusedAppends = 0 ∧
    (∃ x ∈ c.scheduler.impl.attempts[(⟨u64Max⟩ : DispatchAttemptId)]?, ¬ x.state.isTerminal ∧
      c.attempts[(⟨u64Max⟩ : DispatchAttemptId)]? = none) ∧ ¬ (c.retirePeer 0 []).Bereft p := by
  obtain ⟨c, reached, p, hp, hretired, hopen, x, hx, hlive, hholds⟩ : ∃ c : Coordinator, c.Reached ∧
      ∃ p ∈ c.peers[0]?, (c.retirePeer 0 []).scheduler.refusedAppends = 0 ∧
        (∃ x ∈ c.scheduler.impl.attempts[(⟨u64Max⟩ : DispatchAttemptId)]?, ¬ x.state.isTerminal ∧
          c.attempts[(⟨u64Max⟩ : DispatchAttemptId)]? = none) ∧
        ∃ x ∈ (c.retirePeer 0 []).scheduler.impl.attempts[(⟨u64Max⟩ : DispatchAttemptId)]?,
          ¬ x.state.isTerminal ∧ p.Holds x.ticket :=
    @exists_reached { pair with state := "state" } (lastAttempt pair.makePolicy) [hello 1, hello 2]
      [.round fun _ => true] _ (by decide +kernel)
  exact ⟨c, p, reached, hp, hretired, hopen, fun hbereft => hbereft _ x hx hlive hholds⟩

end Sample

end FlowScheduler

import FlowScheduler.Authority.Refused
import FlowScheduler.Authority.Staleness
import FlowScheduler.Coordinator.Tables
import FlowScheduler.Recovery.Twins

/-! # What survives a restart

Whoever opens a directory again finds every registered definition and every flow
with its progress, and an epoch nobody has used before. Attempts are numbered
from the image on, so their numbers repeat; together with the epoch they do not.
-/

namespace FlowScheduler

open ByteCodec (Bytes)
open Failing SchedOp OrderedMap DurableStore

/-- The progress of a flow, as far as the journal is responsible for it. -/
structure Standing where
  descriptor : FlowDescriptor
  servedWork : UInt64
  serviceCredit : UInt64
  completionsCommitted : UInt64

def LedgerFlow.standing (r : LedgerFlow) : Standing where
  descriptor := r.descriptor
  servedWork := r.servedWork
  serviceCredit := r.serviceCredit
  completionsCommitted := r.completionsCommitted

/-- The progress of the flows, and the attempts that are on record. -/
@[ext]
structure Standings where
  flows : FlowId → Option Standing
  knows : DispatchAttemptId → Bool

namespace Standings

variable {x y : Standings} {r : Record}

def modify (x : Standings) (id : FlowId) (f : Standing → Option Standing) : Standings :=
  { x with flows := Function.update x.flows id ((x.flows id).bind f) }

theorem modify_eq_self {id : FlowId} {f : Standing → Option Standing}
    (h : ∀ y, x.flows id = some y → f y = some y) : x.modify id f = x := by
  refine Standings.ext (Function.update_eq_self_iff.mpr ?_) rfl
  cases hx : x.flows id with
  | none => rfl
  | some y => exact h y hx

def apply (x : Standings) : Record → Standings
  | .flowAdmitted d => { x with flows := Function.update x.flows d.flow (some ⟨d, 0, 0, 0⟩) }
  | .flowUpdated d => x.modify d.flow fun y => some { y with descriptor := d }
  | .flowReadinessChanged flow generation signal _ =>
    x.modify flow fun y => if y.descriptor.generation = generation then
      some { y with descriptor.readinessSignal := signal.code } else some y
  | .flowRetired flow generation =>
    x.modify flow fun y => if y.descriptor.generation = generation then none else some y
  | .attemptOpened ticket _ _ => { x with knows := Function.update x.knows ticket.attempt true }
  | .completionCommitted e credited _ _ =>
    if x.knows e.attempt then x.modify e.flow fun y =>
      some { y with
        servedWork := saturatingAdd y.servedWork credited
        serviceCredit := saturatingAdd y.serviceCredit credited
        completionsCommitted := y.completionsCommitted + 1 }
    else x
  | .epochAdvanced _ _ _ _ => { x with knows := fun _ => false }
  | _ => x

/-- A record means the same to two standings of the same flows, if the attempt it completes is on
record in both. -/
theorem flows_apply (h : y.flows = x.flows) (known : ∀ e credited lifecycle tick,
    r = .completionCommitted e credited lifecycle tick → x.knows e.attempt ∧ y.knows e.attempt) :
    (y.apply r).flows = (x.apply r).flows := by
  cases r with
  | completionCommitted e credited lifecycle tick =>
    obtain ⟨hx, hy⟩ := known e credited lifecycle tick rfl
    simp only [apply, hx, hy, if_true, modify, h]
  | _ => simp only [apply, modify, h]

theorem knows_apply (h : ∀ a, x.knows a → y.knows a) (a : DispatchAttemptId)
    (known : (x.apply r).knows a) : (y.apply r).knows a := by
  cases r with
  | attemptOpened ticket =>
    simp only [apply, Function.update_apply] at known ⊢
    split at known
    · rename_i ha
      rw [if_pos ha]
    · rename_i ha
      rw [if_neg ha]
      exact h a known
  | completionCommitted e credited lifecycle tick =>
    have hsame : ∀ x : Standings,
        (x.apply (.completionCommitted e credited lifecycle tick)).knows = x.knows := by
      intro x
      simp only [apply]
      split <;> rfl
    rw [hsame] at known ⊢
    exact h a known
  | epochAdvanced => cases known
  | _ => exact h a known

end Standings

namespace Ledger

variable {l m : Ledger} {id : FlowId} {a : DispatchAttemptId}

def standings (l : Ledger) : Standings where
  flows id := (l.flows id).map LedgerFlow.standing
  knows a := (l.attempts a).isSome

theorem standings_modifyFlow {g : LedgerFlow → LedgerFlow} {f : Standing → Option Standing}
    (h : ∀ r, l.flows id = some r → f r.standing = some (g r).standing) :
    (l.modifyFlow id g).standings = l.standings.modify id f := by
  refine Standings.ext (funext fun k => ?_) rfl
  simp only [standings, modifyFlow, Standings.modify, Function.update_apply]
  split
  · cases hr : l.flows id with
    | none => rfl
    | some r => exact (h r hr).symm
  · rfl

theorem standings_keepFlow {g : LedgerFlow → LedgerFlow} {x : Standings}
    (h : ∀ r, (g r).standing = r.standing) (same : l.standings = x) :
    (l.modifyFlow id g).standings = x := by
  rw [standings_modifyFlow (f := some) fun r _ => congrArg some (h r).symm, same]
  exact Standings.modify_eq_self fun _ _ => rfl

theorem standings_retouch {x y : LedgerAttempt} (found : l.attempts a = some x) :
    ({ l with attempts := Function.update l.attempts a (some y) } : Ledger).standings =
      l.standings := by
  refine Standings.ext rfl (funext fun b => ?_)
  simp only [standings, Function.update_apply]
  split
  · rename_i hb
    rw [hb, found]
    rfl
  · rfl

theorem standings_runEntry (e : ScheduleEntry) : (l.runEntry e).standings = l.standings := by
  unfold runEntry
  split
  · rfl
  · split
    · rfl
    · split
      · rfl
      · dsimp only
        split <;> exact standings_keepFlow (fun _ => rfl) rfl

theorem standings_issue (schedule : Schedule) : (l.issue schedule).standings = l.standings := by
  refine OrderedMap.foldl_frame (fun l e => ?_) _ l
  split
  · rfl
  · exact standings_runEntry e

theorem standings_closeAttempt (attempt : DispatchAttemptId) (state : AttemptState) :
    (l.closeAttempt attempt state).standings = l.standings := by
  unfold closeAttempt
  split
  · rfl
  · rename_i record hrecord
    split
    · rfl
    · dsimp only
      split
      · exact standings_retouch hrecord
      · split
        · exact standings_retouch hrecord
        · exact standings_keepFlow (fun _ => rfl) (standings_retouch hrecord)

theorem standings_advanceEpoch (next : FabricEpoch) :
    (l.advanceEpoch next).standings = { l.standings with knows := fun _ => false } := by
  refine Standings.ext (funext fun k => ?_) rfl
  simp only [advanceEpoch, standings]
  cases l.flows k with
  | none => rfl
  | some r =>
    simp only [Option.map_some]
    split <;> rfl

theorem standings_current {generation : Generation} {f : Standing → Option Standing} {l' : Ledger}
    (found : ∀ r, l.flows id = some r → r.descriptor.generation = generation →
      l'.standings = l.standings.modify id f)
    (other : ∀ y : Standing, y.descriptor.generation ≠ generation → f y = some y) :
    (match l.current id generation with | none => l | some _ => l').standings =
      l.standings.modify id f := by
  cases hc : l.current id generation with
  | none =>
    refine (Standings.modify_eq_self fun y hy => other y fun hg => ?_).symm
    obtain ⟨r, hr, rfl⟩ := Option.map_eq_some_iff.mp hy
    have hsome : l.current id generation = some r := by
      simp only [current, hr, Option.filter_some, beq_iff_eq]
      exact if_pos hg
    rw [hc] at hsome
    cases hsome
  | some r =>
    obtain ⟨hr, hg⟩ := Option.filter_eq_some_iff.mp hc
    exact found r hr (beq_iff_eq.mp hg)

theorem standings_apply (r : Record) : (l.apply r).standings = l.standings.apply r := by
  cases r with
  | policyInstalled | resourceRegistered | priorityClassRegistered | qosClassRegistered
  | scheduleReleased | reservationRegistered | reservationRetired => rfl
  | epochAdvanced => exact standings_advanceEpoch _
  | scheduleIssued => exact standings_issue _
  | attemptClosed => exact standings_closeAttempt _ _
  | flowAdmitted d =>
    refine Standings.ext (funext fun k => ?_) rfl
    simp only [apply, admitFlow, standings, Standings.apply, Function.update_apply]
    split <;> rfl
  | flowUpdated d => exact standings_modifyFlow fun _ _ => rfl
  | flowReadinessChanged flow generation signal =>
    refine standings_current (fun r hr hg => ?_) fun y hy => if_neg hy
    refine standings_modifyFlow fun r' hr' => ?_
    obtain rfl := Option.some.inj (hr.symm.trans hr')
    exact if_pos hg
  | flowCancelled flow generation =>
    simp only [apply, cancel, Standings.apply]
    split
    · rfl
    · refine standings_keepFlow (fun _ => rfl) ?_
      split
      · exact standings_closeAttempt _ _
      · rfl
  | flowRetired flow generation =>
    refine standings_current (fun r hr hg => ?_) fun y hy => if_neg hy
    refine Standings.ext (funext fun k => ?_) rfl
    simp only [standings, Standings.modify, Function.update_apply, hr]
    split
    · exact (if_pos hg).symm
    · rfl
  | attemptOpened ticket =>
    have hopened : ({ l with
        attempts := Function.update l.attempts ticket.attempt (some { ticket }) } : Ledger).standings =
          l.standings.apply (.attemptOpened ticket 0 0) := by
      refine Standings.ext rfl (funext fun b => ?_)
      simp only [standings, Standings.apply, Function.update_apply]
      split <;> rfl
    simp only [apply, openAttempt]
    split
    · exact hopened
    · exact standings_keepFlow (fun _ => rfl) hopened
  | attemptStarted attempt =>
    simp only [apply, startAttempt, Standings.apply]
    split
    · rfl
    · rename_i record hrecord
      split
      · rfl
      · split
        · exact standings_retouch hrecord
        · split
          · exact standings_retouch hrecord
          · exact standings_keepFlow (fun _ => rfl) (standings_retouch hrecord)
  | completionCommitted e credited lifecycle =>
    simp only [apply, complete, Standings.apply]
    split
    · rename_i hx
      rw [if_neg (by simp [standings, hx])]
    · rename_i x hx
      rw [if_pos (by simp [standings, hx])]
      split
      · rename_i hr
        rw [standings_retouch hx]
        refine (Standings.modify_eq_self fun y hy => ?_).symm
        simp only [standings, hr] at hy
        cases hy
      · rw [← standings_retouch (y := { x with state := .committed }) hx]
        exact standings_modifyFlow fun _ _ => rfl
  | ambiguityResolved flow generation resolution =>
    simp only [apply, resolve, Standings.apply]
    split
    · rfl
    · split
      · rfl
      · exact standings_keepFlow (fun _ => rfl) rfl

/-- What would be recovered has the registrations of the memory, the policy apart, and its standings,
and knows every attempt the memory knows. -/
structure Twin (l m : Ledger) : Prop where
  registry : m.registry = { l.registry with policy := m.policy }
  flows : m.standings.flows = l.standings.flows
  knows : ∀ a, l.standings.knows a → m.standings.knows a

theorem Twin.apply (h : Twin l m) {r : Record}
    (known : ∀ e credited lifecycle tick, r = .completionCommitted e credited lifecycle tick →
      l.standings.knows e.attempt) : Twin (l.apply r) (m.apply r) where
  registry := by
    have hpolicy : (m.apply r).policy = (m.registry.apply r).policy :=
      congrArg Registry.policy (registry_apply r)
    rw [registry_apply, registry_apply, hpolicy, h.registry]
    cases r <;> rfl
  flows := by
    rw [standings_apply, standings_apply]
    refine Standings.flows_apply h.flows fun e credited lifecycle tick hr => ?_
    have hknown := known e credited lifecycle tick hr
    exact ⟨hknown, h.knows _ hknown⟩
  knows a ha := by
    rw [standings_apply] at ha ⊢
    exact Standings.knows_apply h.knows a ha

end Ledger

section Twins

variable {s i : Impl} {r : Record}

theorem standings_applySchedule (schedule : Schedule) :
    (s.applySchedule schedule).ledger.standings = s.ledger.standings := by
  refine foldl_keeps (P := fun t : Impl => t.ledger.standings = s.ledger.standings)
    (fun t e ht => ?_) _ rfl
  split
  · exact ht
  · rcases ledger_applyRunEntry_or (s := t) schedule e with hledger | hledger <;> rw [hledger]
    · exact ht
    · exact (Ledger.standings_runEntry e).trans ht

/-- A replayed record means to what is recovered what it meant to the memory. -/
theorem Ledger.Twin.replay {l : Ledger} {m m' : Impl} (h : l.Twin m.ledger)
    (known : ∀ e credited lifecycle tick, r = .completionCommitted e credited lifecycle tick →
      l.standings.knows e.attempt) (replayed : r.replay m = .ok m') : (l.apply r).Twin m'.ledger := by
  rcases ledger_replay replayed with hledger | ⟨schedule, rfl⟩
  · rw [hledger]
    exact h.apply known
  · cases replayed
    obtain ⟨hregistry, -⟩ := registered_applySchedule (s := m) schedule
    have hpolicy : (m.applySchedule schedule).ledger.policy = m.ledger.policy :=
      congrArg Registry.policy hregistry
    have hstandings : (l.apply (.scheduleIssued schedule)).standings = l.standings :=
      standings_issue schedule
    refine ⟨?_, ?_, ?_⟩
    · rw [hregistry, h.registry, hpolicy]
      exact congrArg (fun x : Registry => { x with policy := m.ledger.policy })
        (registry_issue schedule).symm
    · rw [standings_applySchedule, hstandings]
      exact h.flows
    · rw [standings_applySchedule, hstandings]
      exact h.knows

theorem Ledger.Twin.quiet {l l' m : Ledger} (h : l.Twin m) (quiet : l.Quiet l') : l'.Twin m := by
  refine ⟨by rw [quiet.registry]; exact h.registry, ?_, fun a ha => h.knows a ?_⟩
  · rw [h.flows]
    cases quiet with
    | same | forget => rfl
    | @fail id =>
      have hsame : (l.setPhase id .failed).standings = l.standings :=
        Ledger.standings_keepFlow (fun _ => rfl) rfl
      rw [hsame]
  · obtain ⟨x, hx⟩ := Option.isSome_iff_exists.mp ha
    exact Option.isSome_iff_exists.mpr ⟨x, quiet.attempts hx⟩

theorem Ledger.Twin.image {l : Impl} (images : l.Images i) : l.ledger.Twin i.ledger where
  registry := by
    simp only [Ledger.registry, Impl.ledger, images.epoch, images.resources, images.reservations,
      images.priorityClasses, images.qosClasses]
  flows := by
    funext id
    simp only [Ledger.standings, Impl.ledger, images.flows, Std.ExtTreeMap.getElem?_map,
      Option.map_map]
    rfl
  knows a ha := by
    simp only [Ledger.standings, Impl.ledger, images.attempts, Std.ExtTreeMap.getElem?_map,
      Option.isSome_map] at ha ⊢
    exact ha

theorem Ledger.Twin.restart {l m m' : Ledger} (h : l.Twin m) (h' : l.Twin m') (next : FabricEpoch) :
    (m.advanceEpoch next).Twin (m'.advanceEpoch next) where
  registry := by
    have hpolicy : (m'.advanceEpoch next).policy = m'.policy := rfl
    have hboth : ∀ x : Ledger, (x.advanceEpoch next).registry = { x.registry with epoch := next } :=
      fun _ => rfl
    rw [hboth, hboth, hpolicy, h.registry, h'.registry]
  flows := by
    rw [Ledger.standings_advanceEpoch, Ledger.standings_advanceEpoch]
    exact h'.flows.trans h.flows.symm
  knows a ha := by cases ha

end Twins

section History

variable {c : Call} {u i : Impl} {r : Option Record}

def Record.established : Record → Option FabricEpoch
  | .epochAdvanced _ next _ _ => some next
  | _ => none

def Record.issued : Record → Option DispatchTicket
  | .attemptOpened ticket _ _ => some ticket
  | _ => none

def Record.scheduled : Record → Option Schedule
  | .scheduleIssued schedule => some schedule
  | _ => none

def Record.committed : Record → Option CompletionEvidence
  | .completionCommitted e _ _ _ => some e
  | _ => none

def DispatchTicket.key (t : DispatchTicket) : FabricEpoch × DispatchAttemptId := (t.epoch, t.attempt)

def Schedule.key (s : Schedule) : FabricEpoch × ScheduleId := (s.epoch, s.schedule)

def CompletionEvidence.key (e : CompletionEvidence) : FabricEpoch × DispatchAttemptId :=
  (e.epoch, e.attempt)

theorem epoch_applyEpochAdvance (s : Impl) (next : FabricEpoch) (now : Ticks) :
    (s.applyEpochAdvance next now).epoch = next :=
  congrArg Ledger.epoch (Impl.ledger_applyEpochAdvance (s := s) next now)

theorem Move.established (move : Move c u r i) :
    (r.bind Record.established = none ∧ i.epoch = u.epoch) ∨
      ∃ next, r.bind Record.established = some next ∧ u.epoch.advance = .ok next ∧
        i.epoch = next := by
  have hepoch : r.bind Record.established = none → i.epoch = u.epoch := by
    intro hnone
    rcases move.registry with hsame | ⟨record, rfl, happly⟩
    · exact congrArg Registry.epoch hsame
    · have hepoch : i.epoch = (u.ledger.registry.apply record).epoch :=
        congrArg Registry.epoch happly
      rw [hepoch]
      cases record with
      | epochAdvanced => cases hnone
      | _ => rfl
  rcases move with move | ⟨now, -, move⟩
  · cases move with
    | advanceEpoch advanced =>
      exact .inr ⟨_, rfl, advanced, epoch_applyEpochAdvance _ _ _⟩
    | common move => cases move <;> exact .inl ⟨rfl, hepoch rfl⟩
    | _ => exact .inl ⟨rfl, hepoch rfl⟩
  · cases move with
    | common move => cases move <;> exact .inl ⟨rfl, hepoch rfl⟩
    | _ => exact .inl ⟨rfl, hepoch rfl⟩

def Impl.Issued (s : Impl) (a : DispatchAttemptId) : Prop := a.value < s.nextAttempt.value

/-- A ticket is issued under the epoch and the counter of the moment, and uses the number up. -/
theorem Move.issued (move : Move c u r i) {ticket : DispatchTicket}
    (h : r.bind Record.issued = some ticket) : ticket.epoch = u.epoch ∧
      ticket.attempt = u.nextAttempt ∧ (ticket.attempt.value ≠ u64Max → i.Issued ticket.attempt) := by
  rcases move with move | ⟨now, -, move⟩
  · cases move with
    | common move => cases move <;> cases h
    | dispatch =>
      cases h
      refine ⟨rfl, rfl, fun hmax => ?_⟩
      have hadvance : u.nextAttempt.advance = .ok ⟨u.nextAttempt.value + 1⟩ :=
        Id.advance_eq_ok.mpr ⟨hmax, rfl⟩
      simp only [Impl.Issued, Impl.advanceAttempt, nextAttempt_dispatch, hadvance]
      exact Id.lt_of_advance hadvance
    | _ => cases h
  · cases move with
    | common move => cases move <;> cases h
    | _ => cases h

/-- Evidence is committed under the epoch of the moment, for an attempt that is open until then. -/
theorem Move.committed (move : Move c u r i) {e : CompletionEvidence}
    (h : r.bind Record.committed = some e) : e.epoch = u.epoch ∧
      (∃ x, u.attempts[e.attempt]? = some x ∧ ¬ x.state.isTerminal) ∧ i.Ended e.attempt := by
  rcases move with move | ⟨now, -, move⟩
  · cases move with
    | common move => cases move <;> cases h
    | complete verdict =>
      cases h
      have hcommits := Impl.commits_of_verdict verdict
      refine ⟨hcommits.epoch, ⟨_, hcommits.retained, hcommits.live⟩, fun x hx => ?_⟩
      rw [Impl.attempts_applyCompletion, if_pos rfl] at hx
      obtain ⟨y, -, rfl⟩ := Option.map_eq_some_iff.mp hx
      rfl
    | _ => cases h
  · cases move with
    | common move => cases move <;> cases h
    | _ => cases h

/-- The two schedule counters are advanced together. -/
def Impl.Aligned (s : Impl) : Prop := s.nextScheduleGeneration.value = s.nextSchedule.value

def Impl.Scheduled (s : Impl) (k : ScheduleId) : Prop := k.value < s.nextSchedule.value

theorem Impl.Aligned.move (h : u.Aligned) (move : Move c u r i) : i.Aligned := by
  unfold Impl.Aligned at h ⊢
  rcases move.numbers with ⟨⟨hschedule, hgeneration⟩, -⟩ | ⟨hschedule, hgeneration⟩
  · rw [hschedule, hgeneration]
    exact h
  · rw [Id.advance_eq_ok] at hschedule hgeneration
    rw [hschedule.2, hgeneration.2, h]

/-- A schedule is issued under the epoch and the counter of the moment, and uses the number up. -/
theorem Move.scheduled (aligned : u.Aligned) (move : Move c u r i) {schedule : Schedule}
    (h : r.bind Record.scheduled = some schedule) : schedule.epoch = u.epoch ∧
      schedule.schedule = u.nextSchedule ∧
      (schedule.schedule.value ≠ u64Max → i.Scheduled schedule.schedule) := by
  have hnumbers := move.numbers
  rcases move with move | ⟨now, -, move⟩
  · cases move with
    | common move => cases move <;> cases h
    | _ => cases h
  · cases move with
    | common move => cases move <;> cases h
    | issue =>
      cases h
      refine ⟨rfl, rfl, fun hmax => ?_⟩
      rcases hnumbers with ⟨-, hout⟩ | ⟨hadvance, -⟩
      · rcases hout _ rfl with hout | hout
        · exact absurd hout hmax
        · exact absurd (aligned.symm.trans hout) hmax
      · exact Id.lt_of_advance hadvance
    | _ => cases h

section Dated

variable {α : Type} {f : IdFamily} {key : α → FabricEpoch × Id f} {used used' : Id f → Prop}
  {epoch next : FabricEpoch} {xs : List α}

/-- No number occurs twice in an epoch, the last number apart. -/
def Unrepeated (key : α → FabricEpoch × Id f) (xs : List α) : Prop :=
  xs.Pairwise fun x y => key x = key y → (key x).2.value = u64Max

/-- What is numbered anew in every epoch: nothing is of an epoch to come, the numbers of the current
epoch are used up, and none is repeated. -/
structure Dated (key : α → FabricEpoch × Id f) (used : Id f → Prop)
    (epoch : FabricEpoch) (xs : List α) : Prop where
  past : ∀ x ∈ xs, (key x).1.value ≤ epoch.value
  used : ∀ x ∈ xs, (key x).1 = epoch → (key x).2.value ≠ u64Max → used (key x).2
  distinct : Unrepeated key xs

theorem Dated.later (h : Dated key used epoch xs) (later : epoch.value < next.value) :
    Dated key used' next xs where
  past x hx := UInt64.le_of_lt (UInt64.lt_of_le_of_lt (h.past x hx) later)
  used x hx hnow := absurd (UInt64.lt_of_le_of_lt (h.past x hx) later) (hnow ▸ UInt64.lt_irrefl _)
  distinct := h.distinct

theorem Dated.append (h : Dated key used epoch xs) (keep : ∀ a, used a → used' a) {o : Option α}
    (new : ∀ x ∈ o, (key x).1 = epoch ∧
      ((key x).2.value ≠ u64Max → ¬ used (key x).2 ∧ used' (key x).2)) :
    Dated key used' epoch (xs ++ o.toList) := by
  constructor
  · intro x hx
    rcases List.mem_append.mp hx with hx | hx
    · exact h.past x hx
    · rw [(new x (Option.mem_toList.mp hx)).1]
      exact UInt64.le_refl _
  · intro x hx hnow hmax
    rcases List.mem_append.mp hx with hx | hx
    · exact keep _ (h.used x hx hnow hmax)
    · exact ((new x (Option.mem_toList.mp hx)).2 hmax).2
  · have hlast : Unrepeated key o.toList := by
      cases o <;> simp [Unrepeated]
    refine List.pairwise_append.mpr ⟨h.distinct, hlast, fun x hx y hy hsame => ?_⟩
    obtain ⟨hepoch, hfresh⟩ := new y (Option.mem_toList.mp hy)
    by_contra hmax
    have hused := h.used x hx (by rw [hsame, hepoch]) hmax
    rw [hsame] at hused hmax
    exact (hfresh hmax).1 hused

end Dated

/-- No two tickets and no two schedules share their epoch and their number, and no two completions
were committed for the same ticket. -/
structure Chronicle (h : List Record) (l : Impl) : Prop where
  aligned : l.Aligned
  schedules : Dated Schedule.key l.Scheduled l.epoch (h.filterMap Record.scheduled)
  filed : ∀ a x, l.attempts[a]? = some x → a.value ≠ u64Max → l.Issued a
  tickets : Dated DispatchTicket.key l.Issued l.epoch (h.filterMap Record.issued)
  commits : Dated CompletionEvidence.key (fun a => l.Issued a ∧ l.Ended a) l.epoch
    (h.filterMap Record.committed)

namespace Chronicle

variable {h : List Record} {l : Impl} {record : Record}

theorem begin (chronicle : Chronicle h l) {next : FabricEpoch} (later : l.epoch.value < next.value)
    (established : record.established = some next) (epoch : i.epoch = next) (aligned : i.Aligned)
    (filed : ∀ a x, i.attempts[a]? = some x → a.value ≠ u64Max → i.Issued a) :
    Chronicle (h ++ [record]) i := by
  obtain ⟨hscheduled, hissued, hcommitted⟩ : record.scheduled = none ∧ record.issued = none ∧
      record.committed = none := by
    cases record with
    | epochAdvanced => exact ⟨rfl, rfl, rfl⟩
    | _ => cases established
  have hsame : ∀ {β : Type} {f : Record → Option β}, f record = none →
      (h ++ [record]).filterMap f = h.filterMap f := by
    intro β f hf
    simp [List.filterMap_append, hf]
  rw [← epoch] at later
  refine ⟨aligned, ?_, filed, ?_, ?_⟩
  · rw [hsame hscheduled]
    exact chronicle.schedules.later later
  · rw [hsame hissued]
    exact chronicle.tickets.later later
  · rw [hsame hcommitted]
    exact chronicle.commits.later later

theorem move (chronicle : Chronicle h u) (move : Move c u r i) : Chronicle (h ++ r.toList) i := by
  have hnext : ∀ a, u.Issued a → i.Issued a :=
    fun a ha => UInt64.lt_of_lt_of_le ha move.nextAttempt_le
  have haligned : i.Aligned := chronicle.aligned.move move
  have hscheduled : ∀ k, u.Scheduled k → i.Scheduled k := by
    intro k hk
    unfold Impl.Scheduled at hk ⊢
    rcases move.numbers with ⟨⟨hsame, -⟩, -⟩ | ⟨hadvance, -⟩
    · rwa [hsame]
    · exact UInt64.lt_trans hk (Id.lt_of_advance hadvance)
  have hfiled : ∀ a x, i.attempts[a]? = some x → a.value ≠ u64Max → i.Issued a := by
    intro a x' hx' hmax
    rcases move.retained hx' with ⟨x, hx, -⟩ | ⟨rfl, _, _, rfl⟩
    · exact hnext a (chronicle.filed a x hx hmax)
    · exact (move.issued rfl).2.2 hmax
  rcases move.established with ⟨hnone, hsame⟩ | ⟨next, hestablished, hadvance, hepoch⟩
  · have hmap : ∀ {β : Type} (f : Record → Option β),
        (h ++ r.toList).filterMap f = h.filterMap f ++ (r.bind f).toList := by
      intro β f
      cases r with
      | none => simp
      | some record => cases hf : f record <;> simp [List.filterMap_append, hf]
    refine ⟨haligned, ?_, hfiled, ?_, ?_⟩
    · rw [hmap, hsame]
      refine chronicle.schedules.append hscheduled fun schedule hschedule => ?_
      obtain ⟨hepoch, hnumber, hused⟩ := move.scheduled chronicle.aligned hschedule
      have hnew : ¬ u.Scheduled schedule.schedule := hnumber ▸ UInt64.lt_irrefl _
      exact ⟨hepoch, fun hmax => ⟨hnew, hused hmax⟩⟩
    · rw [hmap, hsame]
      refine chronicle.tickets.append hnext fun ticket hticket => ?_
      obtain ⟨hepoch, hattempt, hused⟩ := move.issued hticket
      have hnew : ¬ u.Issued ticket.attempt := hattempt ▸ UInt64.lt_irrefl _
      exact ⟨hepoch, fun hmax => ⟨hnew, hused hmax⟩⟩
    · rw [hmap, hsame]
      refine chronicle.commits.append ?_ fun e he => ?_
      · rintro a ⟨hissued, hended⟩
        refine ⟨hnext a hissued, fun x' hx' => ?_⟩
        rcases move.retained hx' with ⟨x, hx, -, hstate⟩ | ⟨rfl, _, _, rfl⟩
        · exact hstate (hended x hx)
        · exact absurd hissued ((move.issued rfl).2.1 ▸ UInt64.lt_irrefl _)
      · obtain ⟨hepoch, ⟨x, hx, hlive⟩, hended⟩ := move.committed he
        exact ⟨hepoch, fun hmax => ⟨fun hspent => hlive (hspent.2 x hx),
          hnext _ (chronicle.filed _ x hx hmax), hended⟩⟩
  · cases r with
    | none => cases hestablished
    | some record =>
      exact chronicle.begin (Id.lt_of_advance hadvance) hestablished hepoch haligned hfiled

end Chronicle

end History

section Incarnations

variable {past : List Record} {s t : Scheduler} {d : DurableStore} {options : SchedulerOptions}

theorem registry_replay {r : Record} {m m' : Impl} (h : r.replay m = .ok m') :
    m'.ledger.registry = m.ledger.registry.apply r := by
  rcases ledger_replay h with hledger | ⟨schedule, rfl⟩
  · rw [hledger, Ledger.registry_apply]
  · cases h
    exact (registered_applySchedule schedule).1

theorem epoch_apply {x : Registry} {r : Record} :
    (x.apply r).epoch = r.established.getD x.epoch := by
  cases r <;> rfl

theorem Impl.Starts.ledger {m i : Impl} {next : FabricEpoch} (h : m.Starts i next) :
    i.ledger = m.ledger.advanceEpoch next := by
  obtain ⟨before, after, rfl⟩ := h
  exact ledger_applyEpochAdvance next m.lastTick

theorem aligned_of_counters {m m' : Impl} (h : m'.setting.counters = m.setting.counters) :
    m'.Aligned ↔ m.Aligned := by
  have hschedule : m'.nextSchedule = m.nextSchedule := congrArg (·.2.1) h
  have hgeneration : m'.nextScheduleGeneration = m.nextScheduleGeneration := congrArg (·.2.2.1) h
  rw [Impl.Aligned, Impl.Aligned, hschedule, hgeneration]

theorem twins_chronicle {allowed : Scheduler → Call → Prop} :
    Twins allowed Chronicle fun l m => m.epoch = l.epoch ∧ (l.Aligned → m.Aligned) where
  fresh _ _ := ⟨rfl, ⟨by simp, by simp, .nil⟩, by simp [Impl.fresh], ⟨by simp, by simp, .nil⟩,
    ⟨by simp, by simp, .nil⟩⟩
  start _ _ := ⟨rfl, fun _ => rfl⟩
  silent _ live effect := by
    obtain ⟨move, -⟩ := effect
    have hlive := live.move move
    rw [Option.toList_none, List.append_nil] at hlive
    refine ⟨hlive, fun m twin => ⟨?_, fun _ => twin.2 live.aligned⟩⟩
    rcases move.established with ⟨-, hsame⟩ | ⟨next, hnext, -⟩
    · exact twin.1.trans hsame.symm
    · cases hnext
  journaled _ live effect := by
    obtain ⟨move, -⟩ := effect
    refine ⟨live.move move, fun m m' twin replayed => ⟨?_, fun _ => ?_⟩⟩
    · have hreplayed : m'.epoch = _ := congrArg Registry.epoch (registry_replay replayed)
      rw [hreplayed, epoch_apply]
      rcases move.established with ⟨hnone, hsame⟩ | ⟨next, hnext, -, hepoch⟩
      · have hnone : Record.established _ = none := hnone
        rw [hnone, hsame]
        exact twin.1
      · have hnext : Record.established _ = some next := hnext
        rw [hnext, hepoch]
        rfl
    · exact (aligned_of_counters (counters_replay replayed)).mpr (twin.2 live.aligned)
  image images := by
    refine ⟨images.epoch, fun h => ?_⟩
    rw [Impl.Aligned, images.nextSchedule, images.nextScheduleGeneration]
    exact h
  reopened {h l m i next} live twin advanced starts := by
    have hepoch : i.epoch = next := congrArg Ledger.epoch starts.ledger
    have hnone : ∀ a x, i.attempts[a]? = some x → a.value ≠ u64Max → i.Issued a := by
      intro a x hx
      have hfound : i.ledger.attempts a = some x.ledger := congrArg (Option.map _) hx
      rw [starts.ledger] at hfound
      cases hfound
    have hcounters : ∀ (m : Impl) (now : Ticks),
        (m.applyEpochAdvance next now).setting.counters = m.setting.counters :=
      fun m now => congrArg Setting.counters (Impl.setting_applyEpochAdvance ..)
    have haligned : i.Aligned := by
      obtain ⟨before, after, rfl⟩ := starts
      exact (aligned_of_counters (hcounters { m with recovery := before } _)).mpr
        (twin.2 live.aligned)
    rw [twin.1] at advanced
    refine ⟨live.begin (Id.lt_of_advance advanced) rfl hepoch haligned hnone, fun m' twin' => ?_⟩
    refine ⟨?_, fun _ => (aligned_of_counters (hcounters m' _)).mpr (twin'.2 live.aligned)⟩
    rw [hepoch]
    exact epoch_applyEpochAdvance m' next m.lastTick

abbrev SteadyLife : List Record → Scheduler → Prop :=
  Lived (fun s _ => Steady s) fun _ => True

section Lives

variable {allowed : Scheduler → Call → Prop} {stops : Scheduler → Prop}

theorem Lived.recovers {Live : List Record → Impl → Prop} {Tw : Impl → Impl → Prop}
    (lived : Lived allowed stops past s) (twins : Twins allowed Live Tw)
    (calm : ∀ s c, allowed s c → Steady s) (store : s.store = some d)
    (same : options.stateDirectory = d.path) (opened : create options d.files = .ok t) :
    ∃ i m js, (Impl.fresh options.policy).restore d.files.snapshot = .ok i ∧ i.replayAll js = .ok m ∧
      Tw s.impl m ∧ OpenedFrom m options d.files js t := by
  obtain ⟨js, hkeeps, -, twin⟩ := (lived.mirrored twins calm).2 d store
  have hjournal : d.files.journal = journalOf 1 (js.map Record.framed) ++ [] := hkeeps.holds.journal
  have hnamed : d.path ≠ "" := hkeeps.holds.named
  obtain ⟨i, m, hi, hm, from_⟩ := create_durable (same ▸ hnamed)
    ⟨hkeeps.holds.fits, [], hjournal, .inl rfl⟩ opened
  exact ⟨i, m, _, hi, hm, twin _ i m hi hm, from_⟩

theorem Lived.advances (lived : Lived allowed stops past s)
    (calm : ∀ s c, allowed s c → Steady s) (store : s.store = some d)
    (same : options.stateDirectory = d.path) (opened : create options d.files = .ok t) :
    s.impl.epoch.advance = .ok t.impl.epoch := by
  obtain ⟨_, m, _, -, -, twin, from_⟩ := lived.recovers twins_chronicle calm store same opened
  rw [← twin.1]
  exact from_.advanced

theorem Lived.past_lt (lived : Lived allowed stops past s) (calm : ∀ s c, allowed s c → Steady s) :
    ∀ ticket ∈ past.filterMap Record.issued, ticket.epoch.value < s.impl.epoch.value := by
  induction lived with
  | created => simp
  | called hs c ok ih =>
    intro ticket hticket
    refine preserves_call (P := fun i => ticket.epoch.value < i.epoch.value) ?_ hs.sound
      (ih ticket hticket)
    intro i r i' move hlt
    rcases move.established with ⟨-, hsame⟩ | ⟨next, -, hadvance, hnext⟩
    · rwa [hsame]
    · rw [hnext]
      exact UInt64.lt_trans hlt (Id.lt_of_advance hadvance)
  | faulty _ io ih => exact ih
  | reopened hs stop store same opened ih =>
    intro ticket hticket
    exact UInt64.lt_of_le_of_lt ((hs.mirrored twins_chronicle calm).1.tickets.past ticket hticket)
      (Id.lt_of_advance (hs.advances calm store same opened))

end Lives

theorem exists_relived {first second : List Call} {P : List Record → Scheduler → Prop}
    (h : ∃ s ∈ (create options {}).toOption, Along (fun s _ => Steady s) s first ∧
      ∃ d ∈ (s.calls first).store, options.stateDirectory = d.path ∧
        ∃ t ∈ (create options d.files).toOption, Along (fun s _ => Steady s) t second ∧
          P (s.calls first).accepted (t.calls second)) : ∃ past s, SteadyLife past s ∧ P past s := by
  obtain ⟨s, hs, hfirst, d, hd, hsame, t, ht, hsecond, hP⟩ := h
  have hreopened : SteadyLife ([] ++ (s.calls first).accepted) t :=
    ((Lived.created (eq_ok_of_mem hs)).along hfirst).reopened trivial hd hsame (eq_ok_of_mem ht)
  exact ⟨_, _, hreopened.along hsecond, hP⟩

/-- Over all incarnations of a directory no two tickets carry the same epoch and the same attempt,
unless the attempts have run out. -/
theorem tickets_unique (lived : SteadyLife past s) :
    Unrepeated DispatchTicket.key ((past ++ s.accepted).filterMap Record.issued) :=
  (lived.mirrored twins_chronicle fun _ _ steady => steady).1.tickets.distinct

/-- Over all incarnations of a directory no dispatch is credited twice. -/
theorem completions_once (lived : SteadyLife past s) :
    Unrepeated CompletionEvidence.key ((past ++ s.accepted).filterMap Record.committed) :=
  (lived.mirrored twins_chronicle fun _ _ steady => steady).1.commits.distinct

theorem rejected_of_epoch {e : CompletionEvidence} (stale : e.epoch ≠ s.impl.epoch) (now : Ticks) :
    ∃ o, (s.call (.complete e now)).1 = .ok (.commit o) ∧ o.disposition = .rejected := by
  have hverdict : ∀ i : Impl, i.epoch = s.impl.epoch →
      ∃ rejection, i.completionVerdict e now = .error rejection := by
    intro i hepoch
    cases hv : i.completionVerdict e now with
    | error rejection => exact ⟨rejection, rfl⟩
    | ok verdict =>
      simp only [Impl.completionVerdict, bind_eq_ok, rejectIf_eq_ok] at hv
      obtain ⟨_, -, _, -, _, -, _, hsame, -⟩ := hv
      exact absurd (hepoch ▸ not_not.mp hsame) stale
  obtain ⟨rejection, hrejection⟩ := hverdict
    { s.impl with
      lastTick := max s.impl.lastTick now, completionReports := s.impl.completionReports + 1 } rfl
  refine ⟨{ disposition := .rejected, code := rejection.code, detail := rejection.detail }, ?_, rfl⟩
  change (exec (complete e now >>= fun a => pure (Response.commit a)) s).1 = _
  rw [exec_bind, complete, exec_touch_bind, exec_modifyImpl_bind, exec_readImpl_bind]
  simp only [hrejection]
  rfl

/-- The ticket is refused, and so is evidence from its epoch. -/
def Scheduler.Fences (s : Scheduler) (ticket : DispatchTicket) (now : Ticks) : Prop :=
  (∃ e, (s.call (.revalidate ticket now)).1 = .error e) ∧
    (∃ e, (s.call (.markStarted ticket now)).1 = .error e) ∧
    ∀ e, e.epoch = ticket.epoch →
      ∃ o, (s.call (.complete e now)).1 = .ok (.commit o) ∧ o.disposition = .rejected

/-- Whatever an earlier incarnation has issued is refused. -/
theorem ticket_fenced (lived : SteadyLife past s)
    {ticket : DispatchTicket} (issued : ticket ∈ past.filterMap Record.issued) (now : Ticks) :
    s.Fences ticket now := by
  have hlt := lived.past_lt (fun _ _ steady => steady) ticket issued
  have hne : ticket.epoch ≠ s.impl.epoch := fun hsame => UInt64.lt_irrefl _ (hsame ▸ hlt)
  have hrefused : s.impl.revalidate ticket now ≠ .ok () := fun hu => hne (revalidate_eq_ok hu).epoch
  refine ⟨?_, ?_, fun e he => rejected_of_epoch (he ▸ hne) now⟩
  · rcases hcall : s.call (.revalidate ticket now) with ⟨e | response, t⟩
    · exact ⟨e, rfl⟩
    · exact absurd (revalidate_of_call hcall) hrefused
  · rcases hcall : s.call (.markStarted ticket now) with ⟨e | response, t⟩
    · exact ⟨e, rfl⟩
    · exact absurd (revalidate_of_markStarted hcall) hrefused

namespace Sample

def served (epoch : UInt64) (now : Ticks) : List Call :=
  [.arbitrate now, dispatch now,
    .complete { schedule := ⟨1⟩, scheduleGeneration := ⟨1⟩, attempt := ⟨1⟩, epoch := ⟨epoch⟩
                flow := ⟨1⟩, flowGeneration := ⟨1⟩, worker := ⟨7⟩, boot := ⟨8⟩, served := 5
                provenance } (now + 1)]

set_option maxRecDepth 100000 in
/-- The restarted scheduler hands out the same attempt of the same schedule once more, and credits
both. -/
theorem exists_restarted : ∃ past s, SteadyLife past s ∧
    past.filterMap Record.issued ≠ [] ∧
    ((past ++ s.accepted).filterMap Record.scheduled).map (fun x => (x.schedule, x.generation)) =
      [(⟨1⟩, ⟨1⟩), (⟨1⟩, ⟨1⟩)] ∧
    ((past ++ s.accepted).filterMap Record.issued).map DispatchTicket.key =
      [(⟨1⟩, ⟨1⟩), (⟨2⟩, ⟨1⟩)] ∧
    ((past ++ s.accepted).filterMap Record.committed).map CompletionEvidence.key =
      [(⟨1⟩, ⟨1⟩), (⟨2⟩, ⟨1⟩)] :=
  @exists_relived durable (setup ++ served 1 5) (served 2 7) _ (by decide +kernel)

theorem tickets_unique_restarted : ∃ past s, SteadyLife past s ∧
    ((past ++ s.accepted).filterMap Record.issued).map DispatchTicket.key =
      [(⟨1⟩, ⟨1⟩), (⟨2⟩, ⟨1⟩)] ∧
    Unrepeated DispatchTicket.key ((past ++ s.accepted).filterMap Record.issued) := by
  obtain ⟨past, s, lived, -, -, htickets, -⟩ := exists_restarted
  exact ⟨past, s, lived, htickets, tickets_unique lived⟩

theorem completions_once_restarted : ∃ past s, SteadyLife past s ∧
    ((past ++ s.accepted).filterMap Record.committed).map CompletionEvidence.key =
      [(⟨1⟩, ⟨1⟩), (⟨2⟩, ⟨1⟩)] ∧
    Unrepeated CompletionEvidence.key ((past ++ s.accepted).filterMap Record.committed) := by
  obtain ⟨past, s, lived, -, -, -, hcommits⟩ := exists_restarted
  exact ⟨past, s, lived, hcommits, completions_once lived⟩

theorem ticket_fenced_restarted : ∃ past s ticket, SteadyLife past s ∧
    ticket ∈ past.filterMap Record.issued ∧ s.Fences ticket 9 := by
  obtain ⟨past, s, lived, hissued, -⟩ := exists_restarted
  obtain ⟨ticket, hticket⟩ := List.exists_mem_of_ne_nil _ hissued
  exact ⟨past, s, ticket, lived, hticket, ticket_fenced lived hticket 9⟩

end Sample

/-- The change that the call records is not refused afterwards: an admission finds room in the table,
and a flow that is updated holds no open work. -/
def Scheduler.Punctual (s : Scheduler) : Call → Bool
  | .admitFlow d => (s.impl.applyAdmit d).isOk
  | .updateFlow d => !(s.impl.updateFlowGuard d).isOk || (s.impl.applyUpdate d).isOk
  | _ => true

theorem ledger_of_punctual {c : Call} {u i : Impl} {r : Record} (h : s.Punctual c)
    (effect : Effect c s.impl u (some r) i) : i.ledger = u.ledger.apply r := by
  obtain ⟨move | ⟨now, -, move⟩, first⟩ := effect
  · refine move.ledger.resolve_right ?_
    rintro ⟨⟨d, e, rfl, refused⟩ | ⟨d, e, rfl, refused⟩, -⟩
    · obtain rfl := first d (.inl rfl)
      cases move with
      | common move => cases move
      | admitFlow | admitRefused => simp [Scheduler.Punctual, refused, Except.isOk, Except.toBool] at h
    · obtain rfl := first d (.inr rfl)
      cases move with
      | common move => cases move
      | update guard | updateRefused guard =>
        simp [Scheduler.Punctual, refused, guard, Except.isOk, Except.toBool] at h
  · exact move.ledger

theorem twins_standings : Twins (fun s c => Steady s ∧ s.Punctual c) (fun _ _ => True)
    fun l m => l.ledger.Twin m.ledger where
  fresh _ _ := trivial
  start _ _ := ⟨rfl, rfl, fun _ h => h⟩
  silent _ _ effect := by
    obtain ⟨move, -⟩ := effect
    refine ⟨trivial, fun m twin => ?_⟩
    rcases move with move | ⟨now, -, move⟩
    · rw [move.quiet]
      exact twin
    · exact twin.quiet move.quiet
  journaled {s c u i h r} ok _ effect := by
    refine ⟨trivial, fun m m' twin replayed => ?_⟩
    rw [ledger_of_punctual ok.2 effect]
    refine twin.replay (fun e credited lifecycle tick hr => ?_) replayed
    subst hr
    obtain ⟨-, ⟨x, hx, -⟩, -⟩ := effect.1.committed rfl
    simp only [Ledger.standings, Impl.ledger, hx, Option.map_some, Option.isSome_some]
  image images := .image images
  reopened {h l m i next} _ twin _ starts := by
    refine ⟨trivial, fun m' twin' => ?_⟩
    rw [starts.ledger, Impl.ledger_applyEpochAdvance]
    exact twin.restart twin' next

/-- Whoever opens the directory again finds every definition that was registered and every flow with
its descriptor, its served work, its credit and its completions, and is in the next epoch. -/
theorem reopened_standings
    (lived : Lived (fun s c => Steady s ∧ s.Punctual c) (fun _ => True) past s)
    (store : s.store = some d) (same : options.stateDirectory = d.path)
    (opened : create options d.files = .ok t) :
    t.impl.ledger.standings.flows = s.impl.ledger.standings.flows ∧
      t.impl.ledger.registry =
        { s.impl.ledger.registry with policy := t.impl.policy, epoch := t.impl.epoch } ∧
      s.impl.epoch.advance = .ok t.impl.epoch := by
  have calm : ∀ s c, Steady s ∧ s.Punctual c → Steady s := fun _ _ ok => ok.1
  obtain ⟨_, m, _, -, -, htwin, from_⟩ := lived.recovers twins_standings calm store same opened
  have hledger := Impl.Starts.ledger from_.memory
  have hpolicy : t.impl.policy = m.policy := congrArg Ledger.policy hledger
  refine ⟨?_, ?_, lived.advances calm store same opened⟩
  · rw [hledger, Ledger.standings_advanceEpoch]
    exact htwin.flows
  · have hregistry : (m.ledger.advanceEpoch t.impl.epoch).registry =
        { m.ledger.registry with epoch := t.impl.epoch } := rfl
    rw [hledger, hregistry, htwin.registry, hpolicy]
    rfl

namespace Sample

set_option maxRecDepth 100000 in
theorem reopened_standings_halfway : ∃ past s d t,
    Lived (fun s c => Steady s ∧ s.Punctual c) (fun _ => True) past s ∧ s.store = some d ∧
    create durable d.files = .ok t ∧
    (s.impl.ledger.standings.flows ⟨1⟩).map Standing.servedWork = some 5 ∧ t.impl.epoch = ⟨2⟩ ∧
    t.impl.ledger.standings.flows = s.impl.ledger.standings.flows ∧
      t.impl.ledger.registry =
        { s.impl.ledger.registry with policy := t.impl.policy, epoch := t.impl.epoch } ∧
      s.impl.epoch.advance = .ok t.impl.epoch := by
  obtain ⟨s, lived, d, hd, hpath, ⟨t, ht, hepoch⟩, hserved⟩ : ∃ s,
      Lived (fun s c => Steady s ∧ s.Punctual c) (fun _ => True) [] s ∧ ∃ d ∈ s.store,
        durable.stateDirectory = d.path ∧
        (∃ t ∈ (create durable d.files).toOption, t.impl.epoch = ⟨2⟩) ∧
        (s.impl.ledger.standings.flows ⟨1⟩).map Standing.servedWork = some 5 :=
    @exists_lived _ _ (setup ++ served 1 5) durable _ (by decide +kernel)
  exact ⟨[], s, d, t, lived, hd, eq_ok_of_mem ht, hserved, hepoch,
    reopened_standings lived hd hpath (eq_ok_of_mem ht)⟩

end Sample

end Incarnations

end FlowScheduler

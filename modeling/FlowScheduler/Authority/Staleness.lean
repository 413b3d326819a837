import FlowScheduler.Authority.Dispatch

/-! # Staleness

A ticket that has become stale stays stale, as long as what it names is not
registered again: generations only grow, but a policy can be installed again
after another one, and a retired flow can be admitted again at an old generation.
-/

namespace FlowScheduler

open Failing SchedOp

/-- The name is registered at the generation or a later one. -/
def AtLeast {α : Type} (generation : α → Generation) (g : Generation) (o : Option α) : Prop :=
  ∃ d, o = some d ∧ g.value ≤ (generation d).value

def Beyond {α : Type} (generation : α → Generation) (g : Generation) (o : Option α) : Prop :=
  ∃ d, o = some d ∧ g.value < (generation d).value

section Generations

variable {α : Type} {generation : α → Generation} {g : Generation} {o o' : Option α}

theorem AtLeast.of_eq {d : α} (h : o = some d) (hg : generation d = g) : AtLeast generation g o :=
  ⟨d, h, by rw [hg]; exact UInt64.le_refl _⟩

theorem AtLeast.later (h : AtLeast generation g o) (later : LaterGeneration generation o o') :
    AtLeast generation g o' := by
  obtain ⟨d, hd, hle⟩ := h
  obtain ⟨d', hd', hle'⟩ := later d hd
  exact ⟨d', hd', UInt64.le_trans hle hle'⟩

theorem Beyond.later (h : Beyond generation g o) (later : LaterGeneration generation o o') :
    Beyond generation g o' := by
  obtain ⟨d, hd, hlt⟩ := h
  obtain ⟨d', hd', hle⟩ := later d hd
  exact ⟨d', hd', UInt64.lt_of_lt_of_le hlt hle⟩

theorem AtLeast.cases (h : AtLeast generation g o) :
    (∃ d, o = some d ∧ generation d = g) ∨ Beyond generation g o := by
  obtain ⟨d, hd, hle⟩ := h
  by_cases heq : generation d = g
  · exact .inl ⟨d, hd, heq⟩
  · refine .inr ⟨d, hd, UInt64.lt_of_le_of_ne hle fun hv => heq (Id.ext_value hv.symm)⟩

theorem Beyond.not_current (h : Beyond generation g o) : ¬ ∃ d, o = some d ∧ generation d = g := by
  rintro ⟨d, hd, rfl⟩
  obtain ⟨d', hd', hlt⟩ := h
  obtain rfl := Option.some.inj (hd.symm.trans hd')
  exact UInt64.lt_irrefl _ hlt

end Generations

/-- Nothing the authority names is registered at an earlier generation. -/
structure Reached (a : Authority) (s : Impl) : Prop where
  valid : a.epoch.valid
  epoch : a.epoch.value ≤ s.epoch.value
  flow : ∀ d, s.ledger.roster a.flow = some d → a.flowGeneration.value < d.generation.value ∨
    (d.generation = a.flowGeneration ∧ d.path = ⟨a.path, a.pathGeneration⟩)
  resource : AtLeast (·.generation) a.resourceGeneration (s.ledger.registry.resources a.resource)
  priority : AtLeast (·.generation) a.priorityGeneration
    (s.ledger.registry.priorityClasses a.priority)
  qos : AtLeast (·.generation) a.qosGeneration (s.ledger.registry.qosClasses a.qos)
  reservation : a.reservation.valid → AtLeast (·.generation) a.reservationGeneration
    (s.ledger.registry.reservations a.reservation)

inductive Superseded (a : Authority) (s : Impl) : Prop
  | epoch (h : a.epoch.value < s.epoch.value)
  | policy (h : ¬ (s.policyBinding.policy = a.policy ∧
      s.policyBinding.generation = a.policyGeneration))
  | flow (h : ∀ d, s.ledger.roster a.flow = some d → a.flowGeneration.value < d.generation.value)
  | resource (h : Beyond (·.generation) a.resourceGeneration
      (s.ledger.registry.resources a.resource))
  | priority (h : Beyond (·.generation) a.priorityGeneration
      (s.ledger.registry.priorityClasses a.priority))
  | qos (h : Beyond (·.generation) a.qosGeneration (s.ledger.registry.qosClasses a.qos))
  | reservation (valid : a.reservation.valid) (h : Beyond (·.generation) a.reservationGeneration
      (s.ledger.registry.reservations a.reservation))

theorem Reached.of_current {a : Authority} {s : Impl} {now : Ticks}
    (h : s.AuthorityCurrent a now) : Reached a s where
  valid := h.epochValid
  epoch := by rw [h.epoch]; exact UInt64.le_refl _
  flow d hd := by
    obtain ⟨r, hr, hg, hp, hpg⟩ := h.flow
    rw [Impl.roster_eq, hr] at hd
    cases hd
    exact .inr ⟨hg, by rw [← hp, ← hpg]⟩
  resource := by
    obtain ⟨r, hr, hg⟩ := h.resource
    exact .of_eq (Option.map_eq_some_iff.mpr ⟨r, hr, rfl⟩) hg
  priority := by
    obtain ⟨d, hd, hg⟩ := h.priority
    exact .of_eq hd hg
  qos := by
    obtain ⟨d, hd, hg⟩ := h.qos
    exact .of_eq hd hg
  reservation hvalid := by
    rcases h.reservation with ⟨hv, -⟩ | ⟨-, r, hr, -, hg, -⟩
    · exact absurd hvalid hv
    · exact .of_eq (Option.map_eq_some_iff.mpr ⟨r, hr, rfl⟩) hg

/-- Neither the policy the authority names nor its flow at an old generation is registered anew. -/
def Authority.MovesOn (a : Authority) : Call → Prop
  | .installPolicy policy => ¬ (policy.policy = a.policy ∧ policy.generation = a.policyGeneration)
  | .admitFlow d => d.flow = a.flow → a.flowGeneration.value < d.generation.value
  | _ => True

section Moves

variable {a : Authority} {c : Call} {s s' : Impl} {r : Option Record}

theorem Reached.move (h : Reached a s) (move : Move c s r s') (on : a.MovesOn c) :
    Reached a s' := by
  have onward := move.onward
  refine ⟨h.valid, UInt64.le_trans h.epoch onward.epoch, ?_, h.resource.later (onward.resources _),
    h.priority.later (onward.priorityClasses _), h.qos.later (onward.qosClasses _),
    fun hvalid => (h.reservation hvalid).later (onward.reservations _)⟩
  intro d' hd'
  rcases move.roster hd' with ⟨d, hd, hfollows⟩ | ⟨hflow, rfl⟩
  · rcases h.flow d hd with hlt | ⟨hg, hp⟩ <;> rcases hfollows with hlt' | ⟨hg', hp'⟩
    · exact .inl (UInt64.lt_trans hlt hlt')
    · exact .inl (hg' ▸ hlt)
    · exact .inl (hg ▸ hlt')
    · exact .inr ⟨hg'.trans hg, hp'.trans hp⟩
  · exact .inl (on hflow)

theorem Superseded.move (h : Superseded a s) (m : Move c s r s') (on : a.MovesOn c) :
    Superseded a s' := by
  have onward := m.onward
  cases h with
  | epoch h => exact .epoch (UInt64.lt_of_lt_of_le h onward.epoch)
  | policy h =>
    refine .policy ?_
    rcases m.policyBinding with hsame | ⟨policy, rfl, hnew⟩
    · rwa [hsame]
    · rw [hnew]
      exact on
  | flow h =>
    refine .flow fun d' hd' => ?_
    rcases m.roster hd' with ⟨d, hd, hlt | ⟨hg, -⟩⟩ | ⟨hflow, rfl⟩
    · exact UInt64.lt_trans (h d hd) hlt
    · rw [hg]
      exact h d hd
    · exact on hflow
  | resource h => exact .resource (h.later (onward.resources _))
  | priority h => exact .priority (h.later (onward.priorityClasses _))
  | qos h => exact .qos (h.later (onward.qosClasses _))
  | reservation valid h => exact .reservation valid (h.later (onward.reservations _))

theorem Superseded.not_current (h : Superseded a s) (now : Ticks) :
    ¬ s.AuthorityCurrent a now := by
  intro hc
  cases h with
  | epoch h =>
    rw [hc.epoch] at h
    exact UInt64.lt_irrefl _ h
  | policy h => exact h ⟨hc.policy.symm, hc.policyGeneration.symm⟩
  | flow h =>
    obtain ⟨r, hr, hg, -⟩ := hc.flow
    have hlt := h r.descriptor (by rw [Impl.roster_eq, hr]; rfl)
    rw [hg] at hlt
    exact UInt64.lt_irrefl _ hlt
  | resource h =>
    obtain ⟨r, hr, hg⟩ := hc.resource
    exact h.not_current ⟨r.descriptor, Option.map_eq_some_iff.mpr ⟨r, hr, rfl⟩, hg⟩
  | priority h => exact h.not_current hc.priority
  | qos h => exact h.not_current hc.qos
  | reservation valid h =>
    rcases hc.reservation with ⟨hv, -⟩ | ⟨-, r, hr, -, hg, -⟩
    · exact hv valid
    · exact h.not_current ⟨r.descriptor, Option.map_eq_some_iff.mpr ⟨r, hr, rfl⟩, hg⟩

end Moves

/-- A failure of the check does not report staleness. -/
def Unstale {α : Type} (x : Result α) : Prop := ∀ e, x = .error e → e.code.isStaleness = false

namespace Unstale

variable {α β : Type} {p : Prop} [Decidable p] {code : ErrorCode} {message : String}

theorem ok (a : α) : Unstale (.ok a) := fun _ h => nomatch h

theorem of_eq {x : Result α} {a : α} (h : x = .ok a) : Unstale x := h ▸ ok a

theorem refused (h : code.isStaleness = false) :
    Unstale (.error (failure code message) : Result α) := by
  rintro e ⟨⟩
  exact h

theorem refuseIf (h : code.isStaleness = false) : Unstale (refuseIf p code message) := by
  unfold FlowScheduler.refuseIf
  split
  · exact refused h
  · exact ok ()

theorem passed (h : ¬ p) : Unstale (FlowScheduler.refuseIf p code message) := by
  rw [FlowScheduler.refuseIf, if_neg h]
  exact ok ()

theorem bind {x : Result α} {f : α → Result β} (h : Unstale x)
    (next : ∀ a, x = .ok a → Unstale (f a)) : Unstale (x >>= f) := by
  intro e he
  cases x with
  | error e' =>
    cases he
    exact h _ rfl
  | ok a => exact next a rfl e he

end Unstale

section Refusals

variable {a : Authority} {s : Impl} {now : Ticks}

theorem unstale_validateReservation
    (current : a.reservation.valid → ∃ d, s.ledger.registry.reservations a.reservation = some d ∧
      d.generation = a.reservationGeneration) :
    Unstale (s.validateReservation a.reservation a.reservationGeneration now) := by
  unfold Impl.validateReservation
  split
  · exact .refuseIf rfl
  · rename_i hvalid
    obtain ⟨d, hd, hg⟩ := current (not_not.mp hvalid)
    obtain ⟨r, hr, rfl⟩ := Option.map_eq_some_iff.mp hd
    rw [show s.reservations[a.reservation]? = some r from hr]
    refine .bind (.refuseIf rfl) fun _ _ => .bind (.passed ?_) fun _ _ => .refuseIf rfl
    exact not_not.mpr hg

theorem superseded_of_stale {e : Error} (reached : Reached a s)
    (h : s.validateTicketFields a now = .error e) (stale : e.code.isStaleness) :
    Superseded a s := by
  by_contra hnot
  have hresource := reached.resource.cases.resolve_right fun hb => hnot (.resource hb)
  have hpriority := reached.priority.cases.resolve_right fun hb => hnot (.priority hb)
  have hqos := reached.qos.cases.resolve_right fun hb => hnot (.qos hb)
  have hepoch : a.epoch = s.epoch := by
    by_contra hne
    refine hnot (.epoch (UInt64.lt_of_le_of_ne reached.epoch fun hv => hne (Id.ext_value hv)))
  have hpolicy : s.policyBinding.policy = a.policy ∧
      s.policyBinding.generation = a.policyGeneration := by
    by_contra hne
    exact hnot (.policy hne)
  obtain ⟨r, hr, hgeneration, hpath⟩ : ∃ r, s.flows[a.flow]? = some r ∧
      r.descriptor.generation = a.flowGeneration ∧
      r.descriptor.path = ⟨a.path, a.pathGeneration⟩ := by
    by_contra hne
    refine hnot (.flow fun d hd => (reached.flow d hd).resolve_right fun hsame => hne ?_)
    rw [Impl.roster_eq] at hd
    obtain ⟨r, hr, rfl⟩ := Option.map_eq_some_iff.mp hd
    exact ⟨r, hr, hsame⟩
  have hreservation : a.reservation.valid → ∃ d,
      s.ledger.registry.reservations a.reservation = some d ∧
        d.generation = a.reservationGeneration :=
    fun hvalid => (reached.reservation hvalid).cases.resolve_right
      fun hb => hnot (.reservation hvalid hb)
  suffices hunstale : Unstale (s.validateTicketFields a now) by
    rw [hunstale e h] at stale
    cases stale
  have hregistered : ∃ r, s.resources[a.resource]? = some r ∧
      r.descriptor.generation = a.resourceGeneration := by
    obtain ⟨d, hd, hg⟩ := hresource
    obtain ⟨r, hr, rfl⟩ := Option.map_eq_some_iff.mp hd
    exact ⟨r, hr, hg⟩
  -- Every comparison holds, so only the window and the deadline can refuse.
  refine .bind (.passed ?_) fun _ _ => .bind (.passed ?_) fun _ _ => ?_
  · rw [← hepoch]
    simp [reached.valid]
  · simp [hpolicy]
  refine .bind (.of_eq (Impl.namedFlow_eq_ok.mpr ⟨hr, hgeneration⟩)) fun r' hr' => ?_
  obtain ⟨hfound, -⟩ := Impl.namedFlow_eq_ok.mp hr'
  obtain rfl := Option.some.inj (hr.symm.trans hfound)
  refine .bind (.passed (by simp [hpath])) fun _ _ => ?_
  refine .bind (.of_eq (a := ()) (Impl.resourceGuard_eq_ok.mpr hregistered)) fun _ _ => ?_
  refine .bind (.of_eq (a := ()) (Impl.priorityGuard_eq_ok.mpr hpriority)) fun _ _ => ?_
  refine .bind (.of_eq (a := ()) (Impl.qosGuard_eq_ok.mpr hqos)) fun _ _ => ?_
  refine .bind (unstale_validateReservation hreservation) fun _ _ => ?_
  exact .bind (.refuseIf rfl) fun _ _ => .refuseIf rfl

theorem superseded_of_stale_revalidate {ticket : DispatchTicket} {e : Error}
    (reached : Reached ticket.authority s) (h : s.revalidate ticket now = .error e)
    (stale : e.code.isStaleness) : Superseded ticket.authority s := by
  by_contra hnot
  have hfields : Unstale (s.validateTicketFields ticket.authority now) := by
    intro e' he'
    by_contra hstale
    exact hnot (superseded_of_stale reached he' (Bool.not_eq_false _ ▸ hstale))
  have hrevalidate : Unstale (s.revalidate ticket now) :=
    .bind (.refuseIf rfl) fun _ _ => .bind (.refuseIf rfl) fun _ _ => .bind (.refuseIf rfl)
      fun _ _ => hfields
  rw [hrevalidate e h] at stale
  cases stale

theorem revalidate_eq_ok {ticket : DispatchTicket} {u : Unit} (h : s.revalidate ticket now = .ok u) :
    s.AuthorityCurrent ticket.authority now := by
  obtain ⟨_, -, h⟩ := bind_eq_ok.mp h
  obtain ⟨_, -, h⟩ := bind_eq_ok.mp h
  obtain ⟨_, -, h⟩ := bind_eq_ok.mp h
  exact Impl.validateTicketFields_eq_ok.mp h

theorem markStartedGuard_eq_ok {ticket : DispatchTicket} {b : Bool}
    (h : s.markStartedGuard ticket now = .ok b) : s.revalidate ticket now = .ok () := by
  unfold Impl.markStartedGuard at h
  split at h
  · cases h
  · obtain ⟨_, -, h⟩ := bind_eq_ok.mp h
    obtain ⟨_, h, -⟩ := bind_eq_ok.mp h
    exact h

end Refusals

section Calls

variable {s t : Scheduler} {ticket : DispatchTicket} {now : Ticks}

theorem revalidate_of_call {response : Response}
    (h : s.call (.revalidate ticket now) = (.ok response, t)) :
    s.impl.revalidate ticket now = .ok () := by
  obtain ⟨_, _, h, -⟩ := exec_bind_ok.mp h
  rw [revalidate, exec_readImpl_bind, exec_lift] at h
  exact congrArg Prod.fst h

theorem error_of_call {e : Error} (h : (s.call (.revalidate ticket now)).1 = .error e) :
    s.impl.revalidate ticket now = .error e := by
  rw [Scheduler.call, Call.op, exec_bind, revalidate, exec_readImpl_bind, exec_lift] at h
  cases hr : s.impl.revalidate ticket now with
  | error e' =>
    rw [hr] at h
    cases h
    rfl
  | ok u =>
    rw [hr] at h
    cases h

theorem revalidate_of_markStarted {response : Response}
    (h : s.call (.markStarted ticket now) = (.ok response, t)) :
    s.impl.revalidate ticket now = .ok () := by
  obtain ⟨_, _, h, -⟩ := exec_bind_ok.mp h
  rw [markStarted, exec_touch_bind, exec_readImpl_bind, exec_lift_bind] at h
  split at h
  · rename_i b hguard
    exact markStartedGuard_eq_ok hguard
  · cases h

theorem reached_of_dispatch {schedule : ScheduleId} {generation : Generation} {ordinal : UInt32}
    {worker : WorkerId} {boot : BootId} (sound : Sound s.impl)
    (issued : s.call (.beginDispatch schedule generation ordinal worker boot now) =
      (.ok (.ticket ticket), t)) : Sound t.impl ∧ Reached ticket.authority t.impl := by
  obtain ⟨entry, flow, hd, hticket⟩ := dispatches_of_call issued
  have hcurrent : s.impl.AuthorityCurrent ticket.authority now := by
    rw [Response.ticket.inj hticket]
    exact hd.authority
  have hlater : LaterBy (fun _ => ticket.authority.MovesOn) s t := by
    have hcalled : LaterBy (fun _ => ticket.authority.MovesOn) s
        (s.call (.beginDispatch schedule generation ordinal worker boot now)).2 :=
      .called .refl _ trivial
    rwa [issued] at hcalled
  exact hlater.preserves sound (fun _ _ _ _ _ on move h => h.move move on) (.of_current hcurrent)

end Calls

/-- Once a ticket has been refused as stale it is refused in every later state, provided no later
call registers its policy again or admits its flow again at a generation it has had. -/
theorem stale_ticket_refused {s₀ s₁ s t : Scheduler} {schedule : ScheduleId}
    {generation : Generation} {ordinal : UInt32} {worker : WorkerId} {boot : BootId}
    {now now' now'' : Ticks} {ticket : DispatchTicket} {e : Error} (reachable : Reachable s₀)
    (issued : s₀.call (.beginDispatch schedule generation ordinal worker boot now) =
      (.ok (.ticket ticket), s₁))
    (before : LaterBy (fun _ => ticket.authority.MovesOn) s₁ s)
    (refused : (s.call (.revalidate ticket now')).1 = .error e) (stale : e.code.isStaleness)
    (after : LaterBy (fun _ => ticket.authority.MovesOn) s t) :
    (∃ e', (t.call (.revalidate ticket now'')).1 = .error e') ∧
      ∃ e', (t.call (.markStarted ticket now'')).1 = .error e' := by
  obtain ⟨sound₁, hreached₁⟩ := reached_of_dispatch reachable.sound issued
  obtain ⟨sound, hreached⟩ := before.preserves sound₁
    (fun _ _ _ _ _ on move h => Reached.move h move on) hreached₁
  have hsuperseded : Superseded ticket.authority s.impl :=
    superseded_of_stale_revalidate hreached (error_of_call refused) stale
  have hlater := (after.preserves sound
    (fun _ _ _ _ _ on move h => Superseded.move h move on) hsuperseded).2
  have hrefused : ∀ u, t.impl.revalidate ticket now'' ≠ .ok u :=
    fun u hu => hlater.not_current now'' (revalidate_eq_ok hu)
  constructor
  · rcases hcall : t.call (.revalidate ticket now'') with ⟨e' | response, t'⟩
    · exact ⟨e', rfl⟩
    · exact absurd (revalidate_of_call hcall) (hrefused ())
  · rcases hcall : t.call (.markStarted ticket now'') with ⟨e' | response, t'⟩
    · exact ⟨e', rfl⟩
    · exact absurd (revalidate_of_markStarted hcall) (hrefused ())

section Sample

open Sample

def ticketOf : Result Response → Option DispatchTicket
  | .ok (.ticket ticket) => some ticket
  | _ => none

theorem call_of_ticketOf {s : Scheduler} {c : Call} {ticket : DispatchTicket}
    (h : ticket ∈ ticketOf (s.call c).1) : s.call c = (.ok (.ticket ticket), (s.call c).2) := by
  rcases hc : s.call c with ⟨_ | response, t⟩
  · simp [hc, ticketOf] at h
  · cases response <;> simp [hc, ticketOf] at h
    rw [h]

def RefusedStale (x : Result Response) : Prop := ∃ e, x = .error e ∧ e.code.isStaleness

instance : DecidablePred RefusedStale
  | .ok _ => .isFalse fun ⟨_, h, _⟩ => nomatch h
  | .error e => decidable_of_iff (e.code.isStaleness) ⟨fun h => ⟨e, rfl, h⟩, fun ⟨_, h, hs⟩ => by
      cases h; exact hs⟩

set_option maxRecDepth 100000 in
/-- After an epoch has passed, the ticket stays refused. -/
theorem stale_ticket_refused_after_epoch : ∃ s₀ s₁ s ticket e, Reachable s₀ ∧
    s₀.call (dispatch 5) = (.ok (.ticket ticket), s₁) ∧
    LaterBy (fun _ => ticket.authority.MovesOn) s₁ s ∧
    (s.call (.revalidate ticket 6)).1 = .error e ∧ e.code.isStaleness ∧
    (∃ e', (s.call (.revalidate ticket 7)).1 = .error e') ∧
      ∃ e', (s.call (.markStarted ticket 7)).1 = .error e' := by
  obtain ⟨s₀, reachable, ticket, hticket, e, hrefused, hstale⟩ : ∃ s, Reachable s ∧
      ∃ ticket ∈ ticketOf (s.call (dispatch 5)).1, RefusedStale
        (((s.call (dispatch 5)).2.call (.advanceEpoch .explicit 6)).2.call
          (.revalidate ticket 6)).1 :=
    @exists_reachable transient (setup ++ [.arbitrate 5]) _ (by decide +kernel)
  have hcall := call_of_ticketOf hticket
  have hlater : LaterBy (fun _ => ticket.authority.MovesOn) (s₀.call (dispatch 5)).2
      ((s₀.call (dispatch 5)).2.call (.advanceEpoch .explicit 6)).2 := .called .refl _ trivial
  exact ⟨s₀, _, _, ticket, e, reachable, hcall, hlater, hrefused, hstale,
    stale_ticket_refused reachable hcall hlater hrefused hstale .refl⟩

set_option maxRecDepth 100000 in
/-- Two policies installed in turn bring a refused ticket back. -/
theorem not_stale_ticket_refused : ∃ s₀ s₁ s t ticket e, Reachable s₀ ∧
    s₀.call (dispatch 5) = (.ok (.ticket ticket), s₁) ∧ LaterBy (fun _ _ => True) s₁ s ∧
    (s.call (.revalidate ticket 6)).1 = .error e ∧ e.code.isStaleness ∧
    LaterBy (fun _ _ => True) s t ∧ (t.call (.revalidate ticket 6)).1.toOption.isSome ∧
    (t.call (.markStarted ticket 6)).1.toOption.isSome := by
  obtain ⟨s₀, reachable, ticket, hticket, ⟨e, hrefused, hstale⟩, hrevived⟩ : ∃ s, Reachable s ∧
      ∃ ticket ∈ ticketOf (s.call (dispatch 5)).1,
        RefusedStale (((s.call (dispatch 5)).2.call (.installPolicy otherPolicy)).2.call
          (.revalidate ticket 6)).1 ∧
        ((((s.call (dispatch 5)).2.call (.installPolicy otherPolicy)).2.call
          (.installPolicy policy)).2.call (.revalidate ticket 6)).1.toOption.isSome ∧
        ((((s.call (dispatch 5)).2.call (.installPolicy otherPolicy)).2.call
          (.installPolicy policy)).2.call (.markStarted ticket 6)).1.toOption.isSome :=
    @exists_reachable transient (setup ++ [.arbitrate 5]) _ (by decide +kernel)
  exact ⟨s₀, _, _, _, ticket, e, reachable, call_of_ticketOf hticket, .called .refl _ trivial,
    hrefused, hstale, .called .refl _ trivial, hrevived⟩

end Sample

end FlowScheduler

import FlowScheduler.Authority.Dispatch
import FlowScheduler.Budget.Reservations

/-! # Exclusive windows

An open exclusive window keeps out the flows without a reservation. It does not
keep out the flows of another reservation, and it is looked at when a flow is
scheduled, not when it is dispatched.
-/

namespace FlowScheduler

open Failing SchedOp OrderedMap Impl

/-- The reservation claims its resource for itself at this tick. -/
structure ReservationRuntime.Claims (x : ReservationRuntime) (resource : ResourceId) (now : Ticks) :
    Prop where
  inForce : x.retired = false
  exclusive : x.descriptor.exclusive = true
  resource : x.descriptor.resource = resource
  window : x.descriptor.windowContains now = true

/-- Whoever claims the resource at this tick, the flow is bound to it. -/
def Impl.Admits (s : Impl) (now : Ticks) (resource : ResourceId) (flow : FlowId) : Prop :=
  ∀ (id : ReservationId) (x : ReservationRuntime), s.reservations[id]? = some x →
    x.Claims resource now → ∃ r, s.flows[flow]? = some r ∧ r.descriptor.reservation.bound ∧
      r.descriptor.reservation.id = id

/-- No resource that is claimed at this tick has another open reservation. -/
def Impl.Undisputed (s : Impl) (now : Ticks) : Prop :=
  ∀ x ∈ s.reservations.toList, ∀ y ∈ s.reservations.toList,
    (x.2.retired = false ∧ x.2.descriptor.exclusive ∧ x.2.descriptor.windowContains now) →
    (y.2.retired = false ∧ y.2.descriptor.resource = x.2.descriptor.resource ∧
      y.2.descriptor.windowContains now) → x.1 = y.1

/-- Whoever claims the resource of the entry now claimed it when the schedule was issued. -/
def Impl.Foreseen (s : Impl) (schedule : ScheduleId) (ordinal : UInt32) (now : Ticks) : Prop :=
  ∀ runtime ∈ s.schedules[schedule]?, ∀ entry ∈ runtime.schedule.entries[ordinal.toNat]?,
    ∀ x ∈ s.reservations.toList, (x.2.retired = false ∧ x.2.descriptor.exclusive ∧
      x.2.descriptor.resource = entry.resource ∧ x.2.descriptor.windowContains now) →
      x.2.descriptor.windowContains runtime.schedule.atTick

/-- Exclusive reservations do not overlap with others when a round runs, are registered only while
no flow is scheduled, and do not open between the schedule and the dispatch. -/
def KeepsExclusive (s : Scheduler) : Call → Prop
  | .registerReservation d =>
    d.exclusive → s.impl.registerReservationGuard d = .ok () → NoneScheduled s.impl
  | .arbitrate now => s.impl.Undisputed now
  | .beginDispatch schedule _ ordinal _ _ now => s.impl.Foreseen schedule ordinal now
  | _ => True

instance (s : Impl) (now : Ticks) : Decidable (s.Undisputed now) := by
  unfold Impl.Undisputed
  infer_instance

instance (s : Impl) (schedule : ScheduleId) (ordinal : UInt32) (now : Ticks) :
    Decidable (s.Foreseen schedule ordinal now) := by
  unfold Impl.Foreseen
  infer_instance

instance : ∀ s c, Decidable (KeepsExclusive s c)
  | s, .registerReservation d => inferInstanceAs (Decidable (d.exclusive →
      s.impl.registerReservationGuard d = .ok () → NoneScheduled s.impl))
  | s, .arbitrate now => inferInstanceAs (Decidable (s.impl.Undisputed now))
  | s, .beginDispatch schedule _ ordinal _ _ now =>
    inferInstanceAs (Decidable (s.impl.Foreseen schedule ordinal now))
  | _, .registerResource _ | _, .retireReservation _ _ | _, .registerPriorityClass _
  | _, .registerQosClass _ | _, .admitFlow _ | _, .updateFlow _ | _, .cancelFlow _ _ _ _
  | _, .notifyReadiness _ _ _ _ | _, .resolveAmbiguous _ _ _ _ | _, .retireFlow _ _
  | _, .installPolicy _ | _, .advanceEpoch _ _ | _, .releaseSchedule _ _ _ | _, .revalidate _ _
  | _, .markStarted _ _ | _, .abandonAttempt _ _ _ | _, .preemptAttempt _ _ _ | _, .complete _ _
  | _, .checkpoint => .isTrue trivial

def ClaimsLess (s s' : Impl) : Prop :=
  ∀ id d, s'.terms id = some (d, false) → d.exclusive → s.terms id = some (d, false)

theorem terms_of_get {s : Impl} {id : ReservationId} {x : ReservationRuntime}
    (found : s.reservations[id]? = some x) : s.terms id = some (x.descriptor, x.retired) :=
  congrArg (Option.map fun x : ReservationRuntime => (x.descriptor, x.retired)) found

theorem ClaimsLess.claim {s s' : Impl} (h : ClaimsLess s s') {id : ReservationId}
    {x' : ReservationRuntime} {resource : ResourceId} {now : Ticks}
    (found : s'.reservations[id]? = some x') (claims : x'.Claims resource now) :
    ∃ x, s.reservations[id]? = some x ∧ x.Claims resource now := by
  have hterms := terms_of_get found
  rw [claims.inForce] at hterms
  obtain ⟨x, hx, hsame⟩ := Option.map_eq_some_iff.mp (h id _ hterms claims.exclusive)
  obtain ⟨hdescriptor, hretired⟩ := Prod.mk.inj hsame
  refine ⟨x, hx, hretired, ?_, ?_, ?_⟩
  · rw [hdescriptor]
    exact claims.exclusive
  · rw [hdescriptor]
    exact claims.resource
  · rw [hdescriptor]
    exact claims.window

theorem ClaimsLess.of_eq {s s' : Impl} (h : s'.terms = s.terms) : ClaimsLess s s' :=
  fun _ _ hterms _ => h ▸ hterms

theorem CallMove.claimsLess {c : Call} {s s' : Impl} {r : Option Record} (move : CallMove c s r s')
    (shared : ∀ d, c = .registerReservation d → d.exclusive = false) : ClaimsLess s s' := by
  cases r with
  | none =>
    refine .of_eq (funext fun id => ?_)
    unfold Impl.terms
    rw [move.quiet]
  | some record =>
    rcases move.ledger with hledger | ⟨-, rfl⟩
    · have hterms : ∀ id, s'.terms id = ((s.ledger.apply record).reservations id).map
          fun x => (x.descriptor, x.retired) := by
        intro id
        unfold Impl.terms
        rw [hledger]
      intro id d hd hexclusive
      rw [hterms] at hd
      cases move with
      | @registerReservation _ d₁ =>
        simp only [Ledger.apply, Ledger.registerReservation, Function.update_apply] at hd
        split at hd
        · cases hd
          rw [shared d₁ rfl] at hexclusive
          cases hexclusive
        · exact hd
      | @retireReservation _ id₁ generation =>
        simp only [Ledger.apply, Ledger.retireReservation, Ledger.modifyReservation,
          Function.update_apply] at hd
        split at hd
        · rename_i hid
          subst hid
          obtain ⟨x', hx', hsame⟩ := Option.map_eq_some_iff.mp hd
          obtain ⟨x, hx, rfl⟩ := Option.map_eq_some_iff.mp hx'
          split at hsame
          · cases hsame
          · rw [Impl.terms, hx]
            exact congrArg some hsame
        · exact hd
      | common move =>
        cases move <;> rw [Ledger.reservations_apply rfl] at hd <;> exact hd
      | _ =>
        rw [Ledger.reservations_apply rfl] at hd
        exact hd
    · exact .of_eq rfl

/-- The window was granted to whoever claimed its resource then. -/
def Impl.Owned (s : Impl) (r : FlowRuntime) (schedule : Schedule) (e : ScheduleEntry) : Prop :=
  ∀ (a : ReservationId) (x : ReservationRuntime), s.reservations[a]? = some x →
    x.Claims e.resource schedule.atTick →
    r.descriptor.reservation.bound ∧ r.descriptor.reservation.id = a

/-- Who claimed the resource of a scheduled window when it was granted is the one it was granted
under. -/
def ExclusiveKept (s : Impl) : Prop := s.EachWindow (Carries s.Owned)

section Rounds

variable {s s' : Impl} {now : Ticks} {entries : List ScheduleEntry}

theorem Impl.Undisputed.congr (h : s.Undisputed now) (same : s'.terms = s.terms) :
    s'.Undisputed now := by
  have hold : ∀ x ∈ s'.reservations.toList, ∃ y ∈ s.reservations.toList,
      y.1 = x.1 ∧ y.2.descriptor = x.2.descriptor ∧ y.2.retired = x.2.retired := by
    rintro ⟨id, x⟩ hx
    obtain ⟨y, hy, hdescriptor, hretired⟩ := terms_eq same (mem_toList.mp hx)
    exact ⟨(id, y), mem_toList.mpr hy, rfl, hdescriptor, hretired⟩
  intro x hx y hy hclaims hopen
  obtain ⟨x₀, hx₀, hxid, hxd, hxr⟩ := hold x hx
  obtain ⟨y₀, hy₀, hyid, hyd, hyr⟩ := hold y hy
  rw [← hxid, ← hyid]
  refine h x₀ hx₀ y₀ hy₀ ?_ ?_
  · rw [hxd, hxr]
    exact hclaims
  · rw [hxd, hyd, hyr]
    exact hopen

theorem Impl.Grants.admits {e : ScheduleEntry} {r : FlowRuntime} (h : s.Grants now e r)
    (undisputed : s.Undisputed now) {id : ReservationId} {x : ReservationRuntime}
    (found : s.reservations[id]? = some x) (claims : x.Claims e.resource now) :
    r.descriptor.reservation.bound ∧ r.descriptor.reservation.id = id := by
  obtain ⟨candidate, hentry⟩ := h.entry
  have hresource : e.resource = r.descriptor.resource.id := by
    rw [hentry]
    rfl
  by_cases hbound : r.descriptor.reservation.bound
  · refine ⟨hbound, ?_⟩
    obtain ⟨y, hy, hretired, -, hyresource, hwindow⟩ := usable_bound h.usable hbound
    refine (undisputed (id, x) (mem_toList.mpr found) (_, y) (mem_toList.mpr hy) ?_ ?_).symm
    · exact ⟨claims.inForce, claims.exclusive, claims.window⟩
    · exact ⟨hretired, hyresource.trans (hresource.symm.trans claims.resource.symm), hwindow⟩
  · -- A flow without a reservation is not granted anything while the window is open.
    have husable := h.usable
    unfold reservationUsable at husable
    rw [if_pos hbound] at husable
    split at husable
    · cases husable
    · rename_i hnone
      refine absurd (List.any_eq_true.mpr ⟨(id, x), mem_toList.mpr found, ?_⟩) hnone
      simp [claims.inForce, claims.exclusive, claims.window, claims.resource, hresource]

end Rounds

namespace ExclusiveKept

variable {s s' : Impl} {now : Ticks}

theorem same (less : ClaimsLess s s') (id : FlowId) (r r' : FlowRuntime) (schedule : Schedule)
    (window : r.SameWindow r') (h : Carries s.Owned id r schedule) :
    Carries s'.Owned id r' schedule := by
  refine h.sameWindow window fun e hterms howned a x' hx' hclaims => ?_
  obtain ⟨x, hx, hclaims⟩ := less.claim hx' hclaims
  rw [hterms]
  exact howned a x hx hclaims

theorem round {r : Option Record} (h : ExclusiveKept s) (undisputed : s.Undisputed now)
    (move : RoundMove now s r s') : ExclusiveKept s' := by
  have hless : ClaimsLess s s' := .of_eq move.terms
  refine EachWindow.roundMove h (same hless) move fun entries id r' issues offered scheduled => ?_
  refine issues.carries offered scheduled fun r e hgrants _ hdescriptor a x' hx' hclaims => ?_
  obtain ⟨x, hx, hclaims⟩ := hless.claim hx' hclaims
  rw [hdescriptor]
  exact hgrants.admits undisputed hx hclaims

theorem call {c : Call} {r : Option Record} (h : ExclusiveKept s) (move : CallMove c s r s')
    (shared : ∀ d, c = .registerReservation d → d.exclusive = false) : ExclusiveKept s' :=
  EachWindow.callMove h (same (move.claimsLess shared)) move

end ExclusiveKept

theorem impl_registerReservation (s : Scheduler) (d : ReservationDescriptor) :
    (s.call (.registerReservation d)).2.impl = s.impl ∨
      (s.impl.registerReservationGuard d = .ok () ∧
        (s.call (.registerReservation d)).2.impl = s.impl.applyReservation d) := by
  have h : (exec (registerReservation d) s).2.impl = s.impl ∨
      (s.impl.registerReservationGuard d = .ok () ∧
        (exec (registerReservation d) s).2.impl = s.impl.applyReservation d) := impl_guarded
  rwa [← exec_done] at h

theorem exclusiveKept_arbitrate {s : Scheduler} {now : Ticks} (sound : Sound s.impl)
    (undisputed : s.impl.Undisputed now) (h : ExclusiveKept s.impl) :
    ExclusiveKept (s.call (.arbitrate now)).2.impl := by
  have hround : ExclusiveKept (s.call (.arbitrate now)).2.impl ∧
      (s.call (.arbitrate now)).2.impl.terms = s.impl.terms := by
    obtain ⟨rs, hm⟩ := makes_arbitrate sound now
    refine hm.preserves (P := fun i => ExclusiveKept i ∧ i.terms = s.impl.terms)
      (fun i r i' move hi => ?_) ⟨h, rfl⟩
    exact ⟨hi.1.round (undisputed.congr hi.2) move, move.terms.trans hi.2⟩
  exact hround.1

theorem exclusiveKept_of_reachableBy {s : Scheduler} (h : ReachableBy KeepsExclusive s) :
    ExclusiveKept s.impl := by
  refine h.invariant (fun _ _ _ hs => EachWindow.of_schedules_empty (schedules_create hs)) ?_
  intro s c sound ok kept
  by_cases hround : ∃ now, c = .arbitrate now
  · obtain ⟨now, rfl⟩ := hround
    exact exclusiveKept_arbitrate sound ok kept
  · by_cases hregister : ∃ d, c = .registerReservation d ∧ d.exclusive
    · obtain ⟨d, rfl, hexclusive⟩ := hregister
      rcases impl_registerReservation s d with hsame | ⟨hguard, happlied⟩
      · rw [hsame]
        exact kept
      · rw [happlied]
        intro id r hr hl
        exact absurd hl (ok hexclusive hguard _ (mem_toList.mpr hr))
    · refine preserves_call (fun i r i' move hi => ?_) sound kept
      rcases move with move | ⟨now, rfl, -⟩
      · refine hi.call move fun d hd => ?_
        exact Bool.eq_false_iff.mpr fun hexclusive => hregister ⟨d, hd, hexclusive⟩
      · exact absurd ⟨now, rfl⟩ hround

/-- What a round has granted so far respects the claims it found. -/
structure RespectsClaims (s : Impl) (now : Ticks) (n : ℕ) (i : Impl) (l : List Record) : Prop where
  terms : i.terms = s.terms
  roster : i.ledger.roster = s.ledger.roster
  longer : n ≤ l.length
  admits : ∀ e ∈ issuedEntries (l.drop n), s.Admits now e.resource e.flow

theorem RespectsClaims.move {s i i' : Impl} {now : Ticks} {n : ℕ} {l : List Record}
    {r : Option Record} (h : RespectsClaims s now n i l) (undisputed : s.Undisputed now)
    (move : RoundMove now i r i') : RespectsClaims s now n i' (l ++ r.toList) where
  terms := move.terms.trans h.terms
  roster := move.roster.trans h.roster
  longer := by
    have := h.longer
    rw [List.length_append]
    omega
  admits := by
    intro e he
    rw [List.drop_append_of_le_length h.longer, issuedEntries_append] at he
    rcases List.mem_append.mp he with he | he
    · exact h.admits e he
    · cases move with
      | issue _ issues =>
        simp only [Option.toList_some, issuedEntries, List.flatMap_singleton, Record.windows] at he
        obtain ⟨hmem, hk⟩ := List.mem_filter.mp he
        obtain ⟨r, hr⟩ := issues.run e hmem (of_decide_eq_true hk)
        intro id x hx hclaims
        obtain ⟨x', hx', hclaims'⟩ := (ClaimsLess.of_eq h.terms.symm).claim hx hclaims
        obtain ⟨hbound, hid⟩ := hr.admits (undisputed.congr h.terms) hx' hclaims'
        have hroster := congrFun h.roster e.flow
        simp only [Ledger.roster, ledger_flows, hr.found, Option.map_some] at hroster
        obtain ⟨f, hf, hdescriptor⟩ := Option.map_eq_some_iff.mp hroster.symm
        obtain ⟨r₀, hr₀, rfl⟩ := Option.map_eq_some_iff.mp hf
        have hsame : r₀.descriptor = r.descriptor := hdescriptor
        exact ⟨r₀, hr₀, by rw [hsame]; exact hbound, by rw [hsame]; exact hid⟩
      | common move => cases move <;> cases he
      | _ => cases he

/-- While exclusive reservations neither overlap with others when a round runs, nor come into force
over scheduled flows, nor open between the schedule and the dispatch, an open exclusive window keeps
every other flow off its resource. -/
theorem exclusive_window_kept {s : Scheduler} {c : Call} (reachable : ReachableBy KeepsExclusive s)
    (ok : KeepsExclusive s c) :
    (∀ now, c = .arbitrate now →
      ∀ e ∈ issuedEntries ((s.call c).2.accepted.drop s.accepted.length),
        s.impl.Admits now e.resource e.flow) ∧
    (∀ schedule generation ordinal worker boot now ticket t,
      c = .beginDispatch schedule generation ordinal worker boot now →
      s.call c = (.ok (.ticket ticket), t) → s.impl.Admits now ticket.resource ticket.flow) := by
  constructor
  · rintro now rfl
    have hstart : RespectsClaims s.impl now s.accepted.length s.impl s.accepted := by
      refine ⟨rfl, rfl, le_refl _, fun e he => ?_⟩
      rw [List.drop_length] at he
      cases he
    obtain ⟨rs, hm⟩ := makes_arbitrate reachable.sound now
    have hend := hm.preserves_history (P := RespectsClaims s.impl now s.accepted.length)
      (fun _ _ l move h => ?_) (fun _ _ _ _ move h => h.move ok move) hstart
    · exact hend.admits
    · have hmoved := h.move ok move
      rwa [show l ++ (none : Option Record).toList = l from List.append_nil l] at hmoved
  · rintro schedule generation ordinal worker boot now ticket t rfl hcall id x hx hclaims
    obtain ⟨entry, flow, hd, hticket⟩ := dispatches_of_call hcall
    cases hticket
    obtain ⟨runtime, hretained, -, -, hnamed, -⟩ := hd.retained
    have hkept := exclusiveKept_of_reachableBy reachable entry.flow flow hd.found hd.scheduled
      runtime (by rw [hd.holds]; exact hretained) entry (List.mem_of_getElem? hnamed) hd.run rfl
    have hforeseen := ok runtime hretained entry hnamed (id, x) (mem_toList.mpr hx)
      ⟨hclaims.inForce, hclaims.exclusive, hclaims.resource, hclaims.window⟩
    have hheld := hkept.2 hd.generation.symm id x hx
      ⟨hclaims.inForce, hclaims.exclusive, hclaims.resource, hforeseen⟩
    exact ⟨flow, hd.found, hheld⟩

section Sample

open Sample

/-- The resource of the sample, for the flows of this reservation alone. -/
def Sample.exclusive : ReservationDescriptor := { reservation with exclusive := true }

def Sample.second : ReservationDescriptor := { reservation with reservation := ⟨2⟩ }

set_option maxRecDepth 100000 in
theorem exclusive_window_kept_sample : ∃ s, ReachableBy KeepsExclusive s ∧
    KeepsExclusive s (.arbitrate 5) ∧
    (∃ e, e ∈ issuedEntries ((s.call (.arbitrate 5)).2.accepted.drop s.accepted.length) ∧
      s.impl.Admits 5 e.resource e.flow) := by
  obtain ⟨s, reachable, ok, e, he⟩ : ∃ s, ReachableBy KeepsExclusive s ∧
      KeepsExclusive s (.arbitrate 5) ∧
      ∃ e ∈ issuedEntries ((s.call (.arbitrate 5)).2.accepted.drop s.accepted.length), e.flow = ⟨1⟩ :=
    @exists_reachableBy transient [.registerResource resource, .registerPriorityClass priority,
      .registerQosClass qos, .registerReservation exclusive,
      .admitFlow { flow 1 with reservation := ⟨⟨1⟩, ⟨1⟩⟩ }, .admitFlow (flow 2)] _ _
      (by decide +kernel)
  exact ⟨s, reachable, ok, e, he.1, (exclusive_window_kept reachable ok).1 5 rfl e he.1⟩

set_option maxRecDepth 100000 in
/-- A flow of another reservation is scheduled into the exclusive window. -/
theorem not_exclusive_window_kept : ∃ s, Reachable s ∧
    ∃ e ∈ issuedEntries ((s.call (.arbitrate 5)).2.accepted.drop s.accepted.length),
      ¬ s.impl.Admits 5 e.resource e.flow := by
  obtain ⟨s, reachable, e, he, x, hx, hclaims, hother⟩ : ∃ s, Reachable s ∧
      ∃ e ∈ issuedEntries ((s.call (.arbitrate 5)).2.accepted.drop s.accepted.length),
      ∃ x ∈ s.impl.reservations[(⟨1⟩ : ReservationId)]?,
        (x.retired = false ∧ x.descriptor.exclusive ∧ x.descriptor.resource = e.resource ∧
          x.descriptor.windowContains 5) ∧
        ∀ r ∈ s.impl.flows[e.flow]?, r.descriptor.reservation.id ≠ ⟨1⟩ :=
    @exists_reachable transient [.registerResource resource, .registerPriorityClass priority,
      .registerQosClass qos, .registerReservation exclusive, .registerReservation second,
      .admitFlow { flow 1 with reservation := ⟨⟨2⟩, ⟨1⟩⟩ }] _ (by decide +kernel)
  refine ⟨s, reachable, e, he, fun hadmits => ?_⟩
  obtain ⟨r, hr, -, hid⟩ := hadmits ⟨1⟩ x hx ⟨hclaims.1, hclaims.2.1, hclaims.2.2.1, hclaims.2.2.2⟩
  exact hother r hr hid

end Sample

end FlowScheduler

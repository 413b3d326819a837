import FlowScheduler.Ledger.Accounts
import FlowScheduler.Steps.Reachable

/-! # Reservations are never overdrawn

What a reservation has been charged covers every window granted under its name
since the scheduler was opened, whatever was registered for it in between. So
the room a round finds in the account bounds the total of all windows.
-/

namespace FlowScheduler

open Failing SchedOp OrderedMap Impl

def Record.windows : Record → List ScheduleEntry
  | .scheduleIssued schedule => schedule.entries.filter (·.kind = .run)
  | _ => []

def issuedEntries (records : List Record) : List ScheduleEntry := records.flatMap Record.windows

theorem issuedEntries_append (l m : List Record) :
    issuedEntries (l ++ m) = issuedEntries l ++ issuedEntries m := by
  simp [issuedEntries]

theorem issuedEntries_concat (l : List Record) (r : Record) :
    issuedEntries (l ++ [r]) = issuedEntries l ++ r.windows := by
  simp [issuedEntries]

theorem Record.windows_eq_nil {r : Record} (h : ∀ schedule, r ≠ .scheduleIssued schedule) :
    r.windows = [] := by
  cases r with
  | scheduleIssued schedule => exact absurd rfl (h schedule)
  | _ => rfl

/-- Leaving out what is no service window changes no total of service windows. -/
theorem serviceOf_windows {p : ScheduleEntry → Bool} (run : ∀ e, p e → e.kind = .run)
    (schedule : Schedule) :
    serviceOf p (Record.scheduleIssued schedule).windows = serviceOf p schedule.entries := by
  unfold serviceOf Record.windows
  rw [List.filter_filter]
  refine congrArg (fun es : List ScheduleEntry => (es.map (·.quantum.toNat)).sum) ?_
  refine List.filter_congr fun e _ => ?_
  by_cases hp : p e
  · simp [hp, run e hp]
  · simp [hp]

theorem ScheduleEntry.run_of_runsUnder {id : ReservationId} (e : ScheduleEntry)
    (h : e.runsUnder id) : e.kind = .run := by
  simp only [ScheduleEntry.runsUnder, Bool.and_eq_true, decide_eq_true_eq] at h
  exact h.1.1

def Ledger.unitsDrawn (l : Ledger) (id : ReservationId) : ℕ :=
  (l.reservations id).elim 0 (·.reservedUnits.toNat)

def Covered (i : Impl) (l : List Record) : Prop :=
  ∀ id, serviceOf (·.runsUnder id) (issuedEntries l) ≤ i.ledger.unitsDrawn id

/-- The entry is granted under a reservation that is in force for it. -/
structure ReservationRuntime.Backs (account : ReservationRuntime) (e : ScheduleEntry) : Prop where
  inForce : account.retired = false
  generation : account.descriptor.generation = e.reservationGeneration
  resource : account.descriptor.resource = e.resource
  window : account.descriptor.windowContains e.startTick

section Issue

variable {s : Impl} {now : Ticks} {entries : List ScheduleEntry} {e : ScheduleEntry}

theorem Impl.Grants.backs {r : FlowRuntime} {id : ReservationId} (h : s.Grants now e r)
    (under : e.runsUnder id) :
    ∃ account, s.reservations[id]? = some account ∧ account.Backs e := by
  obtain ⟨rfl, -⟩ := ScheduleEntry.valid_of_runsUnder under
  obtain ⟨candidate, hentry⟩ := h.entry
  have hbound : r.descriptor.reservation.bound := by
    simp only [ScheduleEntry.runsUnder, Bool.and_eq_true] at under
    rw [hentry] at under
    exact under.2
  obtain ⟨account, hfound, hretired, hgeneration, hresource, hwindow⟩ :=
    usable_bound h.usable hbound
  rw [hentry]
  exact ⟨account, hfound, hretired, hgeneration, hresource, hwindow⟩

theorem Impl.Grants.awaits {r : FlowRuntime} (h : s.Grants now e r) : s.ledger.Awaits e := by
  obtain ⟨candidate, hentry⟩ := h.entry
  refine ⟨r.ledger, by rw [ledger_flows, h.found]; rfl, ?_, ?_⟩
  · rw [hentry]
    rfl
  · simp only [FlowRuntime.ledger, h.ready]
    rfl

theorem unitsDrawn_issue (h : s.Issues now entries) (id : ReservationId) {schedule : Schedule}
    (same : schedule.entries = entries) :
    s.ledger.unitsDrawn id + serviceOf (·.runsUnder id) entries ≤
      (s.ledger.issue schedule).unitsDrawn id := by
  have hawaits : ∀ e ∈ entries, e.kind = .run → s.ledger.Awaits e := by
    intro e he hk
    obtain ⟨r, hr⟩ := h.run e he hk
    exact hr.awaits
  unfold Ledger.unitsDrawn Ledger.issue
  rw [same]
  cases hfound : s.ledger.reservations id with
  | none =>
    have hzero : serviceOf (·.runsUnder id) entries = 0 := by
      refine serviceOf_eq_zero fun e he hunder => ?_
      obtain ⟨r, hr⟩ := h.run e he (e.run_of_runsUnder hunder)
      obtain ⟨account, haccount, -⟩ := hr.backs hunder
      exact absurd (haccount.symm.trans hfound) (by simp)
    rw [hzero]
    exact Nat.zero_le _
  | some account =>
    obtain ⟨account', hfound', hdraws⟩ := Ledger.draws_entries entries hawaits hfound
    have hcovers : serviceOf (·.runsUnder id) entries ≤
        serviceOf (·.draws id account.descriptor.generation) entries := by
      refine serviceOf_mono fun e he hunder => ?_
      obtain ⟨r, hr⟩ := h.run e he (e.run_of_runsUnder hunder)
      obtain ⟨account₁, haccount₁, hbacks⟩ := hr.backs hunder
      obtain rfl : account = account₁ := Option.some.inj (hfound.symm.trans haccount₁)
      obtain ⟨rfl, hvalid⟩ := ScheduleEntry.valid_of_runsUnder hunder
      simp [ScheduleEntry.draws, e.run_of_runsUnder hunder, hvalid, hbacks.generation]
    have hroom := h.reserved id account hfound
    have hunits := hdraws.units
    have hcapacity := account.descriptor.capacity.toNat_lt
    have hlt := account.reservedUnits.toNat_lt
    rw [hfound']
    simp only [Option.elim_some]
    omega

end Issue

theorem Ledger.Quiet.reservations {x y : Ledger} (h : x.Quiet y) :
    y.reservations = x.reservations := by
  cases h <;> rfl

section Moves

variable {c : Call} {s s' : Impl} {l : List Record} {r : Record}

theorem Covered.congr (h : Covered s l)
    (drawn : s'.ledger.unitsDrawn = s.ledger.unitsDrawn) : Covered s' l := by
  unfold Covered
  rw [drawn]
  exact h

theorem Covered.concat (h : Covered s l) (windows : r.windows = [])
    (drawn : s'.ledger.unitsDrawn = s.ledger.unitsDrawn) : Covered s' (l ++ [r]) := by
  have hsame : issuedEntries (l ++ [r]) = issuedEntries l := by
    rw [issuedEntries_concat, windows, List.append_nil]
  unfold Covered
  rw [hsame, drawn]
  exact h

theorem unitsDrawn_registerReservation (x : Ledger) (d : ReservationDescriptor) :
    (x.registerReservation d).unitsDrawn = x.unitsDrawn := by
  funext id
  simp only [Ledger.unitsDrawn, Ledger.registerReservation, Function.update_apply]
  split
  · rename_i hid
    subst hid
    cases x.reservations d.reservation <;> rfl
  · rfl

theorem unitsDrawn_retireReservation (x : Ledger) (id : ReservationId) (generation : Generation) :
    (x.retireReservation id generation).unitsDrawn = x.unitsDrawn := by
  funext a
  simp only [Ledger.unitsDrawn, Ledger.retireReservation, Ledger.modifyReservation,
    Function.update_apply]
  split
  · rename_i ha
    subst ha
    cases x.reservations a with
    | none => rfl
    | some account =>
      simp only [Option.map_some, Option.elim_some]
      split <;> rfl
  · rfl

theorem unitsDrawn_apply (x : Ledger) {r : Record} (h : ∀ schedule, r ≠ .scheduleIssued schedule) :
    (x.apply r).unitsDrawn = x.unitsDrawn := by
  cases r with
  | reservationRegistered d => exact unitsDrawn_registerReservation x d
  | reservationRetired id generation => exact unitsDrawn_retireReservation x id generation
  | scheduleIssued schedule => exact absurd rfl (h schedule)
  | _ =>
    funext id
    unfold Ledger.unitsDrawn
    rw [Ledger.reservations_apply rfl]

theorem Covered.quiet (h : Covered s l) (move : Move c s none s') : Covered s' l := by
  refine h.congr ?_
  funext id
  unfold Ledger.unitsDrawn
  rcases move with move | ⟨now, -, move⟩
  · rw [move.quiet]
  · rw [move.quiet.reservations]

theorem Covered.record (h : Covered s l) (move : Move c s (some r) s') : Covered s' (l ++ [r]) := by
  by_cases hissue : ∃ schedule, r = .scheduleIssued schedule
  · obtain ⟨schedule, rfl⟩ := hissue
    rcases move with move | ⟨now, -, move⟩
    · cases move with
      | common move => cases move
    · have hledger := move.ledger
      cases move with
      | common move => cases move
      | issue _ issues =>
        intro id
        rw [hledger, issuedEntries_concat, serviceOf_append,
          serviceOf_windows fun e => e.run_of_runsUnder]
        exact (Nat.add_le_add_right (h id) _).trans (unitsDrawn_issue issues id rfl)
  · have hother : ∀ schedule, r ≠ .scheduleIssued schedule :=
      fun schedule hr => hissue ⟨schedule, hr⟩
    refine h.concat (Record.windows_eq_nil hother) ?_
    rcases move with move | ⟨now, -, move⟩
    · rcases move.ledger with hledger | ⟨-, rfl⟩
      · rw [hledger]
        exact unitsDrawn_apply _ hother
      · rfl
    · rw [move.ledger]
      exact unitsDrawn_apply _ hother

end Moves

theorem covered_of_reachable {s : Scheduler} (h : Reachable s) : Covered s.impl s.accepted := by
  refine h.invariant_history (fun options files s hs id => ?_) fun s c sound _ hcovered => ?_
  · have hnone : issuedEntries s.accepted = [] := by
      rcases accepted_create hs with hnil | ⟨previous, next, reason, now, hepoch⟩
      · rw [hnil]
        rfl
      · rw [hepoch]
        rfl
    rw [hnone]
    exact Nat.zero_le _
  · exact preserves_call_history (fun _ _ _ move h => h.quiet move)
      (fun _ _ _ _ move h => h.record move) sound hcovered

section Round

variable {now : Ticks} {i i' i₀ : Impl} {l : List Record}

/-- What a round leaves of an account: everything but the units drawn. -/
def Impl.terms (i : Impl) (id : ReservationId) : Option (ReservationDescriptor × Bool) :=
  (i.ledger.reservations id).map fun account => (account.descriptor, account.retired)

theorem terms_issue (x : Ledger) (schedule : Schedule) (id : ReservationId)
    (awaits : ∀ e ∈ schedule.entries, e.kind = .run → x.Awaits e) :
    ((x.issue schedule).reservations id).map (fun account => (account.descriptor, account.retired)) =
      (x.reservations id).map fun account => (account.descriptor, account.retired) := by
  cases hfound : x.reservations id with
  | none =>
    have hnone := Ledger.reservations_entries_none schedule.entries awaits hfound
    rw [Ledger.issue, hnone]
  | some account =>
    obtain ⟨account', hfound', hdraws⟩ := Ledger.draws_entries schedule.entries awaits hfound
    rw [Ledger.issue, hfound']
    simp [hdraws.descriptor, hdraws.retired]

theorem RoundMove.terms {r : Option Record} (move : RoundMove now i r i') : i'.terms = i.terms := by
  funext id
  unfold Impl.terms
  cases r with
  | none => rw [move.quiet.reservations]
  | some record =>
    rw [move.ledger]
    cases move with
    | common move =>
      cases move with
      | close => rw [Ledger.reservations_apply rfl]
      | release => rw [Ledger.reservations_apply rfl]
    | issue _ issues =>
      refine terms_issue _ _ _ fun e he hk => ?_
      obtain ⟨r, hr⟩ := issues.run e he hk
      exact hr.awaits

/-- What a round that began with these accounts has handed out under a reservation is backed by it
and, with all that was handed out before, within its capacity. -/
def Honoured (i₀ : Impl) (l₀ l : List Record) : Prop :=
  ∀ e ∈ issuedEntries (l.drop l₀.length), ∀ id, e.runsUnder id →
    ∃ account, i₀.reservations[id]? = some account ∧ account.Backs e ∧
      serviceOf (·.runsUnder id) (issuedEntries l) ≤ account.descriptor.capacity.toNat

theorem serviceOf_pos {p : ScheduleEntry → Bool} {entries : List ScheduleEntry} {e : ScheduleEntry}
    (mem : e ∈ entries) (hp : p e) (positive : 0 < e.quantum) : 0 < serviceOf p entries := by
  rw [UInt64.lt_iff_toNat_lt, UInt64.toNat_zero] at positive
  refine lt_of_lt_of_le positive ?_
  unfold serviceOf
  refine List.single_le_sum (fun _ _ => Nat.zero_le _) _ ?_
  exact List.mem_map.mpr ⟨e, List.mem_filter.mpr ⟨mem, hp⟩, rfl⟩

/-- When a schedule draws on a reservation, all that was ever granted under it fits its capacity. -/
theorem fits_of_issue {entries : List ScheduleEntry} {schedule : Schedule} {id : ReservationId}
    {account : ReservationRuntime} (covered : Covered i l) (issues : i.Issues now entries)
    (same : schedule.entries = entries) (found : i.reservations[id]? = some account)
    (drawn : 0 < serviceOf (·.runsUnder id) entries) :
    serviceOf (·.runsUnder id) (issuedEntries (l ++ [.scheduleIssued schedule])) ≤
      account.descriptor.capacity.toNat := by
  have hbefore := covered id
  have hroom := issues.reserved id account found
  have hunits : i.ledger.unitsDrawn id = account.reservedUnits.toNat := by
    simp only [Ledger.unitsDrawn, Impl.ledger, found, Option.elim_some]
  rw [issuedEntries_concat, serviceOf_append, serviceOf_windows fun e => e.run_of_runsUnder, same]
  omega

theorem terms_eq {id : ReservationId} {account : ReservationRuntime} (h : i.terms = i₀.terms)
    (found : i.reservations[id]? = some account) :
    ∃ account₀, i₀.reservations[id]? = some account₀ ∧
      account₀.descriptor = account.descriptor ∧ account₀.retired = account.retired := by
  have hid := congrFun h id
  simp only [Impl.terms, Impl.ledger, found, Option.map_some] at hid
  obtain ⟨account₀, hfound₀, hsame⟩ := Option.map_eq_some_iff.mp hid.symm
  exact ⟨account₀, hfound₀, (Prod.mk.inj hsame).1, (Prod.mk.inj hsame).2⟩

theorem Honoured.issue {l₀ : List Record} {entries : List ScheduleEntry} {schedule : Schedule}
    (h : Honoured i₀ l₀ l) (longer : l₀.length ≤ l.length) (covered : Covered i l)
    (terms : i.terms = i₀.terms) (issues : i.Issues now entries)
    (same : schedule.entries = entries) : Honoured i₀ l₀ (l ++ [.scheduleIssued schedule]) := by
  intro e he id hunder
  rw [List.drop_append_of_le_length longer, issuedEntries_concat] at he
  rcases List.mem_append.mp he with hold | hnew
  · obtain ⟨account, hfound, hbacks, hfits⟩ := h e hold id hunder
    refine ⟨account, hfound, hbacks, ?_⟩
    by_cases hdrawn : 0 < serviceOf (·.runsUnder id) entries
    · obtain ⟨account₁, hfound₁, hdescriptor, -⟩ := terms_eq terms.symm hfound
      rw [← hdescriptor]
      exact fits_of_issue covered issues same hfound₁ hdrawn
    · rw [issuedEntries_concat, serviceOf_append, serviceOf_windows fun e => e.run_of_runsUnder, same]
      omega
  · obtain ⟨hmem, hk⟩ := List.mem_filter.mp hnew
    rw [same] at hmem
    obtain ⟨r, hr⟩ := issues.run e hmem (of_decide_eq_true hk)
    obtain ⟨account, hfound, hbacks⟩ := hr.backs hunder
    obtain ⟨account₀, hfound₀, hdescriptor, hretired⟩ := terms_eq terms hfound
    refine ⟨account₀, hfound₀, ?_, ?_⟩
    · refine ⟨hretired.trans hbacks.inForce, ?_, ?_, ?_⟩
      · rw [hdescriptor]
        exact hbacks.generation
      · rw [hdescriptor]
        exact hbacks.resource
      · rw [hdescriptor]
        exact hbacks.window
    · rw [hdescriptor]
      exact fits_of_issue covered issues same hfound (serviceOf_pos hmem hunder hr.positive)

/-- The state of a round, relative to where it began. -/
structure InRound (i₀ : Impl) (l₀ : List Record) (i : Impl) (l : List Record) : Prop where
  covered : Covered i l
  terms : i.terms = i₀.terms
  longer : l₀.length ≤ l.length
  honoured : Honoured i₀ l₀ l

theorem InRound.record {l₀ : List Record} {r : Record} (h : InRound i₀ l₀ i l)
    (move : RoundMove now i (some r) i') : InRound i₀ l₀ i' (l ++ [r]) where
  covered := h.covered.record (c := .arbitrate now) (.inr ⟨now, rfl, move⟩)
  terms := move.terms.trans h.terms
  longer := by
    have := h.longer
    rw [List.length_append]
    omega
  honoured := by
    cases move with
    | issue _ issues => exact h.honoured.issue h.longer h.covered h.terms issues rfl
    | common move =>
      have hwindows : r.windows = [] := by cases move <;> rfl
      intro e he id hunder
      rw [List.drop_append_of_le_length h.longer, issuedEntries_concat, hwindows,
        List.append_nil] at he
      rw [issuedEntries_concat, hwindows, List.append_nil]
      exact h.honoured e he id hunder

theorem InRound.quiet {l₀ : List Record} (h : InRound i₀ l₀ i l) (move : RoundMove now i none i') :
    InRound i₀ l₀ i' l where
  covered := h.covered.quiet (c := .arbitrate now) (.inr ⟨now, rfl, move⟩)
  terms := move.terms.trans h.terms
  longer := h.longer
  honoured := h.honoured

end Round

theorem CallMove.windows {c : Call} {i i' : Impl} {r : Record} (move : CallMove c i (some r) i') :
    r.windows = [] := by
  refine Record.windows_eq_nil ?_
  rintro schedule rfl
  cases move with
  | common move => cases move

/-- A service window is granted under a reservation only while the reservation is in force for its
resource and tick, and only while everything granted under that name since the scheduler was opened
stays within the capacity registered for it. -/
theorem reservation_never_overdrawn {s t : Scheduler} {c : Call} (reachable : Reachable s)
    (call : (s.call c).2 = t) {e : ScheduleEntry} {id : ReservationId}
    (granted : e ∈ issuedEntries (t.accepted.drop s.accepted.length)) (under : e.runsUnder id) :
    ∃ account, s.impl.reservations[id]? = some account ∧ account.Backs e ∧
      serviceOf (·.runsUnder id) (issuedEntries t.accepted) ≤
        account.descriptor.capacity.toNat := by
  subst call
  have hcovered := covered_of_reachable reachable
  by_cases hround : ∃ now, c = .arbitrate now
  · obtain ⟨now, rfl⟩ := hround
    have hstart : InRound s.impl s.accepted s.impl s.accepted := by
      refine ⟨hcovered, rfl, le_refl _, fun e he => ?_⟩
      rw [List.drop_length] at he
      cases he
    obtain ⟨rs, hm⟩ := makes_arbitrate reachable.sound now
    have hend := hm.preserves_history (P := InRound s.impl s.accepted)
      (fun _ _ _ move h => h.quiet move) (fun _ _ _ _ move h => h.record move) hstart
    exact hend.honoured e granted id under
  · -- No other call grants anything.
    exfalso
    have hnone : issuedEntries ((s.call c).2.accepted.drop s.accepted.length) = [] := by
      have hkeep := preserves_call_history (s := s) (c := c)
        (P := fun _ l => s.accepted.length ≤ l.length ∧
          issuedEntries (l.drop s.accepted.length) = [])
        (fun _ _ _ _ h => h) (fun i r i' l move h => ?_) reachable.sound
        ⟨le_refl _, by rw [List.drop_length]; rfl⟩
      · exact hkeep.2
      · obtain ⟨hle, hnil⟩ := h
        rcases move with move | ⟨now, rfl, -⟩
        · refine ⟨by rw [List.length_append]; omega, ?_⟩
          rw [List.drop_append_of_le_length hle, issuedEntries_concat, hnil, move.windows]
          rfl
        · exact absurd ⟨now, rfl⟩ hround
    rw [hnone] at granted
    cases granted

section Sample

open Sample

/-- Fifty units on the resource of the sample, until tick one hundred. -/
def Sample.reservation : ReservationDescriptor :=
  { reservation := ⟨1⟩, generation := ⟨1⟩, resource := ⟨1⟩, resourceGeneration := ⟨1⟩
    windowEnd := 100, capacity := 50, provenance }

set_option maxRecDepth 100000 in
theorem reservation_never_overdrawn_sample : ∃ s t e, Reachable s ∧
    (s.call (.arbitrate 5)).2 = t ∧
    e ∈ issuedEntries (t.accepted.drop s.accepted.length) ∧ e.runsUnder ⟨1⟩ ∧
    ∃ account, s.impl.reservations[(⟨1⟩ : ReservationId)]? = some account ∧ account.Backs e ∧
      serviceOf (·.runsUnder ⟨1⟩) (issuedEntries t.accepted) ≤
        account.descriptor.capacity.toNat := by
  obtain ⟨s, reachable, e, hgranted, hunder⟩ : ∃ s, Reachable s ∧
      ∃ e ∈ issuedEntries ((s.call (.arbitrate 5)).2.accepted.drop s.accepted.length),
        e.runsUnder ⟨1⟩ :=
    @exists_reachable transient [.registerResource resource, .registerPriorityClass priority,
      .registerQosClass qos, .registerReservation reservation,
      .admitFlow { flow 1 with reservation := ⟨⟨1⟩, ⟨1⟩⟩ }] _ (by decide +kernel)
  exact ⟨s, _, e, reachable, rfl, hgranted, hunder,
    reservation_never_overdrawn reachable rfl hgranted hunder⟩

end Sample

end FlowScheduler

import FlowScheduler.Budget.Reservations
import FlowScheduler.Steps.Issue
import FlowScheduler.Steps.Registry

/-! # No interval is overbooked

The clock only moves forward, so once a resource has rolled into another
interval nothing more is granted in an earlier one. Within its interval the
resource remembers everything it has granted, also what was given back.
-/

namespace FlowScheduler

open Failing SchedOp OrderedMap Impl

/-- A service window on a resource of this generation, in its interval with this index. -/
def ScheduleEntry.runsIn (e : ScheduleEntry) (id : ResourceId) (d : ResourceDescriptor)
    (index : UInt64) : Bool :=
  e.runsOn id && e.resourceGeneration = d.generation && e.startTick / d.interval = index

/-- What has been granted on a resource of this generation in one of its intervals. -/
def granted (l : List Record) (id : ResourceId) (d : ResourceDescriptor) (index : UInt64) : ℕ :=
  serviceOf (·.runsIn id d index) (issuedEntries l)

section Entries

variable {e : ScheduleEntry} {id : ResourceId} {d : ResourceDescriptor} {index : UInt64}

theorem ScheduleEntry.runsIn_iff : e.runsIn id d index ↔
    (e.kind = .run ∧ e.resource = id) ∧ e.resourceGeneration = d.generation ∧
      e.startTick / d.interval = index := by
  simp [ScheduleEntry.runsIn, ScheduleEntry.runsOn, and_assoc]

theorem granted_concat (l : List Record) (schedule : Schedule) :
    granted (l ++ [.scheduleIssued schedule]) id d index =
      granted l id d index + serviceOf (·.runsIn id d index) schedule.entries := by
  unfold granted
  rw [issuedEntries_concat, serviceOf_append,
    serviceOf_windows fun e he => (ScheduleEntry.runsIn_iff.mp he).1.1]

end Entries

section Charges

variable {r : ResourceRuntime} {now : Ticks} {entries : List ScheduleEntry}

def ResourceRuntime.RolledTo (r : ResourceRuntime) (now : Ticks) : Prop :=
  r.intervalInitialized ∧ r.intervalIndex = now / r.descriptor.interval

theorem rollInterval_of_rolledTo (h : r.RolledTo now) : r.rollInterval now = r := by
  unfold ResourceRuntime.rollInterval
  simp [h.1, h.2]

theorem rolledTo_rollInterval (r : ResourceRuntime) (now : Ticks) :
    (r.rollInterval now).RolledTo now := by
  unfold ResourceRuntime.rollInterval
  dsimp only
  by_cases h : ¬ r.intervalInitialized ∨ now / r.descriptor.interval ≠ r.intervalIndex
  · rw [if_pos h]
    exact ⟨rfl, rfl⟩
  · rw [if_neg h]
    obtain ⟨hinit, hindex⟩ := not_or.mp h
    exact ⟨not_not.mp hinit, (not_not.mp hindex).symm⟩

theorem capacityRemaining_of_rolledTo (h : r.RolledTo now) :
    (r.capacityRemaining now).toNat =
      r.descriptor.capacity.toNat - r.reservedThisInterval.toNat := by
  unfold ResourceRuntime.capacityRemaining
  rw [if_neg (by simp [h.1, h.2])]
  split
  · rename_i hle
    have := UInt64.le_iff_toNat_le.mp hle
    simp only [UInt64.toNat_zero]
    omega
  · rename_i hlt
    rw [UInt64.toNat_sub_of_le _ _ (UInt64.le_of_lt (UInt64.not_le.mp hlt))]

theorem charge_rollInterval {e : ScheduleEntry} (start : e.startTick = now)
    (current : e.resourceGeneration = r.descriptor.generation) :
    (r.rollInterval now).charge e = r.charge e := by
  unfold ResourceRuntime.charge
  rw [descriptor_rollInterval, start, rollInterval_of_rolledTo (rolledTo_rollInterval r now)]
  simp only [current, if_true]

theorem charges_of_rolledTo (rolled : r.RolledTo now)
    (charged : ∀ e ∈ entries, e.startTick = now ∧ e.resourceGeneration = r.descriptor.generation) :
    (entries.foldl ResourceRuntime.charge r).descriptor = r.descriptor ∧
      (entries.foldl ResourceRuntime.charge r).RolledTo now ∧
      (entries.foldl ResourceRuntime.charge r).reservedThisInterval.toNat =
        min (r.reservedThisInterval.toNat + (entries.map (·.quantum.toNat)).sum) (2 ^ 64 - 1) := by
  induction entries generalizing r with
  | nil =>
    have hlt := r.reservedThisInterval.toNat_lt
    refine ⟨rfl, rolled, ?_⟩
    simp only [List.foldl_nil, List.map_nil, List.sum_nil]
    omega
  | cons e entries ih =>
    obtain ⟨hstart, hcurrent⟩ := charged e List.mem_cons_self
    have hcharge : r.charge e = { r with
        reservedThisInterval := saturatingAdd r.reservedThisInterval e.quantum
        inFlight := r.inFlight + 1 } := by
      unfold ResourceRuntime.charge
      rw [if_pos hcurrent.symm, hstart, rollInterval_of_rolledTo rolled]
    rw [List.foldl_cons, hcharge]
    have hrest := ih (r := { r with
      reservedThisInterval := saturatingAdd r.reservedThisInterval e.quantum
      inFlight := r.inFlight + 1 }) ⟨rolled.1, rolled.2⟩
        fun e' he' => charged e' (List.mem_cons_of_mem _ he')
    obtain ⟨hdescriptor, hrolled, hreserved⟩ := hrest
    refine ⟨hdescriptor, hrolled, ?_⟩
    rw [hreserved]
    simp only [toNat_saturatingAdd, List.map_cons, List.sum_cons]
    omega

theorem charges_eq (nonempty : entries ≠ [])
    (charged : ∀ e ∈ entries, e.startTick = now ∧ e.resourceGeneration = r.descriptor.generation) :
    entries.foldl ResourceRuntime.charge r =
      entries.foldl ResourceRuntime.charge (r.rollInterval now) := by
  cases entries with
  | nil => exact absurd rfl nonempty
  | cons e entries =>
    obtain ⟨hstart, hcurrent⟩ := charged e List.mem_cons_self
    rw [List.foldl_cons, List.foldl_cons, charge_rollInterval hstart hcurrent]

end Charges

/-- The books are right: every window was granted for a generation no later than the current one,
in no later interval, and is accounted for. -/
structure Metered (i : Impl) (l : List Record) : Prop where
  known : ∀ e ∈ issuedEntries l, ∃ r, i.books e.resource = some r ∧
    e.resourceGeneration.value ≤ r.descriptor.generation.value
  interval : ∀ e ∈ issuedEntries l, ∀ r, i.books e.resource = some r →
    e.resourceGeneration = r.descriptor.generation → r.intervalInitialized ∧
      e.startTick / r.descriptor.interval ≤ r.intervalIndex ∧
      r.intervalIndex ≤ i.lastTick / r.descriptor.interval
  charged : ∀ id r, i.books id = some r →
    granted l id r.descriptor r.intervalIndex ≤ r.reservedThisInterval.toNat
  within : ∀ id r, i.books id = some r →
    ∀ index, granted l id r.descriptor index ≤ r.descriptor.capacity.toNat

/-- What a round at a tick makes of a resource on which it grants these windows. -/
structure ResourceRuntime.Meters (now : Ticks) (more : List ScheduleEntry) (r r' : ResourceRuntime) :
    Prop where
  descriptor : r'.descriptor = r.descriptor
  start : ∀ e ∈ more, e.startTick = now ∧ e.resourceGeneration = r.descriptor.generation
  rolled : more = [] ∧ r' = r ∨ r'.RolledTo now ∧
    (r.rollInterval now).reservedThisInterval.toNat + (more.map (·.quantum.toNat)).sum ≤
      r'.reservedThisInterval.toNat
  fits : (more.map (·.quantum.toNat)).sum ≤ (r.capacityRemaining now).toNat

theorem index_mono {a b : UInt64} (h : a ≤ b) (c : UInt64) : a / c ≤ b / c := by
  rw [UInt64.le_iff_toNat_le] at h ⊢
  rw [UInt64.toNat_div, UInt64.toNat_div]
  exact Nat.div_le_div_right h

section Moves

variable {s s' : Impl} {l l' : List Record} {now : Ticks}

theorem Metered.of_books (h : Metered s l) (same : s'.books = s.books)
    (clock : s.lastTick ≤ s'.lastTick) (windows : issuedEntries l' = issuedEntries l) :
    Metered s' l' := by
  have hgranted : granted l' = granted l := by
    unfold granted
    rw [windows]
  constructor
  · rw [windows, same]
    exact h.known
  · intro e he r hr hcurrent
    rw [windows] at he
    rw [same] at hr
    obtain ⟨hinit, hpast, hclock⟩ := h.interval e he r hr hcurrent
    exact ⟨hinit, hpast, UInt64.le_trans hclock (index_mono clock _)⟩
  · rw [same, hgranted]
    exact h.charged
  · rw [same, hgranted]
    exact h.within

/-- When a resource rolls into another interval, nothing has been granted there yet. -/
theorem Metered.granted_le (h : Metered s l) (clock : s.lastTick = now) {id : ResourceId}
    {r : ResourceRuntime} (found : s.books id = some r) :
    granted l id r.descriptor (now / r.descriptor.interval) ≤
      (r.rollInterval now).reservedThisInterval.toNat := by
  by_cases hrolled : r.RolledTo now
  · rw [rollInterval_of_rolledTo hrolled, ← hrolled.2]
    exact h.charged id r found
  · refine (Nat.le_of_eq ?_).trans (Nat.zero_le _)
    refine serviceOf_eq_zero fun e he hruns => hrolled ?_
    obtain ⟨⟨-, rfl⟩, hcurrent, hindex⟩ := ScheduleEntry.runsIn_iff.mp hruns
    obtain ⟨hinit, hpast, hclock⟩ := h.interval e he r found hcurrent
    rw [hindex] at hpast
    rw [clock] at hclock
    exact ⟨hinit, UInt64.le_antisymm hclock hpast⟩

theorem serviceOf_runsIn {more : List ScheduleEntry} {id : ResourceId} {r r' : ResourceRuntime}
    (h : r.Meters now (more.filter (·.runsOn id)) r') (index : UInt64) :
    serviceOf (·.runsIn id r.descriptor index) more =
      if now / r.descriptor.interval = index then
        ((more.filter (·.runsOn id)).map (·.quantum.toNat)).sum
      else 0 := by
  have hstart : ∀ e ∈ more, e.runsOn id →
      e.startTick = now ∧ e.resourceGeneration = r.descriptor.generation :=
    fun e he hon => h.start e (List.mem_filter.mpr ⟨he, hon⟩)
  split
  · rename_i hindex
    refine serviceOf_congr (q := (·.runsOn id)) fun e he => ?_
    unfold ScheduleEntry.runsIn
    cases hon : e.runsOn id with
    | false => rfl
    | true =>
      obtain ⟨htick, hgeneration⟩ := hstart e he hon
      simp [htick, hgeneration, hindex]
  · rename_i hindex
    refine serviceOf_eq_zero fun e he hruns => hindex ?_
    simp only [ScheduleEntry.runsIn, Bool.and_eq_true, decide_eq_true_eq] at hruns
    obtain ⟨⟨hon, -⟩, hin⟩ := hruns
    rw [(hstart e he hon).1] at hin
    exact hin

/-- A round keeps the books right, whatever it grants within the capacity left. -/
theorem Metered.round (h : Metered s l) (clock : s.lastTick = now) (same : s'.lastTick = now)
    {more : List ScheduleEntry} (windows : issuedEntries l' = issuedEntries l ++ more)
    (run : ∀ e ∈ more, e.kind = .run ∧ ∃ r, s.books e.resource = some r)
    (meters : ∀ id r, s.books id = some r →
      ∃ r', s'.books id = some r' ∧ r.Meters now (more.filter (·.runsOn id)) r')
    (only : ∀ id r', s'.books id = some r' → ∃ r, s.books id = some r) :
    Metered s' l' := by
  have hgranted : ∀ id d index, granted l' id d index =
      granted l id d index + serviceOf (·.runsIn id d index) more := by
    intro id d index
    unfold granted
    rw [windows, serviceOf_append]
  have hfrom : ∀ id r', s'.books id = some r' →
      ∃ r, s.books id = some r ∧ r.Meters now (more.filter (·.runsOn id)) r' := by
    intro id r' hr'
    obtain ⟨r, hr⟩ := only id r' hr'
    obtain ⟨r₁, hr₁, hmeters⟩ := meters id r hr
    obtain rfl := Option.some.inj (hr'.symm.trans hr₁)
    exact ⟨r, hr, hmeters⟩
  constructor
  · intro e he
    rw [windows] at he
    have hold : ∃ r, s.books e.resource = some r ∧
        e.resourceGeneration.value ≤ r.descriptor.generation.value := by
      rcases List.mem_append.mp he with he | he
      · exact h.known e he
      · obtain ⟨hk, r, hr⟩ := run e he
        have hon : e.runsOn e.resource := by simp [ScheduleEntry.runsOn, hk]
        obtain ⟨r', -, hmeters⟩ := meters _ r hr
        have hstart := hmeters.start e (List.mem_filter.mpr ⟨he, hon⟩)
        exact ⟨r, hr, by rw [hstart.2]; exact UInt64.le_refl _⟩
    obtain ⟨r, hr, hle⟩ := hold
    obtain ⟨r', hr', hmeters⟩ := meters _ r hr
    refine ⟨r', hr', ?_⟩
    rw [hmeters.descriptor]
    exact hle
  · intro e he r' hr' hcurrent
    obtain ⟨r, hr, hmeters⟩ := hfrom _ _ hr'
    rw [hmeters.descriptor] at hcurrent ⊢
    rw [windows] at he
    rw [same]
    rcases hmeters.rolled with ⟨hnone, hsame⟩ | ⟨hrolled, -⟩
    · rcases List.mem_append.mp he with he | he
      · rw [hsame, ← clock]
        exact h.interval e he r hr hcurrent
      · have hon : e.runsOn e.resource := by simp [ScheduleEntry.runsOn, (run e he).1]
        exact absurd hon (List.filter_eq_nil_iff.mp hnone e he)
    · rw [hrolled.2, hmeters.descriptor]
      refine ⟨hrolled.1, ?_, UInt64.le_refl _⟩
      rcases List.mem_append.mp he with he | he
      · obtain ⟨-, hpast, hclock⟩ := h.interval e he r hr hcurrent
        rw [clock] at hclock
        exact UInt64.le_trans hpast hclock
      · have hon : e.runsOn e.resource := by simp [ScheduleEntry.runsOn, (run e he).1]
        rw [(hmeters.start e (List.mem_filter.mpr ⟨he, hon⟩)).1]
        exact UInt64.le_refl _
  · intro id r' hr'
    obtain ⟨r, hr, hmeters⟩ := hfrom _ _ hr'
    rw [hgranted, hmeters.descriptor, serviceOf_runsIn hmeters]
    rcases hmeters.rolled with ⟨hnone, hsame⟩ | ⟨hrolled, hsum⟩
    · rw [hnone, hsame]
      simp only [List.map_nil, List.sum_nil, ite_self, Nat.add_zero]
      exact h.charged id r hr
    · have hbefore := h.granted_le clock hr
      rw [hrolled.2, hmeters.descriptor, if_pos rfl]
      omega
  · intro id r' hr' index
    obtain ⟨r, hr, hmeters⟩ := hfrom _ _ hr'
    have hbefore := h.within id r hr index
    rw [hgranted, hmeters.descriptor, serviceOf_runsIn hmeters]
    split
    · rename_i hindex
      have hcharged := h.granted_le clock hr
      have hfits := hmeters.fits
      rw [← capacityRemaining_rollInterval,
        capacityRemaining_of_rolledTo (rolledTo_rollInterval r now), descriptor_rollInterval] at hfits
      rw [hindex] at hcharged
      omega
    · exact hbefore

theorem Metered.register {d : ResourceDescriptor} (h : Metered s l)
    (guard : s.registerResourceGuard d = .ok ()) : Metered (s.applyResource d) l := by
  have hother : ∀ a, a ≠ d.resource → (s.applyResource d).books a = s.books a := by
    intro a ha
    simp only [books, applyResource, get_insert, if_neg ha]
  have hself : ∀ r', (s.applyResource d).books d.resource = some r' → r'.descriptor = d := by
    intro r' hr'
    simp only [books, applyResource, get_insert, if_true] at hr'
    cases hr'
    rfl
  have hfresh : ∀ e ∈ issuedEntries l, e.resource = d.resource →
      e.resourceGeneration.value < d.generation.value := by
    rintro e he hid
    obtain ⟨r, hr, hle⟩ := h.known e he
    obtain ⟨r₀, hr₀, rfl⟩ := Option.map_eq_some_iff.mp hr
    obtain ⟨_, -, guard⟩ := bind_eq_ok.mp guard
    rw [hid] at hr₀
    rcases generationGuard_eq_ok guard with ⟨hnone, -⟩ | ⟨g, hg, hadvance⟩
    · rw [hr₀] at hnone
      cases hnone
    · rw [hr₀] at hg
      cases hg
      exact UInt64.lt_of_le_of_lt hle (Id.lt_of_advance hadvance)
  have hnone : ∀ index, granted l d.resource d index = 0 := by
    intro index
    refine serviceOf_eq_zero fun e he hruns => ?_
    obtain ⟨⟨-, hid⟩, hgeneration, -⟩ := ScheduleEntry.runsIn_iff.mp hruns
    have hlt := hfresh e he hid
    rw [hgeneration] at hlt
    exact UInt64.lt_irrefl _ hlt
  constructor
  · intro e he
    by_cases hid : e.resource = d.resource
    · refine ⟨_, by simp only [books, applyResource, hid, get_insert, if_true]; rfl, ?_⟩
      exact UInt64.le_of_lt (hfresh e he hid)
    · rw [hother _ hid]
      exact h.known e he
  · intro e he r' hr' hcurrent
    by_cases hid : e.resource = d.resource
    · rw [hid] at hr'
      have hlt := hfresh e he hid
      rw [hcurrent, hself r' hr'] at hlt
      exact absurd hlt (UInt64.lt_irrefl _)
    · rw [hother _ hid] at hr'
      exact h.interval e he r' hr' hcurrent
  · intro id r' hr'
    by_cases hid : id = d.resource
    · subst hid
      rw [hself r' hr', hnone]
      exact Nat.zero_le _
    · rw [hother _ hid] at hr'
      exact h.charged id r' hr'
  · intro id r' hr' index
    by_cases hid : id = d.resource
    · subst hid
      rw [hself r' hr', hnone]
      exact Nat.zero_le _
    · rw [hother _ hid] at hr'
      exact h.within id r' hr' index

theorem ResourceRuntime.Meters.slots {more : List ScheduleEntry} {r r' : ResourceRuntime}
    (h : r.Meters now more r') :
    ({ r with inFlight := 0 } : ResourceRuntime).Meters now more { r' with inFlight := 0 } where
  descriptor := h.descriptor
  start := h.start
  rolled := by
    have hroll : (({ r with inFlight := 0 } : ResourceRuntime).rollInterval now).reservedThisInterval =
        (r.rollInterval now).reservedThisInterval := by
      unfold ResourceRuntime.rollInterval
      dsimp only
      split <;> rfl
    rcases h.rolled with ⟨hnone, rfl⟩ | ⟨hrolled, hsum⟩
    · exact .inl ⟨hnone, rfl⟩
    · exact .inr ⟨⟨hrolled.1, hrolled.2⟩, hroll ▸ hsum⟩
  fits := h.fits

theorem Metered.round_map (h : Metered s l) (clock : s.lastTick = now) (same : s'.lastTick = now)
    {more : List ScheduleEntry} (windows : issuedEntries l' = issuedEntries l ++ more)
    (run : ∀ e ∈ more, e.kind = .run ∧ ∃ r, s.books e.resource = some r)
    {f : ResourceId → ResourceRuntime → ResourceRuntime}
    (resources : ∀ id : ResourceId, s'.resources[id]? = s.resources[id]?.map (f id))
    (meters : ∀ (id : ResourceId) (r : ResourceRuntime), s.resources[id]? = some r →
      r.Meters now (more.filter (·.runsOn id)) (f id r)) : Metered s' l' := by
  refine h.round clock same windows run (fun id r hr => ?_) fun id r' hr' => ?_
  · obtain ⟨r₀, hr₀, rfl⟩ := Option.map_eq_some_iff.mp hr
    refine ⟨{ f id r₀ with inFlight := 0 }, ?_, (meters id r₀ hr₀).slots⟩
    simp only [books, resources, hr₀, Option.map_some]
  · obtain ⟨r₀, hr₀, -⟩ := Option.map_eq_some_iff.mp hr'
    rw [resources] at hr₀
    obtain ⟨r, hr, -⟩ := Option.map_eq_some_iff.mp hr₀
    exact ⟨{ r with inFlight := 0 }, by simp only [books, hr, Option.map_some]⟩

theorem Metered.roll (h : Metered s l) (clock : s.lastTick = now) (id : ResourceId) :
    Metered (s.modifyResource id (·.rollInterval now)) l := by
  refine h.round_map clock clock (List.append_nil _).symm (fun e he => by cases he)
    (f := fun a r => if a = id then r.rollInterval now else r) (fun a => ?_) fun a r hr => ?_
  · simp only [modifyResource, get_modify]
    split
    · rfl
    · exact Option.map_id'.symm
  · split
    · exact ⟨descriptor_rollInterval r now, fun e he => (by cases he),
        .inr ⟨rolledTo_rollInterval r now, Nat.le_refl _⟩, Nat.zero_le _⟩
    · exact ⟨rfl, fun e he => (by cases he), .inl ⟨rfl, rfl⟩, Nat.zero_le _⟩

theorem resources_advanceSchedule : s.advanceSchedule.resources = s.resources := by
  unfold advanceSchedule
  split <;> rfl

theorem Impl.Issues.meters {entries : List ScheduleEntry} {id : ResourceId} {r : ResourceRuntime}
    (h : s.Issues now entries) (found : s.resources[id]? = some r) :
    r.Meters now (entries.filter (·.runsOn id))
      ((entries.filter (·.runsOn id)).foldl ResourceRuntime.charge r) := by
  have hcharged : ∀ e ∈ entries.filter (·.runsOn id),
      e.startTick = now ∧ e.resourceGeneration = r.descriptor.generation := by
    intro e he
    obtain ⟨hmem, hon⟩ := List.mem_filter.mp he
    simp only [ScheduleEntry.runsOn, Bool.and_eq_true, decide_eq_true_eq] at hon
    obtain ⟨hk, rfl⟩ := hon
    obtain ⟨_, hgrants⟩ := h.run e hmem hk
    obtain ⟨resource, hresource, hgeneration⟩ := hgrants.current
    obtain ⟨candidate, hentry⟩ := hgrants.entry
    obtain rfl := Option.some.inj (found.symm.trans hresource)
    refine ⟨?_, hgeneration.symm⟩
    rw [hentry]
    rfl
  have hfits : ((entries.filter (·.runsOn id)).map (·.quantum.toNat)).sum ≤
      (r.capacityRemaining now).toNat := h.capacity id r found
  by_cases hnone : entries.filter (·.runsOn id) = []
  · rw [hnone] at hcharged hfits ⊢
    exact ⟨rfl, hcharged, .inl ⟨rfl, rfl⟩, hfits⟩
  · have hrolled := rolledTo_rollInterval r now
    rw [charges_eq hnone hcharged]
    obtain ⟨hdescriptor, hrolled', hreserved⟩ := charges_of_rolledTo hrolled (by
      rw [descriptor_rollInterval]
      exact hcharged)
    rw [descriptor_rollInterval] at hdescriptor
    refine ⟨hdescriptor, hcharged, .inr ⟨hrolled', ?_⟩, hfits⟩
    -- Within the capacity left, the sum does not saturate.
    have hroom := hfits
    rw [← capacityRemaining_rollInterval, capacityRemaining_of_rolledTo hrolled] at hroom
    have hcapacity := (r.rollInterval now).descriptor.capacity.toNat_lt
    have hreserved₀ := (r.rollInterval now).reservedThisInterval.toNat_lt
    rw [hreserved]
    omega

theorem Metered.issue {entries : List ScheduleEntry} (h : Metered s l) (clock : s.lastTick = now)
    (issues : s.Issues now entries) :
    Metered ({ s with provenanceSequence := s.provenanceSequence + 1 }.applySchedule
      (s.makeSchedule entries now)).advanceSchedule
      (l ++ [.scheduleIssued (s.makeSchedule entries now)]) := by
  have hrun : ∀ e ∈ entries.filter (·.kind = .run), e.kind = .run ∧
      ∃ r, s.books e.resource = some r := by
    intro e he
    obtain ⟨hmem, hk⟩ := List.mem_filter.mp he
    obtain ⟨_, hgrants⟩ := issues.run e hmem (of_decide_eq_true hk)
    obtain ⟨r, hr, -⟩ := hgrants.current
    exact ⟨of_decide_eq_true hk, _, by simp only [books, hr, Option.map_some]; rfl⟩
  have hfilter : ∀ id : ResourceId, (entries.filter (·.kind = .run)).filter (·.runsOn id) =
      entries.filter (·.runsOn id) := by
    intro id
    rw [List.filter_filter]
    refine List.filter_congr fun e _ => ?_
    simp only [ScheduleEntry.runsOn]
    cases decide (e.kind = .run) <;> simp
  refine h.round_map clock (lastTick_issue.trans clock) (issuedEntries_concat ..) hrun
    (f := fun id r => (entries.filter (·.runsOn id)).foldl ResourceRuntime.charge r)
    (fun id => ?_) fun id r hr => ?_
  · rw [resources_advanceSchedule]
    refine resources_applyEntries (s := ({ s with
      provenanceSequence := s.provenanceSequence + 1 } : Impl).retainSchedule
        (s.makeSchedule entries now)) ⟨issues.distinct, ?_⟩ id
    exact issues.acceptsAll.accepts
  · change r.Meters now ((entries.filter (·.kind = .run)).filter (·.runsOn id)) _
    rw [hfilter]
    exact issues.meters hr

theorem CommonMove.books {r : Option Record} (move : CommonMove s r s') : s'.books = s.books := by
  cases move with
  | counters | note | ready => rfl
  | normalize => exact keeps_books.normalizeTransientStates
  | close => exact keeps_books.applyAttemptClosed fun _ => trivial
  | release => exact keeps_books.applyReleaseSchedule

theorem CallMove.books {c : Call} {r : Option Record} (move : CallMove c s r s')
    (other : ∀ d, c ≠ .registerResource d) : s'.books = s.books := by
  cases move with
  | common move => exact move.books
  | registerResource => exact absurd rfl (other _)
  | touch | registerReservation | registerPriorityClass | registerQosClass | admitRefused
  | updateRefused | installPolicy => rfl
  | retireReservation => exact (@keeps_books 0).applyRetireReservation
  | admitFlow _ applied =>
    unfold applyAdmit at applied
    split at applied
    · cases applied
    · cases applied
      rfl
  | update _ applied =>
    refine keeps_books.releaseScheduledEntry.trans ?_
    unfold applyUpdate at applied
    split at applied
    · cases applied
    · split at applied
      · cases applied
      · cases applied
        rfl
  | cancel => exact keeps_books.normalizeTransientStates.trans (keeps_books.applyCancel trivial)
  | notify => exact keeps_books.applyReadiness
  | resolve => exact keeps_books.applyAmbiguityResolved
  | retireFlow =>
    unfold applyRetireFlow
    split <;> rfl
  | advanceEpoch => exact books_applyEpochAdvance
  | dispatch =>
    unfold advanceAttempt
    split <;> exact keeps_books.applyAttemptOpened
  | start => exact keeps_books.applyAttemptStarted
  | complete => exact keeps_books.applyCompletion (fun _ => trivial) fun _ _ _ => rfl

theorem Metered.call {c : Call} {r : Option Record} (h : Metered s l) (move : CallMove c s r s')
    (windows : issuedEntries l' = issuedEntries l) : Metered s' l' := by
  by_cases hregister : ∃ d, c = .registerResource d
  · obtain ⟨d, rfl⟩ := hregister
    have hclock := move.counted.clock
    cases move with
    | common move => exact h.of_books move.books hclock windows
    | touch => exact h.of_books rfl hclock windows
    | registerResource guard => exact (h.register guard).of_books rfl (UInt64.le_refl _) windows
  · exact h.of_books (move.books fun d hd => hregister ⟨d, hd⟩) move.counted.clock windows

theorem Metered.round_move {r : Option Record} (h : Metered s l) (move : RoundMove now s r s') :
    Metered s' (l ++ r.toList) := by
  have hquiet : issuedEntries (l ++ (none : Option Record).toList) = issuedEntries l := by simp
  cases move with
  | common move =>
    refine h.of_books move.books ?_ ?_
    · rw [show s'.lastTick = s.lastTick from congrArg Setting.lastTick move.setting]
      exact UInt64.le_refl _
    · cases move <;> simp [issuedEntries, Record.windows]
  | tick clock => exact h.of_books rfl clock hquiet
  | failDependency | failDeadline | forget | retire =>
    exact h.of_books rfl (UInt64.le_refl _) hquiet
  | roll clock =>
    exact (h.roll clock _).of_books rfl (UInt64.le_refl _) hquiet
  | issue clock issues => exact h.issue clock issues

theorem Metered.move {c : Call} {r : Option Record} (h : Metered s l) (move : Move c s r s') :
    Metered s' (l ++ r.toList) := by
  rcases move with move | ⟨now, -, move⟩
  · refine h.call move ?_
    cases r with
    | none => simp
    | some record => simp [issuedEntries, move.windows]
  · exact h.round_move move

end Moves

theorem metered_of_reachable {s : Scheduler} (h : Reachable s) : Metered s.impl s.accepted := by
  refine h.invariant_history (fun options files s hs => ?_) fun s c sound _ hmetered => ?_
  · have hnone : issuedEntries s.accepted = [] := by
      rcases accepted_create hs with hnil | ⟨previous, next, reason, now, hepoch⟩
      · rw [hnil]
        rfl
      · rw [hepoch]
        rfl
    have hzero : ∀ id d index, granted s.accepted id d index = 0 := by
      intro id d index
      unfold granted
      rw [hnone]
      rfl
    constructor
    · rw [hnone]
      intro e he
      cases he
    · rw [hnone]
      intro e he
      cases he
    · intro id r _
      rw [hzero]
      exact Nat.zero_le _
    · intro id r _ index
      rw [hzero]
      exact Nat.zero_le _
  · refine preserves_call_history (fun _ _ l move h => ?_) (fun _ _ _ _ move h => h.move move)
      sound hmetered
    have hmoved := h.move move
    rwa [show l ++ (none : Option Record).toList = l from List.append_nil l] at hmoved

section Generations

variable {c : Call} {s s' : Impl} {r : Option Record} {id : ResourceId}
  {d d' : ResourceDescriptor}

/-- A registered resource stays as it is until a later generation replaces it. -/
theorem Move.resource (move : Move c s r s') (found : s.ledger.resources id = some d) :
    ∃ d', s'.ledger.resources id = some d' ∧
      (d' = d ∨ (∃ d₁, c = .registerResource d₁) ∧ d.generation.value < d'.generation.value) := by
  rcases move.registry with hsame | ⟨record, rfl, happly⟩
  · exact ⟨d, (congrFun (congrArg Registry.resources hsame) id).trans found, .inl rfl⟩
  · have hresources := congrFun (congrArg Registry.resources happly) id
    rcases move with move | ⟨now, rfl, move⟩
    · cases move with
      | common move => cases move <;> exact ⟨d, hresources.trans found, .inl rfl⟩
      | @registerResource _ d₁ guard =>
        by_cases hid : id = d₁.resource
        · subst hid
          obtain ⟨_, -, guard⟩ := bind_eq_ok.mp guard
          refine ⟨d₁, hresources.trans (Function.update_self ..), .inr ⟨⟨d₁, rfl⟩, ?_⟩⟩
          obtain ⟨r₀, hr₀, rfl⟩ := Option.map_eq_some_iff.mp found
          rcases generationGuard_eq_ok guard with ⟨hnone, -⟩ | ⟨g, hg, hadvance⟩
          · rw [hr₀] at hnone
            cases hnone
          · rw [hr₀] at hg
            cases hg
            exact Id.lt_of_advance hadvance
        · refine ⟨d, hresources.trans ?_, .inl rfl⟩
          exact (Function.update_of_ne hid ..).trans found
      | _ => exact ⟨d, hresources.trans found, .inl rfl⟩
    · cases move with
      | common move => cases move <;> exact ⟨d, hresources.trans found, .inl rfl⟩
      | issue => exact ⟨d, hresources.trans found, .inl rfl⟩

/-- The intervals of a generation are within its capacity, also when a later one has replaced it. -/
structure Capped (id : ResourceId) (d : ResourceDescriptor) (i : Impl) (l : List Record) : Prop where
  metered : Metered i l
  bound : ∀ index, granted l id d index ≤ d.capacity.toNat
  current : ∃ d', i.ledger.resources id = some d' ∧
    (d' = d ∨ d.generation.value < d'.generation.value)

theorem Metered.bound {l : List Record} (h : Metered s l) (found : s.ledger.resources id = some d)
    (index : UInt64) : granted l id d index ≤ d.capacity.toNat := by
  obtain ⟨r₀, hr₀, rfl⟩ := Option.map_eq_some_iff.mp found
  exact h.within id { r₀ with inFlight := 0 } (by simp only [books, hr₀, Option.map_some]) index

/-- No move adds to what was granted for a generation that is no longer current. -/
theorem Move.granted_past {l : List Record} (move : Move c s r s')
    (found : s.ledger.resources id = some d') (past : d.generation.value < d'.generation.value)
    (index : UInt64) : granted (l ++ r.toList) id d index = granted l id d index := by
  cases r with
  | none => simp
  | some record =>
    rcases move with move | ⟨now, -, move⟩
    · simp [granted, issuedEntries, move.windows]
    · cases move with
      | common move => cases move <;> simp [granted, issuedEntries, Record.windows]
      | issue _ issues =>
        rw [Option.toList_some, granted_concat]
        refine Nat.add_eq_left.mpr (serviceOf_eq_zero fun e he hruns => ?_)
        obtain ⟨⟨hk, rfl⟩, hgeneration, -⟩ := ScheduleEntry.runsIn_iff.mp hruns
        obtain ⟨_, hgrants⟩ := issues.run e he hk
        obtain ⟨resource, hresource, hcurrent⟩ := hgrants.current
        have hd' : resource.descriptor = d' := by
          obtain ⟨r₀, hr₀, rfl⟩ := Option.map_eq_some_iff.mp found
          rw [Option.some.inj (hresource.symm.trans hr₀)]
        rw [← hd', hcurrent, hgeneration] at past
        exact UInt64.lt_irrefl _ past

theorem Capped.move {l : List Record} (h : Capped id d s l) (move : Move c s r s') :
    Capped id d s' (l ++ r.toList) := by
  have hmetered := h.metered.move move
  obtain ⟨d₀, hd₀, hcurrent⟩ := h.current
  obtain ⟨d', hd', hnext⟩ := move.resource hd₀
  have hlater : d' = d ∨ d.generation.value < d'.generation.value := by
    rcases hnext with rfl | ⟨-, hlt⟩
    · exact hcurrent
    · rcases hcurrent with rfl | hpast
      · exact .inr hlt
      · exact .inr (UInt64.lt_trans hpast hlt)
  refine ⟨hmetered, fun index => ?_, d', hd', hlater⟩
  rcases hcurrent with rfl | hpast
  · rcases hnext with rfl | ⟨⟨d₁, rfl⟩, -⟩
    · exact hmetered.bound hd' index
    · -- A registration grants nothing.
      rcases move with move | ⟨_, hc, -⟩
      · have hsame : granted (l ++ r.toList) id d₀ index = granted l id d₀ index := by
          cases r with
          | none => simp
          | some record => simp [granted, issuedEntries, move.windows]
        rw [hsame]
        exact h.bound index
      · cases hc
  · rw [move.granted_past hd₀ hpast]
    exact h.bound index

end Generations

/-- Whatever is granted on a resource of one generation in one of its intervals is within the
capacity of that generation, over everything issued since the scheduler was opened. -/
theorem interval_never_overbooked {s t : Scheduler} (reachable : Reachable s)
    (later : LaterBy (fun _ _ => True) s t) {id : ResourceId} {r : ResourceRuntime}
    (registered : s.impl.resources[id]? = some r) (index : UInt64) :
    granted t.accepted id r.descriptor index ≤ r.descriptor.capacity.toNat := by
  have hmetered := metered_of_reachable reachable
  have hfound : s.impl.ledger.resources id = some r.descriptor :=
    congrArg (Option.map ResourceRuntime.descriptor) registered
  have hstart : Capped id r.descriptor s.impl s.accepted :=
    ⟨hmetered, hmetered.bound hfound, r.descriptor, hfound, .inl rfl⟩
  have hend := later.preserves_history reachable.sound (fun _ _ _ _ l _ move h => ?_)
    (fun _ _ _ _ _ _ _ move h => h.move move) hstart
  · exact hend.2.bound index
  · have hmoved := h.move move
    rwa [show l ++ (none : Option Record).toList = l from List.append_nil l] at hmoved

section Sample

open Sample

set_option maxRecDepth 100000 in
theorem interval_never_overbooked_sample : ∃ s t r, Reachable s ∧
    LaterBy (fun _ _ => True) s t ∧ s.impl.resources[(⟨1⟩ : ResourceId)]? = some r ∧
    0 < granted t.accepted ⟨1⟩ r.descriptor 0 ∧
    granted t.accepted ⟨1⟩ r.descriptor 0 ≤ r.descriptor.capacity.toNat := by
  obtain ⟨s, reachable, r, hr, hpos⟩ : ∃ s, Reachable s ∧
      ∃ r ∈ s.impl.resources[(⟨1⟩ : ResourceId)]?,
        0 < granted (s.call (.arbitrate 5)).2.accepted ⟨1⟩ r.descriptor 0 :=
    @exists_reachable transient setup _ (by decide +kernel)
  have hlater : LaterBy (fun _ _ => True) s (s.call (.arbitrate 5)).2 := .called .refl _ trivial
  exact ⟨s, _, r, reachable, hlater, hr, hpos, interval_never_overbooked reachable hlater hr 0⟩

end Sample

end FlowScheduler

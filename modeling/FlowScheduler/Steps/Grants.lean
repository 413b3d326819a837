import FlowScheduler.Steps.Calls
import FlowScheduler.Steps.Refresh

/-! # What a round has granted

The candidates of a round are considered one by one. What has been granted so
far stays granted: a later candidate touches neither a granted flow nor any
reservation, and what it is given is taken from what the round has left.
-/

namespace FlowScheduler

open ByteCodec (Bytes)
open Failing SchedOp Impl OrderedMap

section Frame

variable {s s' : Impl} {now : Ticks}

theorem sameBut_closeFlowAttempt {record : AttemptRuntime} {attempt : DispatchAttemptId}
    {state : AttemptState} :
    SameBut record.ticket.flow s (s.closeFlowAttempt record attempt state now) := by
  have hrelease : SameBut record.ticket.flow s (s.releaseAttempt record.ticket.flow record.ticket) :=
    sameBut_modifyFlow
  unfold closeFlowAttempt
  refine hrelease.trans ?_
  cases state with
  | preempted => exact (sameBut_modifyFlow.trans sameBut_setLifecycle).trans sameBut_modifyFlow
  | cancelled | abandoned | rejected => exact sameBut_setLifecycle.trans sameBut_modifyFlow
  | opened | started | committed => exact .refl

theorem flows_applyAttemptClosed {attempt : DispatchAttemptId} {state : AttemptState}
    {detail : Bytes} {id : FlowId} {r : FlowRuntime} (hr : s.flows[id]? = some r)
    (free : r.openAttempt = attempt → ¬ s.ledger.holdsAttempt id r.ledger) :
    (s.applyAttemptClosed attempt state detail now).flows[id]? = some r := by
  unfold applyAttemptClosed
  split
  · exact hr
  · rename_i found hfound
    split
    · exact hr
    · rename_i hlive
      dsimp only
      split
      · exact hr
      · rename_i holder hholder
        split
        · exact hr
        · rename_i hopen
          rw [sameBut_closeFlowAttempt]
          · exact hr
          · rintro rfl
            obtain rfl := Option.some.inj (hr.symm.trans hholder)
            refine free (not_not.mp hopen) ⟨found.ledger, ?_, hlive, rfl⟩
            rw [ledger_attempts, show r.ledger.openAttempt = r.openAttempt from rfl,
              not_not.mp hopen, hfound]
            rfl

theorem reservations_closeFlowAttempt {record : AttemptRuntime} {attempt : DispatchAttemptId}
    {state : AttemptState} :
    (s.closeFlowAttempt record attempt state now).reservations = s.reservations := by
  unfold closeFlowAttempt
  cases state <;> rfl

theorem reservations_applyAttemptClosed {attempt : DispatchAttemptId} {state : AttemptState}
    {detail : Bytes} :
    (s.applyAttemptClosed attempt state detail now).reservations = s.reservations := by
  unfold applyAttemptClosed
  split
  · rfl
  · split
    · rfl
    · dsimp only
      split
      · rfl
      · split
        · rfl
        · exact reservations_closeFlowAttempt

theorem reservations_deferUnready {id : FlowId} {r : FlowRuntime} {reason : DecisionReason}
    {o : ArbitrationOutcome} : (s.deferUnready id r reason now o).1.reservations = s.reservations := by
  unfold deferUnready
  split
  · unfold handleDeadlineMiss
    split
    · rfl
    · dsimp only
      split <;> rfl
  · split <;> rfl

/-- The resources as a round sees them: what each still has to give in the interval. -/
def Impl.budget (s : Impl) (now : Ticks) (id : ResourceId) :
    Option (ResourceDescriptor × UInt64) :=
  s.resources[id]?.map fun r => (r.descriptor, r.capacityRemaining now)

theorem capacityRemaining_rollInterval (r : ResourceRuntime) (now : Ticks) :
    (r.rollInterval now).capacityRemaining now = r.capacityRemaining now := by
  unfold ResourceRuntime.rollInterval ResourceRuntime.capacityRemaining
  dsimp only
  by_cases h : ¬ r.intervalInitialized ∨ now / r.descriptor.interval ≠ r.intervalIndex
  · rw [if_pos h, if_pos h]
    simp only [not_true_eq_false, ne_eq, or_self, if_false]
    split
    · rename_i hzero
      exact (UInt64.le_zero_iff.mp hzero).symm
    · exact UInt64.sub_zero _
  · rw [if_neg h]

theorem budget_modifyResource {id : ResourceId} {f : ResourceRuntime → ResourceRuntime}
    (keep : ∀ r : ResourceRuntime, (f r).descriptor = r.descriptor ∧
      (f r).capacityRemaining now = r.capacityRemaining now) :
    (s.modifyResource id f).budget now = s.budget now := by
  funext a
  simp only [Impl.budget, modifyResource, get_modify]
  split
  · rw [Option.map_map]
    refine congrArg (Option.map · s.resources[a]?) (funext fun r => ?_)
    simp only [Function.comp, (keep r).1, (keep r).2]
  · rfl

theorem budget_rollInterval {id : ResourceId} :
    (s.modifyResource id (·.rollInterval now)).budget now = s.budget now :=
  budget_modifyResource fun r =>
    ⟨Impl.descriptor_rollInterval r now, capacityRemaining_rollInterval r now⟩

theorem budget_of_books (h : s'.books = s.books) : s'.budget now = s.budget now := by
  have hview : ∀ t : Impl, t.budget now =
      fun id => (t.books id).map fun r => (r.descriptor, r.capacityRemaining now) := by
    intro t
    funext id
    simp only [Impl.budget, books, Option.map_map]
    rfl
  rw [hview, hview, h]

theorem budget_applyAttemptClosed {attempt : DispatchAttemptId} {state : AttemptState}
    {detail : Bytes} :
    (s.applyAttemptClosed attempt state detail now).budget now = s.budget now :=
  budget_of_books (keeps_books.applyAttemptClosed fun _ => trivial)

theorem budget_deferUnready {id : FlowId} {r : FlowRuntime} {reason : DecisionReason}
    {o : ArbitrationOutcome} :
    (s.deferUnready id r reason now o).1.budget now = s.budget now :=
  budget_of_books keeps_books.deferUnready

theorem reservationUsable_congr {r : FlowRuntime} (h : s'.reservations = s.reservations) :
    s'.reservationUsable r now = s.reservationUsable r now := by
  unfold reservationUsable
  rw [h]

theorem runEntry_congr (h : s'.reservations = s.reservations) :
    s'.runEntry = s.runEntry := by
  unfold runEntry reservationWindowEnd
  rw [h]

theorem Impl.Grants.frame {e : ScheduleEntry} {r : FlowRuntime} (h : s.Grants now e r)
    (found : s'.flows[e.flow]? = some r) (same : s'.reservations = s.reservations)
    (budget : s'.budget now = s.budget now) : s'.Grants now e r where
  found := found
  ready := h.ready
  usable := (reservationUsable_congr same).trans h.usable
  current := by
    obtain ⟨resource, hresource, hgeneration⟩ := h.current
    have hbudget := congrFun budget e.resource
    simp only [Impl.budget, hresource, Option.map_some] at hbudget
    obtain ⟨resource', hresource', hsame⟩ := Option.map_eq_some_iff.mp hbudget
    refine ⟨resource', hresource', ?_⟩
    rw [(Prod.mk.inj hsame).1]
    exact hgeneration
  entry := by
    rw [runEntry_congr same]
    exact h.entry
  positive := h.positive
  fits := h.fits
  timely := h.timely

end Frame

/-- What a round has established about its entries, with these flows still to be considered. -/
structure Round.Granted (round : Round) (s : Impl) (now : Ticks) (rest : List FlowId) : Prop where
  run : ∀ e ∈ round.entries, e.kind = .run → e.flow ∉ rest ∧ ∃ r, s.Grants now e r
  other : ∀ e ∈ round.entries, e.kind ≠ .run →
    ∃ v candidate d, e = preemptEntry v e.ordinal candidate d now
  ordinal : ∀ i (h : i < round.entries.length), (round.entries.get ⟨i, h⟩).ordinal = UInt32.ofNat i
  next : round.nextOrdinal = UInt32.ofNat round.entries.length
  size : round.entries.length ≤ kEntryBound + 1
  distinct : ((round.entries.filter (·.kind = .run)).map (·.flow)).Nodup
  charged : ∀ id : ResourceId,
    serviceOf (·.runsOn id) round.entries = (round.pendingCapacity.getD id 0).toNat
  capacity : ∀ (id : ResourceId) (resource : ResourceRuntime), s.resources[id]? = some resource →
    serviceOf (·.runsOn id) round.entries ≤ (resource.capacityRemaining now).toNat
  drawn : ∀ id : ReservationId,
    serviceOf (·.runsUnder id) round.entries ≤ (round.pendingReservation.getD id 0).toNat
  reserved : ∀ (id : ReservationId) (reservation : ReservationRuntime),
    s.reservations[id]? = some reservation → serviceOf (·.runsUnder id) round.entries ≤
      reservation.descriptor.capacity.toNat - reservation.reservedUnits.toNat

/-- A bound flow that may use its reservation finds it registered for its resource, with its window
open. -/
theorem usable_bound {s : Impl} {now : Ticks} {r : FlowRuntime}
    (h : s.reservationUsable r now = .ok ()) (bound : r.descriptor.reservation.bound) :
    ∃ reservation, s.reservations[r.descriptor.reservation.id]? = some reservation ∧
      reservation.retired = false ∧
      reservation.descriptor.generation = r.descriptor.reservation.generation ∧
      reservation.descriptor.resource = r.descriptor.resource.id ∧
      reservation.descriptor.windowContains now := by
  unfold reservationUsable at h
  simp only [bound, not_true_eq_false, if_false] at h
  split at h
  · cases h
  · rename_i reservation hreservation
    split at h
    · cases h
    · split at h
      · cases h
      · split at h
        · cases h
        · split at h
          · cases h
          · split at h
            · cases h
            · rename_i hretired hgeneration hresource hbegin hend
              refine ⟨reservation, hreservation, Bool.not_eq_true _ ▸ hretired,
                not_not.mp hgeneration, not_not.mp hresource, ?_⟩
              simp [ReservationDescriptor.windowContains, UInt64.not_lt.mp hbegin,
                UInt64.not_le.mp hend]

/-- A flow may be arbitrated when it is live and resolved, not withheld, released, finds its
dependencies completed and its reservation usable, and is within its deadline. -/
theorem derivedReadiness_eq_ok {s : Impl} {now : Ticks} {r : FlowRuntime} :
    s.derivedReadiness r now = .ok () ↔ r.lifecycle.isTerminal = false ∧
      r.lifecycle ≠ .ambiguous ∧ r.descriptor.readinessSignal ≠ 2 ∧
      (r.descriptor.autoReady ∨ r.descriptor.readinessSignal = 1) ∧
      r.descriptor.releaseTick ≤ now ∧ s.dependenciesSatisfied r ∧
      s.reservationUsable r now = .ok () ∧
      ¬ (hasDeadline r.descriptor.deadlineTick ∧ r.descriptor.deadlineTick ≤ now) := by
  unfold derivedReadiness
  constructor
  · intro h
    split at h
    · cases h
    · rename_i hlive
      split at h
      · cases h
      · rename_i hresolved
        split at h
        · cases h
        · rename_i hopen
          split at h
          · cases h
          · rename_i hsignal
            split at h
            · cases h
            · rename_i hreleased
              split at h
              · split at h <;> cases h
              · rename_i hsatisfied
                split at h
                · cases h
                · rename_i husable
                  split at h
                  · cases h
                  · rename_i htimely
                    refine ⟨Bool.not_eq_true _ ▸ hlive, hresolved, hopen, ?_,
                      UInt64.not_lt.mp hreleased, not_not.mp hsatisfied, husable, htimely⟩
                    rcases not_and_or.mp hsignal with h | h
                    · exact .inl (not_not.mp h)
                    · exact .inr (not_not.mp h)
  · rintro ⟨hlive, hresolved, hopen, hsignal, hreleased, hsatisfied, husable, htimely⟩
    have hheard : ¬ (¬ r.descriptor.autoReady ∧ r.descriptor.readinessSignal ≠ 1) := by
      rintro ⟨hauto, hone⟩
      exact hsignal.elim hauto hone
    rw [if_neg (by rw [hlive]; decide), if_neg hresolved, if_neg hopen, if_neg hheard,
      if_neg (UInt64.not_lt.mpr hreleased), if_neg (not_not.mpr hsatisfied), husable]
    exact if_neg htimely

theorem usable_of_derivedReadiness {s : Impl} {now : Ticks} {r : FlowRuntime}
    (h : s.derivedReadiness r now = .ok ()) : s.reservationUsable r now = .ok () := by
  obtain ⟨-, -, -, -, -, -, husable, -⟩ := derivedReadiness_eq_ok.mp h
  exact husable

theorem timely_of_derivedReadiness {s : Impl} {now : Ticks} {r : FlowRuntime}
    (h : s.derivedReadiness r now = .ok ()) :
    ¬ (hasDeadline r.descriptor.deadlineTick ∧ r.descriptor.deadlineTick ≤ now) := by
  obtain ⟨-, -, -, -, -, -, -, htimely⟩ := derivedReadiness_eq_ok.mp h
  exact htimely

theorem dependenciesSatisfied_iff {s : Impl} {r : FlowRuntime} : s.dependenciesSatisfied r ↔
    ∀ dependency ∈ r.descriptor.dependencies, ∃ found : FlowRuntime,
      s.flows[dependency]? = some found ∧ found.lifecycle = .completed := by
  simp only [dependenciesSatisfied, List.all_eq_true]
  refine forall₂_congr fun dependency _ => ?_
  cases s.flows[dependency]? <;> simp

/-- A flow that may be arbitrated still may while the completed flows and the reservations stay. -/
theorem derivedReadiness_frame {s s' : Impl} {now : Ticks} {r : FlowRuntime}
    (h : s.derivedReadiness r now = .ok ())
    (completed : ∀ (id : FlowId) (r : FlowRuntime), s.flows[id]? = some r →
      r.lifecycle = .completed → s'.flows[id]? = some r)
    (reservations : s'.reservations = s.reservations) : s'.derivedReadiness r now = .ok () := by
  obtain ⟨hlive, hresolved, hopen, hsignal, hreleased, hsatisfied, husable, htimely⟩ :=
    derivedReadiness_eq_ok.mp h
  refine derivedReadiness_eq_ok.mpr ⟨hlive, hresolved, hopen, hsignal, hreleased,
    dependenciesSatisfied_iff.mpr fun dependency hdependency => ?_,
    (reservationUsable_congr reservations).trans husable, htimely⟩
  obtain ⟨found, hfound, hcompleted⟩ := dependenciesSatisfied_iff.mp hsatisfied dependency hdependency
  exact ⟨found, completed _ _ hfound hcompleted, hcompleted⟩

theorem reservationRemaining_le {s : Impl} {now : Ticks} {r : FlowRuntime}
    {reservation : ReservationRuntime} (bound : r.descriptor.reservation.bound)
    (found : s.reservations[r.descriptor.reservation.id]? = some reservation) :
    (s.reservationRemaining r now).toNat ≤
      reservation.descriptor.capacity.toNat - reservation.reservedUnits.toNat := by
  unfold reservationRemaining
  simp only [bound, not_true_eq_false, if_false, found]
  split
  · simp
  · split
    · simp
    · rename_i hlt
      rw [UInt64.toNat_sub_of_le _ _ (UInt64.le_of_lt (UInt64.not_le.mp hlt))]

theorem Impl.Grants.registered {s : Impl} {now : Ticks} {e : ScheduleEntry} {r : FlowRuntime}
    {id : ReservationId} (h : s.Grants now e r) (under : e.runsUnder id) :
    ∃ reservation, s.reservations[e.reservation]? = some reservation := by
  obtain ⟨candidate, hentry⟩ := h.entry
  have hbinding : (⟨e.reservation, e.reservationGeneration⟩ : Binding .reservation) =
      r.descriptor.reservation := by
    rw [hentry]
    rfl
  have hbound : r.descriptor.reservation.bound := by
    rw [← hbinding]
    simp only [ScheduleEntry.runsUnder, Bool.and_eq_true] at under
    exact under.2
  obtain ⟨reservation, hreservation, -⟩ := usable_bound h.usable hbound
  rw [← hbinding] at hreservation
  exact ⟨reservation, hreservation⟩

namespace Round.Granted

variable {s s' : Impl} {now : Ticks} {round : Round} {rest rest' : List FlowId}

/-- Nothing is lost while the ready flows already considered, the reservations and what the
resources still have to give stay. -/
theorem frame (h : round.Granted s now rest) (sub : ∀ id ∈ rest', id ∈ rest)
    (same : ∀ id r, id ∉ rest → s.flows[id]? = some r → r.lifecycle = .ready →
      s'.flows[id]? = some r)
    (reservations : s'.reservations = s.reservations) (budget : s'.budget now = s.budget now) :
    round.Granted s' now rest' where
  run e he hk := by
    obtain ⟨hrest, r, hr⟩ := h.run e he hk
    have hframe := hr.frame (same _ r hrest hr.found hr.ready) reservations budget
    exact ⟨fun hmem => hrest (sub _ hmem), r, hframe⟩
  other := h.other
  ordinal := h.ordinal
  next := h.next
  size := h.size
  distinct := h.distinct
  charged := h.charged
  capacity id resource' hresource' := by
    have hbudget := congrFun budget id
    simp only [Impl.budget, hresource', Option.map_some] at hbudget
    obtain ⟨resource, hresource, hsame⟩ := Option.map_eq_some_iff.mp hbudget.symm
    rw [← (Prod.mk.inj hsame).2]
    exact h.capacity id resource hresource
  drawn := h.drawn
  reserved := by
    rw [reservations]
    exact h.reserved

theorem start (outcome : ArbitrationOutcome) : ({ outcome } : Round).Granted s now rest where
  run _ he := by cases he
  other _ he := by cases he
  ordinal _ hi := absurd hi (Nat.not_lt_zero _)
  next := rfl
  size := Nat.zero_le _
  distinct := List.nodup_nil
  charged _ := by simp [serviceOf]
  capacity _ _ _ := Nat.zero_le _
  drawn _ := Nat.zero_le _
  reserved _ _ _ := Nat.zero_le _

theorem withOutcome (h : round.Granted s now rest) (outcome : ArbitrationOutcome) :
    { round with outcome }.Granted s now rest :=
  ⟨h.run, h.other, h.ordinal, h.next, h.size, h.distinct, h.charged, h.capacity, h.drawn, h.reserved⟩

theorem ordinal_append {entries : List ScheduleEntry} {e : ScheduleEntry}
    (h : ∀ i (h : i < entries.length), (entries.get ⟨i, h⟩).ordinal = UInt32.ofNat i)
    (he : e.ordinal = UInt32.ofNat entries.length) (i : ℕ) (hi : i < (entries ++ [e]).length) :
    ((entries ++ [e]).get ⟨i, hi⟩).ordinal = UInt32.ofNat i := by
  rw [List.get_eq_getElem]
  by_cases hlt : i < entries.length
  · rw [List.getElem_append_left hlt]
    exact h i hlt
  · have hi' : i = entries.length := by
      rw [List.length_append, List.length_singleton] at hi
      omega
    subst hi'
    simpa using he

theorem next_append {entries : List ScheduleEntry} {e : ScheduleEntry} {n : UInt32}
    (h : n = UInt32.ofNat entries.length) : n + 1 = UInt32.ofNat (entries ++ [e]).length := by
  rw [h, List.length_append, List.length_singleton, UInt32.ofNat_add]
  rfl

/-- A window is granted: it fits what the round has left of the resource and the reservation. -/
theorem grant {e : ScheduleEntry} {r : FlowRuntime} (within : round.entries.length ≤ kEntryBound)
    (h : round.Granted s now (e.flow :: rest))
    (fresh : e.flow ∉ rest) (grants : s.Grants now e r) (kind : e.kind = .run)
    (ordinal : e.ordinal = round.nextOrdinal)
    (capacity : ∀ resource, s.resources[e.resource]? = some resource →
      (round.pendingCapacity.getD e.resource 0).toNat + e.quantum.toNat ≤
        (resource.capacityRemaining now).toNat)
    (reserved : e.runsUnder e.reservation → ∀ reservation,
      s.reservations[e.reservation]? = some reservation →
        (round.pendingReservation.getD e.reservation 0).toNat + e.quantum.toNat ≤
          reservation.descriptor.capacity.toNat - reservation.reservedUnits.toNat) :
    (round.grant e).Granted s now rest where
  run e' he' hk := by
    rcases List.mem_append.mp he' with he' | he'
    · obtain ⟨hrest, hr⟩ := h.run e' he' hk
      exact ⟨fun hmem => hrest (List.mem_cons_of_mem _ hmem), hr⟩
    · rw [List.mem_singleton] at he'
      subst he'
      exact ⟨fresh, r, grants⟩
  other e' he' hk := by
    rcases List.mem_append.mp he' with he' | he'
    · exact h.other e' he' hk
    · rw [List.mem_singleton] at he'
      subst he'
      exact absurd kind hk
  ordinal := ordinal_append h.ordinal (ordinal.trans h.next)
  next := next_append h.next
  size := by
    simp only [Round.grant, List.length_append, List.length_singleton]
    omega
  distinct := by
    have hnew : ∀ e' ∈ round.entries, e'.kind = .run → e'.flow ≠ e.flow := by
      intro e' he' hk heq
      exact (h.run e' he' hk).1 (heq ▸ List.mem_cons_self)
    simp only [Round.grant, List.filter_append, List.map_append, List.filter_cons, kind,
      decide_true, if_true, List.filter_nil, List.map_cons, List.map_nil]
    refine List.nodup_append.mpr ⟨h.distinct, List.nodup_singleton _, ?_⟩
    intro a ha b hb
    obtain ⟨e', he', rfl⟩ := List.mem_map.mp ha
    obtain ⟨hmem, hk⟩ := List.mem_filter.mp he'
    rw [List.mem_singleton.mp hb]
    exact hnew e' hmem (of_decide_eq_true hk)
  charged id := by
    obtain ⟨resource, hresource, -⟩ := grants.current
    by_cases hid : e.resource = id
    · subst hid
      have hrun : e.runsOn e.resource := by simp [ScheduleEntry.runsOn, kind]
      have hfit := capacity resource hresource
      simp only [Round.grant, serviceOf_append_pos (p := (·.runsOn e.resource)) hrun, getD_insert,
        if_true, h.charged]
      have hlt := (resource.capacityRemaining now).toNat_lt
      rw [toNat_saturatingAdd]
      omega
    · have hrun : ¬ e.runsOn id := by simp [ScheduleEntry.runsOn, hid]
      simp only [Round.grant, serviceOf_append_neg (p := (·.runsOn id)) hrun, getD_insert,
        if_neg (Ne.symm hid), h.charged]
  capacity id resource hresource := by
    by_cases hid : e.resource = id
    · subst hid
      have hrun : e.runsOn e.resource := by simp [ScheduleEntry.runsOn, kind]
      simp only [Round.grant, serviceOf_append_pos (p := (·.runsOn e.resource)) hrun, h.charged]
      exact capacity resource hresource
    · have hrun : ¬ e.runsOn id := by simp [ScheduleEntry.runsOn, hid]
      simp only [Round.grant, serviceOf_append_neg (p := (·.runsOn id)) hrun]
      exact h.capacity id resource hresource
  drawn id := by
    have hold := h.drawn id
    by_cases hid : e.runsUnder id
    · obtain ⟨rfl, hvalid⟩ := ScheduleEntry.valid_of_runsUnder hid
      have hnew : e.quantum.toNat + serviceOf (·.runsUnder e.reservation) round.entries ≤
          2 ^ 64 - 1 := by
        obtain ⟨reservation, hreservation⟩ := grants.registered hid
        have := reserved hid reservation hreservation
        have := reservation.descriptor.capacity.toNat_lt
        omega
      simp only [Round.grant, serviceOf_append_pos (p := (·.runsUnder e.reservation)) hid, hvalid,
        if_true, getD_insert, toNat_saturatingAdd]
      omega
    · simp only [Round.grant, serviceOf_append_neg (p := (·.runsUnder id)) hid]
      split
      · rw [getD_insert]
        split
        · rename_i heq
          subst heq
          rw [toNat_saturatingAdd]
          have := (round.pendingReservation.getD e.reservation 0).toNat_lt
          omega
        · exact hold
      · exact hold
  reserved id reservation hreservation := by
    by_cases hid : e.runsUnder id
    · obtain ⟨rfl, -⟩ := ScheduleEntry.valid_of_runsUnder hid
      have hfit := reserved hid reservation hreservation
      have hdrawn := h.drawn e.reservation
      simp only [Round.grant, serviceOf_append_pos (p := (·.runsUnder e.reservation)) hid]
      omega
    · simp only [Round.grant, serviceOf_append_neg (p := (·.runsUnder id)) hid]
      exact h.reserved id reservation hreservation

theorem displace {v : Victim} {candidate : Candidate} {d victim : FlowDescriptor}
    (within : round.entries.length < kEntryBound) (h : round.Granted s now rest) :
    (round.displace (preemptEntry v round.nextOrdinal candidate d now) victim).Granted
      s now rest where
  run e he hk := by
    rcases List.mem_append.mp he with he | he
    · exact h.run e he hk
    · rw [List.mem_singleton] at he
      subst he
      cases hk
  other e he hk := by
    rcases List.mem_append.mp he with he | he
    · exact h.other e he hk
    · rw [List.mem_singleton] at he
      subst he
      exact ⟨v, candidate, d, rfl⟩
  ordinal := ordinal_append h.ordinal h.next
  next := next_append h.next
  size := by
    simp only [Round.displace, Round.defer, List.length_append, List.length_singleton]
    omega
  distinct := by
    simp only [Round.displace, Round.defer, List.filter_append]
    simpa [preemptEntry] using h.distinct
  charged id := by
    refine Eq.trans ?_ (h.charged id)
    exact serviceOf_append_neg (p := (·.runsOn id)) (by simp [ScheduleEntry.runsOn, preemptEntry])
  capacity id resource hresource := by
    refine le_trans (le_of_eq ?_) (h.capacity id resource hresource)
    exact serviceOf_append_neg (p := (·.runsOn id)) (by simp [ScheduleEntry.runsOn, preemptEntry])
  drawn id := by
    refine le_trans (le_of_eq ?_) (h.drawn id)
    exact serviceOf_append_neg (p := (·.runsUnder id))
      (by simp [ScheduleEntry.runsUnder, preemptEntry])
  reserved id reservation hreservation := by
    refine le_trans (le_of_eq ?_) (h.reserved id reservation hreservation)
    exact serviceOf_append_neg (p := (·.runsUnder id))
      (by simp [ScheduleEntry.runsUnder, preemptEntry])

end Round.Granted

section Choice

variable {s : Impl} {now : Ticks}

theorem worstIncumbent_spec {resource : ResourceId} {attempt : DispatchAttemptId}
    (h : s.worstIncumbent resource now = some attempt) :
    attempt.valid ∧ ∃ id ∈ s.indexes.inflight.toList, ∃ r, s.flows[id]? = some r ∧
      r.openAttempt = attempt := by
  unfold worstIncumbent at h
  obtain ⟨w, hw, rfl⟩ := Option.map_eq_some_iff.mp h
  refine List.foldlRecOn (motive := fun acc => ∀ w : OrderKey × DispatchAttemptId,
    acc = some w → w.2.valid ∧ ∃ id ∈ s.indexes.inflight.toList, ∃ r, s.flows[id]? = some r ∧
      r.openAttempt = w.2) _ _ ?_ ?_ w hw
  · intro w hw
    cases hw
  · intro acc hacc id hid w hw
    split at hw
    · exact hacc w hw
    · rename_i r hr
      split at hw
      · exact hacc w hw
      · rename_i hserves
        have hv := not_not.mp (not_or.mp hserves).1
        dsimp only at hw
        split at hw
        · cases hw
          exact ⟨hv, id, hid, r, hr, rfl⟩
        · split at hw
          · cases hw
            exact ⟨hv, id, hid, r, hr, rfl⟩
          · exact hacc w hw

theorem chooseVictim_spec {candidate : Candidate} {d : FlowDescriptor} {victim : Victim}
    (h : s.chooseVictim candidate d now = .ok victim) :
    s.attempts[victim.attempt]? = some victim.record ∧ victim.attempt.valid ∧
      ∃ id ∈ s.indexes.inflight.toList, ∃ r, s.flows[id]? = some r ∧
        r.openAttempt = victim.attempt := by
  unfold chooseVictim at h
  split at h
  · cases h
  · rename_i attempt hw
    split at h
    · cases h
    · rename_i record hrecord
      split at h
      · cases h
      · split at h
        · cases h
        · cases h
          exact ⟨hrecord, worstIncumbent_spec hw⟩

theorem valid_chooseVictim {candidate : Candidate} {d : FlowDescriptor} {victim : Victim}
    (h : s.chooseVictim candidate d now = .ok victim) : victim.attempt.valid :=
  (chooseVictim_spec h).2.1

theorem min_le_of_left {a b c : UInt64} (h : a ≤ c) : min a b ≤ c := by
  rw [show min a b = if a ≤ b then a else b from rfl]
  split
  · exact h
  · rename_i hab
    exact UInt64.le_trans (UInt64.le_of_lt (UInt64.not_le.mp hab)) h

theorem min_le_right_of {a b : UInt64} : min a b ≤ b := by
  rw [show min a b = if a ≤ b then a else b from rfl]
  split
  · assumption
  · exact UInt64.le_refl _

theorem ok_of_ne_zero {ε : Type} {e : ε} {q quantum : UInt64}
    (h : (if q = 0 then .error e else .ok q : Except ε UInt64) = .ok quantum) :
    quantum = q ∧ 0 < quantum := by
  split at h
  · cases h
  · rename_i hne
    cases h
    exact ⟨rfl, UInt64.pos_iff_ne_zero.mpr hne⟩

theorem fits_of_le_slack {q raw spent : UInt64} (pos : 0 < q)
    (h : q ≤ if spent < raw then raw - spent else 0) : spent.toNat + q.toNat ≤ raw.toNat := by
  rw [UInt64.lt_iff_toNat_lt] at pos
  split at h
  · rename_i hlt
    rw [UInt64.le_iff_toNat_le, UInt64.toNat_sub_of_le _ _ (UInt64.le_of_lt hlt)] at h
    rw [UInt64.lt_iff_toNat_lt] at hlt
    omega
  · rw [UInt64.le_iff_toNat_le] at h
    simp only [UInt64.toNat_zero] at h pos
    omega

theorem classCeiling_le {d : FlowDescriptor} {q bound : UInt64} (within : q ≤ bound) :
    (match s.qosClasses[d.qos.id]? with
      | none => q
      | some qos =>
        if qos.generation = d.qos.generation ∧ 0 < qos.maxServicePerDispatch then
          min q qos.maxServicePerDispatch
        else q) ≤ bound := by
  split
  · exact within
  · split
    · exact min_le_of_left within
    · exact within

/-- A legal service window is positive and within the work left, and fits what the round has left
of the resource and of the reservation. -/
theorem legalQuantum_spec {round : Round} {flow : FlowRuntime} {resource : ResourceRuntime}
    {quantum : UInt64} (h : s.legalQuantum round flow resource now = .ok quantum) :
    0 < quantum ∧ quantum ≤ remainingWork flow ∧
      (round.pendingCapacity.getD flow.descriptor.resource.id 0).toNat + quantum.toNat ≤
        (resource.capacityRemaining now).toNat ∧
      (flow.descriptor.reservation.bound →
        (round.pendingReservation.getD flow.descriptor.reservation.id 0).toNat + quantum.toNat ≤
          (s.reservationRemaining flow now).toNat) := by
  unfold legalQuantum at h
  dsimp only at h
  have hq : min (min flow.descriptor.serviceQuantum (remainingWork flow)) s.policy.maxQuantum ≤
      remainingWork flow := min_le_of_left min_le_right_of
  revert h hq
  generalize min (min flow.descriptor.serviceQuantum (remainingWork flow)) s.policy.maxQuantum = q₀
  intro h hq
  have hclass := @classCeiling_le s flow.descriptor q₀ _ hq
  obtain ⟨rfl, hpos⟩ := ok_of_ne_zero h
  revert hpos
  generalize hslack : (if flow.descriptor.reservation.bound then _ else _ : UInt64) = slack
  generalize hcapacity : (if (round.pendingCapacity.getD flow.descriptor.resource.id 0) <
    resource.capacityRemaining now then _ else _ : UInt64) = capacity
  intro hpos
  have hbounds : ∀ m q : UInt64, m ≤ remainingWork flow → q ≤ min (min m capacity) slack →
      q ≤ remainingWork flow ∧ q ≤ capacity ∧ q ≤ slack := by
    intro m q hm hle
    exact ⟨UInt64.le_trans hle (min_le_of_left (min_le_of_left hm)),
      UInt64.le_trans hle (min_le_of_left min_le_right_of), UInt64.le_trans hle min_le_right_of⟩
  revert hpos
  generalize hquantum : (if hasDeadline flow.descriptor.deadlineTick ∧ s.policy.strictDeadlines then
    _ else _ : UInt64) = q
  intro hpos
  obtain ⟨hwork, hcap, hres⟩ : q ≤ remainingWork flow ∧ q ≤ capacity ∧ q ≤ slack := by
    rw [← hquantum]
    split
    · exact hbounds _ _ hclass (min_le_of_left (UInt64.le_refl _))
    · exact hbounds _ _ hclass (UInt64.le_refl _)
  refine ⟨hpos, hwork, fits_of_le_slack hpos (hcapacity ▸ hcap), fun hbound => ?_⟩
  rw [if_pos hbound] at hslack
  exact fits_of_le_slack hpos (hslack ▸ hres)

/-- A legal service window is within what the flow asks for at a time, what the policy and the bound
generation of its class allow, and the time left under strict deadlines. -/
theorem legalQuantum_bounds {round : Round} {flow : FlowRuntime} {resource : ResourceRuntime}
    {quantum : UInt64} (h : s.legalQuantum round flow resource now = .ok quantum) :
    quantum ≤ flow.descriptor.serviceQuantum ∧ quantum ≤ s.policy.maxQuantum ∧
      (∀ qos, s.qosClasses[flow.descriptor.qos.id]? = some qos →
        qos.generation = flow.descriptor.qos.generation → 0 < qos.maxServicePerDispatch →
        quantum ≤ qos.maxServicePerDispatch) ∧
      (s.policy.strictDeadlines → hasDeadline flow.descriptor.deadlineTick →
        quantum ≤ if now < flow.descriptor.deadlineTick then flow.descriptor.deadlineTick - now
          else 0) := by
  unfold legalQuantum at h
  dsimp only at h
  obtain ⟨rfl, -⟩ := ok_of_ne_zero h
  clear h
  generalize (if flow.descriptor.reservation.bound then _ else _ : UInt64) = slack
  generalize (if (round.pendingCapacity.getD flow.descriptor.resource.id 0) <
    resource.capacityRemaining now then _ else _ : UInt64) = capacity
  generalize htime : (if now < flow.descriptor.deadlineTick then _ else _ : UInt64) = time
  have hcut : ∀ m : UInt64, (if hasDeadline flow.descriptor.deadlineTick ∧ s.policy.strictDeadlines then
      min (min (min m capacity) slack) time else min (min m capacity) slack) ≤ m := by
    intro m
    have hwindow : min (min m capacity) slack ≤ m :=
      min_le_of_left (min_le_of_left (UInt64.le_refl _))
    split
    · exact min_le_of_left hwindow
    · exact hwindow
  have hservice : min (min flow.descriptor.serviceQuantum (remainingWork flow))
      s.policy.maxQuantum ≤ flow.descriptor.serviceQuantum :=
    min_le_of_left (min_le_of_left (UInt64.le_refl _))
  have hpolicy : min (min flow.descriptor.serviceQuantum (remainingWork flow))
      s.policy.maxQuantum ≤ s.policy.maxQuantum := min_le_right_of
  refine ⟨UInt64.le_trans (hcut _) ?_, UInt64.le_trans (hcut _) ?_,
    fun qos hqos hcurrent hpos => UInt64.le_trans (hcut _) ?_, fun hstrict hdeadline => ?_⟩
  · split
    · exact hservice
    · split
      · exact min_le_of_left hservice
      · exact hservice
  · split
    · exact hpolicy
    · split
      · exact min_le_of_left hpolicy
      · exact hpolicy
  · rw [hqos]
    dsimp only
    rw [if_pos ⟨hcurrent, hpos⟩]
    exact min_le_right_of
  · rw [if_pos ⟨hdeadline, hstrict⟩]
    exact min_le_right_of

end Choice

end FlowScheduler

import FlowScheduler.Arbitration.Starving
import FlowScheduler.Fairness.Stamps

/-! # Contention for a window

A round that issues one window gives it to the candidate ordered first among
those it could serve. With the tier, the rank and the deadline equal that is
the one with the least stamp.
-/

namespace FlowScheduler

open ByteCodec (Bytes)
open Failing SchedOp Impl OrderedMap

theorem OrderKey.virtualFinish_le {a b : OrderKey} (h : a.before b) (tier : a.tier = b.tier)
    (rank : a.priorityRank = b.priorityRank) (deadline : a.deadline = b.deadline) :
    a.virtualFinish ≤ b.virtualFinish := by
  rw [OrderKey.before_iff, OrderKey.ranks, OrderKey.ranks, tier, rank, deadline] at h
  simp only [List.cons_lt_cons_iff, lt_irrefl, false_or, true_and] at h
  rw [UInt64.le_iff_toNat_le]
  omega

def Impl.load (i : Impl) (now : Ticks) (k : ResourceId) :
    Option (ResourceDescriptor × UInt64 × UInt64) :=
  i.resources[k]?.map fun r => (r.descriptor, r.inFlight, r.capacityRemaining now)

def Impl.CanTake (i : Impl) (now : Ticks) (resource : Binding .resource) : Prop :=
  ∃ d inFlight capacity, i.load now resource.id = some (d, inFlight, capacity) ∧
    d.generation = resource.generation ∧ inFlight < d.maxOverlap ∧ 0 < capacity

def Impl.rankOf (s : Impl) (d : FlowDescriptor) : UInt32 :=
  (s.priorityClasses[d.priority.id]?.map PriorityClassDescriptor.rank).getD 0

/-- The flow runs on the resource, has the rank and no deadline. -/
structure Impl.Peer (s : Impl) (resource : Binding .resource) (rank : UInt32) (d : FlowDescriptor) :
    Prop where
  resource : d.resource = resource
  rank : s.rankOf d = rank
  dateless : hasDeadline d.deadlineTick = false

structure Impl.Backlogged (s : Impl) (now : Ticks) (r : FlowRuntime) : Prop where
  pending : r.lifecycle = .waiting ∨ r.lifecycle = .ready
  derived : s.derivedReadiness r now = .ok ()
  work : 0 < remainingWork r
  quantum : 0 < r.descriptor.serviceQuantum

instance {s : Impl} {resource : Binding .resource} {rank : UInt32} {d : FlowDescriptor} :
    Decidable (s.Peer resource rank d) :=
  decidable_of_iff (d.resource = resource ∧ s.rankOf d = rank ∧ hasDeadline d.deadlineTick = false)
    ⟨fun ⟨a, b, c⟩ => ⟨a, b, c⟩, fun h => ⟨h.resource, h.rank, h.dateless⟩⟩

instance {s : Impl} {now : Ticks} {r : FlowRuntime} : Decidable (s.Backlogged now r) :=
  decidable_of_iff ((r.lifecycle = .waiting ∨ r.lifecycle = .ready) ∧
      s.derivedReadiness r now = .ok () ∧ 0 < remainingWork r ∧ 0 < r.descriptor.serviceQuantum)
    ⟨fun ⟨a, b, c, d⟩ => ⟨a, b, c, d⟩, fun h => ⟨h.pending, h.derived, h.work, h.quantum⟩⟩

section Loop

variable {s t u : Scheduler} {i i' : Impl} {now : Ticks} {limit : ℕ} {c : Candidate}
  {cs before : List Candidate} {round round' : Round} {id : FlowId} {r : FlowRuntime}
  {e : ScheduleEntry}

theorem load_rolled {d : FlowDescriptor} {k : ResourceId} :
    (i.rolled d now).load now k = i.load now k := by
  simp only [Impl.load, Impl.rolled, Impl.modifyResource, get_modify]
  split
  · rw [Option.map_map]
    refine congrArg (fun f => Option.map f _) (funext fun r => ?_)
    simp only [Function.comp, descriptor_rollInterval, inFlight_rollInterval,
      capacityRemaining_rollInterval]
  · rfl

/-- A decision that adds no entry leaves the resources and what the round has promised. -/
theorem Decides.unserved (h : Decides now limit c i round i' round')
    (none : round'.entries = round.entries) :
    i'.load now = i.load now ∧ ∃ o, round' = { round with outcome := o } := by
  cases h with
  | passed => exact ⟨rfl, _, rfl⟩
  | unready =>
    refine ⟨?_, _, rfl⟩
    funext k
    rw [Impl.load, resources_deferUnready, Impl.load]
  | deferred => exact ⟨rfl, _, rfl⟩
  | blocked | windowless => exact ⟨funext fun k => load_rolled, _, rfl⟩
  | granted => simp [Round.grant] at none
  | displaced _ _ _ _ _ _ _ entered | replaced _ _ _ _ _ _ _ entered =>
    subst entered
    simp [Round.displace, Round.defer, Round.grant] at none

theorem DecidesAll.unserved (h : DecidesAll now limit cs s round t round')
    (none : round'.entries = round.entries) :
    t.impl.load now = s.impl.load now ∧ ∃ o, round' = { round with outcome := o } := by
  induction h with
  | nil => exact ⟨rfl, _, rfl⟩
  | cons sound step _ rest ih =>
    obtain ⟨added, hadded, -⟩ := step.enters
    obtain ⟨later, hlater, -⟩ := rest.enters
    have hlength := congrArg List.length none
    rw [hlater, hadded, List.length_append, List.length_append] at hlength
    obtain rfl : later = [] := List.eq_nil_of_length_eq_zero (by omega)
    obtain rfl : added = [] := List.eq_nil_of_length_eq_zero (by omega)
    rw [List.append_nil] at hadded hlater
    obtain ⟨hload, o, rfl⟩ := step.unserved hadded
    obtain ⟨hload', o', hround⟩ := ih hlater
    exact ⟨hload'.trans hload, o', hround⟩

/-- A ready flow that may be arbitrated stands after its turn, whatever is decided. -/
theorem Decides.keeps (sound : Sound i) (h : Decides now limit c i round i' round')
    (found : i.flows[c.flow]? = some r) (ready : r.lifecycle = .ready)
    (derived : i.derivedReadiness r now = .ok ()) :
    ∃ r', i'.flows[c.flow]? = some r' ∧ r.Stands r' := by
  have hunengaged := unengaged_of_pending (.inr ready)
  cases h with
  | passed | deferred | blocked | windowless | granted => exact ⟨r, found, .refl r⟩
  | unready hfound _ _ hunready =>
    obtain rfl := Option.some.inj (found.symm.trans hfound)
    rw [derived] at hunready
    cases hunready
  | displaced _ _ _ _ _ chosen after | replaced _ _ _ _ _ chosen after =>
    subst after
    have hspared : Spared (fun _ => False) i _ := spares_displace sound chosen
    exact hspared.stands _ r not_false found hunengaged

theorem usable_of_derived (derived : i.derivedReadiness r now = .ok ()) :
    i.reservationUsable r now = .ok () := by
  unfold derivedReadiness at derived
  cases husable : i.reservationUsable r now with
  | error reason =>
    rw [husable] at derived
    split_ifs at derived
  | ok => rfl

theorem reservationRemaining_pos (derived : i.derivedReadiness r now = .ok ())
    (bound : r.descriptor.reservation.bound) : 0 < i.reservationRemaining r now := by
  have husable := usable_of_derived derived
  unfold reservationUsable at husable
  unfold reservationRemaining
  dsimp only at husable ⊢
  rw [if_neg (not_not.mpr bound)] at husable ⊢
  split at husable
  · cases husable
  · rename_i reservation found
    split_ifs at husable with hretired hgeneration hresource hearly hlate hspent
    have hopen : ¬ (reservation.retired ∨ ¬ reservation.descriptor.windowContains now) :=
        not_or.mpr ⟨hretired, not_not.mpr (by
      rw [ReservationDescriptor.windowContains, Bool.and_eq_true, decide_eq_true_iff,
        decide_eq_true_iff]
      exact ⟨UInt64.not_lt.mp hearly, UInt64.not_le.mp hlate⟩)⟩
    rw [if_neg hopen, if_neg hspent]
    have hlt := UInt64.not_le.mp hspent
    rw [UInt64.lt_iff_toNat_lt] at hlt ⊢
    rw [UInt64.toNat_sub_of_le _ _ (UInt64.le_of_lt (UInt64.not_le.mp hspent))]
    simpa using hlt

/-- With nothing promised yet the turn of a flow the resource has room for ends in an entry. -/
theorem Decides.enters_of_room {o : ArbitrationOutcome}
    (h : Decides now limit c i { outcome := o } i' round')
    (found : i.flows[c.flow]? = some r) (ready : r.lifecycle = .ready)
    (backlogged : i.Backlogged now r) (dateless : hasDeadline r.descriptor.deadlineTick = false)
    (room : i.CanTake now r.descriptor.resource) (within : 0 < limit)
    (allowed : 0 < i.policy.maxQuantum) : round'.entries ≠ [] := by
  obtain ⟨d, inFlight, capacity, load, current, room, left⟩ := room
  obtain ⟨resource, hresource, hload⟩ := Option.map_eq_some_iff.mp load
  simp only [Prod.mk.injEq] at hload
  obtain ⟨rfl, rfl, rfl⟩ := hload
  have hpending : ∀ k : ResourceId, (∅ : Table ResourceId UInt64).getD k 0 = 0 := fun k =>
    Std.ExtTreeMap.getD_empty
  cases h with
  | passed gone =>
    rcases gone r found with h | h
    · exact absurd ready h
    · simp at h
  | unready hfound _ _ hunready =>
    obtain rfl := Option.some.inj (found.symm.trans hfound)
    rw [backlogged.derived] at hunready
    cases hunready
  | deferred hfound _ _ why =>
    obtain rfl := Option.some.inj (found.symm.trans hfound)
    rcases why with h | h
    · exact absurd within (Nat.not_lt.mpr h)
    · exact absurd current (h resource hresource)
  | blocked eligible _ _ registered full =>
    obtain rfl := Option.some.inj (found.symm.trans eligible.found)
    obtain rfl := Option.some.inj (hresource.symm.trans registered)
    rw [hpending, UInt64.add_zero] at full
    exact absurd room (UInt64.not_lt.mpr full)
  | windowless eligible _ registered _ none =>
    obtain rfl := Option.some.inj (found.symm.trans eligible.found)
    obtain rfl := Option.some.inj (hresource.symm.trans registered)
    have htimely : ¬ (hasDeadline r.descriptor.deadlineTick ∧ r.descriptor.deadlineTick ≤ now) := by
      simp [dateless]
    have hleft : (∅ : Table ResourceId UInt64).getD r.descriptor.resource.id 0 <
        (resource.rollInterval now).capacityRemaining now := by
      rw [hpending, capacityRemaining_rollInterval]
      exact left
    have hreserved : r.descriptor.reservation.bound →
        (∅ : Table ReservationId UInt64).getD r.descriptor.reservation.id 0 <
          i.reservationRemaining r now := by
      intro hbound
      rw [show (∅ : Table ReservationId UInt64).getD _ 0 = 0 from Std.ExtTreeMap.getD_empty]
      exact reservationRemaining_pos backlogged.derived hbound
    obtain ⟨granted, hlegal⟩ : ∃ granted, (i.rolled r.descriptor now).legalQuantum { outcome := o } r
        (resource.rollInterval now) now = .ok granted :=
      (legalQuantum_ok_iff htimely).mpr ⟨backlogged.work, backlogged.quantum, allowed, hleft,
        hreserved⟩
    rw [hlegal] at none
    cases none
  | granted => simp [Round.grant]
  | displaced _ _ _ _ _ _ _ entered | replaced _ _ _ _ _ _ _ entered =>
    subst entered
    simp [Round.displace, Round.defer, Round.grant]

theorem Decides.room_of_single {o : ArbitrationOutcome}
    (h : Decides now limit c i { outcome := o } i' round') (single : round'.entries = [e])
    (run : e.kind = .run) (found : i.flows[c.flow]? = some r)
    (dateless : hasDeadline r.descriptor.deadlineTick = false) :
    e.tier = c.key.tier ∧ 0 < limit ∧ 0 < i.policy.maxQuantum ∧
      i.derivedReadiness r now = .ok () ∧ i.CanTake now r.descriptor.resource := by
  cases h with
  | passed | unready | deferred | blocked | windowless => cases single
  | @granted flow resource quantum eligible _ within registered room legal =>
    obtain rfl := Option.some.inj (found.symm.trans eligible.found)
    have htimely : ¬ (hasDeadline r.descriptor.deadlineTick ∧ r.descriptor.deadlineTick ≤ now) := by
      simp [dateless]
    obtain ⟨-, -, hallowed, hleft, -⟩ := (legalQuantum_ok_iff htimely).mp ⟨quantum, legal⟩
    obtain ⟨resource', hresource', hcurrent⟩ := eligible.current
    obtain rfl := Option.some.inj (registered.symm.trans hresource')
    have hpending : (∅ : Table ResourceId UInt64).getD r.descriptor.resource.id 0 = 0 :=
      Std.ExtTreeMap.getD_empty
    rw [capacityRemaining_rollInterval, hpending] at hleft
    rw [hpending, UInt64.add_zero] at room
    simp only [Round.grant, List.nil_append, List.cons.injEq, and_true] at single
    refine ⟨by rw [← single]; rfl, within, hallowed, eligible.derived, resource.descriptor,
      resource.inFlight, resource.capacityRemaining now, ?_, hcurrent, UInt64.not_le.mp room, hleft⟩
    rw [Impl.load, registered]
    rfl
  | displaced _ _ _ _ _ _ _ entered =>
    subst entered
    simp [Round.displace, Round.defer] at single
    rw [← single] at run
    cases run
  | replaced _ _ _ _ _ _ _ entered =>
    subst entered
    simp [Round.displace, Round.defer, Round.grant] at single

theorem DecidesAll.single (h : DecidesAll now limit cs s round t round') (begun : round.entries = [])
    (single : round'.entries = [e]) :
    ∃ before c after v roundᵥ w next, cs = before ++ c :: after ∧
      DecidesAll now limit before s round v roundᵥ ∧ roundᵥ.entries = [] ∧ Sound v.impl ∧
      Decides now limit c v.impl roundᵥ w.impl next ∧ next.entries = [e] ∧
      DecidesAll now limit after w next t round' := by
  induction h with
  | nil =>
    rw [begun] at single
    cases single
  | @cons c cs s round t next u round'' sound step makes rest ih =>
    obtain ⟨added, hadded, -⟩ := step.enters
    obtain ⟨later, hlater, -⟩ := rest.enters
    rw [begun, List.nil_append] at hadded
    cases added with
    | nil =>
      obtain ⟨before, c', after, v, roundᵥ, w, next', rfl, hbefore, hrest⟩ := ih hadded single
      exact ⟨c :: before, c', after, v, roundᵥ, w, next', rfl, .cons sound step makes hbefore, hrest⟩
    | cons x xs =>
      have hone : next.entries = [e] := by
        rw [hlater, hadded] at single
        rw [hadded]
        cases xs with
        | nil => cases later <;> simp_all
        | cons => simp at single
      exact ⟨[], c, cs, s, round, t, next, rfl, .nil, begun, sound, step, hone, rest⟩

theorem DecidesAll.stands (h : DecidesAll now limit cs s round t round')
    (ranks : s.impl.RanksAll now cs) (found : s.impl.flows[id]? = some r)
    (ready : r.lifecycle = .ready) (derived : s.impl.derivedReadiness r now = .ok ()) :
    ∃ r', t.impl.flows[id]? = some r' ∧ r.Stands r' := by
  obtain ⟨c, hc, rfl⟩ := ranks.all id r found ready
  obtain ⟨_, _, _, _, _, _, r₁, -, hafter, -, sound, step, rest, hr₁, hstands₁, hderived₁⟩ :=
    h.turn ranks.ranks ranks.nodup hc found ready (satisfied_of_derived derived)
  have hready₁ := hstands₁.lifecycle.trans ready
  obtain ⟨r₂, hr₂, hstands₂⟩ := step.keeps sound hr₁ hready₁ (hderived₁.trans derived)
  obtain ⟨r₃, hr₃, hstands₃⟩ := rest.spares.stands c.flow r₂ hafter hr₂
    (unengaged_of_pending (.inr (hstands₂.lifecycle.trans hready₁)))
  exact ⟨r₃, hr₃, (hstands₁.trans hstands₂).trans hstands₃⟩

theorem Impl.Backlogged.stands {r' : FlowRuntime} (h : i.Backlogged now r) (stands : r.Stands r')
    (derived : i'.derivedReadiness r' now = i.derivedReadiness r now) : i'.Backlogged now r' := by
  obtain ⟨pending, hderived, work, quantum⟩ := h
  obtain ⟨_, _, rfl⟩ := stands
  exact ⟨pending, derived.trans hderived, work, quantum⟩

/-- A backlogged flow of a resource that can take a window is not passed over. -/
theorem DecidesAll.not_passed_over {o o' : ArbitrationOutcome}
    (h : DecidesAll now limit before s { outcome := o } t { outcome := o' })
    (ranked : ∀ c ∈ before, s.impl.Ranks now c) (nodup : (before.map Candidate.flow).Nodup)
    (found : s.impl.flows[id]? = some r) (ready : r.lifecycle = .ready)
    (backlogged : s.impl.Backlogged now r)
    (dateless : hasDeadline r.descriptor.deadlineTick = false)
    (room : s.impl.CanTake now r.descriptor.resource) (within : 0 < limit)
    (allowed : 0 < s.impl.policy.maxQuantum) : id ∉ before.map Candidate.flow := by
  intro hmem
  obtain ⟨c, hc, rfl⟩ := List.mem_map.mp hmem
  obtain ⟨_, _, v, mid, w, next, r', -, -, hfirst, -, step, rest, hr', hstands, hderived⟩ :=
    h.turn ranked nodup hc found ready (satisfied_of_derived backlogged.derived)
  -- no entry was added, neither before the turn of the flow nor at it
  obtain ⟨added, hadded, -⟩ := hfirst.enters
  obtain ⟨own, hown, -⟩ := step.enters
  obtain ⟨later, hlater, -⟩ := rest.enters
  rw [hown, hadded] at hlater
  simp only [List.nil_append, List.nil_eq, List.append_eq_nil_iff] at hlater
  obtain ⟨⟨rfl, rfl⟩, -⟩ := hlater
  obtain ⟨hload, o'', rfl⟩ := hfirst.unserved hadded
  have hroom : v.impl.CanTake now r'.descriptor.resource := by
    rw [Impl.CanTake, hload, hstands.descriptor]
    exact room
  refine step.enters_of_room hr' (hstands.lifecycle.trans ready)
    (backlogged.stands hstands hderived) (by rw [hstands.descriptor, dateless]) hroom within
    (by rw [hfirst.spares.policy]; exact allowed) ?_
  rw [hown]
  rfl

end Loop

section Rounds

variable {s t u : Scheduler} {i : Impl} {now : Ticks} {round : Round} {resource : Binding .resource}
  {rank : UInt32} {e : ScheduleEntry} {m r : FlowRuntime} {d : FlowDescriptor}

theorem priorityRank_computeKey : (i.computeKey r now).priorityRank = i.rankOf r.descriptor := by
  unfold computeKey Impl.rankOf
  dsimp only
  split <;> rename_i h <;> rw [h] <;> rfl

theorem deadline_computeKey (dateless : hasDeadline r.descriptor.deadlineTick = false) :
    (i.computeKey r now).deadline = kNoDeadline := by
  have hnone : r.descriptor.deadlineTick = kNoDeadline := by
    simpa [hasDeadline] using dateless
  simp only [computeKey, hnone, ite_self]

theorem tierOf_le_normal : i.tierOf r now ≤ kTierNormal := by
  unfold tierOf
  dsimp only
  split_ifs <;> decide

theorem Makes.peer (h : Makes (RoundMove now) s u) (peer : s.impl.Peer resource rank d) :
    u.impl.Peer resource rank d := by
  have hclass := (Backdrop.makes h).priorityClasses d.priority.id
  exact ⟨peer.resource, by rw [Impl.rankOf, hclass]; exact peer.rank, peer.dateless⟩

theorem virtualFinish_computeKey (fair : i.policy.weightedFairness) :
    (i.computeKey r now).virtualFinish = r.virtualFinish :=
  if_pos fair

theorem Impl.Enters.backlogged {id : FlowId} {i' : Impl} {r' : FlowRuntime} (h : i.Enters i' id now r r')
    (backlogged : i.Backlogged now r) : i'.Backlogged now r' := by
  refine ⟨.inr h.ready, h.derived, ?_, ?_⟩
  · rw [remainingWork, h.descriptor, h.served]
    exact backlogged.work
  · rw [h.descriptor]
    exact backlogged.quantum

/-- Of two peers in the normal tier the first candidate has the lesser stamp. -/
theorem Impl.Ranks.virtualFinish_le {c c' : Candidate} {r' : FlowRuntime}
    (fair : i.policy.weightedFairness) (first : c.key.before c'.key) (normal : c.key.tier = kTierNormal)
    (key : c.key = i.computeKey r now) (key' : c'.key = i.computeKey r' now)
    (peer : i.Peer resource rank r.descriptor) (peer' : i.Peer resource rank r'.descriptor) :
    r.virtualFinish ≤ r'.virtualFinish := by
  have htier : c'.key.tier = kTierNormal := by
    refine UInt32.le_antisymm ?_ (normal ▸ (OrderKey.tier_le (.inr first)).1)
    rw [key']
    exact tierOf_le_normal
  have hle := OrderKey.virtualFinish_le first (normal.trans htier.symm)
    (by rw [key, key', priorityRank_computeKey, priorityRank_computeKey, peer.rank, peer'.rank])
    (by rw [key, key', deadline_computeKey peer.dateless, deadline_computeKey peer'.dateless])
  rwa [key, key', virtualFinish_computeKey fair, virtualFinish_computeKey fair] at hle

/-- The one window of a round goes to the flow that has the least stamp of those backlogged. -/
theorem decideGrants_least (sound : Sound s.impl) (fair : s.impl.policy.weightedFairness)
    (h : exec (decideGrants now) s = (.ok round, t)) (single : round.entries = [e])
    (run : e.kind = .run) (normal : e.tier = kTierNormal) (served : s.impl.flows[e.flow]? = some m)
    (peer : s.impl.Peer resource rank m.descriptor) :
    ∃ m', t.impl.flows[e.flow]? = some m' ∧ m'.lifecycle = .ready ∧ m'.descriptor = m.descriptor ∧
      t.impl.clocking = s.impl.clocking ∧
      ∀ (id : FlowId) (r : FlowRuntime), s.impl.flows[id]? = some r →
        s.impl.Peer resource rank r.descriptor →
        s.impl.Backlogged now r →
        ∃ r', t.impl.flows[id]? = some r' ∧ r'.lifecycle = .ready ∧
          r'.mark = (r.descriptor, s.impl.nextFinish r) ∧ m'.virtualFinish ≤ r'.virtualFinish := by
  obtain ⟨p, u, hopen, hall⟩ := decideGrants_ok sound h
  obtain ⟨hmakes, -, hranks⟩ := openRound_ok sound hopen
  obtain ⟨before, c, after, v, roundᵥ, w, next, hcs, hbefore, hempty, hsound, hstep, hnext, hafter⟩ :=
    hall.single rfl single
  obtain ⟨hload, o, rfl⟩ := hbefore.unserved hempty
  have hspares := openRound_spares_ready sound hopen
  have hpolicy : u.impl.policy = s.impl.policy := hspares.policy
  have hflow : e.flow = c.flow := by
    obtain ⟨added, hadded, hruns⟩ := hstep.grants hsound.keyed
    refine hruns e ?_ run
    rw [hnext, List.nil_append] at hadded
    rw [← hadded]
    exact List.mem_singleton_self e
  rw [hflow] at served ⊢
  obtain ⟨x, hx, hready, hkey⟩ :=
    hranks.ranks c (hcs ▸ List.mem_append_right _ List.mem_cons_self)
  have hdescriptor : x.descriptor = m.descriptor := by
    have hroster := congrFun hmakes.round.roster c.flow
    rw [Impl.roster_eq, Impl.roster_eq, hx, served] at hroster
    exact Option.some.inj hroster
  have hnodup := hranks.nodup
  rw [hcs, List.map_append, List.map_cons] at hnodup
  obtain ⟨hdistinct, hcons, hdisjoint⟩ := List.nodup_append.mp hnodup
  -- the flow that is served stands from its ranking to the end
  obtain ⟨x₁, hx₁, hstands₁⟩ := hbefore.spares.stands c.flow x
    (fun hmem => hdisjoint _ hmem _ List.mem_cons_self rfl) hx (unengaged_of_pending (.inr hready))
  have hready₁ := hstands₁.lifecycle.trans hready
  have hdescriptor₁ := hstands₁.descriptor.trans hdescriptor
  obtain ⟨htier, hwithin, hallowed, hderived, hroom⟩ := hstep.room_of_single hnext run hx₁
    (by rw [hdescriptor₁]; exact peer.dateless)
  obtain ⟨x₂, hx₂, hstands₂⟩ := hstep.keeps hsound hx₁ hready₁ hderived
  obtain ⟨m', hm', hstands₃⟩ := hafter.spares.stands c.flow x₂ (List.nodup_cons.mp hcons).1 hx₂
    (unengaged_of_pending (.inr (hstands₂.lifecycle.trans hready₁)))
  have hstands := (hstands₁.trans hstands₂).trans hstands₃
  have hfinish : m'.virtualFinish = x.virtualFinish := hstands.virtualFinish
  have hcanTake : u.impl.CanTake now resource := by
    rw [hdescriptor₁, peer.resource, Impl.CanTake, hload] at hroom
    exact hroom
  refine ⟨m', hm', hstands.lifecycle.trans hready, hstands.descriptor.trans hdescriptor, ?_,
    fun id r hr hpeer hbacklogged => ?_⟩
  · rw [Impl.clocking, hall.spares.policy, hall.spares.clocks, hspares.policy, hspares.clocks]
    rfl
  obtain ⟨r₁, henters⟩ :=
    openRound_enters sound hopen fair hr hbacklogged.pending hbacklogged.derived
  obtain ⟨r', hr', hstandsᵣ⟩ := hall.stands hranks henters.found henters.ready henters.derived
  refine ⟨r', hr', hstandsᵣ.lifecycle.trans henters.ready, ?_, ?_⟩
  · rw [FlowRuntime.mark, hstandsᵣ.descriptor, hstandsᵣ.virtualFinish, henters.descriptor,
      henters.finish]
  rw [hfinish, hstandsᵣ.virtualFinish]
  obtain ⟨c', hc', rfl⟩ := hranks.all id r₁ henters.found henters.ready
  obtain ⟨r₂, hr₂, -, hkey'⟩ := hranks.ranks c' hc'
  obtain rfl := Option.some.inj (henters.found.symm.trans hr₂)
  have hpeer' : s.impl.Peer resource rank r₁.descriptor := henters.descriptor ▸ hpeer
  have hordered := hranks.ordered
  rw [hcs] at hc' hordered
  rcases List.mem_append.mp hc' with hc' | hc'
  · -- its turn came before, when the resource could take its window
    refine absurd (List.mem_map_of_mem hc') (hbefore.not_passed_over
      (fun a ha => hranks.ranks a (hcs ▸ List.mem_append_left _ ha)) hdistinct henters.found
      henters.ready (henters.backlogged hbacklogged) hpeer'.dateless ?_ hwithin ?_)
    · rw [hpeer'.resource]
      exact hcanTake
    · rwa [hbefore.spares.policy] at hallowed
  · rcases List.mem_cons.mp hc' with rfl | hc'
    · obtain rfl := Option.some.inj (hx.symm.trans henters.found)
      exact UInt64.le_refl _
    · have hfirst := List.rel_of_pairwise_cons (List.pairwise_append.mp hordered).2.1 hc'
      exact Impl.Ranks.virtualFinish_le (hpolicy ▸ fair) hfirst (htier.symm.trans normal) hkey hkey'
        (hmakes.round.peer (hdescriptor ▸ peer)) (hmakes.round.peer hpeer')

end Rounds

end FlowScheduler

import FlowScheduler.Budget.Quanta
import FlowScheduler.Budget.Reservations
import FlowScheduler.Lifecycle.Resting
import FlowScheduler.Steps.Issue

/-! # Dispatching what a round granted

A round checks the resource and the reservation of every flow it grants a window,
and a dispatch checks the classes of the flow as well. Where the classes are the
registered ones, every window of a schedule can be dispatched, in any order.
-/

namespace FlowScheduler

open ByteCodec (Yields)
open Failing SchedOp OrderedMap Impl

section Reached

variable {s t : Scheduler}

theorem valid_of_lt {f : IdFamily} {a b : Id f} (h : a.value < b.value) : b.valid := by
  unfold Id.valid
  rw [bne_iff_ne]
  intro hzero
  rw [hzero] at h
  exact absurd h (UInt64.not_lt.mpr (UInt64.zero_le))

theorem epoch_valid_create {options : SchedulerOptions} {files : Directory}
    (h : create options files = .ok s) : s.impl.epoch.valid := by
  obtain ⟨-, rfl | ⟨-, store, -, -, hrecover⟩⟩ := create_ok h
  · rfl
  · obtain ⟨b, report, s₁, s₂, s₃, next, before, after, -, -, hadvance, -, rfl⟩ := recover_ok hrecover
    exact valid_of_lt (Id.lt_of_advance hadvance)

theorem ReachableBy.epoch_valid {allowed : Scheduler → Call → Prop} (h : ReachableBy allowed s) :
    s.impl.epoch.valid := by
  refine h.invariant (P := fun i => i.epoch.valid) (fun _ _ _ => epoch_valid_create) ?_
  intro s c sound _ hs
  refine preserves_call (P := fun i => i.epoch.valid) (fun i r i' move hi => ?_) sound hs
  have hle : i.epoch.value ≤ i'.epoch.value := move.onward.epoch
  unfold Id.valid at hi ⊢
  rw [bne_iff_ne] at hi ⊢
  intro hzero
  rw [hzero, UInt64.le_zero_iff] at hle
  exact hi hle

/-- The policy in force is the one the scheduler is bound to. -/
def Impl.Governed (i : Impl) : Prop := i.policyBinding = i.policy.binding

theorem Impl.Governed.of_setting {i i' : Impl} (h : i.Governed) (same : i'.setting = i.setting) :
    i'.Governed := by
  have hpolicy : i'.policy = i.policy := congrArg Setting.policy same
  have hbinding : i'.policyBinding = i.policyBinding := congrArg Setting.policyBinding same
  unfold Impl.Governed
  rw [hpolicy, hbinding]
  exact h

theorem Impl.Governed.replay {i i' : Impl} {r : Record} (h : i.Governed) (hr : r.replay i = .ok i') :
    i'.Governed := by
  rcases setting_replay hr with hsame | ⟨policy, rfl⟩
  · have hpolicy : i'.policy = i.policy := congrArg Setting.policy hsame
    have hbinding : i'.policyBinding = i.policyBinding := congrArg Setting.policyBinding hsame
    rw [Impl.Governed, hpolicy, hbinding]
    exact h
  · rfl

theorem yields_governed (i : Impl) : Yields i.readStateSnapshot Governed := by
  iterate 6 refine .skip fun _ => ?_
  have htables : ∀ i : Impl, i.Governed → Yields (readSnapshotTables i) Governed := by
    intro i hi
    iterate 8 refine .skip fun _ => ?_
    exact .pure hi
  have hcounters : ∀ i : Impl, i.Governed → Yields (readSnapshotCounters i) Governed := by
    intro i hi
    iterate 13 refine .skip fun _ => ?_
    exact .pure hi
  have hpolicy : ∀ (policy : SchedulingPolicy) (epoch : FabricEpoch) (lastTick : Ticks),
      ({ i.applyPolicy policy with epoch, lastTick } : Impl).Governed := fun _ _ _ => rfl
  refine (htables _ (hpolicy _ _ _)).bind fun t ht => (hcounters t ht).bind fun u hu => ?_
  exact .skip fun _ => .skip fun _ => .pure hu

theorem governed_create {options : SchedulerOptions} {files : Directory}
    (h : create options files = .ok s) : s.impl.Governed := by
  obtain ⟨-, rfl | ⟨-, store, -, -, hrecover⟩⟩ := create_ok h
  · rfl
  · obtain ⟨b, report, s₁, s₂, s₃, next, before, after, hrestore, hreplay, -, -, rfl⟩ :=
      recover_ok hrecover
    have hfresh : (Impl.fresh options.policy).Governed := rfl
    have hrestored : s₁.impl.Governed :=
      restoreSnapshot_keeps (yields_governed _) (fun _ _ hi => hi) hfresh hrestore
    have hreplayed : s₂.impl.Governed := by
      refine replayJournal_keeps (fun i type payload i' hr hi => ?_) hrestored hreplay
      rcases replay_of_applyRecord hr with rfl | ⟨r, -, hr⟩
      · exact hi
      · exact hi.replay hr
    refine Impl.Governed.of_setting hreplayed ?_
    exact setting_applyEpochAdvance (s := { s₂.impl with recovery := before }) next _

theorem ReachableBy.governed {allowed : Scheduler → Call → Prop} (h : ReachableBy allowed s) :
    s.impl.Governed := by
  refine h.invariant (P := Governed) (fun _ _ _ => governed_create) ?_
  intro s c sound _ hs
  refine preserves_call (P := Governed) (fun i r i' move hi => ?_) sound hs
  by_cases hinstall : ∃ policy, c = .installPolicy policy
  · obtain ⟨policy, rfl⟩ := hinstall
    rcases move with move | ⟨_, hc, -⟩
    · cases move with
      | common move => exact hi.of_setting move.setting
      | touch => exact hi
      | installPolicy => rfl
    · cases hc
  · have hbinding : i'.policyBinding = i.policyBinding :=
      move.policyBinding.resolve_right fun ⟨policy, hc, _⟩ => hinstall ⟨policy, hc⟩
    unfold Governed
    rw [hbinding, move.policy fun policy hc => hinstall ⟨policy, hc⟩]
    exact hi

theorem Steps.refusedAppends_le {R : Impl → Option Record → Impl → Prop} {rs : List Record}
    (h : Steps R s rs t) : s.refusedAppends ≤ t.refusedAppends := by
  have hjournal : ∀ {u v : Scheduler} {r : Record} {x : Status}, exec (journal r) u = (x, v) →
      u.refusedAppends ≤ v.refusedAppends := by
    intro u v r x hr
    rw [exec_journal] at hr
    split at hr
    · cases hr
      exact le_rfl
    · split at hr <;> cases hr
      · exact le_rfl
      · exact Nat.le_succ _
  induction h with
  | refl => exact le_rfl
  | silent _ _ ih => exact ih
  | journaled _ _ append ih =>
    have hle := hjournal append
    exact ih.trans hle
  | refused _ append ih => exact ih.trans (hjournal append)

theorem refusedAppends_le_call (sound : Sound s.impl) (c : Call) :
    s.refusedAppends ≤ (s.call c).2.refusedAppends := by
  by_cases himage : c = .checkpoint
  · subst himage
    obtain ⟨store, hstore⟩ := call_checkpoint (s := s)
    rw [hstore]
  · obtain ⟨rs, h⟩ := makes_move sound himage
    exact h.refusedAppends_le

theorem refusedAppends_le_calls (sound : Sound s.impl) (cs : List Call) :
    s.refusedAppends ≤ (s.calls cs).refusedAppends := by
  induction cs generalizing s with
  | nil => exact le_rfl
  | cons c cs ih => exact (refusedAppends_le_call sound c).trans (ih (sound_call sound c))

end Reached

section Frame

variable {s s' : Impl} {now : Ticks} {a : Authority}

/-- What a dispatch is checked against, apart from the flows and the schedules. -/
structure Impl.Backdrop (s s' : Impl) : Prop where
  registry : s'.ledger.registry = s.ledger.registry
  binding : s'.policyBinding = s.policyBinding
  terms : s'.terms = s.terms

namespace Impl.Backdrop

theorem refl (s : Impl) : Backdrop s s := ⟨rfl, rfl, rfl⟩

theorem trans {s'' : Impl} (h : Backdrop s s') (h' : Backdrop s' s'') : Backdrop s s'' :=
  ⟨h'.registry.trans h.registry, h'.binding.trans h.binding, h'.terms.trans h.terms⟩

theorem symm (h : Backdrop s s') : Backdrop s' s :=
  ⟨h.registry.symm, h.binding.symm, h.terms.symm⟩

theorem round {r : Option Record} (move : RoundMove now s r s') : Backdrop s s' :=
  ⟨move.registry, move.binding.1, move.terms⟩

theorem makes {u v : Scheduler} (h : Makes (RoundMove now) u v) : Backdrop u.impl v.impl := by
  obtain ⟨rs, h⟩ := h
  exact h.preserves (P := Backdrop u.impl) (fun _ _ _ move hi => hi.trans (round move)) (refl _)

theorem epoch (h : Backdrop s s') : s'.epoch = s.epoch := congrArg Registry.epoch h.registry

theorem policy (h : Backdrop s s') : s'.policy = s.policy := congrArg Registry.policy h.registry

theorem priorityClasses (h : Backdrop s s') (id : PriorityClassId) :
    s'.priorityClasses[id]? = s.priorityClasses[id]? :=
  congrFun (congrArg Registry.priorityClasses h.registry) id

theorem qosClasses (h : Backdrop s s') (id : QoSClassId) :
    s'.qosClasses[id]? = s.qosClasses[id]? :=
  congrFun (congrArg Registry.qosClasses h.registry) id

theorem resource (h : Backdrop s s') {id : ResourceId} {r : ResourceRuntime}
    (found : s.resources[id]? = some r) :
    ∃ r', s'.resources[id]? = some r' ∧ r'.descriptor = r.descriptor := by
  have hid := congrFun (congrArg Registry.resources h.registry) id
  simp only [Ledger.registry, ledger, found, Option.map_some] at hid
  obtain ⟨r', hr', hsame⟩ := Option.map_eq_some_iff.mp hid
  exact ⟨r', hr', hsame⟩

theorem entryAuthority (h : Backdrop s s') (e : ScheduleEntry) :
    s'.entryAuthority e = s.entryAuthority e := by
  unfold Impl.entryAuthority
  rw [h.policy, h.epoch]

theorem reservation (h : Backdrop s s') {id : ReservationId} {generation : Generation}
    (current : s.ReservationCurrent id generation now) :
    s'.ReservationCurrent id generation now := by
  rcases current with hnone | ⟨hvalid, r, hr, hretired, hgeneration, hwindow⟩
  · exact .inl hnone
  · obtain ⟨r', hr', hdescriptor, hsame⟩ := terms_eq h.terms.symm hr
    refine .inr ⟨hvalid, r', hr', ?_, ?_, ?_⟩
    · rw [hsame]
      exact hretired
    · rw [hdescriptor]
      exact hgeneration
    · rw [hdescriptor]
      exact hwindow

/-- Authority stays current while its flow keeps its generation and its path. -/
theorem authority (h : Backdrop s s') (current : s.AuthorityCurrent a now)
    (flow : ∃ r, s'.flows[a.flow]? = some r ∧ r.descriptor.generation = a.flowGeneration ∧
      r.descriptor.path.id = a.path ∧ r.descriptor.path.generation = a.pathGeneration) :
    s'.AuthorityCurrent a now where
  epochValid := current.epochValid
  epoch := current.epoch.trans h.epoch.symm
  policy := by
    rw [h.binding]
    exact current.policy
  policyGeneration := by
    rw [h.binding]
    exact current.policyGeneration
  flow := flow
  resource := by
    obtain ⟨r, hr, hgeneration⟩ := current.resource
    obtain ⟨r', hr', hsame⟩ := h.resource hr
    exact ⟨r', hr', hsame ▸ hgeneration⟩
  priority := by
    rw [h.priorityClasses]
    exact current.priority
  qos := by
    rw [h.qosClasses]
    exact current.qos
  reservation := h.reservation current.reservation
  deadline := current.deadline
  window := current.window

end Impl.Backdrop

end Frame

/-- The schedule is retained with the entry undelivered, its flow waits for it, and its authority is
current. -/
structure Impl.Offers (s : Impl) (schedule : Schedule) (now : Ticks) (e : ScheduleEntry) : Prop where
  retained : ∃ runtime, s.schedules[schedule.schedule]? = some runtime ∧
    runtime.schedule = schedule ∧ runtime.consumed[e.ordinal.toNat]? = some 0
  listed : schedule.entries[e.ordinal.toNat]? = some e
  run : e.kind = .run
  flow : ∃ r, s.flows[e.flow]? = some r ∧ r.lifecycle = .scheduled ∧
    r.scheduledSchedule = schedule.schedule ∧ r.descriptor.generation = e.flowGeneration
  epoch : schedule.epoch = s.epoch
  authority : s.AuthorityCurrent (s.entryAuthority e) now

section Dispatching

variable {s : Impl} {schedule : Schedule} {now : Ticks} {e e' : ScheduleEntry} {worker : WorkerId}
  {boot : BootId}

theorem Impl.Offers.guard (h : s.Offers schedule now e) (hworker : worker.valid)
    (hboot : boot.valid) : ∃ flow, s.beginDispatchGuard schedule.schedule schedule.generation
      e.ordinal worker boot now = .ok (e, flow) := by
  obtain ⟨runtime, hruntime, hsame, hconsumed⟩ := h.retained
  obtain ⟨flow, hflow, hscheduled, hholds, hgeneration⟩ := h.flow
  refine ⟨flow, beginDispatchGuard_eq_ok.mpr ⟨hworker, hboot, ?_, h.run, hflow, hscheduled, hholds,
    hgeneration, h.authority⟩⟩
  exact ⟨runtime, hruntime, by rw [hsame], by rw [hsame]; exact h.epoch, by rw [hsame]; exact h.listed,
    hconsumed⟩

theorem Impl.Offers.touch (h : s.Offers schedule now e) (tick : Ticks) :
    ({ s with lastTick := tick } : Impl).Offers schedule now e :=
  ⟨h.retained, h.listed, h.run, h.flow, h.epoch,
    ⟨h.authority.epochValid, h.authority.epoch, h.authority.policy, h.authority.policyGeneration,
      h.authority.flow, h.authority.resource, h.authority.priority, h.authority.qos,
      h.authority.reservation, h.authority.deadline, h.authority.window⟩⟩

def Impl.dispatched (s : Impl) (schedule : Schedule) (e : ScheduleEntry) (worker : WorkerId)
    (boot : BootId) (now : Ticks) : Impl :=
  ((s.applyAttemptOpened (s.issueTicket schedule.schedule schedule.generation e worker boot now)
    (s.issueTicket schedule.schedule schedule.generation e worker boot now).quantum now).consumeEntry
      schedule.schedule e.ordinal.toNat).advanceAttempt

theorem backdrop_applyAttemptOpened {ticket : DispatchTicket} {nominal : UInt64} :
    Backdrop s (s.applyAttemptOpened ticket nominal now) where
  registry := by
    rw [ledger_applyAttemptOpened]
    exact Ledger.registry_apply (.attemptOpened ticket nominal now)
  binding := congrArg Setting.policyBinding (setting_applyAttemptOpened ..)
  terms := by
    have hreservations : (s.applyAttemptOpened ticket nominal now).reservations = s.reservations := by
      unfold applyAttemptOpened
      dsimp only
      split <;> rfl
    funext id
    simp only [Impl.terms, ledger, hreservations]

theorem sameBut_applyAttemptOpened {ticket : DispatchTicket} {nominal : UInt64} :
    SameBut ticket.flow s (s.applyAttemptOpened ticket nominal now) := by
  unfold applyAttemptOpened
  dsimp only
  split
  · exact fun _ _ => rfl
  · exact (sameBut_modifyFlow.trans sameBut_setLifecycle).trans sameBut_modifyFlow

theorem flows_dispatched (id : FlowId) (other : id ≠ e.flow) :
    (s.dispatched schedule e worker boot now).flows[id]? = s.flows[id]? := by
  have hadvance : ∀ i : Impl, i.advanceAttempt.flows = i.flows := by
    intro i
    unfold advanceAttempt
    split <;> rfl
  unfold Impl.dispatched
  rw [hadvance]
  exact sameBut_applyAttemptOpened id other

theorem backdrop_dispatched : Backdrop s (s.dispatched schedule e worker boot now) := by
  have hadvance : ∀ i : Impl, Backdrop i i.advanceAttempt := by
    intro i
    unfold advanceAttempt
    split <;> exact ⟨rfl, rfl, rfl⟩
  have hopened : ∀ ticket : DispatchTicket, Backdrop s ((s.applyAttemptOpened ticket ticket.quantum
      now).consumeEntry schedule.schedule e.ordinal.toNat) := by
    intro ticket
    obtain ⟨hregistry, hbinding, hterms⟩ :=
      @backdrop_applyAttemptOpened s now ticket ticket.quantum
    exact ⟨hregistry, hbinding, hterms⟩
  exact (hopened _).trans (hadvance _)

theorem schedules_dispatched {runtime : ScheduleRuntime}
    (found : s.schedules[schedule.schedule]? = some runtime) :
    ∃ runtime', (s.dispatched schedule e worker boot now).schedules[schedule.schedule]? =
        some runtime' ∧ runtime'.schedule = runtime.schedule ∧
      runtime'.consumed = runtime.consumed.set e.ordinal.toNat 1 := by
  have hadvance : ∀ i : Impl, i.advanceAttempt.schedules = i.schedules := by
    intro i
    unfold advanceAttempt
    split <;> rfl
  have hopened : ∀ (ticket : DispatchTicket) (nominal : UInt64),
      (s.applyAttemptOpened ticket nominal now).schedules = s.schedules.modify ticket.schedule
        fun r => { r with openAttempts := r.openAttempts + 1 } := by
    intro ticket nominal
    unfold applyAttemptOpened
    dsimp only
    split <;> rfl
  unfold Impl.dispatched
  rw [hadvance, consumeEntry, modifySchedule, hopened]
  simp only [get_modify, issueTicket, if_true, found, Option.map_some]
  exact ⟨_, rfl, rfl, rfl⟩

theorem Impl.Offers.dispatched (h : s.Offers schedule now e) (h' : s.Offers schedule now e')
    (other : e.flow ≠ e'.flow) : (s.dispatched schedule e' worker boot now).Offers schedule now e := by
  have hback : Backdrop s (s.dispatched schedule e' worker boot now) := backdrop_dispatched
  have hflows : (s.dispatched schedule e' worker boot now).flows[e.flow]? = s.flows[e.flow]? :=
    flows_dispatched e.flow other
  have hordinal : e'.ordinal.toNat ≠ e.ordinal.toNat := by
    intro hsame
    have hlisted := h'.listed
    rw [hsame, h.listed] at hlisted
    exact other (by rw [Option.some.inj hlisted])
  obtain ⟨runtime, hruntime, hsame, hconsumed⟩ := h.retained
  obtain ⟨runtime', hruntime', hsame', hconsumed'⟩ :=
    @schedules_dispatched s schedule now e' worker boot runtime hruntime
  constructor
  · refine ⟨runtime', hruntime', hsame'.trans hsame, ?_⟩
    rw [hconsumed', List.getElem?_set_ne hordinal]
    exact hconsumed
  · exact h.listed
  · exact h.run
  · rw [hflows]
    exact h.flow
  · exact h.epoch.trans hback.epoch.symm
  · rw [hback.entryAuthority]
    refine hback.authority h.authority ?_
    rw [show (s.entryAuthority e).flow = e.flow from rfl, hflows]
    exact h.authority.flow

/-- What is offered is dispatched, unless the append is refused. -/
theorem endures_beginDispatch {t : Scheduler} (h : t.impl.Offers schedule now e)
    (hworker : worker.valid) (hboot : boot.valid) (room : t.impl.nextAttempt.value ≠ u64Max) :
    Endures (fun u => u.impl = ({ t.impl with lastTick := max t.impl.lastTick now } : Impl).dispatched
        schedule e worker boot now)
      (beginDispatch schedule.schedule schedule.generation e.ordinal worker boot now) t := by
  have hoffer := h.touch (max t.impl.lastTick now)
  obtain ⟨flow, hguard⟩ := hoffer.guard hworker hboot
  refine Endures.modifyImpl_bind (.readImpl_bind (.lift_bind hguard ?_))
  refine .journal_bind fun u hu => .modifyImpl_bind (.readImpl_bind ?_)
  rw [hu]
  dsimp only
  generalize hopened : (Impl.applyAttemptOpened _ _ _ _).consumeEntry _ _ = i
  have hnext : i.nextAttempt = t.impl.nextAttempt := by
    rw [← hopened]
    exact congrArg Setting.nextAttempt (setting_applyAttemptOpened ..)
  have hadvance : i.nextAttempt.advance = .ok ⟨i.nextAttempt.value + 1⟩ :=
    Id.advance_eq_ok.mpr ⟨by rw [hnext]; exact room, rfl⟩
  refine .lift_bind hadvance (.modifyImpl_bind (.pure ?_))
  rw [Impl.dispatched, hopened, advanceAttempt, hadvance]

theorem nextAttempt_dispatched (room : s.nextAttempt.value ≠ u64Max) :
    (s.dispatched schedule e worker boot now).nextAttempt.value.toNat =
      s.nextAttempt.value.toNat + 1 := by
  have hopened : ∀ (ticket : DispatchTicket) (nominal : UInt64),
      ((s.applyAttemptOpened ticket nominal now).consumeEntry schedule.schedule
        e.ordinal.toNat).nextAttempt = s.nextAttempt :=
    fun _ _ => congrArg Setting.nextAttempt (setting_applyAttemptOpened ..)
  have hadvance : s.nextAttempt.advance = .ok ⟨s.nextAttempt.value + 1⟩ :=
    Id.advance_eq_ok.mpr ⟨room, rfl⟩
  unfold Impl.dispatched advanceAttempt
  rw [hopened, hadvance]
  exact Id.toNat_of_advance hadvance

/-- The calls that dispatch entries of a schedule one after the other. -/
def dispatches (schedule : Schedule) (now : Ticks)
    (order : List (ScheduleEntry × WorkerId × BootId)) : List Call :=
  order.map fun x =>
    .beginDispatch schedule.schedule schedule.generation x.1.ordinal x.2.1 x.2.2 now

/-- Everything that is offered can be dispatched, in any order, while the appends succeed. -/
theorem allSucceed_dispatches {order : List (ScheduleEntry × WorkerId × BootId)} {t : Scheduler}
    (sound : Sound t.impl) (offers : ∀ x ∈ order, t.impl.Offers schedule now x.1)
    (distinct : (order.map fun x => x.1.flow).Nodup)
    (workers : ∀ x ∈ order, x.2.1.valid ∧ x.2.2.valid)
    (room : t.impl.nextAttempt.value.toNat + order.length < 2 ^ 64)
    (appends : (t.calls (dispatches schedule now order)).refusedAppends = t.refusedAppends) :
    t.AllSucceed (dispatches schedule now order) := by
  induction order generalizing t with
  | nil => trivial
  | cons x rest ih =>
    obtain ⟨e, worker, boot⟩ := x
    obtain ⟨hfresh, distinct⟩ := List.nodup_cons.mp distinct
    obtain ⟨hworker, hboot⟩ := workers _ List.mem_cons_self
    have hroom : t.impl.nextAttempt.value ≠ u64Max := by
      intro hmax
      rw [hmax, List.length_cons] at room
      have : u64Max.toNat = 2 ^ 64 - 1 := rfl
      omega
    have hoffer := offers _ List.mem_cons_self
    let c : Call :=
      .beginDispatch schedule.schedule schedule.generation e.ordinal worker boot now
    have hend : Endures (fun u => u.impl =
        ({ t.impl with lastTick := max t.impl.lastTick now } : Impl).dispatched schedule e worker boot
          now) c.op t :=
      (endures_beginDispatch hoffer hworker hboot hroom).bind fun _ _ _ hu => .pure hu
    have hsound : Sound (t.call c).2.impl := sound_call sound c
    have hrest : (t.call c).2.refusedAppends ≤
        (t.calls (dispatches schedule now ((e, worker, boot) :: rest))).refusedAppends :=
      refusedAppends_le_calls hsound (dispatches schedule now rest)
    unfold Endures at hend
    show (∃ response, (t.call c).1 = .ok response) ∧
      (t.call c).2.AllSucceed (dispatches schedule now rest)
    have hcalls : t.calls (dispatches schedule now ((e, worker, boot) :: rest)) =
        (t.call c).2.calls (dispatches schedule now rest) := rfl
    rw [hcalls] at appends hrest
    rw [Scheduler.call] at *
    rcases hexec : exec c.op t with ⟨err | response, u⟩ <;> rw [hexec] at hend hsound hrest appends
    · -- a dispatch that fails here has been refused its append
      dsimp only at hend hrest appends
      omega
    · obtain ⟨hle, himpl⟩ := hend
      dsimp only at hle himpl hsound hrest appends ⊢
      refine ⟨⟨response, rfl⟩, ih hsound ?_ distinct ?_ ?_ ?_⟩
      · intro y hy
        rw [himpl]
        refine ((offers y (List.mem_cons_of_mem _ hy)).touch _).dispatched (hoffer.touch _) ?_
        intro hsame
        exact hfresh (List.mem_map.mpr ⟨y, hy, hsame⟩)
      · exact fun y hy => workers y (List.mem_cons_of_mem _ hy)
      · have hnext : u.impl.nextAttempt.value.toNat = t.impl.nextAttempt.value.toNat + 1 := by
          rw [himpl]
          exact nextAttempt_dispatched (s := { t.impl with lastTick := _ }) hroom
        rw [List.length_cons] at room
        omega
      · omega

end Dispatching

section Issued

variable {i : Impl} {now : Ticks} {id : FlowId} {r : FlowRuntime}

theorem steady_normalize (found : i.flows[id]? = some r) (steady : r.lifecycle.isTransient = false) :
    (i.normalizeTransientStates now).flows[id]? = some r := by
  unfold normalizeTransientStates
  refine foldl_keeps (P := fun t : Impl => t.flows[id]? = some r) (fun t k ht => ?_) _ found
  by_cases hk : id = k
  · subst hk
    rw [normalizeFlow, ht]
    dsimp only
    rw [if_neg (by rintro h; rw [h] at steady; cases steady),
      if_neg (by rintro h; rw [h] at steady; cases steady)]
    exact ht
  · exact (normalizeFlow_spec.1 id hk).trans ht

theorem schedules_normalize : (i.normalizeTransientStates now).schedules = i.schedules :=
  look_normalizeTransientStates (·.schedules) rfl i

theorem pending_retireSchedulesFrom {k : ScheduleId} {runtime : ScheduleRuntime}
    (found : i.schedules[k]? = some runtime) (pending : runtime.pendingEntries ≠ 0)
    (ids : List ScheduleId) : (retireSchedulesFrom i ids).schedules[k]? = some runtime := by
  induction ids generalizing i with
  | nil => exact found
  | cons front rest ih =>
    unfold retireSchedulesFrom
    split
    · exact found
    · split
      · exact ih found
      · rename_i retired hretired
        split
        · exact found
        · rename_i hidle
          refine ih ?_
          have hne : k ≠ front := by
            rintro rfl
            obtain rfl := Option.some.inj (found.symm.trans hretired)
            exact hidle (.inr (UInt64.pos_iff_ne_zero.mpr pending))
          simp only [dropSchedule, get_erase, if_neg hne]
          exact found

theorem issueSchedule_ok {entries : List ScheduleEntry} {u t : Scheduler} {schedule : Schedule}
    (h : exec (issueSchedule entries now) u = (.ok schedule, t)) :
    schedule = u.impl.makeSchedule entries now ∧
      t.impl = ({ u.impl with provenanceSequence := u.impl.provenanceSequence + 1 }.applySchedule
        schedule).advanceSchedule := by
  unfold issueSchedule at h
  rw [exec_readImpl_bind, exec_modifyImpl_bind] at h
  obtain ⟨_, v, hjournal, h⟩ := exec_bind_ok.mp h
  rw [exec_modifyImpl_bind, exec_readImpl_bind, impl_of_append hjournal] at h
  obtain ⟨next, w, hadvance, h⟩ := exec_bind_ok.mp h
  rw [exec_lift] at hadvance
  obtain ⟨hnext, rfl⟩ := Prod.mk.inj hadvance
  rw [exec_readImpl_bind] at h
  obtain ⟨generation, w, hadvance', h⟩ := exec_bind_ok.mp h
  rw [exec_lift] at hadvance'
  obtain ⟨hgeneration, rfl⟩ := Prod.mk.inj hadvance'
  cases h
  refine ⟨rfl, ?_⟩
  unfold advanceSchedule
  dsimp only at hnext hgeneration
  rw [hnext, hgeneration]

theorem concludeRound_ok {round : Round} {u t : Scheduler} {o : ArbitrationOutcome}
    (nonempty : round.entries ≠ []) (h : exec (concludeRound now round) u = (.ok o, t)) :
    o.schedule = u.impl.makeSchedule round.entries now ∧
      t.impl = (({ u.impl with
          provenanceSequence := u.impl.provenanceSequence + 1 }.applySchedule
            o.schedule).advanceSchedule.normalizeTransientStates now).maybeRetireSchedules := by
  unfold concludeRound at h
  rw [if_neg nonempty] at h
  obtain ⟨schedule, v, hissue, h⟩ := exec_bind_ok.mp h
  obtain ⟨hschedule, himpl⟩ := issueSchedule_ok hissue
  cases h
  refine ⟨hschedule, ?_⟩
  dsimp only
  rw [himpl]

/-- The classes the flow names are registered at the generations it names, and it names a reservation
in full or not at all. -/
structure Impl.Binds (i : Impl) (d : FlowDescriptor) : Prop where
  priority : ∃ p, i.priorityClasses[d.priority.id]? = some p ∧ p.generation = d.priority.generation
  qos : ∃ q, i.qosClasses[d.qos.id]? = some q ∧ q.generation = d.qos.generation
  reservation : d.reservation.id.valid = d.reservation.generation.valid

instance {d : FlowDescriptor} : Decidable (i.Binds d) :=
  decidable_of_iff
    ((∃ p ∈ i.priorityClasses[d.priority.id]?, p.generation = d.priority.generation) ∧
      (∃ q ∈ i.qosClasses[d.qos.id]?, q.generation = d.qos.generation) ∧
      d.reservation.id.valid = d.reservation.generation.valid)
    ⟨fun ⟨p, q, r⟩ => ⟨p, q, r⟩, fun ⟨p, q, r⟩ => ⟨p, q, r⟩⟩

theorem Impl.Binds.backdrop {i' : Impl} {d : FlowDescriptor} (h : i.Binds d) (back : Backdrop i i') :
    i'.Binds d := by
  obtain ⟨hpriority, hqos, hreservation⟩ := h
  refine ⟨?_, ?_, hreservation⟩
  · rw [back.priorityClasses]
    exact hpriority
  · rw [back.qosClasses]
    exact hqos

/-- The authority of a granted entry is current when the classes of its flow are. -/
theorem Impl.Grants.authority {e : ScheduleEntry} (h : i.Grants now e r) (epoch : i.epoch.valid)
    (governed : i.Governed) (binds : i.Binds r.descriptor) :
    i.AuthorityCurrent (i.entryAuthority e) now := by
  obtain ⟨candidate, hentry⟩ := h.entry
  have hflow : e.flow = r.descriptor.flow := by rw [hentry]; rfl
  have hgeneration : e.flowGeneration = r.descriptor.generation := by rw [hentry]; rfl
  have hpath : e.path = r.descriptor.path.id := by rw [hentry]; rfl
  have hpathGeneration : e.pathGeneration = r.descriptor.path.generation := by rw [hentry]; rfl
  have hpriority : e.priority = r.descriptor.priority.id := by rw [hentry]; rfl
  have hpriorityGeneration : e.priorityGeneration = r.descriptor.priority.generation := by
    rw [hentry]; rfl
  have hqos : e.qos = r.descriptor.qos.id := by rw [hentry]; rfl
  have hqosGeneration : e.qosGeneration = r.descriptor.qos.generation := by rw [hentry]; rfl
  have hreservation : e.reservation = r.descriptor.reservation.id := by rw [hentry]; rfl
  have hreservationGeneration : e.reservationGeneration = r.descriptor.reservation.generation := by
    rw [hentry]; rfl
  have hend : e.reservationEnd = if r.descriptor.reservation.bound then
      i.reservationWindowEnd r.descriptor.reservation.id else kNoWindowBound := by
    rw [hentry]; rfl
  constructor
  · exact epoch
  · rfl
  · rw [governed]; rfl
  · rw [governed]; rfl
  · exact ⟨r, h.found, hgeneration.symm, hpath.symm, hpathGeneration.symm⟩
  · exact h.current
  · show ∃ p, i.priorityClasses[e.priority]? = some p ∧ p.generation = e.priorityGeneration
    rw [hpriority, hpriorityGeneration]
    exact binds.priority
  · show ∃ q, i.qosClasses[e.qos]? = some q ∧ q.generation = e.qosGeneration
    rw [hqos, hqosGeneration]
    exact binds.qos
  · show i.ReservationCurrent e.reservation e.reservationGeneration now
    rw [hreservation, hreservationGeneration]
    by_cases hbound : r.descriptor.reservation.bound
    · obtain ⟨x, hx, hretired, hgen, -, hwindow⟩ := usable_bound h.usable hbound
      exact .inr ⟨(Bool.and_eq_true_iff.mp hbound).1, x, hx, by simp [hretired], hgen, hwindow⟩
    · have hpartial := binds.reservation
      unfold Binding.bound at hbound
      rw [← hpartial, Bool.and_self] at hbound
      exact .inl ⟨hbound, hpartial ▸ hbound⟩
  · exact h.timely
  · show ¬ (e.reservationEnd ≠ kNoWindowBound ∧ e.reservationEnd ≤ now)
    rw [hend]
    rintro ⟨hsome, hclosed⟩
    split at hsome
    · rename_i hbound
      obtain ⟨x, hx, -, -, -, hwindow⟩ := usable_bound h.usable hbound
      rw [if_pos hbound, reservationWindowEnd, hx] at hclosed
      have hopen : now < x.descriptor.windowEnd :=
        of_decide_eq_true (Bool.and_eq_true_iff.mp hwindow).2
      exact absurd hopen (UInt64.not_lt.mpr hclosed)
    · exact hsome rfl

/-- Where a schedule has been issued and the round has ended, each of its windows is offered. -/
theorem Impl.Issues.offers {entries : List ScheduleEntry} {e : ScheduleEntry} {i' : Impl}
    (h : i.Issues now entries) (mem : e ∈ entries) (run : e.kind = .run)
    (ended : i' = (({ i with provenanceSequence := i.provenanceSequence + 1 }.applySchedule
      (i.makeSchedule entries now)).advanceSchedule.normalizeTransientStates now).maybeRetireSchedules)
    (authority : i.AuthorityCurrent (i.entryAuthority e) now) (back : Backdrop i i') :
    i'.Offers (i.makeSchedule entries now) now e := by
  let schedule := i.makeSchedule entries now
  let kept : Impl :=
    ({ i with provenanceSequence := i.provenanceSequence + 1 } : Impl).retainSchedule schedule
  have haccepts : kept.AcceptsAll entries := ⟨h.acceptsAll.distinct, h.acceptsAll.accepts⟩
  obtain ⟨r, hr⟩ := h.run e mem run
  obtain ⟨candidate, hentry⟩ := hr.entry
  obtain ⟨r', hr', hplaced⟩ :=
    @flows_applyEntries_placed kept schedule e entries haccepts mem run r hr.found
  -- the place of the entry in the schedule is its ordinal
  obtain ⟨k, hk, hget⟩ := List.getElem_of_mem mem
  have hbound : kEntryBound + 1 < 2 ^ 32 := by decide
  have hordinal : e.ordinal.toNat = k := by
    have hk' := h.ordinal k hk
    rw [List.get_eq_getElem, hget] at hk'
    rw [hk', UInt32.toNat_ofNat', Nat.mod_eq_of_lt]
    have := h.size
    omega
  let runtime : ScheduleRuntime :=
    { schedule, consumed := List.replicate entries.length 0
      pendingEntries := UInt64.ofNat (entries.countP (·.kind = .run)) }
  have hretained :
      (kept.applyEntries schedule entries).schedules[schedule.schedule]? = some runtime := by
    rw [schedules_applyEntries_eq haccepts, if_pos rfl]
    have hkept : kept.schedules[schedule.schedule]? =
        some { schedule, consumed := List.replicate entries.length 0 } :=
      (get_insert ..).trans (if_pos rfl)
    rw [hkept]
    exact congrArg some (by simp [runtime])
  have hpending : runtime.pendingEntries ≠ 0 := by
    have hpos : 0 < entries.countP (·.kind = .run) :=
      List.countP_pos_iff.mpr ⟨e, mem, decide_eq_true run⟩
    have hle : entries.countP (·.kind = .run) ≤ entries.length := List.countP_le_length
    have := h.size
    intro hzero
    have hnat : (UInt64.ofNat (entries.countP (·.kind = .run))).toNat = 0 :=
      congrArg UInt64.toNat hzero
    rw [UInt64.toNat_ofNat', Nat.mod_eq_of_lt (by omega)] at hnat
    exact absurd hnat (Nat.ne_of_gt hpos)
  have hflow : i'.flows[e.flow]? = some r' := by
    rw [ended, maybeRetireSchedules, flows_retireSchedulesFrom]
    refine steady_normalize ?_ (by rw [hplaced.lifecycle]; rfl)
    rw [flows_advanceSchedule]
    exact hr'
  constructor
  · rw [ended]
    refine ⟨runtime, pending_retireSchedulesFrom ?_ hpending _, rfl, ?_⟩
    · rw [schedules_normalize, schedules_advanceSchedule]
      exact hretained
    · show (List.replicate entries.length (0 : UInt8))[e.ordinal.toNat]? = some 0
      rw [hordinal, List.getElem?_replicate, if_pos hk]
  · show entries[e.ordinal.toNat]? = some e
    rw [hordinal, List.getElem?_eq_getElem hk, hget]
  · exact run
  · refine ⟨r', hflow, hplaced.lifecycle, hplaced.placedIn, ?_⟩
    rw [hplaced.descriptor, hentry]
    rfl
  · exact back.epoch.symm
  · rw [back.entryAuthority]
    refine back.authority authority ⟨r', hflow, ?_⟩
    obtain ⟨r₀, hr₀, hcurrent⟩ := authority.flow
    obtain rfl : r₀ = r := Option.some.inj (hr₀.symm.trans hr.found)
    rw [hplaced.descriptor]
    exact hcurrent

/-- The flow is granted a window by the round. -/
def ArbitrationOutcome.Grants (o : ArbitrationOutcome) (id : FlowId) : Prop :=
  ∃ e ∈ o.schedule.entries, e.kind = .run ∧ e.flow = id

instance (o : ArbitrationOutcome) : DecidablePred o.Grants := fun _ =>
  inferInstanceAs (Decidable (∃ e ∈ o.schedule.entries, _))

/-- Every flow that the round grants a window binds its classes, and there are attempt identities for
all that a round can grant. -/
structure Impl.Covers (i : Impl) (o : ArbitrationOutcome) : Prop where
  binds : ∀ (id : FlowId) (r : FlowRuntime), o.Grants id → i.flows[id]? = some r →
    i.Binds r.descriptor
  identities : i.nextAttempt.value.toNat + (kEntryBound + 1) < 2 ^ 64

instance (o : ArbitrationOutcome) : Decidable (i.Covers o) :=
  decidable_of_iff ((∀ x ∈ i.flows.toList, o.Grants x.1 → i.Binds x.2.descriptor) ∧
      i.nextAttempt.value.toNat + (kEntryBound + 1) < 2 ^ 64) <| by
    constructor
    · rintro ⟨binds, identities⟩
      exact ⟨fun id r granted found => binds (id, r) (mem_toList.mpr found) granted, identities⟩
    · rintro ⟨binds, identities⟩
      exact ⟨fun x hx granted => binds x.1 x.2 granted (mem_toList.mp hx), identities⟩

theorem Impl.Covers.round {i' : Impl} {o : ArbitrationOutcome} {record : Option Record}
    (h : i.Covers o) (move : RoundMove now i record i') : i'.Covers o where
  binds id r granted found := by
    have hroster : i.ledger.roster id = some r.descriptor := by
      rw [← move.roster, Impl.roster_eq, found, Option.map_some]
    rw [Impl.roster_eq] at hroster
    obtain ⟨r₀, hr₀, hsame⟩ := Option.map_eq_some_iff.mp hroster
    rw [← hsame]
    exact (h.binds id r₀ granted hr₀).backdrop (.round move)
  identities := by
    rw [move.binding.2]
    exact h.identities

theorem Impl.Covers.makes {u v : Scheduler} {o : ArbitrationOutcome} (h : u.impl.Covers o)
    (makes : Makes (RoundMove now) u v) : v.impl.Covers o := by
  obtain ⟨_, steps⟩ := makes
  exact steps.preserves (P := fun i => i.Covers o) (fun _ _ _ move h => h.round move) h

end Issued

/-- When the flows a round grants windows bind their classes, every run entry of the schedule it
returns can be dispatched, in any order. -/
theorem granted_dispatchable (s t : Scheduler) (now : Ticks) (o : ArbitrationOutcome)
    (order : List (ScheduleEntry × WorkerId × BootId)) (reachable : Reachable s)
    (covers : s.impl.Covers o) (round : exec (arbitrate now) s = (.ok o, t))
    (permuted : (order.map Prod.fst).Perm (o.schedule.entries.filter (·.kind = .run)))
    (workers : ∀ x ∈ order, x.2.1.valid ∧ x.2.2.valid)
    (appends : (t.calls (dispatches o.schedule now order)).refusedAppends = t.refusedAppends) :
    t.AllSucceed (dispatches o.schedule now order) := by
  have hmakes : Makes (RoundMove now) s t := by
    have hrun := (@runs_arbitrate s now reachable.sound).1
    rwa [round] at hrun
  rw [arbitrate_eq] at round
  obtain ⟨decided, u, hdecide, hconclude⟩ := exec_bind_ok.mp round
  have hrun := runs_decideGrants (grantedInvariant now) reachable.sound fun _ _ o _ _ => .start o
  rw [Runs, hdecide] at hrun
  obtain ⟨hbefore, hgranted⟩ := hrun
  obtain ⟨hgranted, -⟩ := hgranted decided rfl
  have hentries := entries_concludeRound hconclude
  have hbefore : Makes (RoundMove now) s u := hbefore.round
  have hcovers : u.impl.Covers o := covers.makes hbefore
  by_cases hempty : decided.entries = []
  · obtain rfl : order = [] := by
      rw [hentries, hempty] at permuted
      exact List.map_eq_nil_iff.mp permuted.eq_nil
    trivial
  have hissues := hgranted.issues hempty
  obtain ⟨hschedule, himpl⟩ := concludeRound_ok hempty hconclude
  have hepoch : u.impl.epoch.valid := by
    rw [(Backdrop.makes hbefore).epoch]
    exact reachable.epoch_valid
  have hgoverned : u.impl.Governed := by
    unfold Impl.Governed
    rw [(Backdrop.makes hbefore).binding, (Backdrop.makes hbefore).policy]
    exact reachable.governed
  have hafter : Backdrop u.impl t.impl := (Backdrop.makes hbefore).symm.trans (.makes hmakes)
  have hlisted : ∀ x ∈ order, x.1 ∈ decided.entries ∧ x.1.kind = .run := by
    intro x hx
    have hmem := permuted.mem_iff.mp (List.mem_map_of_mem hx)
    rw [hentries] at hmem
    obtain ⟨hmem, hkind⟩ := List.mem_filter.mp hmem
    exact ⟨hmem, of_decide_eq_true hkind⟩
  refine allSucceed_dispatches (hmakes.sound reachable.sound) ?_ ?_ workers ?_ appends
  · intro x hx
    obtain ⟨hmem, hkind⟩ := hlisted x hx
    obtain ⟨r, hr⟩ := hissues.run x.1 hmem hkind
    have hgrants : o.Grants x.1.flow := ⟨x.1, hentries ▸ hmem, hkind, rfl⟩
    have hcurrent := hr.authority hepoch hgoverned (hcovers.binds _ _ hgrants hr.found)
    rw [hschedule] at himpl ⊢
    exact hissues.offers hmem hkind himpl hcurrent hafter
  · have hsame : (order.map fun x => x.1.flow) = (order.map Prod.fst).map (·.flow) := by
      rw [List.map_map]
      rfl
    rw [hsame, (permuted.map _).nodup_iff, hentries]
    exact hissues.distinct
  · have hlength := permuted.length_eq
    rw [List.length_map, hentries] at hlength
    have hfilter := List.length_filter_le (fun e : ScheduleEntry => decide (e.kind = .run))
      decided.entries
    have hsize := hissues.size
    have hroom := (covers.makes hmakes).identities
    omega

namespace Sample

/-- The windows of the schedule, the last one first, each for the same worker. -/
def reversed (o : ArbitrationOutcome) : List (ScheduleEntry × WorkerId × BootId) :=
  (o.schedule.entries.filter (·.kind = .run)).reverse.map fun e => (e, ⟨7⟩, ⟨8⟩)

theorem reversed_perm (o : ArbitrationOutcome) :
    ((reversed o).map Prod.fst).Perm (o.schedule.entries.filter (·.kind = .run)) := by
  rw [reversed, List.map_map]
  exact (List.map_id _).symm ▸ List.reverse_perm _

theorem reversed_workers (o : ArbitrationOutcome) :
    ∀ x ∈ reversed o, x.2.1.valid ∧ x.2.2.valid := by
  intro x hx
  obtain ⟨e, -, rfl⟩ := List.mem_map.mp hx
  exact ⟨rfl, rfl⟩

set_option maxRecDepth 100000 in
/-- Both windows of a round with two flows are dispatched, the second one first. -/
theorem granted_dispatchable_reversed : ∃ (s t : Scheduler) (o : ArbitrationOutcome), Reachable s ∧
    exec (arbitrate 5) s = (.ok o, t) ∧ (reversed o).length = 2 ∧
    t.AllSucceed (dispatches o.schedule 5 (reversed o)) := by
  obtain ⟨s, reachable, o, ho, covers, htwo, happends⟩ : ∃ s, Reachable s ∧
      ∃ o ∈ (exec (arbitrate 5) s).1.toOption, s.impl.Covers o ∧ (reversed o).length = 2 ∧
        ((exec (arbitrate 5) s).2.calls (dispatches o.schedule 5 (reversed o))).refusedAppends =
          (exec (arbitrate 5) s).2.refusedAppends :=
    @exists_reachable durable (.registerResource { resource with maxOverlap := 2 } :: setup.tail ++
      [.admitFlow (flow 2)]) _ (by decide +kernel)
  refine ⟨s, _, o, reachable, exec_eq_of_mem ho, htwo, ?_⟩
  exact granted_dispatchable s _ 5 o (reversed o) reachable covers (exec_eq_of_mem ho)
    (reversed_perm o) (reversed_workers o) happends

set_option maxRecDepth 100000 in
/-- A priority class is registered anew after the flow was admitted: the flow is still granted a
window, which nobody can dispatch. -/
theorem not_granted_dispatchable : ¬ ∀ (s t : Scheduler) (now : Ticks) (o : ArbitrationOutcome)
    (order : List (ScheduleEntry × WorkerId × BootId)), Reachable s →
    exec (arbitrate now) s = (.ok o, t) →
    (order.map Prod.fst).Perm (o.schedule.entries.filter (·.kind = .run)) →
    (∀ x ∈ order, x.2.1.valid ∧ x.2.2.valid) →
    (t.calls (dispatches o.schedule now order)).refusedAppends = t.refusedAppends →
    t.AllSucceed (dispatches o.schedule now order) := by
  intro claim
  obtain ⟨s, reachable, o, ho, happends, hfails⟩ : ∃ s, Reachable s ∧
      ∃ o ∈ (exec (arbitrate 5) s).1.toOption,
        ((exec (arbitrate 5) s).2.calls (dispatches o.schedule 5 (reversed o))).refusedAppends =
          (exec (arbitrate 5) s).2.refusedAppends ∧
        ¬ (exec (arbitrate 5) s).2.AllSucceed (dispatches o.schedule 5 (reversed o)) :=
    @exists_reachable transient
      (setup ++ [.registerPriorityClass { priority with generation := ⟨2⟩ }]) _ (by decide +kernel)
  exact hfails (claim s _ 5 o (reversed o) reachable (exec_eq_of_mem ho) (reversed_perm o)
    (reversed_workers o) happends)

end Sample

end FlowScheduler

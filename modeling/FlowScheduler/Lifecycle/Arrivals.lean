import FlowScheduler.Library.Latest
import FlowScheduler.Steps.Reachable
import FlowScheduler.Steps.Registry

/-! # The order of arrival

Definitions are registered and flows admitted in some order. The tables keep the
latest generation of each definition, a flow starts in the same state whenever it
is admitted, and nothing else is written. So a scheduler does not remember in
which order its definitions and flows arrived, and answers every later call
accordingly. The history variables are the exception, but no operation reads
them.
-/

namespace FlowScheduler

open Failing SchedOp OrderedMap Latest Impl

section History

/-- The same memory and the same store; the histories may differ. -/
def Scheduler.Alike (s t : Scheduler) : Prop := s.impl = t.impl ∧ s.store = t.store

/-- The operation neither answers nor acts on the histories. -/
abbrev Unmindful {α : Type} (m : SchedOp α) : Prop := Blind Scheduler.Alike m

variable {α : Type}

instance : Unmindful readImpl where
  agrees _ _ h := ⟨congrArg Except.ok h.1, h⟩

instance (f : Impl → Impl) : Unmindful (modifyImpl f) where
  agrees _ _ h := ⟨rfl, congrArg f h.1, h.2⟩

instance (record : Record) : Unmindful (journal record) where
  agrees s t h := by
    obtain ⟨impl, store, refused, accepted⟩ := s
    obtain ⟨_, _, refused', accepted'⟩ := t
    obtain ⟨rfl, rfl⟩ := h
    simp only [exec_journal]
    split
    · exact ⟨rfl, rfl, rfl⟩
    · split <;> exact ⟨rfl, rfl, rfl⟩

instance (now : Ticks) : Unmindful (touch now) := inferInstanceAs (Unmindful (modifyImpl _))

instance : Unmindful checkpoint where
  agrees s t h := by
    obtain ⟨impl, store, refused, accepted⟩ := s
    obtain ⟨_, _, refused', accepted'⟩ := t
    obtain ⟨rfl, rfl⟩ := h
    unfold checkpoint
    rw [exec_bind, exec_bind, exec_get, exec_get]
    cases store with
    | none => exact ⟨rfl, rfl, rfl⟩
    | some store =>
      dsimp only
      rw [exec_bind, exec_bind, exec_lift, exec_lift]
      generalize refuseIf (impl.encodeStateSnapshot = []) ErrorCode.bounded
        "state image exceeds the snapshot bound; checkpoint refused" = status
      cases status with
      | error e => exact ⟨rfl, rfl, rfl⟩
      | ok _ =>
        generalize exec (DurableStore.compact impl.encodeStateSnapshot) store = written
        obtain ⟨_ | _, store'⟩ := written
        · exact ⟨rfl, rfl, rfl⟩
        · exact ⟨rfl, rfl, rfl⟩

instance (m : SchedOp Unit) [h : Unmindful m] : Unmindful (succeeds m) where
  agrees s t alike := by
    obtain ⟨hsame, halike⟩ := h.agrees s t alike
    rw [exec_succeeds, exec_succeeds]
    rcases hs : exec m s with ⟨_ | _, s'⟩ <;> rcases ht : exec m t with ⟨_ | _, t'⟩ <;>
      rw [hs, ht] at hsame halike
    · exact ⟨rfl, halike⟩
    · cases hsame
    · cases hsame
    · exact ⟨rfl, halike⟩

instance (attempt : DispatchAttemptId) (state : AttemptState) (detail : ByteCodec.Bytes) (now : Ticks) :
    Unmindful (closeAttempt attempt state detail now) := by
  unfold closeAttempt
  infer_instance

theorem unmindful_reclaimExpiredDeliveries (now : Ticks) (ids : List ScheduleId)
    (outcome : ArbitrationOutcome) : Unmindful (reclaimExpiredDeliveries now ids outcome) := by
  induction ids generalizing outcome with
  | nil => exact inferInstanceAs (Unmindful (pure outcome))
  | cons id rest ih =>
    unfold reclaimExpiredDeliveries
    refine .seq inferInstance fun i => ?_
    split
    · exact ih outcome
    · infer_instance

theorem unmindful_stopOverdue (now : Ticks) (attempts : List DispatchAttemptId) :
    Unmindful (stopOverdue now attempts) := by
  induction attempts with
  | nil => exact inferInstanceAs (Unmindful (pure ()))
  | cons attempt rest ih =>
    unfold stopOverdue
    infer_instance

instance (now : Ticks) (candidate : Candidate) (flow : FlowRuntime) (round : Round) :
    Unmindful (grantWindow now candidate flow round) := by
  unfold grantWindow
  refine .seq inferInstance fun i => ?_
  split
  · infer_instance
  · split <;> infer_instance

instance (now : Ticks) (candidate : Candidate) (flow : FlowRuntime) (resource : ResourceRuntime)
    (round : Round) : Unmindful (placeCandidate now candidate flow resource round) := by
  unfold placeCandidate displaceVictim
  refine .seq inferInstance fun _ => ?_
  split
  · refine .seq inferInstance fun i => ?_
    split <;> infer_instance
  · infer_instance

instance (now : Ticks) (limit : ℕ) (round : Round) (candidate : Candidate) :
    Unmindful (considerCandidate now limit round candidate) := by
  unfold considerCandidate
  refine .seq inferInstance fun i => ?_
  split
  · infer_instance
  · split
    · infer_instance
    · split
      · infer_instance
      · split
        · infer_instance
        · split
          · infer_instance
          · split <;> infer_instance

theorem unmindful_considerCandidates (now : Ticks) (limit : ℕ) (candidates : List Candidate)
    (round : Round) : Unmindful (considerCandidates now limit candidates round) := by
  induction candidates generalizing round with
  | nil => exact inferInstanceAs (Unmindful (pure round))
  | cons candidate rest ih =>
    unfold considerCandidates
    infer_instance

instance (now : Ticks) : Unmindful (decideGrants now) := by
  have hreclaim := unmindful_reclaimExpiredDeliveries now
  have hstop := unmindful_stopOverdue now
  have hconsider := unmindful_considerCandidates now
  unfold decideGrants
  refine .seq inferInstance fun _ => .seq inferInstance fun _ => .seq inferInstance fun _ =>
    .seq inferInstance fun _ => .seq inferInstance fun _ => .seq inferInstance fun i => ?_
  generalize i.refreshLifecycles now _ = p
  infer_instance

instance (entries : List ScheduleEntry) (now : Ticks) : Unmindful (issueSchedule entries now) := by
  unfold issueSchedule
  refine .seq inferInstance fun _ => .seq inferInstance fun _ => .seq inferInstance fun _ => ?_
  infer_instance

instance (now : Ticks) (round : Round) : Unmindful (concludeRound now round) := by
  unfold concludeRound
  dsimp only
  infer_instance

instance (now : Ticks) : Unmindful (FlowScheduler.arbitrate now) := by
  rw [arbitrate_eq]
  infer_instance

instance (schedule : ScheduleId) (generation : Generation) (ordinal : UInt32) (worker : WorkerId)
    (boot : BootId) (now : Ticks) :
    Unmindful (FlowScheduler.beginDispatch schedule generation ordinal worker boot now) := by
  unfold FlowScheduler.beginDispatch
  refine .seq inferInstance fun _ => .seq inferInstance fun i => .seq inferInstance fun granted => ?_
  obtain ⟨entry, flow⟩ := granted
  exact .seq inferInstance fun _ => inferInstance

instance (e : CompletionEvidence) (now : Ticks) : Unmindful (FlowScheduler.complete e now) := by
  unfold FlowScheduler.complete
  refine .seq inferInstance fun _ => .seq inferInstance fun _ => .seq inferInstance fun i => ?_
  split <;> infer_instance

theorem unmindful_op (c : Call) : Unmindful c.op := by
  cases c with
  | arbitrate | beginDispatch | complete | checkpoint =>
    unfold Call.op
    infer_instance
  | _ =>
    dsimp only [Call.op, FlowScheduler.registerResource, FlowScheduler.registerReservation,
      FlowScheduler.retireReservation, FlowScheduler.registerPriorityClass,
      FlowScheduler.registerQosClass, FlowScheduler.admitFlow, FlowScheduler.updateFlow,
      FlowScheduler.cancelFlow, FlowScheduler.notifyReadiness, FlowScheduler.resolveAmbiguous,
      FlowScheduler.retireFlow, FlowScheduler.installPolicy, FlowScheduler.advanceEpoch,
      FlowScheduler.releaseSchedule, FlowScheduler.revalidate, FlowScheduler.markStarted,
      FlowScheduler.abandonAttempt, FlowScheduler.preemptAttempt]
    infer_instance

/-- What the calls return when they are made in turn. -/
def Scheduler.responses (s : Scheduler) : List Call → List (Result Response)
  | [] => []
  | c :: cs => (s.call c).1 :: (s.call c).2.responses cs

theorem Scheduler.Alike.calls {s t : Scheduler} (h : s.Alike t) (cs : List Call) :
    s.responses cs = t.responses cs ∧ (s.calls cs).Alike (t.calls cs) := by
  induction cs generalizing s t with
  | nil => exact ⟨rfl, h⟩
  | cons c cs ih =>
    obtain ⟨hsame, halike⟩ := (unmindful_op c).agrees s t h
    obtain ⟨hrest, hend⟩ := ih halike
    exact ⟨congrArg₂ List.cons hsame hrest, hend⟩

end History

/-! The definitions and flows a call brings. -/

namespace Call

def resource? : Call → Option ResourceDescriptor
  | .registerResource d => some d
  | _ => none

def reservation? : Call → Option ReservationDescriptor
  | .registerReservation d => some d
  | _ => none

def priorityClass? : Call → Option PriorityClassDescriptor
  | .registerPriorityClass d => some d
  | _ => none

def qosClass? : Call → Option QoSClassDescriptor
  | .registerQosClass d => some d
  | _ => none

def flow? : Call → Option FlowDescriptor
  | .admitFlow d => some d
  | _ => none

def arrives : Call → Bool
  | .registerResource _ | .registerReservation _ | .registerPriorityClass _ | .registerQosClass _
  | .admitFlow _ => true
  | _ => false

end Call

def Impl.bare (i : Impl) : Impl :=
  { i with flows := ∅, resources := ∅, reservations := ∅, priorityClasses := ∅, qosClasses := ∅
           indexes := {} }

theorem outranks_of_guard {α : Type} {generation : α → Generation} {found : Option α}
    {current : Option Generation} {proposed : Generation} {full : Bool}
    {boundText newText stepText : String}
    (guard : generationGuard current proposed full boundText newText stepText = .ok ())
    (registered : current = found.map generation) (d : α) (hd : found = some d) :
    (generation d).value.toNat < proposed.value.toNat := by
  rw [hd] at registered
  rcases generationGuard_eq_ok guard with ⟨hnone, -⟩ | ⟨g, hg, hadvance⟩
  · rw [registered] at hnone
    cases hnone
  · rw [registered] at hg
    cases hg
    exact UInt64.lt_iff_toNat_lt.mp (Id.lt_of_advance hadvance)

/-- Since the base state, exactly the definitions and flows of the calls have arrived. -/
structure Arrived (base : Impl) (cs : List Call) (i : Impl) : Prop where
  others : i.bare = base.bare
  flows : Holds (·.flow) (fun _ => 0) (cs.filterMap Call.flow?)
    fun id => i.flows[id]?.map (·.descriptor)
  resources : Holds (·.resource) (·.generation.value.toNat) (cs.filterMap Call.resource?)
    fun id => i.resources[id]?.map (·.descriptor)
  reservations : Holds (·.reservation) (·.generation.value.toNat) (cs.filterMap Call.reservation?)
    fun id => i.reservations[id]?.map (·.descriptor)
  priorityClasses : Holds (·.priority) (·.generation.value.toNat) (cs.filterMap Call.priorityClass?)
    fun id => i.priorityClasses[id]?
  qosClasses : Holds (·.qos) (·.generation.value.toNat) (cs.filterMap Call.qosClass?)
    fun id => i.qosClasses[id]?
  newFlow : ∀ (id : FlowId) (r : FlowRuntime), i.flows[id]? = some r → r = { descriptor := r.descriptor }
  newResource : ∀ (id : ResourceId) (r : ResourceRuntime), i.resources[id]? = some r →
    r = { descriptor := r.descriptor }
  newReservation : ∀ (id : ReservationId) (r : ReservationRuntime), i.reservations[id]? = some r →
    r = { descriptor := r.descriptor }

theorem Keyed.indexes_eq {i i' : Impl} (h : Keyed i) (h' : Keyed i') (flows : i.flows = i'.flows) :
    i.indexes = i'.indexes := by
  have hslot : ∀ slot : IndexSlot, slot ≠ .none → i.indexes.members slot = i'.indexes.members slot := by
    intro slot hslot
    refine Std.ExtTreeSet.ext_mem fun id => ?_
    rw [h.index id slot hslot, h'.index id slot hslot, flows]
  have hwaiting : i.indexes.waiting = i'.indexes.waiting := hslot .waiting (by decide)
  have hready : i.indexes.ready = i'.indexes.ready := hslot .ready (by decide)
  have hinflight : i.indexes.inflight = i'.indexes.inflight := hslot .inflight (by decide)
  calc i.indexes = ⟨i.indexes.waiting, i.indexes.ready, i.indexes.inflight⟩ := rfl
    _ = i'.indexes := by rw [hwaiting, hready, hinflight]

namespace Arrived

variable {base i i' : Impl} {cs cs' : List Call}

theorem registerResource {d : ResourceDescriptor} (h : Arrived base cs i)
    (guard : i.registerResourceGuard d = .ok ()) :
    Arrived base (cs ++ [.registerResource d]) (i.applyResource d) := by
  obtain ⟨_, -, guard⟩ := bind_eq_ok.mp guard
  have hnew : i.applyResource d =
      { i with resources := i.resources.insert d.resource { descriptor := d } } := by
    unfold applyResource
    rw [Std.ExtTreeMap.getD_eq_getD_getElem?]
    cases hfound : i.resources[d.resource]? with
    | none => rfl
    | some r =>
      rw [h.newResource _ _ hfound]
      dsimp only [Option.getD_some]
      split <;> rfl
  rw [hnew]
  constructor
  case others => exact h.others
  case flows => exact h.flows.skip rfl
  case resources => exact h.resources.insert rfl rfl (outranks_of_guard guard (Option.map_map ..).symm)
  case reservations => exact h.reservations.skip rfl
  case priorityClasses => exact h.priorityClasses.skip rfl
  case qosClasses => exact h.qosClasses.skip rfl
  case newFlow => exact h.newFlow
  case newResource =>
    intro id r hr
    rw [get_insert] at hr
    split at hr
    · cases hr
      rfl
    · exact h.newResource id r hr
  case newReservation => exact h.newReservation

theorem registerReservation {d : ReservationDescriptor} (h : Arrived base cs i)
    (guard : i.registerReservationGuard d = .ok ()) :
    Arrived base (cs ++ [.registerReservation d]) (i.applyReservation d) := by
  obtain ⟨_, -, guard⟩ := bind_eq_ok.mp guard
  obtain ⟨_, -, guard⟩ := bind_eq_ok.mp guard
  have hnew : i.applyReservation d =
      { i with reservations := i.reservations.insert d.reservation { descriptor := d } } := by
    unfold applyReservation
    rw [Std.ExtTreeMap.getD_eq_getD_getElem?]
    cases hfound : i.reservations[d.reservation]? with
    | none => rfl
    | some r =>
      rw [h.newReservation _ _ hfound]
      rfl
  rw [hnew]
  constructor
  case others => exact h.others
  case flows => exact h.flows.skip rfl
  case resources => exact h.resources.skip rfl
  case reservations =>
    exact h.reservations.insert rfl rfl (outranks_of_guard guard (Option.map_map ..).symm)
  case priorityClasses => exact h.priorityClasses.skip rfl
  case qosClasses => exact h.qosClasses.skip rfl
  case newFlow => exact h.newFlow
  case newResource => exact h.newResource
  case newReservation =>
    intro id r hr
    rw [get_insert] at hr
    split at hr
    · cases hr
      rfl
    · exact h.newReservation id r hr

theorem registerPriorityClass {d : PriorityClassDescriptor} (h : Arrived base cs i)
    (guard : i.registerPriorityClassGuard d = .ok ()) :
    Arrived base (cs ++ [.registerPriorityClass d]) (i.applyPriorityClass d) := by
  obtain ⟨_, -, guard⟩ := bind_eq_ok.mp guard
  constructor
  case others => exact h.others
  case flows => exact h.flows.skip rfl
  case resources => exact h.resources.skip rfl
  case reservations => exact h.reservations.skip rfl
  case priorityClasses =>
    exact h.priorityClasses.insert_self rfl (outranks_of_guard guard rfl)
  case qosClasses => exact h.qosClasses.skip rfl
  case newFlow => exact h.newFlow
  case newResource => exact h.newResource
  case newReservation => exact h.newReservation

theorem registerQosClass {d : QoSClassDescriptor} (h : Arrived base cs i)
    (guard : i.registerQosClassGuard d = .ok ()) :
    Arrived base (cs ++ [.registerQosClass d]) (i.applyQosClass d) := by
  obtain ⟨_, -, guard⟩ := bind_eq_ok.mp guard
  constructor
  case others => exact h.others
  case flows => exact h.flows.skip rfl
  case resources => exact h.resources.skip rfl
  case reservations => exact h.reservations.skip rfl
  case priorityClasses => exact h.priorityClasses.skip rfl
  case qosClasses =>
    exact h.qosClasses.insert_self rfl (outranks_of_guard guard rfl)
  case newFlow => exact h.newFlow
  case newResource => exact h.newResource
  case newReservation => exact h.newReservation

theorem admitFlow {d : FlowDescriptor} (h : Arrived base cs i)
    (guard : i.admitFlowGuard d = .ok ()) (applied : i.applyAdmit d = .ok i') :
    Arrived base (cs ++ [.admitFlow d]) i' := by
  obtain ⟨_, -, guard⟩ := bind_eq_ok.mp guard
  obtain ⟨_, hfresh, -⟩ := bind_eq_ok.mp guard
  have hnone : i.flows[d.flow]? = none := by
    rw [refuseIf_eq_ok] at hfresh
    exact Std.ExtTreeMap.getElem?_eq_none hfresh
  unfold applyAdmit at applied
  split at applied
  · cases applied
  · rw [Std.ExtTreeMap.getD_eq_getD_getElem?, hnone] at applied
    cases applied
    constructor
    case others => exact h.others
    case flows =>
      refine h.flows.insert rfl rfl fun d' hd' => ?_
      rw [hnone] at hd'
      cases hd'
    case resources => exact h.resources.skip rfl
    case reservations => exact h.reservations.skip rfl
    case priorityClasses => exact h.priorityClasses.skip rfl
    case qosClasses => exact h.qosClasses.skip rfl
    case newFlow =>
      intro id r hr
      rw [get_insert] at hr
      split at hr
      · cases hr
        rfl
      · exact h.newFlow id r hr
    case newResource => exact h.newResource
    case newReservation => exact h.newReservation

/-- The same definitions and flows, whatever their order, make the same state. -/
theorem eq_of_perm (h : Arrived base cs i) (h' : Arrived base cs' i') (perm : cs.Perm cs')
    (keyed : Keyed i) (keyed' : Keyed i') : i = i' := by
  have hflows : i.flows = i'.flows :=
    table_ext (fun d => { descriptor := d }) (h.flows.eq_of_perm h'.flows (perm.filterMap _)) h.newFlow
      h'.newFlow
  have hresources : i.resources = i'.resources :=
    table_ext (fun d => { descriptor := d }) (h.resources.eq_of_perm h'.resources (perm.filterMap _))
      h.newResource h'.newResource
  have hreservations : i.reservations = i'.reservations :=
    table_ext (fun d => { descriptor := d })
      (h.reservations.eq_of_perm h'.reservations (perm.filterMap _)) h.newReservation h'.newReservation
  have hpriorities : i.priorityClasses = i'.priorityClasses :=
    Std.ExtTreeMap.ext_getElem? fun id =>
      congrFun (h.priorityClasses.eq_of_perm h'.priorityClasses (perm.filterMap _)) id
  have hqos : i.qosClasses = i'.qosClasses :=
    Std.ExtTreeMap.ext_getElem? fun id =>
      congrFun (h.qosClasses.eq_of_perm h'.qosClasses (perm.filterMap _)) id
  have hindexes : i.indexes = i'.indexes := keyed.indexes_eq keyed' hflows
  have hbare : i.bare = i'.bare := h.others.trans h'.others.symm
  calc i = { i.bare with
            flows := i.flows, resources := i.resources, reservations := i.reservations
            priorityClasses := i.priorityClasses, qosClasses := i.qosClasses
            indexes := i.indexes } := rfl
    _ = { i'.bare with
          flows := i'.flows, resources := i'.resources, reservations := i'.reservations
          priorityClasses := i'.priorityClasses, qosClasses := i'.qosClasses
          indexes := i'.indexes } := by
      rw [hbare, hflows, hresources, hreservations, hpriorities, hqos, hindexes]
    _ = i' := rfl

end Arrived

section Runs

variable {base : Impl} {s : Scheduler} {cs arrivals : List Call} {c : Call}

theorem exec_journal_volatile {record : Record} (volatile : s.store = none) :
    exec (journal record) s = (.ok (), { s with accepted := s.accepted ++ [record] }) := by
  rw [exec_journal, volatile]

theorem Arrived.call (h : Arrived base cs s.impl) (volatile : s.store = none) (arrives : c.arrives)
    (ok : ∃ response, (s.call c).1 = .ok response) :
    Arrived base (cs ++ [c]) (s.call c).2.impl ∧ (s.call c).2.store = none := by
  have hdone : ∀ {guard : Status} {record : Record} {f : Impl → Impl},
      exec c.op s = exec ((liftM guard >>= fun _ => journal record >>= fun _ => modifyImpl f) >>= fun _ =>
        pure .done) s → guard = .ok () ∧ (s.call c).2.impl = f s.impl ∧ (s.call c).2.store = none := by
    intro guard record f hop
    obtain ⟨response, ok⟩ := ok
    rw [Scheduler.call, hop] at ok ⊢
    cases guard with
    | error e =>
      rw [exec_bind, exec_lift_bind] at ok
      cases ok
    | ok _ =>
      rw [exec_done, exec_lift_bind]
      dsimp only
      rw [exec_bind, exec_journal_volatile volatile]
      exact ⟨rfl, rfl, volatile⟩
  cases c with
  | registerResource d =>
    obtain ⟨hguard, himpl, hstore⟩ := @hdone (s.impl.registerResourceGuard d) _ _ rfl
    rw [himpl]
    exact ⟨h.registerResource hguard, hstore⟩
  | registerReservation d =>
    obtain ⟨hguard, himpl, hstore⟩ := @hdone (s.impl.registerReservationGuard d) _ _ rfl
    rw [himpl]
    exact ⟨h.registerReservation hguard, hstore⟩
  | registerPriorityClass d =>
    obtain ⟨hguard, himpl, hstore⟩ := @hdone (s.impl.registerPriorityClassGuard d) _ _ rfl
    rw [himpl]
    exact ⟨h.registerPriorityClass hguard, hstore⟩
  | registerQosClass d =>
    obtain ⟨hguard, himpl, hstore⟩ := @hdone (s.impl.registerQosClassGuard d) _ _ rfl
    rw [himpl]
    exact ⟨h.registerQosClass hguard, hstore⟩
  | admitFlow d =>
    obtain ⟨response, ok⟩ := ok
    rcases hop : exec (FlowScheduler.admitFlow d) s with ⟨_ | _, t⟩
    · rw [Scheduler.call, Call.op, exec_bind, hop] at ok
      cases ok
    · have hcall : (s.call (.admitFlow d)).2 = t := by
        rw [Scheduler.call, Call.op, exec_done, hop]
      rw [hcall]
      unfold FlowScheduler.admitFlow at hop
      rw [exec_readImpl_bind] at hop
      obtain ⟨_, u, hguard, hop⟩ := exec_bind_ok.mp hop
      rw [exec_lift] at hguard
      obtain ⟨hchecked, rfl⟩ := Prod.mk.inj hguard
      obtain ⟨_, u, hjournal, hop⟩ := exec_bind_ok.mp hop
      rw [exec_journal_volatile volatile] at hjournal
      obtain ⟨-, rfl⟩ := Prod.mk.inj hjournal
      rw [exec_readImpl_bind] at hop
      obtain ⟨admitted, u, hadmit, hop⟩ := exec_bind_ok.mp hop
      rw [exec_lift] at hadmit
      obtain ⟨happlied, rfl⟩ := Prod.mk.inj hadmit
      cases hop
      exact ⟨h.admitFlow hchecked happlied, volatile⟩
  | _ => cases arrives

theorem Arrived.calls (h : Arrived base cs s.impl) (volatile : s.store = none)
    (arrive : ∀ c ∈ arrivals, c.arrives) (ok : s.AllSucceed arrivals) :
    Arrived base (cs ++ arrivals) (s.calls arrivals).impl ∧ (s.calls arrivals).store = none := by
  induction arrivals generalizing s cs with
  | nil => exact ⟨by rwa [List.append_nil], volatile⟩
  | cons c rest ih =>
    obtain ⟨hfirst, hrest⟩ := ok
    obtain ⟨hnext, hstore⟩ := h.call volatile (arrive c List.mem_cons_self) hfirst
    have hall := ih hnext hstore (fun c' hc' => arrive c' (List.mem_cons_of_mem _ hc')) hrest
    rwa [List.append_assoc] at hall

theorem arrived_fresh (policy : SchedulingPolicy) (epoch : FabricEpoch) :
    Arrived { Impl.fresh policy with epoch } [] { Impl.fresh policy with epoch } := by
  constructor
  case others => rfl
  case flows | resources | reservations | priorityClasses | qosClasses =>
    exact ⟨.nil, fun _ => rfl⟩
  case newFlow | newResource | newReservation =>
    intro id r hr
    cases hr

end Runs

/-- Two orders of the same registrations and admissions, both accepted, leave schedulers that answer
every later sequence of calls alike and reach the same memory by it. -/
theorem arrival_order_irrelevant (options : SchedulerOptions) (files files' : Directory)
    (s s' : Scheduler) (arrivals arrivals' later : List Call) (volatile : options.stateDirectory = "")
    (opened : create options files = .ok s) (opened' : create options files' = .ok s')
    (arrive : ∀ c ∈ arrivals, c.arrives) (perm : arrivals.Perm arrivals')
    (accepted : s.AllSucceed arrivals) (accepted' : s'.AllSucceed arrivals') :
    (s.calls arrivals).responses later = (s'.calls arrivals').responses later ∧
      ((s.calls arrivals).calls later).impl = ((s'.calls arrivals').calls later).impl := by
  have hfresh : ∀ {files : Directory} {s : Scheduler}, create options files = .ok s →
      s.impl = { Impl.fresh options.policy with epoch := ⟨1⟩ } ∧ s.store = none := by
    intro files s h
    obtain ⟨_, -, h⟩ := bind_eq_ok.mp h
    rw [if_pos volatile] at h
    cases h
    exact ⟨rfl, rfl⟩
  obtain ⟨himpl, hstore⟩ := hfresh opened
  obtain ⟨himpl', hstore'⟩ := hfresh opened'
  have harrived : Arrived s.impl [] s.impl := himpl ▸ arrived_fresh options.policy ⟨1⟩
  have harrived' : Arrived s.impl [] s'.impl := himpl ▸ himpl' ▸ arrived_fresh options.policy ⟨1⟩
  obtain ⟨hend, hvolatile⟩ := harrived.calls hstore arrive accepted
  obtain ⟨hend', hvolatile'⟩ :=
    harrived'.calls hstore' (fun c hc => arrive c (perm.mem_iff.mpr hc)) accepted'
  have hsame : (s.calls arrivals).impl = (s'.calls arrivals').impl := by
    have hreachable : Reachable s := .opened opened
    have hreachable' : Reachable s' := .opened opened'
    exact hend.eq_of_perm hend' perm (hreachable.calls arrivals).sound.keyed
      (hreachable'.calls arrivals').sound.keyed
  have halike : (s.calls arrivals).Alike (s'.calls arrivals') :=
    ⟨hsame, hvolatile.trans hvolatile'.symm⟩
  obtain ⟨hresponses, hlater⟩ := halike.calls later
  exact ⟨hresponses, hlater.1⟩

namespace Sample

/-- The definitions in another order than in the deployment. -/
def reordered : List Call :=
  [.registerQosClass qos, .registerPriorityClass priority, .registerResource resource,
    .admitFlow (flow 1)]

set_option maxRecDepth 100000 in
/-- Two orders of the deployment, and the first round after them. -/
theorem arrival_order_irrelevant_setup : ∃ s : Scheduler, create transient {} = .ok s ∧
    s.AllSucceed setup ∧ s.AllSucceed reordered ∧ s.calls setup ≠ s.calls reordered ∧
    (s.calls setup).responses [.arbitrate 5] = (s.calls reordered).responses [.arbitrate 5] := by
  obtain ⟨s, hs, accepted, accepted', hdiffer⟩ : ∃ s ∈ (create transient {}).toOption,
      s.AllSucceed setup ∧ s.AllSucceed reordered ∧
        (s.calls setup).accepted ≠ (s.calls reordered).accepted := by
    decide +kernel
  have hopened : create transient {} = .ok s := by
    cases h : create transient {} with
    | error e =>
      rw [h] at hs
      cases hs
    | ok _ =>
      rw [h] at hs
      cases hs
      rfl
  refine ⟨s, hopened, accepted, accepted', fun h => hdiffer (congrArg Scheduler.accepted h), ?_⟩
  exact (arrival_order_irrelevant transient {} {} s s setup reordered [.arbitrate 5] rfl hopened hopened
    (by decide) (by decide) accepted accepted').1

end Sample

end FlowScheduler

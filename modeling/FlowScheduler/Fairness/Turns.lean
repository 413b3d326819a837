import FlowScheduler.Fairness.Contention
import FlowScheduler.Library.FairQueueing

/-! # Turns of service

In one turn a round issues one window, and the window is dispatched and
completed at once with work remaining. On the stamps and the group clocks a turn
is one step of self-clocked fair queueing.
-/

namespace FlowScheduler

open ByteCodec (Bytes)
open Failing SchedOp Impl OrderedMap

/-- One round issues one window, which is dispatched and completed at once, and its flow is left
with work. -/
inductive Turn (s : Scheduler) (now : Ticks) (e : ScheduleEntry) (t : Scheduler) : Prop
  | intro {o : ArbitrationOutcome} {issued begun : Scheduler} {worker : WorkerId} {boot : BootId}
      {ticket : DispatchTicket} {evidence : CompletionEvidence} {outcome : CommitOutcome}
      {r : FlowRuntime} (arbitrated : exec (arbitrate now) s = (.ok o, issued))
      (single : o.schedule.entries = [e]) (run : e.kind = .run)
      (dispatched : exec (beginDispatch o.schedule.schedule o.schedule.generation e.ordinal worker
        boot now) issued = (.ok ticket, begun))
      (own : ticket.flow = e.flow)
      (completed : exec (complete evidence now) begun = (.ok outcome, t))
      (answered : evidence.attempt = ticket.attempt ∧ evidence.flow = ticket.flow)
      (applied : outcome.disposition = .applied) (found : t.impl.flows[e.flow]? = some r)
      (pending : r.lifecycle = .waiting ∨ r.lifecycle = .ready) : Turn s now e t

section Turns

variable {s t : Scheduler} {now : Ticks} {e : ScheduleEntry} {resource : Binding .resource}
  {rank : UInt32} {m : FlowRuntime}

theorem sound_exec {α : Type} {m : SchedOp α} {f : α → Response} {result : Result α} (c : Call)
    (op : c.op = m >>= fun a => pure (f a)) (sound : Sound s.impl) (h : exec m s = (result, t)) :
    Sound t.impl := by
  have hcall := sound_call sound c
  rw [Scheduler.call, op, exec_done, h] at hcall
  exact hcall

theorem Turn.sound (turn : Turn s now e t) (sound : Sound s.impl) : Sound t.impl := by
  obtain ⟨arbitrated, -, -, dispatched, -, completed, -, -, -, -⟩ := turn
  have hissued := sound_exec (.arbitrate now) rfl sound arbitrated
  have hbegun := sound_exec (.beginDispatch ..) rfl hissued dispatched
  exact sound_exec (.complete ..) rfl hbegun completed

/-- What a turn does to the stamps of the backlogged flows and to the clocks. -/
theorem Turn.stamps (turn : Turn s now e t) (sound : Sound s.impl)
    (fair : s.impl.policy.weightedFairness) (normal : e.tier = kTierNormal)
    (served : s.impl.flows[e.flow]? = some m) (peer : s.impl.Peer resource rank m.descriptor) :
    t.impl.policy = s.impl.policy ∧ ∃ f : UInt64,
      (∀ g, t.impl.groupClock g ≤ max (s.impl.groupClock g) f.toNat) ∧
      (∃ r', t.impl.flows[e.flow]? = some r' ∧ r'.descriptor = m.descriptor ∧
        t.impl.nextFinish r' =
          saturatingAdd (if f < t.impl.clockOf m then t.impl.clockOf m else f)
            (FlowRuntime.virtualCost t.impl.policy m.descriptor)) ∧
      ∀ (id : FlowId) (r : FlowRuntime), s.impl.flows[id]? = some r →
        s.impl.Peer resource rank r.descriptor → s.impl.Backlogged now r →
        f ≤ s.impl.nextFinish r ∧ (id = e.flow → f = s.impl.nextFinish r) ∧
        (id ≠ e.flow → ∃ r', t.impl.flows[id]? = some r' ∧ r'.descriptor = r.descriptor ∧
          t.impl.nextFinish r' = s.impl.nextFinish r) := by
  obtain ⟨arbitrated, single, run, dispatched, own, completed, answered, applied, found, pending⟩ := turn
  rename_i o issued begun worker boot ticket evidence outcome r
  obtain ⟨round, u, hdecide, hconclude⟩ := arbitrate_ok arbitrated
  have hsingle : round.entries = [e] := by
    obtain ⟨round', u', hdecide', hentries⟩ := arbitrate_entries arbitrated
    rw [hdecide] at hdecide'
    cases hdecide'
    rw [← hentries, single]
  obtain ⟨m', hm', hready, hdescriptor, hclocking, hleast⟩ :=
    decideGrants_least sound fair hdecide hsingle run normal served peer
  obtain ⟨hpolicy₁, ⟨m₁, hm₁, hmark₁⟩, hlifted⟩ :=
    concludeRound_issues hconclude hsingle run hm' hready
  obtain ⟨hclocking₂, hstamps, hothers⟩ := beginDispatch_keeps dispatched
  have hpolicy₂ : begun.impl.policy = s.impl.policy :=
    (congrArg Prod.fst hclocking₂).trans (hpolicy₁.trans (congrArg Prod.fst hclocking))
  have hflow : evidence.flow = e.flow := answered.2.trans own
  obtain ⟨hclocking₃, hothers₃, m₂, hm₂, hdescriptor₂, hfinish⟩ := complete_stamps completed applied
    (by rw [hpolicy₂, fair]) (hflow ▸ found) pending
  rw [hflow] at hm₂ hothers₃
  have hmark : m₂.mark = m'.mark := by
    refine Eq.trans ?_ hmark₁
    have hstamp := congrFun hstamps e.flow
    simp only [Impl.stamps, hm₁, hm₂, Option.map_some, Option.some.injEq] at hstamp
    exact mark_of_stamp hstamp
  have hown : m₂.descriptor = m.descriptor := (congrArg Prod.fst hmark).trans hdescriptor
  have hclocks : t.impl.virtualTime = issued.impl.virtualTime :=
    (congrArg Prod.snd hclocking₃).trans (congrArg Prod.snd hclocking₂)
  refine ⟨(congrArg Prod.fst hclocking₃).trans hpolicy₂, m'.virtualFinish, fun g => ?_,
    ⟨r, found, hdescriptor₂.trans hown, ?_⟩, fun id x hx hpeer hbacklogged => ?_⟩
  · rw [Impl.groupClock, hclocks]
    refine (hlifted g).trans (le_of_eq ?_)
    rw [Impl.groupClock, Impl.groupClock,
      show u.impl.virtualTime = s.impl.virtualTime from congrArg Prod.snd hclocking]
  · rw [hfinish, clockOf, clockOf, hown,
      show m₂.virtualFinish = m'.virtualFinish from congrArg Prod.snd hmark]
  · obtain ⟨x', hx', hready', hmark', hle⟩ := hleast id x hx hpeer hbacklogged
    have hfinish' : x'.virtualFinish = s.impl.nextFinish x := congrArg Prod.snd hmark'
    refine ⟨hfinish' ▸ hle, ?_, fun hother => ⟨x', ?_, congrArg Prod.fst hmark', ?_⟩⟩
    · rintro rfl
      obtain rfl := Option.some.inj (hm'.symm.trans hx')
      exact hfinish'
    · have hsteady : x'.lifecycle.isTransient = false := by
        rw [hready']
        rfl
      refine hothers₃ id x' hother ?_ hsteady
      rw [hothers id (own ▸ hother)]
      refine flows_concludeRound hconclude (fun a ha _ hflow => ?_) hx' hsteady
      rw [hsingle, List.mem_singleton] at ha
      exact hother (ha ▸ hflow.symm)
    · rw [nextFinish_of_ready hready', hfinish']

end Turns

/-- The stamps and the clocks, with how often each flow has been served. -/
def Impl.queues (s : Impl) (served : FlowId → ℕ) : FairQueueing.State FlowId FairnessGroupId where
  stamp id := (s.flows[id]?.map fun r => (s.nextFinish r).toNat).getD 0
  clock g := s.groupClock g
  served := served

theorem stamp_queues {i : Impl} {id : FlowId} {r : FlowRuntime} {n : FlowId → ℕ}
    (found : i.flows[id]? = some r) : (i.queues n).stamp id = (i.nextFinish r).toNat := by
  simp only [Impl.queues, found, Option.map_some, Option.getD_some]

/-- The flows compete under the policy with their descriptors. -/
def Impl.Holds (s : Impl) (policy : SchedulingPolicy) (K : Set FlowId)
    (d : FlowId → FlowDescriptor) : Prop :=
  s.policy = policy ∧ ∀ id ∈ K, ∃ r, s.flows[id]? = some r ∧ r.descriptor = d id

/-- Turn after turn, each as allowed. The flows served are listed in order. -/
inductive Stretch (allowed : Scheduler → Ticks → ScheduleEntry → Scheduler → Prop) :
    Scheduler → List FlowId → Scheduler → Prop
  | nil {s} : Stretch allowed s [] s
  | cons {s u t now e served} (turn : Turn s now e u) (ok : allowed s now e u)
      (rest : Stretch allowed u served t) : Stretch allowed s (e.flow :: served) t

/-- A turn in which the window goes to a flow of the rank on the resource that has no deadline and
is ordered in the normal tier, and its new stamp does not saturate. -/
structure Plain (resource : Binding .resource) (rank : UInt32) (s : Scheduler) (e : ScheduleEntry)
    (t : Scheduler) : Prop where
  peer : ∃ m, s.impl.flows[e.flow]? = some m ∧ s.impl.Peer resource rank m.descriptor
  normal : e.tier = kTierNormal
  unsaturated : ∀ r, t.impl.flows[e.flow]? = some r → t.impl.nextFinish r ≠ u64Max

/-- The flows in `K` are backlogged on the resource under the rank. -/
def Impl.Contend (s : Impl) (K : Set FlowId) (resource : Binding .resource) (rank : UInt32)
    (now : Ticks) : Prop :=
  ∀ id ∈ K, ∃ r, s.flows[id]? = some r ∧ s.Peer resource rank r.descriptor ∧ s.Backlogged now r

/-- A plain turn for which the flows in `K` contend. -/
def Contested (K : Set FlowId) (resource : Binding .resource) (rank : UInt32) (s : Scheduler)
    (now : Ticks) (e : ScheduleEntry) (t : Scheduler) : Prop :=
  s.impl.Contend K resource rank now ∧ Plain resource rank s e t

instance {resource : Binding .resource} {rank : UInt32} {s t : Scheduler} {e : ScheduleEntry} :
    Decidable (Plain resource rank s e t) :=
  decidable_of_iff ((∃ m ∈ s.impl.flows[e.flow]?, s.impl.Peer resource rank m.descriptor) ∧
      e.tier = kTierNormal ∧ ∀ r ∈ t.impl.flows[e.flow]?, t.impl.nextFinish r ≠ u64Max)
    ⟨fun ⟨a, b, c⟩ => ⟨a, b, c⟩, fun h => ⟨h.peer, h.normal, h.unsaturated⟩⟩

instance {ids : List FlowId} {resource : Binding .resource} {rank : UInt32} {s : Impl} {now : Ticks} :
    Decidable (s.Contend {id | id ∈ ids} resource rank now) :=
  decidable_of_iff (∀ id ∈ ids, ∃ r ∈ s.flows[id]?, s.Peer resource rank r.descriptor ∧
    s.Backlogged now r) Iff.rfl

instance {ids : List FlowId} {resource : Binding .resource} {rank : UInt32} {s t : Scheduler}
    {now : Ticks} {e : ScheduleEntry} :
    Decidable (Contested {id | id ∈ ids} resource rank s now e t) :=
  inferInstanceAs (Decidable (_ ∧ _))

section Stretches

variable {s t u : Scheduler} {now : Ticks} {e : ScheduleEntry} {resource : Binding .resource}
  {rank : UInt32} {m : FlowRuntime} {policy : SchedulingPolicy} {K : Set FlowId}
  {d : FlowId → FlowDescriptor} {n : FlowId → ℕ}

theorem Turn.serves (turn : Turn s now e t) (sound : Sound s.impl) (fair : policy.weightedFairness)
    (holds : s.impl.Holds policy K d) (contested : Contested K resource rank s now e t) :
    t.impl.Holds policy K d ∧ ∃ f, FairQueueing.Serves K (fun id => (d id).fairnessGroup)
      (fun id => (FlowRuntime.virtualCost policy (d id)).toNat) e.flow f (s.impl.queues n)
      (t.impl.queues (Function.update n e.flow (n e.flow + 1))) := by
  obtain ⟨contend, ⟨m, hm, hpeer⟩, normal, unsaturated⟩ := contested
  obtain ⟨hpolicy, f, hlifted, ⟨r', hr', hdescriptor, hfinish⟩, hothers⟩ :=
    turn.stamps sound (holds.1 ▸ fair) normal hm hpeer
  have hd : e.flow ∈ K → m.descriptor = d e.flow := by
    intro hK
    obtain ⟨r, hr, hrd⟩ := holds.2 e.flow hK
    obtain rfl := Option.some.inj (hm.symm.trans hr)
    exact hrd
  -- what the turn does to the stamp of a flow that contends
  have hcontend : ∀ id ∈ K, ∃ x, s.impl.flows[id]? = some x ∧ x.descriptor = d id ∧
      f ≤ s.impl.nextFinish x ∧ (id = e.flow → f = s.impl.nextFinish x) ∧
      (id ≠ e.flow → ∃ x', t.impl.flows[id]? = some x' ∧ x'.descriptor = x.descriptor ∧
        t.impl.nextFinish x' = s.impl.nextFinish x) := by
    intro id hid
    obtain ⟨x, hx, hxpeer, hbacklogged⟩ := contend id hid
    obtain ⟨r, hr, hrd⟩ := holds.2 id hid
    obtain rfl := Option.some.inj (hx.symm.trans hr)
    exact ⟨x, hx, hrd, hothers id x hx hxpeer hbacklogged⟩
  refine ⟨⟨hpolicy.trans holds.1, fun id hid => ?_⟩, f.toNat, ?_, ?_, hlifted, ?_, ?_, ?_, ?_⟩
  · obtain ⟨x, hx, hxd, -, -, hother⟩ := hcontend id hid
    by_cases hid' : id = e.flow
    · subst hid'
      exact ⟨r', hr', hdescriptor.trans (hd hid)⟩
    · obtain ⟨x', hx', hsame, -⟩ := hother hid'
      exact ⟨x', hx', hsame.trans hxd⟩
  · intro hK
    obtain ⟨x, hx, -, -, hown, -⟩ := hcontend e.flow hK
    rw [stamp_queues hx, hown rfl]
  · intro id hid
    obtain ⟨x, hx, -, hle, -⟩ := hcontend id hid
    rw [stamp_queues hx]
    exact UInt64.le_iff_toNat_le.mp hle
  · intro id hid hne
    obtain ⟨x, hx, -, -, -, hother⟩ := hcontend id hid
    obtain ⟨x', hx', -, hsame⟩ := hother hne
    rw [stamp_queues hx, stamp_queues hx', hsame]
  · intro hK
    have hne : (t.impl.nextFinish r').toNat ≠ 2 ^ 64 - 1 := fun h =>
      unsaturated r' hr' (UInt64.toNat_inj.mp h)
    have hclock : (t.impl.queues (Function.update n e.flow (n e.flow + 1))).clock
        (d e.flow).fairnessGroup = (t.impl.clockOf m).toNat := by
      rw [← hd hK]
      rfl
    rw [stamp_queues hr', hclock, ← hd hK, ← holds.1, ← hpolicy]
    rw [hfinish, toNat_saturatingAdd] at hne ⊢
    have hmax : (if f < t.impl.clockOf m then t.impl.clockOf m else f).toNat =
        max f.toNat (t.impl.clockOf m).toNat := by
      split
      · rename_i hlt
        rw [UInt64.lt_iff_toNat_lt] at hlt
        omega
      · rename_i hge
        rw [UInt64.lt_iff_toNat_lt] at hge
        omega
    rw [hmax] at hne ⊢
    omega
  · exact Function.update_self ..
  · exact fun id hid => Function.update_of_ne hid ..

theorem Stretch.fair {first : FlowId → ℕ} {served : List FlowId}
    (stretch : Stretch (Contested K resource rank) s served t) (sound : Sound s.impl)
    (fair : policy.weightedFairness) (holds : s.impl.Holds policy K d)
    (h : FairQueueing.Fair K (fun id => (d id).fairnessGroup)
      (fun id => (FlowRuntime.virtualCost policy (d id)).toNat) first (s.impl.queues n)) :
    FairQueueing.Fair K (fun id => (d id).fairnessGroup)
      (fun id => (FlowRuntime.virtualCost policy (d id)).toNat) first
      (t.impl.queues fun id => n id + served.count id) := by
  induction stretch generalizing n with
  | nil =>
    simp only [List.count_nil, Nat.add_zero]
    exact h
  | @cons s u t now e served turn contested rest ih =>
    obtain ⟨hholds, f, hserves⟩ := turn.serves (n := n) sound fair holds contested
    have hrest := ih (turn.sound sound) hholds (h.serves hserves)
    have hcount : (fun id => Function.update n e.flow (n e.flow + 1) id + served.count id) =
        fun id => n id + (e.flow :: served).count id := by
      funext id
      rw [List.count_cons, Function.update_apply]
      by_cases hid : id = e.flow
      · subst hid
        simp only [if_true, beq_self_eq_true]
        omega
      · rw [if_neg hid, if_neg (by simpa using Ne.symm hid), Nat.add_zero]
    rwa [hcount] at hrest

end Stretches

end FlowScheduler

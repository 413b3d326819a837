import FlowScheduler.Steps.Runs

/-! # Relations around a program

Whether a program returns or fails, the memory before it and the memory after it
are related as soon as each of its steps relates them, for a relation that is a
preorder.
-/

namespace FlowScheduler

open Failing SchedOp

/-- The program relates the memory before it to the memory after it, whether it returns or fails. -/
def Relates {α : Type} (R : Impl → Impl → Prop) (m : SchedOp α) (s : Scheduler) : Prop :=
  R s.impl (exec m s).2.impl

namespace Relates

variable {α β : Type} {R R' : Impl → Impl → Prop} {s : Scheduler} {m : SchedOp α}

theorem mono (sub : ∀ i j, R i j → R' i j) (h : Relates R m s) : Relates R' m s := sub _ _ h

theorem modifyImpl {f : Impl → Impl} (h : R s.impl (f s.impl)) : Relates R (modifyImpl f) s := h

theorem readImpl_bind {k : Impl → SchedOp β} (h : Relates R (k s.impl) s) :
    Relates R (readImpl >>= k) s := h

variable [IsPreorder Impl R]

theorem pure {a : α} : Relates R (pure a) s := refl_of R _

theorem lift {x : Result α} : Relates R (liftM x) s := by
  unfold Relates
  rw [exec_lift]
  exact refl_of R _

theorem bind_ok {k : α → SchedOp β} (h : Relates R m s)
    (next : ∀ a t, exec m s = (.ok a, t) → Relates R (k a) t) : Relates R (m >>= k) s := by
  unfold Relates at h ⊢
  rw [exec_bind]
  cases hm : exec m s with
  | mk result t =>
    rw [hm] at h
    cases result with
    | error e => exact h
    | ok a => exact trans_of R h (next a t hm)

theorem bind {k : α → SchedOp β} (h : Relates R m s) (next : ∀ a t, Relates R (k a) t) :
    Relates R (m >>= k) s :=
  h.bind_ok fun a t _ => next a t

theorem modifyImpl_bind {f : Impl → Impl} {k : Unit → SchedOp β} (h : R s.impl (f s.impl))
    (next : ∀ t, Relates R (k ()) t) : Relates R (SchedOp.modifyImpl f >>= k) s :=
  bind (modifyImpl h) fun _ => next

theorem lift_bind {x : Result α} {k : α → SchedOp β} (next : ∀ a, x = .ok a → Relates R (k a) s) :
    Relates R (liftM x >>= k) s := by
  unfold Relates
  rw [exec_lift_bind]
  cases x with
  | error e => exact refl_of R _
  | ok a => exact next a rfl

theorem journal {r : Record} : Relates R (journal r) s := by
  unfold Relates
  rw [impl_journal]
  exact refl_of R _

theorem journal_bind {r : Record} {k : Unit → SchedOp β}
    (next : ∀ t : Scheduler, t.impl = s.impl → Relates R (k ()) t) :
    Relates R (SchedOp.journal r >>= k) s :=
  bind_ok journal fun _ t ht => next t (impl_of_append ht)

theorem guarded {guard : Status} {r : Record} {f : Impl → Impl} (h : ∀ i : Impl, R i (f i)) :
    Relates R (liftM guard >>= fun _ => SchedOp.journal r >>= fun _ => SchedOp.modifyImpl f) s :=
  lift_bind fun _ _ => journal_bind fun t _ => h t.impl

theorem conditional {guard : Result Bool} {r : Record} {f : Impl → Impl} (h : ∀ i : Impl, R i (f i)) :
    Relates R (liftM guard >>= fun yes =>
      if yes = true then SchedOp.journal r >>= fun _ => SchedOp.modifyImpl f else Pure.pure ()) s := by
  refine lift_bind fun yes _ => ?_
  split
  · exact journal_bind fun t _ => h t.impl
  · exact pure

end Relates

end FlowScheduler

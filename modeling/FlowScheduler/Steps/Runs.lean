import FlowScheduler.Steps.Moves

/-! # Calls as sequences of moves

The moves of a run, with the records that reached the journal. An append that is
refused leaves the memory of the scheduler as it was.
-/

namespace FlowScheduler

open ByteCodec (Bytes)
open Failing SchedOp

section Exec

variable {α : Type} {s : Scheduler}

@[simp] theorem exec_readImpl_bind (k : Impl → SchedOp α) :
    exec (readImpl >>= k) s = exec (k s.impl) s := rfl

@[simp] theorem exec_modifyImpl (f : Impl → Impl) :
    exec (modifyImpl f) s = (.ok (), { s with impl := f s.impl }) := rfl

@[simp] theorem exec_modifyImpl_bind (f : Impl → Impl) (k : Unit → SchedOp α) :
    exec (modifyImpl f >>= k) s = exec (k ()) { s with impl := f s.impl } := rfl

@[simp] theorem exec_touch_bind (now : Ticks) (k : Unit → SchedOp α) :
    exec (touch now >>= k) s =
      exec (k ()) { s with impl := { s.impl with lastTick := max s.impl.lastTick now } } := rfl

theorem exec_lift_bind {β : Type} (x : Result β) (k : β → SchedOp α) :
    exec (liftM x >>= k) s = match x with
      | .ok a => exec (k a) s
      | .error e => (.error e, s) := by
  rw [exec_bind, exec_lift]
  cases x <;> rfl

theorem exec_journal (r : Record) : exec (journal r) s = match s.store with
    | none => (.ok (), { s with accepted := s.accepted ++ [r] })
    | some store =>
      match exec (DurableStore.append r.type r.payload) store with
      | (.ok (), store) =>
        (.ok (), { s with store := some store, accepted := s.accepted ++ [r] })
      | (.error e, store) =>
        (.error e, { s with store := some store, refusedAppends := s.refusedAppends + 1 }) := by
  rw [journal, exec_bind, exec_get]
  dsimp only
  cases hs : s.store with
  | none => rfl
  | some store =>
    dsimp only
    rcases exec (DurableStore.append r.type r.payload) store with ⟨_ | _, _⟩ <;> rfl

theorem impl_journal (r : Record) : (exec (journal r) s).2.impl = s.impl := by
  rw [exec_journal]
  split
  · rfl
  · split <;> rfl

theorem impl_of_append {r : Record} {t : Scheduler} {x : Status} (h : exec (journal r) s = (x, t)) :
    t.impl = s.impl := by
  have hi := impl_journal (s := s) r
  rw [h] at hi
  exact hi

theorem accepted_of_append {r : Record} {t : Scheduler} (h : exec (journal r) s = (.ok (), t)) :
    t.accepted = s.accepted ++ [r] := by
  rw [exec_journal] at h
  split at h
  · cases h
    rfl
  · split at h <;> cases h
    rfl

theorem accepted_of_refused {r : Record} {t : Scheduler} {e : Error}
    (h : exec (journal r) s = (.error e, t)) : t.accepted = s.accepted := by
  rw [exec_journal] at h
  split at h
  · cases h
  · split at h <;> cases h
    rfl

theorem exec_journal_withImpl (r : Record) (i : Impl) :
    exec (journal r) { s with impl := i } =
      ((exec (journal r) s).1, { (exec (journal r) s).2 with impl := i }) := by
  obtain ⟨impl, store, refused, accepted⟩ := s
  rw [exec_journal, exec_journal]
  cases store with
  | none => rfl
  | some store =>
    dsimp only
    split <;> rfl

end Exec

/-- A run by moves of a kind, with the records it appended. -/
inductive Steps (R : Impl → Option Record → Impl → Prop) (s : Scheduler) :
    List Record → Scheduler → Prop
  | refl : Steps R s [] s
  | silent {rs t i} (run : Steps R s rs t) (move : R t.impl none i) : Steps R s rs { t with impl := i }
  | journaled {rs t r i u} (run : Steps R s rs t) (move : R t.impl (some r) i)
      (append : exec (journal r) t = (.ok (), u)) : Steps R s (rs ++ [r]) { u with impl := i }
  | refused {rs t r e u} (run : Steps R s rs t) (append : exec (journal r) t = (.error e, u)) :
      Steps R s rs u

namespace Steps

variable {R R' : Impl → Option Record → Impl → Prop} {s t u : Scheduler} {rs rs' : List Record}

theorem mono (h : Steps R s rs t) (sub : ∀ i r i', R i r i' → R' i r i') : Steps R' s rs t := by
  induction h with
  | refl => exact refl
  | silent _ move ih => exact ih.silent (sub _ _ _ move)
  | journaled _ move append ih => exact ih.journaled (sub _ _ _ move) append
  | refused _ append ih => exact ih.refused append

theorem trans (h : Steps R s rs t) (h' : Steps R t rs' u) : Steps R s (rs ++ rs') u := by
  induction h' with
  | refl => simpa using h
  | silent _ move ih => exact ih.silent move
  | journaled _ move append ih =>
    rw [← List.append_assoc]
    exact ih.journaled move append
  | refused _ append ih => exact ih.refused append

theorem preserves {P : Impl → Prop} (keep : ∀ i r i', R i r i' → P i → P i')
    (h : Steps R s rs t) (hs : P s.impl) : P t.impl := by
  induction h with
  | refl => exact hs
  | silent _ move ih => exact keep _ _ _ move ih
  | journaled _ move _ ih => exact keep _ _ _ move ih
  | refused _ append ih =>
    rw [impl_of_append append]
    exact ih

theorem accepted (h : Steps R s rs t) : t.accepted = s.accepted ++ rs := by
  induction h with
  | refl => exact (List.append_nil _).symm
  | silent _ _ ih => exact ih
  | journaled _ _ append ih => rw [accepted_of_append append, ih, List.append_assoc]
  | refused _ append ih => rw [accepted_of_refused append, ih]

/-- What every move preserves of the memory and the history together, a run preserves. -/
theorem preserves_history {P : Impl → List Record → Prop}
    (quiet : ∀ i i' l, R i none i' → P i l → P i' l)
    (record : ∀ i r i' l, R i (some r) i' → P i l → P i' (l ++ [r]))
    (h : Steps R s rs t) (hs : P s.impl s.accepted) : P t.impl t.accepted := by
  induction h with
  | refl => exact hs
  | silent _ move ih => exact quiet _ _ _ move ih
  | journaled _ move append ih =>
    rw [accepted_of_append append]
    exact record _ _ _ _ move ih
  | refused _ append ih =>
    rw [impl_of_append append, accepted_of_refused append]
    exact ih

end Steps

/-- From some state on, the call makes moves of the given kind only. -/
def Makes (R : Impl → Option Record → Impl → Prop) (s t : Scheduler) : Prop :=
  ∃ rs, Steps R s rs t

namespace Makes

variable {R R' : Impl → Option Record → Impl → Prop} {s t u : Scheduler} {r : Record} {i : Impl}

theorem refl : Makes R s s := ⟨[], .refl⟩

theorem trans (h : Makes R s t) (h' : Makes R t u) : Makes R s u := by
  obtain ⟨rs, h⟩ := h
  obtain ⟨rs', h'⟩ := h'
  exact ⟨rs ++ rs', h.trans h'⟩

theorem mono (h : Makes R s t) (sub : ∀ i r i', R i r i' → R' i r i') : Makes R' s t := by
  obtain ⟨rs, h⟩ := h
  exact ⟨rs, h.mono sub⟩

theorem silent (move : R s.impl none i) : Makes R s { s with impl := i } :=
  ⟨[], .silent .refl move⟩

theorem refused {e : Error} (append : exec (journal r) s = (.error e, u)) : Makes R s u :=
  ⟨[], .refused .refl append⟩

theorem modifyImpl_bind {α : Type} {f : Impl → Impl} {k : Unit → SchedOp α}
    (move : R s.impl none (f s.impl))
    (h : ∀ t : Scheduler, t.impl = f s.impl → Makes R t (exec (k ()) t).2) :
    Makes R s (exec (modifyImpl f >>= k) s).2 :=
  (silent move).trans (h _ rfl)

theorem journaled (move : R s.impl (some r) i) (append : exec (journal r) s = (.ok (), t)) :
    Makes R s { t with impl := i } := ⟨[r], .journaled .refl move append⟩

theorem journaled_self (move : R s.impl (some r) s.impl)
    (append : exec (journal r) s = (.ok (), t)) : Makes R s t := by
  have h := journaled move append
  rwa [← impl_of_append append] at h

theorem journal_bind {α : Type} {k : Unit → SchedOp α}
    (ok : ∀ t, exec (journal r) s = (.ok (), t) → Makes R s (exec (k ()) t).2) :
    Makes R s (exec (journal r >>= k) s).2 := by
  rw [exec_bind]
  cases h : exec (journal r) s with
  | mk result t =>
    cases result with
    | error e => exact refused h
    | ok u => exact ok t h

/-- The usual shape of a call: append, then apply. -/
theorem journal_modify {f : Impl → Impl} (move : R s.impl (some r) (f s.impl)) :
    Makes R s (exec (journal r >>= fun _ => modifyImpl f) s).2 := by
  refine journal_bind fun t ht => ?_
  rw [exec_modifyImpl, impl_of_append ht]
  exact journaled move ht

end Makes

/-- The program makes moves of the kind only and, when it returns, establishes a postcondition. -/
def Runs {α : Type} (R : Impl → Option Record → Impl → Prop) (Q : α → Scheduler → Prop)
    (m : SchedOp α) (s : Scheduler) : Prop :=
  Makes R s (exec m s).2 ∧ ∀ a, (exec m s).1 = .ok a → Q a (exec m s).2

namespace Runs

variable {α β : Type} {R : Impl → Option Record → Impl → Prop} {s : Scheduler}
  {Q : α → Scheduler → Prop} {Q' : β → Scheduler → Prop} {m : SchedOp α}

theorem pure {a : α} (h : Q a s) : Runs R Q (pure a : SchedOp α) s :=
  ⟨.refl, fun b hb => by cases hb; exact h⟩

theorem bind {k : α → SchedOp β} (h : Runs R Q m s)
    (next : ∀ a t, Makes R s t → Q a t → Runs R Q' (k a) t) : Runs R Q' (m >>= k) s := by
  obtain ⟨hm, hq⟩ := h
  unfold Runs
  rw [exec_bind]
  cases he : exec m s with
  | mk result t =>
    rw [he] at hm hq
    cases result with
    | error e => exact ⟨hm, fun _ h => by cases h⟩
    | ok a =>
      obtain ⟨hm', hq'⟩ := next a t hm (hq a rfl)
      exact ⟨hm.trans hm', hq'⟩

theorem readImpl_bind {k : Impl → SchedOp β} (h : Runs R Q' (k s.impl) s) :
    Runs R Q' (readImpl >>= k) s := h

theorem modifyImpl_bind {f : Impl → Impl} {k : Unit → SchedOp β}
    (run : Makes R s { s with impl := f s.impl })
    (h : Runs R Q' (k ()) { s with impl := f s.impl }) : Runs R Q' (modifyImpl f >>= k) s :=
  ⟨run.trans h.1, h.2⟩

theorem lift_bind {x : Result α} {k : α → SchedOp β}
    (h : ∀ a, x = .ok a → Runs R Q' (k a) s) : Runs R Q' (liftM x >>= k) s := by
  unfold Runs
  rw [exec_lift_bind]
  cases x with
  | error e => exact ⟨.refl, fun _ h => by cases h⟩
  | ok a => exact h a rfl

theorem mono {Q₂ : α → Scheduler → Prop} (h : Runs R Q m s) (imp : ∀ a t, Q a t → Q₂ a t) :
    Runs R Q₂ m s :=
  ⟨h.1, fun a ha => imp a _ (h.2 a ha)⟩

end Runs

/-- A sequence of moves without records, on the memory alone. -/
abbrev Silently (R : Impl → Option Record → Impl → Prop) : Impl → Impl → Prop :=
  Relation.ReflTransGen fun i i' => R i none i'

theorem Makes.silently {R : Impl → Option Record → Impl → Prop} {s : Scheduler} {i : Impl}
    (h : Silently R s.impl i) : Makes R s { s with impl := i } := by
  induction h with
  | refl => exact .refl
  | tail _ move ih => exact ih.trans (.silent move)

end FlowScheduler

import Mathlib

/-! # Programs that fail and keep their state

A program over a state either returns a value or fails; in both cases it leaves
a state behind. The rules below take a run apart at its binds and carry a
property of the state through a whole program.
-/

namespace Failing

/-- A state-passing program whose failures keep the state reached so far. -/
abbrev Op (ε σ α : Type) := ExceptT ε (StateM σ) α

section Exec

variable {ε σ α β : Type}

def exec (m : Op ε σ α) (s : σ) : Except ε α × σ := (m.run).run s

@[simp] theorem exec_pure (a : α) (s : σ) : exec (pure a : Op ε σ α) s = (.ok a, s) := rfl

@[simp] theorem exec_get (s : σ) : exec (get : Op ε σ σ) s = (.ok s, s) := rfl

@[simp] theorem exec_modify (f : σ → σ) (s : σ) :
    exec (modify f : Op ε σ PUnit) s = (.ok ⟨⟩, f s) := rfl

@[simp] theorem exec_lift (x : Except ε α) (s : σ) :
    exec (liftM x : Op ε σ α) s = (x, s) := by cases x <;> rfl

theorem exec_bind (x : Op ε σ α) (f : α → Op ε σ β) (s : σ) :
    exec (x >>= f) s = match exec x s with
      | (.ok a, s') => exec (f a) s'
      | (.error e, s') => (.error e, s') := by
  simp only [exec, ExceptT.run_bind, StateT.run_bind]
  rcases StateT.run (ExceptT.run x) s with ⟨_ | _, _⟩ <;> rfl

theorem exec_bind_ok {x : Op ε σ α} {f : α → Op ε σ β} {s s' : σ} {b : β} :
    exec (x >>= f) s = (.ok b, s') ↔
      ∃ a t, exec x s = (.ok a, t) ∧ exec (f a) t = (.ok b, s') := by
  rw [exec_bind]
  rcases exec x s with ⟨_ | _, _⟩ <;> simp

theorem exec_bind_error {x : Op ε σ α} {f : α → Op ε σ β} {s s' : σ} {e : ε} :
    exec (x >>= f) s = (.error e, s') ↔
      exec x s = (.error e, s') ∨
        ∃ a t, exec x s = (.ok a, t) ∧ exec (f a) t = (.error e, s') := by
  rw [exec_bind]
  rcases exec x s with ⟨_ | _, _⟩ <;> simp

end Exec

section Indistinct

variable {ε σ α β : Type} {R : σ → σ → Prop}

/-- The program cannot tell related states apart: it returns the same and leaves related states. -/
class Blind (R : σ → σ → Prop) (m : Op ε σ α) : Prop where
  agrees : ∀ s t, R s t → (exec m s).1 = (exec m t).1 ∧ R (exec m s).2 (exec m t).2

namespace Blind

instance pure (a : α) : Blind R (Pure.pure a : Op ε σ α) := ⟨fun _ _ h => ⟨rfl, h⟩⟩

instance lift (x : Except ε α) : Blind R (liftM x : Op ε σ α) where
  agrees s t h := by
    rw [exec_lift, exec_lift]
    exact ⟨rfl, h⟩

theorem seq {x : Op ε σ α} {f : α → Op ε σ β} (first : Blind R x) (second : ∀ a, Blind R (f a)) :
    Blind R (x >>= f) where
  agrees s t h := by
    obtain ⟨hsame, hrel⟩ := first.agrees s t h
    rw [exec_bind, exec_bind]
    rcases hs : exec x s with ⟨_ | a, s'⟩ <;> rcases ht : exec x t with ⟨_ | b, t'⟩ <;>
      rw [hs, ht] at hsame hrel
    · exact ⟨congrArg Except.error (Except.error.inj hsame), hrel⟩
    · cases hsame
    · cases hsame
    · obtain rfl := Except.ok.inj hsame
      exact (second a).agrees s' t' hrel

instance bind (x : Op ε σ α) (f : α → Op ε σ β) [Blind R x] [∀ a, Blind R (f a)] :
    Blind R (x >>= f) := seq inferInstance fun _ => inferInstance

instance ite (p : Prop) [Decidable p] (x y : Op ε σ α) [Blind R x] [Blind R y] :
    Blind R (if p then x else y) := by
  split <;> infer_instance

end Blind

end Indistinct

end Failing

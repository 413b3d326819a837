import Mathlib

/-! # Ordered maps read point by point

What an update of an extensional ordered map does to each key, and folds whose
steps each touch the key they are given.
-/

namespace OrderedMap

section Lookup

variable {κ ν : Type} [Ord κ] [Std.TransOrd κ] [Std.LawfulEqOrd κ] [DecidableEq κ]
variable {t : Std.ExtTreeMap κ ν compare} {k a : κ}

theorem get_modify (f : ν → ν) :
    (t.modify k f)[a]? = if a = k then t[a]?.map f else t[a]? := by
  rw [Std.ExtTreeMap.getElem?_modify]
  by_cases h : a = k
  · subst h
    simp
  · rw [if_neg h, if_neg fun hc => h (Std.LawfulEqOrd.eq_of_compare hc).symm]

theorem get_insert (v : ν) : (t.insert k v)[a]? = if a = k then some v else t[a]? := by
  rw [Std.ExtTreeMap.getElem?_insert]
  by_cases h : a = k
  · subst h
    simp
  · rw [if_neg h, if_neg fun hc => h (Std.LawfulEqOrd.eq_of_compare hc).symm]

theorem getD_insert (v d : ν) : (t.insert k v).getD a d = if a = k then v else t.getD a d := by
  rw [Std.ExtTreeMap.getD_eq_getD_getElem?, Std.ExtTreeMap.getD_eq_getD_getElem?, get_insert]
  split <;> rfl

theorem get_erase : (t.erase k)[a]? = if a = k then none else t[a]? := by
  rw [Std.ExtTreeMap.getElem?_erase]
  by_cases h : a = k
  · subst h
    simp
  · rw [if_neg h, if_neg fun hc => h (Std.LawfulEqOrd.eq_of_compare hc).symm]

theorem modify_eq_self {f : ν → ν} (h : ∀ v, t[k]? = some v → f v = v) : t.modify k f = t := by
  refine Std.ExtTreeMap.ext_getElem? fun a => ?_
  rw [get_modify]
  split
  · rename_i hak
    subst hak
    cases hv : t[a]? with
    | none => rfl
    | some v => simp [h v hv]
  · rfl

theorem get_foldl_erase (ks : List κ) (t : Std.ExtTreeMap κ ν compare) :
    (ks.foldl (fun t k => t.erase k) t)[a]? = if a ∈ ks then none else t[a]? := by
  induction ks generalizing t with
  | nil => simp
  | cons k ks ih =>
    rw [List.foldl_cons, ih, get_erase]
    by_cases ha : a = k <;> simp [ha]

omit [DecidableEq κ] in
theorem mem_toList {v : ν} : (k, v) ∈ t.toList ↔ t[k]? = some v :=
  Std.ExtTreeMap.mem_toList_iff_getElem?_eq_some

omit [DecidableEq κ] in
theorem nodup_keys (t : Std.ExtTreeMap κ ν compare) : t.keys.Nodup :=
  t.distinct_keys.imp fun h hab => h (by rw [hab]; exact Std.ReflCmp.compare_self)

end Lookup

section Folds

variable {σ κ β : Type} {step : σ → κ → σ} {view : σ → κ → β} {I : σ → Prop}

theorem foldl_keeps {P : σ → Prop} (keep : ∀ s k, P s → P (step s k)) (ks : List κ) {s : σ}
    (hs : P s) : P (ks.foldl step s) := by
  induction ks generalizing s with
  | nil => exact hs
  | cons k ks ih => exact ih (keep s k hs)

theorem foldl_frame {γ : Type} {look : σ → γ} (same : ∀ s k, look (step s k) = look s)
    (ks : List κ) (s : σ) : look (ks.foldl step s) = look s := by
  induction ks generalizing s with
  | nil => rfl
  | cons k ks ih => rw [List.foldl_cons, ih, same]

end Folds

end OrderedMap

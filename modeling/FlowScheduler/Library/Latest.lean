import FlowScheduler.Library.OrderedMap

/-! # The latest item of each key

Items arrive one after the other, each under a key and with a rank; an item
replaces the one before it under its key and must outrank it. Which item stands
under a key in the end does not depend on the order of arrival.
-/

namespace Latest

variable {κ δ : Type} [DecidableEq κ] {key : δ → κ} {rank : δ → ℕ} {l l' : List δ}
  {t t' : κ → Option δ} {k : κ} {d : δ}

def last (key : δ → κ) (l : List δ) (k : κ) : Option δ := (l.filter (key · = k)).getLast?

/-- Items of one key arrive in the order of their ranks. -/
def Rising (key : δ → κ) (rank : δ → ℕ) (l : List δ) : Prop :=
  l.Pairwise fun a b => key a = key b → rank a < rank b

theorem last_concat : last key (l ++ [d]) k = if k = key d then some d else last key l k := by
  unfold last
  rw [List.filter_append]
  by_cases h : k = key d
  · subst h
    simp
  · simp [h, Ne.symm h]

theorem Rising.rank_le (h : Rising key rank l) (mem : d ∈ l) :
    ∃ d', last key l (key d) = some d' ∧ rank d ≤ rank d' := by
  induction l using List.reverseRecOn with
  | nil => cases mem
  | append_singleton l x ih =>
    obtain ⟨hl, -, hx⟩ := List.pairwise_append.mp h
    rw [last_concat]
    by_cases hkey : key d = key x
    · refine ⟨x, if_pos hkey, ?_⟩
      rcases List.mem_append.mp mem with hd | hd
      · exact (hx d hd x (List.mem_singleton_self x) hkey).le
      · rw [List.mem_singleton.mp hd]
    · rw [if_neg hkey]
      refine ih hl ?_
      rcases List.mem_append.mp mem with hd | hd
      · exact hd
      · exact absurd (congrArg key (List.mem_singleton.mp hd)) hkey

theorem last_eq_of_perm (h : Rising key rank l) (h' : Rising key rank l') (perm : l.Perm l') (k : κ) :
    last key l k = last key l' k := by
  have hsorted : ∀ {m : List δ}, Rising key rank m →
      (m.filter (key · = k)).Pairwise fun a b => rank a < rank b := by
    intro m hm
    refine (hm.filter _).imp_of_mem fun ha hb hlt => hlt ?_
    have hka := of_decide_eq_true (List.mem_filter.mp ha).2
    have hkb := of_decide_eq_true (List.mem_filter.mp hb).2
    rw [hka, hkb]
  have hsame : l.filter (key · = k) = l'.filter (key · = k) := by
    refine List.Perm.eq_of_pairwise ?_ (hsorted h) (hsorted h') (perm.filter _)
    intro a b _ _ hab hba
    omega
  rw [last, last, hsame]

/-- The table holds the latest items of a rising list. -/
structure Holds (key : δ → κ) (rank : δ → ℕ) (l : List δ) (t : κ → Option δ) : Prop where
  rising : Rising key rank l
  latest : ∀ k, t k = last key l k

namespace Holds

theorem concat (h : Holds key rank l t) (outranks : ∀ d', t (key d) = some d' → rank d' < rank d) :
    Holds key rank (l ++ [d]) (Function.update t (key d) (some d)) where
  rising := by
    refine List.pairwise_append.mpr ⟨h.rising, List.pairwise_singleton _ _, ?_⟩
    intro a ha b hb hkey
    obtain rfl := List.mem_singleton.mp hb
    obtain ⟨d', hd', hle⟩ := h.rising.rank_le ha
    rw [hkey, ← h.latest] at hd'
    exact hle.trans_lt (outranks d' hd')
  latest k := by
    rw [last_concat, Function.update_apply, h.latest]

theorem eq_of_perm (h : Holds key rank l t) (h' : Holds key rank l' t') (perm : l.Perm l') : t = t' := by
  funext k
  rw [h.latest, h'.latest]
  exact last_eq_of_perm h.rising h'.rising perm k

theorem skip {ε : Type} {item : ε → Option δ} {es : List ε} {e : ε}
    (h : Holds key rank (es.filterMap item) t) (none : item e = none) :
    Holds key rank ((es ++ [e]).filterMap item) t := by
  have hlist : (es ++ [e]).filterMap item = es.filterMap item := by
    rw [List.filterMap_append, List.filterMap_cons_none none, List.filterMap_nil, List.append_nil]
  rw [hlist]
  exact h

theorem insert {ε ν : Type} [Ord κ] [Std.TransOrd κ] [Std.LawfulEqOrd κ]
    {table : Std.ExtTreeMap κ ν compare} {descriptor : ν → δ} {item : ε → Option δ} {es : List ε} {e : ε}
    {v : ν} (h : Holds key rank (es.filterMap item) fun k => table[k]?.map descriptor)
    (brings : item e = some d) (describes : descriptor v = d)
    (outranks : ∀ d', table[key d]?.map descriptor = some d' → rank d' < rank d) :
    Holds key rank ((es ++ [e]).filterMap item)
      fun k => (table.insert (key d) v)[k]?.map descriptor := by
  have hlist : (es ++ [e]).filterMap item = es.filterMap item ++ [d] := by
    rw [List.filterMap_append, List.filterMap_cons_some brings, List.filterMap_nil]
  have htable : (fun k => (table.insert (key d) v)[k]?.map descriptor) =
      Function.update (fun k => table[k]?.map descriptor) (key d) (some d) := by
    funext k
    rw [OrderedMap.get_insert, Function.update_apply]
    split
    · rw [Option.map_some, describes]
    · rfl
  rw [hlist, htable]
  exact h.concat outranks

theorem insert_self {ε : Type} [Ord κ] [Std.TransOrd κ] [Std.LawfulEqOrd κ]
    {table : Std.ExtTreeMap κ δ compare} {item : ε → Option δ} {es : List ε} {e : ε}
    (h : Holds key rank (es.filterMap item) fun k => table[k]?) (brings : item e = some d)
    (outranks : ∀ d', table[key d]? = some d' → rank d' < rank d) :
    Holds key rank ((es ++ [e]).filterMap item) fun k => (table.insert (key d) d)[k]? := by
  have hself : Holds key rank (es.filterMap item) fun k => table[k]?.map id := by
    simpa only [Option.map_id_fun, id_eq] using h
  have hnext := hself.insert brings (id_eq d) (by simpa only [Option.map_id_fun, id_eq] using outranks)
  simpa only [Option.map_id_fun, id_eq] using hnext

end Holds

omit [DecidableEq κ] in
theorem table_ext {ν : Type} [Ord κ] [Std.TransOrd κ] [Std.LawfulEqOrd κ]
    {table table' : Std.ExtTreeMap κ ν compare} {descriptor : ν → δ} (new : δ → ν)
    (same : (fun k : κ => table[k]?.map descriptor) = fun k => table'[k]?.map descriptor)
    (h : ∀ (k : κ) (v : ν), table[k]? = some v → v = new (descriptor v))
    (h' : ∀ (k : κ) (v : ν), table'[k]? = some v → v = new (descriptor v)) : table = table' := by
  have hread : ∀ {t : Std.ExtTreeMap κ ν compare},
      (∀ (k : κ) (v : ν), t[k]? = some v → v = new (descriptor v)) →
      ∀ k : κ, t[k]? = (t[k]?.map descriptor).map new := by
    intro t ht k
    cases hv : t[k]? with
    | none => rfl
    | some v => exact congrArg some (ht k v hv)
  refine Std.ExtTreeMap.ext_getElem? fun k => ?_
  rw [hread h k, hread h' k, congrFun same k]

end Latest

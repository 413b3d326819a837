import Mathlib

/-! # Self-clocked fair queueing

Every queue carries a finish stamp and belongs to a group with a clock. The
queue that is served has the least stamp. The clocks follow the stamp served,
and the queue is stamped anew, one cost later. As long as no clock is ahead of
a stamp, a stamp tells how often its queue was served, and no queue is served
ahead of another by more than one cost.
-/

namespace FairQueueing

variable {ι γ : Type*}

/-- The stamps, the clocks and how often each queue has been served. -/
structure State (ι γ : Type*) where
  stamp : ι → ℕ
  clock : γ → ℕ
  served : ι → ℕ

/-- One queue is served under a stamp that none of the queues in `K` is below. What else becomes of
the queues outside `K` is left open. -/
structure Serves (K : Set ι) (group : ι → γ) (cost : ι → ℕ) (i : ι) (f : ℕ) (q q' : State ι γ) :
    Prop where
  own : i ∈ K → q.stamp i = f
  least : ∀ j ∈ K, f ≤ q.stamp j
  lifted : ∀ g, q'.clock g ≤ max (q.clock g) f
  others : ∀ j ∈ K, j ≠ i → q'.stamp j = q.stamp j
  stamped : i ∈ K → q'.stamp i = max f (q'.clock (group i)) + cost i
  counted : q'.served i = q.served i + 1
  uncounted : ∀ j, j ≠ i → q'.served j = q.served j

/-- What the stamps and the clocks say about the service since the stamps were `first`. -/
structure Fair (K : Set ι) (group : ι → γ) (cost first : ι → ℕ) (q : State ι γ) : Prop where
  behind : ∀ j ∈ K, q.clock (group j) ≤ q.stamp j
  stamp_eq : ∀ j ∈ K, q.stamp j = first j + q.served j * cost j
  last_le : ∀ i ∈ K, ∀ j ∈ K, 0 < q.served i → first i + (q.served i - 1) * cost i ≤ q.stamp j

variable {K : Set ι} {group : ι → γ} {cost first : ι → ℕ} {i j : ι} {f : ℕ} {q q' : State ι γ}

namespace Fair

theorem start (behind : ∀ j ∈ K, q.clock (group j) ≤ q.stamp j) (fresh : ∀ j, q.served j = 0)
    (stamp_eq : ∀ j ∈ K, q.stamp j = first j) : Fair K group cost first q where
  behind := behind
  stamp_eq j hj := by rw [fresh j, stamp_eq j hj]; omega
  last_le i _ j _ hi := by
    rw [fresh i] at hi
    omega

theorem stamp_served (h : Fair K group cost first q) (step : Serves K group cost i f q q')
    (hi : i ∈ K) : q'.stamp i = q.stamp i + cost i := by
  have hclock := step.lifted (group i)
  have hbehind := h.behind i hi
  have hstamped := step.stamped hi
  have hown := step.own hi
  omega

theorem stamp_le (h : Fair K group cost first q) (step : Serves K group cost i f q q') (hj : j ∈ K) :
    q.stamp j ≤ q'.stamp j := by
  by_cases hji : j = i
  · subst hji
    have := h.stamp_served step hj
    omega
  · rw [step.others j hj hji]

theorem serves (h : Fair K group cost first q) (step : Serves K group cost i f q q') :
    Fair K group cost first q' where
  behind j hj := by
    have hclock := step.lifted (group j)
    have hbehind := h.behind j hj
    have hleast := step.least j hj
    have hstamp := h.stamp_le step hj
    omega
  stamp_eq j hj := by
    by_cases hji : j = i
    · subst hji
      rw [h.stamp_served step hj, h.stamp_eq j hj, step.counted, Nat.succ_mul]
      omega
    · rw [step.others j hj hji, step.uncounted j hji, h.stamp_eq j hj]
  last_le a ha b hb hserved := by
    have hstamp := h.stamp_le step hb
    by_cases hai : a = i
    · subst hai
      have hleast := step.least b hb
      have hfirst := h.stamp_eq a ha
      have hown := step.own ha
      rw [step.counted, Nat.add_sub_cancel]
      omega
    · rw [step.uncounted a hai] at hserved ⊢
      exact (h.last_le a ha b hb hserved).trans hstamp

/-- Proportional shares: queues that began one cost after the clock are served in proportion. -/
theorem share (h : Fair K group cost cost q) (hi : i ∈ K) (hj : j ∈ K) :
    q.served i * cost i ≤ (q.served j + 1) * cost j := by
  rcases Nat.eq_zero_or_pos (q.served i) with hzero | hpos
  · rw [hzero, Nat.zero_mul]
    exact Nat.zero_le _
  · have hlast := h.last_le i hi j hj hpos
    rw [h.stamp_eq j hj] at hlast
    obtain ⟨n, hn⟩ : ∃ n, q.served i = n + 1 := ⟨q.served i - 1, by omega⟩
    rw [hn, Nat.add_sub_cancel] at hlast
    rw [hn, Nat.succ_mul, Nat.succ_mul]
    omega

/-- Queues of one cost that began less than two costs apart are served equally often, up to two. -/
theorem served_le (h : Fair K group cost first q) (hi : i ∈ K) (hj : j ∈ K)
    (same : cost i = cost j) (near : first j < first i + 2 * cost i) :
    q.served i ≤ q.served j + 2 := by
  rcases Nat.eq_zero_or_pos (q.served i) with hzero | hpos
  · omega
  · have hlast := h.last_le i hi j hj hpos
    rw [h.stamp_eq j hj, ← same] at hlast
    have hbound : (q.served i - 1) * cost i < (q.served j + 2) * cost i := by
      rw [Nat.add_mul]
      omega
    have := Nat.lt_of_mul_lt_mul_right hbound
    omega

end Fair

end FairQueueing

/-
# Totals of balances

A ledger is a function from finitely many holders to amounts. Its total follows a change
at one holder, and is kept by moving an amount from one to another.
-/
import Mathlib.Algebra.Order.BigOperators.Group.Finset
import Mathlib.Data.Fintype.BigOperators

namespace Callchain.Ledger

open Function (update update_of_ne update_self)

variable {ι : Type*} [Fintype ι] [DecidableEq ι]

def total (f : ι → ℕ) : ℕ := ∑ i, f i

variable {f g : ι → ℕ} {i j : ι}

omit [DecidableEq ι] in
theorem total_congr (h : ∀ i, f i = g i) : total f = total g := Finset.sum_congr rfl fun i _ => h i

omit [DecidableEq ι] in
theorem total_add (f g : ι → ℕ) : total (fun i => f i + g i) = total f + total g :=
  Finset.sum_add_distrib

omit [DecidableEq ι] in
theorem le_total (f : ι → ℕ) (i : ι) : f i ≤ total f :=
  Finset.single_le_sum (fun _ _ => Nat.zero_le _) (Finset.mem_univ i)

theorem add_le_total (f : ι → ℕ) (hij : i ≠ j) : f i + f j ≤ total f := by
  rw [← Finset.sum_pair hij]
  exact Finset.sum_le_sum_of_subset (Finset.subset_univ _)

theorem total_update (f : ι → ℕ) (i : ι) (n : ℕ) : total (update f i n) + f i = total f + n := by
  unfold total
  rw [Finset.sum_update_of_mem (Finset.mem_univ i), ← Finset.add_sum_erase _ _ (Finset.mem_univ i),
    Finset.sdiff_singleton_eq_erase]
  omega

theorem total_of_agree (i : ι) (h : ∀ j, j ≠ i → g j = f j) : total g + f i = total f + g i := by
  have hg : g = update f i (g i) := by
    funext j
    by_cases hj : j = i
    · subst hj; simp
    · simp [hj, h j hj]
  have := total_update f i (g i)
  rwa [← hg] at this

omit [DecidableEq ι] in
theorem total_sub_of_agree (i : ι) (h : ∀ j, j ≠ i → g j = f j) :
    total (fun j => g j - f j) = g i - f i := by
  unfold total
  refine Finset.sum_eq_single i (fun j _ hj => ?_) fun hi => absurd (Finset.mem_univ i) hi
  rw [h j hj, Nat.sub_self]

omit [DecidableEq ι] in
theorem total_le_total (h : ∀ i, g i ≤ f i) : total g ≤ total f := Finset.sum_le_sum fun i _ => h i

/-- Where no more than `n` moves from one holder to another, and no other holder
gains, the total does not grow. -/
theorem total_le_of_moved (n : ℕ) (hij : i ≠ j) (hi : g i + n ≤ f i)
    (hj : g j ≤ f j + n) (hrest : ∀ k, k ≠ i → k ≠ j → g k ≤ f k) : total g ≤ total f := by
  have hle : total g ≤ total (update (update f i (f i - n)) j (f j + n)) := by
    refine total_le_total fun k => ?_
    by_cases hkj : k = j
    · rw [hkj, update_self]
      exact hj
    by_cases hki : k = i
    · rw [hki, update_of_ne hij, update_self]
      omega
    · rw [update_of_ne hkj, update_of_ne hki]
      exact hrest k hki hkj
  have hout := total_update f i (f i - n)
  have hin := total_update (update f i (f i - n)) j (f j + n)
  rw [update_of_ne hij.symm] at hin
  omega

theorem total_eq_of_moved (n : ℕ) (hij : i ≠ j) (hi : g i + n = f i)
    (hj : g j = f j + n) (hrest : ∀ k, k ≠ i → k ≠ j → g k = f k) : total g = total f :=
  le_antisymm
    (total_le_of_moved n hij hi.le hj.le fun k hki hkj => (hrest k hki hkj).le)
    (total_le_of_moved n hij.symm hj.ge hi.ge fun k hkj hki => (hrest k hki hkj).ge)

omit [DecidableEq ι] in
theorem total_eq_zero (h : ∀ i, f i = 0) : total f = 0 := Finset.sum_eq_zero fun i _ => h i

omit [DecidableEq ι] in
theorem total_sub_eq_zero (h : ∀ j, g j ≤ f j) : total (fun j => g j - f j) = 0 :=
  total_eq_zero fun j => Nat.sub_eq_zero_of_le (h j)

-- the holders are too many for a sum to be evaluated
attribute [irreducible] total

end Callchain.Ledger

/-
# Spending a budget, with charges that may go unpaid

A computation draws charges from a budget, one after another. Most stop it where the
budget does not cover them; some are then let go, and it goes on with what it has. Then
more budget can be worse: it pays for what a smaller one lets go, and lacks it later.

More budget is never worse exactly when every charge that may go unpaid is covered by
what is charged after it: then a budget that cannot pay it cannot pay the rest either.
-/
import Mathlib.Algebra.Order.BigOperators.Group.List
import Mathlib.Algebra.Order.Group.Nat
import Mathlib.Algebra.GroupWithZero.Nat

namespace Callchain.Budget

inductive Charge where
  | must (n : ℕ)
  | may (n : ℕ)
  deriving DecidableEq

def Charge.amount : Charge → ℕ
  | .must n => n
  | .may n => n

def settle : ℕ → List Charge → Option ℕ
  | g, [] => some g
  | g, .must n :: cs => if n ≤ g then settle (g - n) cs else none
  | g, .may n :: cs => if n ≤ g then settle (g - n) cs else settle g cs

def total (cs : List Charge) : ℕ := (cs.map Charge.amount).sum

def Covered : List Charge → Prop
  | [] => True
  | .must _ :: cs => Covered cs
  | .may n :: cs => n ≤ total cs ∧ Covered cs

instance Covered.decidable : ∀ cs : List Charge, Decidable (Covered cs)
  | [] => .isTrue trivial
  | .must _ :: cs => Covered.decidable cs
  | .may n :: cs => @instDecidableAnd (n ≤ total cs) (Covered cs) _ (Covered.decidable cs)

@[simp] theorem total_nil : total [] = 0 := rfl

@[simp] theorem total_cons (c : Charge) (cs : List Charge) :
    total (c :: cs) = c.amount + total cs := by
  simp [total]

@[simp] theorem total_append (cs ds : List Charge) : total (cs ++ ds) = total cs + total ds := by
  simp [total]

theorem settle_append : ∀ (g : ℕ) (cs ds : List Charge),
    settle g (cs ++ ds) = (settle g cs).bind fun g' => settle g' ds
  | _, [], _ => rfl
  | g, .must n :: cs, ds => by
    by_cases hn : n ≤ g
    · simp [settle, hn, settle_append]
    · simp [settle, hn]
  | g, .may n :: cs, ds => by
    by_cases hn : n ≤ g
    · simp [settle, hn, settle_append]
    · simp [settle, hn, settle_append]

theorem settle_of_total_le : ∀ {g : ℕ} {cs : List Charge}, total cs ≤ g →
    settle g cs = some (g - total cs)
  | g, [], _ => by simp [settle]
  | g, c :: cs, h => by
    have hc : c.amount ≤ g := by
      rw [total_cons] at h
      omega
    have ih : settle (g - c.amount) cs = some (g - c.amount - total cs) := by
      apply settle_of_total_le
      rw [total_cons] at h
      omega
    have hsub : g - c.amount - total cs = g - total (c :: cs) := by
      rw [total_cons, Nat.sub_sub]
    rw [← hsub, ← ih]
    cases c with
    | must | may => exact if_pos hc

theorem Covered.settle_isSome_iff : ∀ {g : ℕ} {cs : List Charge}, Covered cs →
    ((settle g cs).isSome ↔ total cs ≤ g)
  | g, [], _ => by simp [settle]
  | g, .must n :: cs, h => by
    by_cases hn : n ≤ g
    · have hcs : Covered cs := h
      rw [settle, if_pos hn, hcs.settle_isSome_iff, total_cons, Charge.amount]
      omega
    · rw [settle, if_neg hn, total_cons, Charge.amount]
      simp only [Option.isSome_none, Bool.false_eq_true, false_iff]
      omega
  | g, .may n :: cs, ⟨hle, h⟩ => by
    by_cases hn : n ≤ g
    · rw [settle, if_pos hn, Covered.settle_isSome_iff h, total_cons, Charge.amount]
      omega
    · rw [settle, if_neg hn, Covered.settle_isSome_iff h, total_cons]
      omega

theorem exists_of_not_covered : ∀ {cs : List Charge}, ¬ Covered cs →
    ∃ before n after, cs = before ++ .may n :: after ∧ total after < n
  | [], h => absurd trivial h
  | .must m :: cs, h => by
    have hcs : ¬ Covered cs := h
    obtain ⟨before, n, after, rfl, hlt⟩ := exists_of_not_covered hcs
    exact ⟨.must m :: before, n, after, rfl, hlt⟩
  | .may m :: cs, h => by
    by_cases hm : m ≤ total cs
    · have hcs : ¬ Covered cs := fun hc => h ⟨hm, hc⟩
      obtain ⟨before, n, after, rfl, hlt⟩ := exists_of_not_covered hcs
      exact ⟨.may m :: before, n, after, rfl, hlt⟩
    · exact ⟨[], m, cs, rfl, by omega⟩

theorem settle_zero_snoc {b : ℕ} (hb : 0 < b) : ∀ cs : List Charge, settle 0 (cs ++ [.must b]) = none
  | [] => if_neg (by omega)
  | .must n :: cs => by
    by_cases hn : n ≤ 0
    · rw [List.cons_append, settle, if_pos hn, Nat.zero_sub, settle_zero_snoc hb cs]
    · rw [List.cons_append, settle, if_neg hn]
  | .may n :: cs => by
    rw [List.cons_append, settle, Nat.zero_sub, settle_zero_snoc hb cs, ite_self]

/-- More is never worse exactly where every charge that may go unpaid is covered.
Otherwise what is charged before the one that is not, and after it, is enough; and what
is charged before it, and for it, is more and is not. -/
theorem settle_mono_iff {b : ℕ} (hb : 0 < b) (cs : List Charge) :
    (∀ g g', g ≤ g' → (settle g (cs ++ [Charge.must b])).isSome →
        (settle g' (cs ++ [Charge.must b])).isSome) ↔ Covered (cs ++ [Charge.must b]) := by
  constructor
  · intro hmono
    by_contra hc
    obtain ⟨before, n, after, heq, hlt⟩ := exists_of_not_covered hc
    have hlast : ∃ ds, after = ds ++ [Charge.must b] := by
      rcases List.eq_nil_or_concat after with rfl | ⟨ds, c, rfl⟩
      · exact absurd (List.append_inj' heq rfl).2 (by simp)
      · have hsnoc : cs ++ [Charge.must b] = (before ++ Charge.may n :: ds) ++ [c] := by
          simpa using heq
        obtain ⟨-, hlast⟩ := List.append_inj' hsnoc rfl
        exact ⟨ds, by rw [List.concat_eq_append, hlast]⟩
    obtain ⟨ds, rfl⟩ := hlast
    rw [heq] at hmono
    have hbef : ∀ extra, settle (total before + extra) before = some extra := fun extra => by
      rw [settle_of_total_le (Nat.le_add_right _ _), Nat.add_sub_cancel_left]
    have hlow : (settle (total before + total (ds ++ [Charge.must b]))
        (before ++ Charge.may n :: (ds ++ [Charge.must b]))).isSome := by
      rw [settle_append, hbef, Option.bind_some, settle, if_neg (by omega),
        settle_of_total_le le_rfl]
      rfl
    have hhigh : settle (total before + n)
        (before ++ Charge.may n :: (ds ++ [Charge.must b])) = none := by
      rw [settle_append, hbef, Option.bind_some, settle, if_pos le_rfl, Nat.sub_self,
        settle_zero_snoc hb]
    have := hmono _ (total before + n) (by omega) hlow
    rw [hhigh] at this
    exact nomatch this
  · intro hc g g' hle hg
    rw [hc.settle_isSome_iff] at hg ⊢
    exact hg.trans hle

end Callchain.Budget

/-
# Lists kept in numbered slots

A list can be kept as a count and a function from positions to entries. An entry is
added behind the last one. It is removed by moving the last one to its place, which
keeps the entries up to their order.
-/
import Mathlib.Data.List.Perm.Basic

namespace Callchain.Slots

variable {α : Type*} {slot slot' : ℕ → α} {n : ℕ}

def entries (slot : ℕ → α) (n : ℕ) : List α := (List.range n).map slot

theorem entries_succ : entries slot (n + 1) = entries slot n ++ [slot n] := by
  simp [entries, List.range_succ]

theorem mem_entries {x : α} : x ∈ entries slot n ↔ ∃ i < n, slot i = x := by
  simp [entries]

theorem entries_congr (h : ∀ i < n, slot' i = slot i) : entries slot' n = entries slot n :=
  List.map_congr_left fun i hi => h i (List.mem_range.1 hi)

theorem perm_set {x y : α} : ∀ {l : List α} {i : ℕ}, l[i]? = some y → (x :: l).Perm (y :: l.set i x)
  | z :: l, 0, h => by
    obtain rfl : z = y := by simpa using h
    exact List.Perm.swap z x l
  | z :: l, i + 1, h => by
    have ih : (x :: l).Perm (y :: l.set i x) := perm_set (by simpa using h)
    calc (x :: z :: l).Perm (z :: x :: l) := List.Perm.swap z x l
      _ |>.Perm (z :: y :: l.set i x) := ih.cons z
      _ |>.Perm (y :: z :: l.set i x) := List.Perm.swap y z _

/-- If the slots below `n` are as before, but the one at `f` holds the last entry, they
hold every entry but the one that was at `f`. -/
theorem entries_perm_of_swap {f : ℕ} (hf : f ≤ n)
    (h : ∀ i < n, slot' i = if i = f then slot n else slot i) :
    (entries slot (n + 1)).Perm (slot f :: entries slot' n) := by
  rw [entries_succ]
  refine (List.perm_append_singleton _ _).trans ?_
  rcases Nat.lt_or_eq_of_le hf with hlt | rfl
  · have hset : entries slot' n = (entries slot n).set f (slot n) := by
      apply List.ext_getElem
      · simp [entries]
      · intro i hi _
        have hin : i < n := by simpa [entries] using hi
        rw [List.getElem_set]
        simp only [entries, List.getElem_map, List.getElem_range, h i hin, eq_comm]
    rw [hset]
    exact perm_set (by simp [entries, hlt])
  · have hsame : entries slot' f = entries slot f :=
      entries_congr fun i hi => by rw [h i hi, if_neg (by omega)]
    rw [hsame]

end Callchain.Slots

/-
# Binary Merkle trees

The nodes of a level are hashed in pairs to those of the next. The leaves are a
function of their position, with one value for those that are empty, so a tree has
all its nodes, and a leaf is added by an update. That changes the nodes above the leaf
and no other (`node_update_of_ne`), and they can be computed from the last leaf up,
with empty nodes on the right (`node_succ_div`). The siblings of a leaf lead from it to
the root (`climb_siblings`).
-/
import Mathlib.Algebra.Order.Ring.Nat
import Mathlib.Logic.Function.Basic

namespace Callchain.Merkle

variable {α : Type*} (h : α → α → α)

def empty (e : α) : ℕ → α
  | 0 => e
  | l + 1 => h (empty e l) (empty e l)

/-- Node `i` of a level, counted from the leaves. -/
def node (leaf : ℕ → α) : ℕ → ℕ → α
  | 0, i => leaf i
  | l + 1, i => h (node leaf l (2 * i)) (node leaf l (2 * i + 1))

variable {h} {leaf : ℕ → α} {e x : α} {n : ℕ}

theorem node_of_empty (he : ∀ i, n ≤ i → leaf i = e) : ∀ {l i : ℕ}, n ≤ i * 2 ^ l →
    node h leaf l i = empty h e l
  | 0, i, hi => he i (by simpa using hi)
  | l + 1, i, hi => by
    have hle : n ≤ 2 * i * 2 ^ l := by rwa [mul_comm 2, mul_assoc, ← pow_succ']
    rw [node, empty, node_of_empty he hle, node_of_empty he (hle.trans (by gcongr; omega))]

theorem div_succ (n l : ℕ) : n / 2 ^ (l + 1) = n / 2 ^ l / 2 := by
  rw [Nat.div_div_eq_div_mul, pow_succ]

theorem node_update_of_ne : ∀ {l i : ℕ}, i ≠ n / 2 ^ l →
    node h (Function.update leaf n x) l i = node h leaf l i
  | 0, i, hi => Function.update_of_ne (by simpa using hi) _ _
  | l + 1, i, hi => by
    rw [div_succ] at hi
    rw [node, node, node_update_of_ne (by omega), node_update_of_ne (by omega)]

/-- Above the last leaf, a node that is left has an empty sibling. -/
theorem node_succ_div (he : ∀ i, n < i → leaf i = e) (l : ℕ) :
    node h leaf (l + 1) (n / 2 ^ (l + 1)) = if n / 2 ^ l % 2 = 0
      then h (node h leaf l (n / 2 ^ l)) (empty h e l)
      else h (node h leaf l (n / 2 ^ l - 1)) (node h leaf l (n / 2 ^ l)) := by
  have hlt : n < (n / 2 ^ l + 1) * 2 ^ l :=
    Nat.lt_mul_of_div_lt (Nat.lt_succ_self _) (Nat.two_pow_pos l)
  rw [node, div_succ]
  generalize n / 2 ^ l = i at hlt ⊢
  split_ifs with heven
  · rw [show 2 * (i / 2) = i by omega, node_of_empty he hlt]
  · have hpos : i - 1 + 1 = i := by omega
    rw [show 2 * (i / 2) = i - 1 by omega, hpos]

theorem getD_concat (l : List α) :
    ((l ++ [x]).getD · e) = Function.update (l.getD · e) l.length x := by
  funext i
  rw [Function.update_apply]
  grind

/-! ### Paths -/

/-- The hash along the siblings of a path; a sibling that is right is hashed second. -/
def climb (h : α → α → α) (leaf : α) (path : List (α × Bool)) : α :=
  path.foldl (fun current s => if s.2 then h current s.1 else h s.1 current) leaf

/-- The siblings on the way up from node `i` of level `l`. -/
def siblings (h : α → α → α) (leaf : ℕ → α) : ℕ → ℕ → ℕ → List (α × Bool)
  | 0, _, _ => []
  | d + 1, l, i =>
    (if i % 2 = 0 then (node h leaf l (i + 1), true) else (node h leaf l (i - 1), false)) ::
      siblings h leaf d (l + 1) (i / 2)

theorem climb_siblings (leaf : ℕ → α) : ∀ d l i : ℕ,
    climb h (node h leaf l i) (siblings h leaf d l i) = node h leaf (l + d) (i / 2 ^ d)
  | 0, l, i => by simp [climb, siblings]
  | d + 1, l, i => by
    have hstep : climb h (node h leaf l i) (siblings h leaf (d + 1) l i) =
        climb h (node h leaf (l + 1) (i / 2)) (siblings h leaf d (l + 1) (i / 2)) := by
      rw [siblings, climb, List.foldl_cons, node]
      by_cases heven : i % 2 = 0
      · simp only [heven, if_true, show 2 * (i / 2) = i by omega, climb]
      · have hpos : i - 1 + 1 = i := by omega
        simp only [heven, if_false, Bool.false_eq_true, show 2 * (i / 2) = i - 1 by omega, hpos, climb]
    rw [hstep, climb_siblings, Nat.div_div_eq_div_mul, ← pow_succ', add_assoc, add_comm 1]

theorem length_siblings : ∀ {d l i : ℕ}, (siblings h leaf d l i).length = d
  | 0, _, _ => rfl
  | _ + 1, _, _ => congrArg (· + 1) length_siblings

end Callchain.Merkle

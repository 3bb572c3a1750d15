/-
# PLONKish circuits

A circuit fills a table of cells and constrains them in four ways: a gate enabled at a
row makes polynomials over that row and the one before vanish, a copy constraint makes
two cells equal, a cell may have to equal a public input, and a hash chip computes a
cell from others. An assignment gives every cell a value, whoever chose it; it satisfies
the circuit if it meets all the constraints. A cell that occurs in none may have any
value.
-/
import Mathlib.Data.List.Basic

namespace Callchain.Plonk

variable {F R C S : Type*}

/-- A cell: a row of a column, counted from the start of its region. -/
structure Cell (R C : Type*) where
  region : R
  column : C
  row : ℕ
  deriving DecidableEq

/-- Where a gate looks: at its own row, or at the one before. -/
inductive Rotation where
  | prev
  | cur

def Rotation.at : Rotation → ℕ → ℕ
  | .prev, row => row - 1
  | .cur, row => row

/-- The gates, by selector: the polynomials over the queries of a row that
vanish where the selector is enabled. -/
abbrev Gates (F C S : Type*) := S → (C → Rotation → F) → List F

inductive Constraint (R C S : Type*) where
  | enable (selector : S) (region : R) (row : ℕ)
  | constrainEqual (x y : Cell R C)
  | constrainInstance (x : Cell R C) (row : ℕ)
  | hash (inputs : List (Cell R C)) (output : Cell R C)

section

variable [Zero F] (gates : Gates F C S) (hash : List F → F) (a : Cell R C → F) (inst : ℕ → F)

/-- The constraint holds of the assignment `a` and the public inputs `inst`. -/
def Constraint.Holds : Constraint R C S → Prop
  | .enable q region row => ∀ e ∈ gates q (fun c rot => a ⟨region, c, rot.at row⟩), e = 0
  | .constrainEqual x y => a x = a y
  | .constrainInstance x row => a x = inst row
  | .hash inputs output => a output = hash (inputs.map a)

def Satisfies (cs : List (Constraint R C S)) : Prop := ∀ c ∈ cs, c.Holds gates hash a inst

end

section

variable [Zero F] {gates : Gates F C S} {hash : List F → F} {a : Cell R C → F} {inst : ℕ → F}
  {c : Constraint R C S} {cs ds : List (Constraint R C S)}

@[simp] theorem satisfies_nil : Satisfies gates hash a inst ([] : List (Constraint R C S)) :=
  fun _ h => absurd h List.not_mem_nil

@[simp] theorem satisfies_cons :
    Satisfies gates hash a inst (c :: cs) ↔ c.Holds gates hash a inst ∧ Satisfies gates hash a inst cs :=
  List.forall_mem_cons

@[simp] theorem satisfies_append : Satisfies gates hash a inst (cs ++ ds) ↔
      Satisfies gates hash a inst cs ∧ Satisfies gates hash a inst ds :=
  List.forall_mem_append

@[simp] theorem satisfies_flatMap {ι : Type*} {xs : List ι} {f : ι → List (Constraint R C S)} :
    Satisfies gates hash a inst (xs.flatMap f) ↔ ∀ x ∈ xs, Satisfies gates hash a inst (f x) := by
  constructor
  · intro h x hx c hc
    exact h c (List.mem_flatMap.2 ⟨x, hx, hc⟩)
  · intro h c hc
    obtain ⟨x, hx, hc⟩ := List.mem_flatMap.1 hc
    exact h x hx c hc

@[simp] theorem holds_enable {q : S} {region : R} {row : ℕ} :
    (Constraint.enable q region row : Constraint R C S).Holds gates hash a inst ↔
      ∀ e ∈ gates q (fun c rot => a ⟨region, c, rot.at row⟩), e = 0 := Iff.rfl

@[simp] theorem holds_constrainEqual {x y : Cell R C} :
    (Constraint.constrainEqual x y : Constraint R C S).Holds gates hash a inst ↔ a x = a y := Iff.rfl

@[simp] theorem holds_constrainInstance {x : Cell R C} {row : ℕ} :
    (Constraint.constrainInstance x row : Constraint R C S).Holds gates hash a inst ↔
      a x = inst row := Iff.rfl

@[simp] theorem holds_hash {inputs : List (Cell R C)} {output : Cell R C} :
    (Constraint.hash inputs output : Constraint R C S).Holds gates hash a inst ↔
      a output = hash (inputs.map a) := Iff.rfl

end

end Callchain.Plonk

/-
# Columns, gates and gadgets of the shielded circuits

The deposit, withdraw and transfer circuits have the same columns and gates (the deposit
circuit has no swap gate, and only the transfer circuit has the conservation gate), and
are put together from the same pieces: a region for a note with its range check, the
derivation of the viewing key, of the nullifier, of the note commitment, and the Merkle
path. Each piece is given as the constraints it adds, with what a satisfying assignment
must fulfil, whoever chose it.

The Poseidon chip is a parameter: `hash` is what it computes, and a hash region exposes
its output in the first column of the chip's state.
-/
import Callchain.Lib.Plonk
import Callchain.Lib.RunningSum
import Callchain.Shielded.Field

namespace Callchain.Shielded

open Plonk RunningSum

inductive Column where
  | value
  | rcm
  | ivk
  | rho
  | sk
  | assetId
  | sibling
  | valueInv
  | bit
  | runningSum
  | poseidonState
  deriving DecidableEq

inductive Selector where
  | bit
  | runningSum
  | nonzero
  | swap
  | conservation
  deriving DecidableEq

/-- The gates that `configure` creates. -/
def gates : Gates Fp Column Selector
  | .bit, q =>
    let b := q .bit .cur
    [b * (1 - b)]
  | .runningSum, q =>
    let prev := q .runningSum .prev
    let cur := q .runningSum .cur
    let b := q .bit .cur
    [cur - prev * 2 - b]
  | .nonzero, q =>
    let v := q .value .cur
    let inv := q .valueInv .cur
    [v * inv - 1]
  | .swap, q =>
    let left := q .valueInv .cur
    let right := q .bit .cur
    let current := q .valueInv .prev
    let sibling := q .sibling .prev
    let isRight := q .bit .prev
    [left - sibling - isRight * (current - sibling), right - current - isRight * (sibling - current)]
  | .conservation, q =>
    let in0 := q .value .cur
    let in1 := q .rcm .cur
    let out0 := q .ivk .cur
    let out1 := q .rho .cur
    [in0 + in1 - out0 - out1]

variable {R : Type*}

def digest (region : R) : Cell R Column := ⟨region, .poseidonState, 0⟩

/-! ### A note -/

/-- The constraints of a note's region: the value has an inverse, and 128
rows of bits have a running sum that ends in the value. -/
def noteRegion (note : R) : List (Constraint R Column Selector) :=
  [.enable .nonzero note 0] ++
  (List.range 128).flatMap (fun j => [.enable .bit note (1 + j), .enable .runningSum note (1 + j)]) ++
  [.constrainEqual ⟨note, .runningSum, 128⟩ ⟨note, .value, 0⟩]

section Note

variable {hash : List Fp → Fp} {a : Cell R Column → Fp} {inst : ℕ → Fp} {note : R}

theorem satisfies_noteRegion : Satisfies gates hash a inst (noteRegion note) ↔
      a ⟨note, .value, 0⟩ * a ⟨note, .valueInv, 0⟩ = 1 ∧
      (∀ j < 128, (a ⟨note, .bit, 1 + j⟩ = 0 ∨ a ⟨note, .bit, 1 + j⟩ = 1) ∧
        a ⟨note, .runningSum, 1 + j⟩ = a ⟨note, .runningSum, j⟩ * 2 + a ⟨note, .bit, 1 + j⟩) ∧
      a ⟨note, .runningSum, 128⟩ = a ⟨note, .value, 0⟩ := by
  have hbit : ∀ b : Fp, b * (1 - b) = 0 ↔ b = 0 ∨ b = 1 := by
    intro b
    rw [mul_eq_zero, sub_eq_zero, eq_comm (a := 1)]
  have hsum : ∀ x y b : Fp, x - y * 2 - b = 0 ↔ x = y * 2 + b := by
    intro x y b
    rw [sub_sub, sub_eq_zero]
  simp only [noteRegion, satisfies_append, satisfies_cons, satisfies_nil, satisfies_flatMap,
    holds_enable, holds_constrainEqual, gates, List.forall_mem_singleton, List.mem_range, and_true,
    Rotation.at, hbit, hsum, sub_eq_zero, Nat.add_sub_cancel_left, and_assoc]

def noteBits (a : Cell R Column → Fp) (note : R) : ℕ :=
  RunningSum.runningSum 0 (fun j => (a ⟨note, .bit, 1 + j⟩).val) 128

variable (h : Satisfies gates hash a inst (noteRegion note))
include h

theorem noteBits_lt : noteBits a note < 2 ^ 128 := by
  apply runningSum_lt
  intro j hj
  obtain ⟨-, hrows, -⟩ := satisfies_noteRegion.1 h
  rcases (hrows j hj).1 with hb | hb
  · rw [hb]
    decide
  · rw [hb]
    decide

theorem note_sum :
    a ⟨note, .value, 0⟩ = a ⟨note, .runningSum, 0⟩ * 2 ^ 128 + (noteBits a note : Fp) := by
  obtain ⟨-, hrows, hend⟩ := satisfies_noteRegion.1 h
  have hsum : a ⟨note, .runningSum, 128⟩ =
      RunningSum.runningSum (a ⟨note, .runningSum, 0⟩) (fun j => a ⟨note, .bit, 1 + j⟩) 128 :=
    eq_runningSum (s := fun j => a ⟨note, .runningSum, j⟩) fun j hj => by
      rw [← (hrows j hj).2, Nat.add_comm]
  have hcast : (noteBits a note : Fp) = RunningSum.runningSum 0 (fun j => a ⟨note, .bit, 1 + j⟩) 128 := by
    rw [noteBits, cast_runningSum]
    simp only [ZMod.natCast_val, ZMod.cast_id', id_eq]
  rw [← hend, hsum, runningSum_add, hcast]

theorem note_ne_zero : a ⟨note, .value, 0⟩ ≠ 0 := by
  intro h0
  have hinv := (satisfies_noteRegion.1 h).1
  rw [h0, zero_mul] at hinv
  exact zero_ne_one hinv

end Note

/-! ### Spending a note -/

/-- The regions of one spent note: the note with its range check, the tags, the hashes,
and a region and a hash for each level of the path. -/
inductive SpendRegion where
  | note
  | ivkTag
  | hashIvk
  | fvkTag
  | hashFvk
  | hashNf
  | hashCm
  | merkle (level : ℕ)
  | hashMerkle (level : ℕ)
  deriving DecidableEq

section Spend

variable (ι : SpendRegion → R)

/-- W4 and T3: the viewing key is derived from the spending key. -/
def ivkFromSk : List (Constraint R Column Selector) :=
  [.hash [⟨ι .ivkTag, .value, 0⟩, ⟨ι .note, .sk, 0⟩] (digest (ι .hashIvk)),
    .constrainEqual (digest (ι .hashIvk)) ⟨ι .note, .ivk, 0⟩]

/-- W1 and T1: the nullifier, exposed as public input `row`. -/
def nullifierDerivation (row : ℕ) : List (Constraint R Column Selector) :=
  [.hash [⟨ι .fvkTag, .value, 0⟩, ⟨ι .note, .ivk, 0⟩] (digest (ι .hashFvk)),
    .hash [digest (ι .hashFvk), ⟨ι .note, .rho, 0⟩] (digest (ι .hashNf)),
    .constrainInstance (digest (ι .hashNf)) row]

def noteCommitment (asset : Cell R Column) : List (Constraint R Column Selector) :=
  [.hash [⟨ι .note, .value, 0⟩, asset, ⟨ι .note, .rcm, 0⟩, ⟨ι .note, .rho, 0⟩] (digest (ι .hashCm))]

/-- The commitment, or the hash of the level before. -/
def pathCell : ℕ → Cell R Column
  | 0 => digest (ι .hashCm)
  | j + 1 => digest (ι (.hashMerkle j))

/-- W2 and T2: `depth` levels up is the root, which is public input `row`. -/
def merklePath (depth row : ℕ) : List (Constraint R Column Selector) :=
  (List.range depth).flatMap (fun j =>
    [.constrainEqual ⟨ι (.merkle j), .valueInv, 0⟩ (pathCell ι j),
      .enable .bit (ι (.merkle j)) 0,
      .enable .swap (ι (.merkle j)) 1,
      .hash [⟨ι (.merkle j), .valueInv, 1⟩, ⟨ι (.merkle j), .bit, 1⟩] (digest (ι (.hashMerkle j)))]) ++
  [.constrainInstance (pathCell ι depth) row]

structure Opening where
  value : Fp
  asset : Fp
  rcm : Fp
  rho : Fp
  ivk : Fp
  sk : Fp
  ivkTag : Fp
  fvkTag : Fp
  cm : Fp
  nf : Fp

def readOpening (asset : Cell R Column) (a : Cell R Column → Fp) : Opening where
  value := a ⟨ι .note, .value, 0⟩
  asset := a asset
  rcm := a ⟨ι .note, .rcm, 0⟩
  rho := a ⟨ι .note, .rho, 0⟩
  ivk := a ⟨ι .note, .ivk, 0⟩
  sk := a ⟨ι .note, .sk, 0⟩
  ivkTag := a ⟨ι .ivkTag, .value, 0⟩
  fvkTag := a ⟨ι .fvkTag, .value, 0⟩
  cm := a (digest (ι .hashCm))
  nf := a (digest (ι .hashNf))

variable (hash : List Fp → Fp)

structure Opening.Derived (x : Opening) : Prop where
  ivk : x.ivk = hash [x.ivkTag, x.sk]
  nf : x.nf = hash [hash [x.fvkTag, x.ivk], x.rho]
  cm : x.cm = hash [x.value, x.asset, x.rcm, x.rho]

variable {ι hash} {a : Cell R Column → Fp} {inst : ℕ → Fp} {asset : Cell R Column} {row : ℕ}

theorem derived_readOpening (hivk : Satisfies gates hash a inst (ivkFromSk ι))
    (hnf : Satisfies gates hash a inst (nullifierDerivation ι row))
    (hcm : Satisfies gates hash a inst (noteCommitment ι asset)) :
    (readOpening ι asset a).Derived hash ∧ (readOpening ι asset a).nf = inst row := by
  simp only [ivkFromSk, nullifierDerivation, noteCommitment, satisfies_cons, satisfies_nil,
    holds_hash, holds_constrainEqual, holds_constrainInstance, List.map_cons, List.map_nil, and_true]
    at hivk hnf hcm
  obtain ⟨hhash, hivk⟩ := hivk
  obtain ⟨hfvk, hnf, hinst⟩ := hnf
  refine ⟨⟨?_, ?_, hcm⟩, hinst⟩
  · show a ⟨ι .note, .ivk, 0⟩ = _
    rw [← hivk, hhash]
    rfl
  · show a (digest (ι .hashNf)) = _
    rw [hnf, hfvk]
    rfl

/-- A sibling that is right is hashed after the current node. -/
def merkleWalk (hash : List Fp → Fp) (leaf : Fp) (path : ℕ → Fp × Bool) : ℕ → Fp
  | 0 => leaf
  | j + 1 =>
    let current := merkleWalk hash leaf path j
    if (path j).2 then hash [current, (path j).1] else hash [(path j).1, current]

theorem swap_iff {left right current sibling : Fp} {isRight : Bool} :
    (left - sibling - (if isRight then 1 else 0) * (current - sibling) = 0 ∧
      right - current - (if isRight then 1 else 0) * (sibling - current) = 0) ↔
    left = (if isRight then current else sibling) ∧ right = if isRight then sibling else current := by
  cases isRight
  · simp [sub_eq_zero]
  · simp [sub_eq_zero, sub_sub]

variable {depth : ℕ}

theorem satisfies_merklePath : Satisfies gates hash a inst (merklePath ι depth row) ↔
      (∀ j < depth, a ⟨ι (.merkle j), .valueInv, 0⟩ = a (pathCell ι j) ∧
        ∃ isRight : Bool, a ⟨ι (.merkle j), .bit, 0⟩ = (if isRight then 1 else 0) ∧
          a ⟨ι (.merkle j), .valueInv, 1⟩ =
            (if isRight then a ⟨ι (.merkle j), .valueInv, 0⟩ else a ⟨ι (.merkle j), .sibling, 0⟩) ∧
          a ⟨ι (.merkle j), .bit, 1⟩ =
            (if isRight then a ⟨ι (.merkle j), .sibling, 0⟩ else a ⟨ι (.merkle j), .valueInv, 0⟩) ∧
          a (digest (ι (.hashMerkle j))) =
            hash [a ⟨ι (.merkle j), .valueInv, 1⟩, a ⟨ι (.merkle j), .bit, 1⟩]) ∧
      a (pathCell ι depth) = inst row := by
  have hbit : ∀ b : Fp, b * (1 - b) = 0 ↔ ∃ isRight : Bool, b = if isRight then 1 else 0 := by
    intro b
    rw [mul_eq_zero, sub_eq_zero, eq_comm (a := 1)]
    simp
  simp only [merklePath, satisfies_append, satisfies_cons, satisfies_nil, satisfies_flatMap,
    holds_enable, holds_constrainEqual, holds_constrainInstance, holds_hash, gates,
    List.forall_mem_cons, List.not_mem_nil, IsEmpty.forall_iff, implies_true, List.mem_range,
    and_true, Rotation.at, hbit, Nat.sub_self, List.map_cons, List.map_nil]
  refine and_congr_left fun _ => forall_congr' fun j => imp_congr_right fun _ => and_congr_right fun _ => ?_
  constructor
  · rintro ⟨⟨isRight, hb⟩, hswap, hhash⟩
    rw [hb] at hswap
    obtain ⟨hl, hr⟩ := swap_iff.1 hswap
    exact ⟨isRight, hb, hl, hr, hhash⟩
  · rintro ⟨isRight, hb, hl, hr, hhash⟩
    refine ⟨⟨isRight, hb⟩, ?_, hhash⟩
    rw [hb]
    exact swap_iff.2 ⟨hl, hr⟩

end Spend

end Callchain.Shielded

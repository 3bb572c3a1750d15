/-
# Value conservation in the transfer circuit

The transfer circuit conserves value in the field. That the integers are conserved too
needs the range checks: four values below `2 ^ 128` cannot wrap around. A range check
decomposes the value into 128 bits by a running sum, whose first cell is assigned zero
but not constrained, so a prover may start it anywhere. A value is in range exactly if
that cell meets `StartOk` (`note_lt_iff`), which zero does, and the transfer conserves
integers exactly if all four do (`transfer_conserves_iff`). From a start of `-1` a
prover gets an output of `pallas - 1` (`transfer_wraps`).
-/
import Callchain.Shielded.Circuits

namespace Callchain.Shielded

open Plonk RunningSum

section

variable {R : Type*} {hash : List Fp → Fp} {a : Cell R Column → Fp} {inst : ℕ → Fp} {note : R}

/-- On top of the cell in which the running sum starts, shifted by 128 bits,
the bits of the note stay below `2 ^ 128` or wrap around the prime. -/
def StartOk (a : Cell R Column → Fp) (note : R) : Prop :=
  (a ⟨note, .runningSum, 0⟩ * (2 ^ 128 : ℕ)).val + noteBits a note < 2 ^ 128 ∨
    pallas ≤ (a ⟨note, .runningSum, 0⟩ * (2 ^ 128 : ℕ)).val + noteBits a note

theorem note_lt_iff (h : Satisfies gates hash a inst (noteRegion note)) :
    (a ⟨note, .value, 0⟩).val < 2 ^ 128 ↔ StartOk a note := by
  rw [note_sum h, StartOk, Nat.cast_pow]
  exact val_lt_iff (noteBits_lt h) (by decide)

theorem startOk_of_zero (h : Satisfies gates hash a inst (noteRegion note))
    (h0 : a ⟨note, .runningSum, 0⟩ = 0) : StartOk a note := by
  left
  rw [h0, zero_mul, ZMod.val_zero, zero_add]
  exact noteBits_lt h

end

namespace Transfer

variable {hash : List Fp → Fp} {a : Cell Region Column → Fp} {inst : ℕ → Fp}

/-- The four values are integers from 1 to `2 ^ 128 - 1`, and the inputs add
up to the outputs as integers. -/
structure Conserves (a : Cell Region Column → Fp) : Prop where
  input : ∀ i, 1 ≤ (a (inputValue i)).val ∧ (a (inputValue i)).val < 2 ^ 128
  output : ∀ j, 1 ≤ (a (outputValue j)).val ∧ (a (outputValue j)).val < 2 ^ 128
  sum : (a (inputValue 0)).val + (a (inputValue 1)).val =
    (a (outputValue 0)).val + (a (outputValue 1)).val

theorem val_add_of_lt {x y : Fp} (hx : x.val < 2 ^ 128) (hy : y.val < 2 ^ 128) :
    (x + y).val = x.val + y.val := by
  have hp : 2 ^ 128 + 2 ^ 128 < pallas := by decide
  exact ZMod.val_add_of_lt (by omega)

/-- **Value in is value out.** A transfer conserves value as integers exactly if the four running
sums start well. -/
theorem transfer_conserves_iff (hash : List Fp → Fp) (a : Cell Region Column → Fp) (inst : ℕ → Fp)
    (h : Satisfies gates hash a inst synthesize) :
    Conserves a ↔ (∀ i, StartOk a (.input i .note)) ∧ ∀ j, StartOk a (.output j) := by
  have hin : ∀ i, (a (inputValue i)).val < 2 ^ 128 ↔ StartOk a (.input i .note) := fun i =>
    note_lt_iff (satisfies_inputNote h i)
  have hout : ∀ j, (a (outputValue j)).val < 2 ^ 128 ↔ StartOk a (.output j) := fun j =>
    note_lt_iff (satisfies_outputNote h j)
  have hpos : ∀ x : Fp, x ≠ 0 → 1 ≤ x.val := fun x hx =>
    Nat.one_le_iff_ne_zero.2 fun h0 => hx ((ZMod.val_eq_zero x).1 h0)
  constructor
  · intro hc
    exact ⟨fun i => (hin i).1 (hc.input i).2, fun j => (hout j).1 (hc.output j).2⟩
  · rintro ⟨hi, ho⟩
    have hi' := fun i => (hin i).2 (hi i)
    have ho' := fun j => (hout j).2 (ho j)
    refine ⟨fun i => ⟨hpos _ (note_ne_zero (satisfies_inputNote h i)), hi' i⟩,
      fun j => ⟨hpos _ (note_ne_zero (satisfies_outputNote h j)), ho' j⟩, ?_⟩
    rw [← val_add_of_lt (hi' 0) (hi' 1), ← val_add_of_lt (ho' 0) (ho' 1), conservation h]

end Transfer

/-! ### Two notes side by side -/

/-- The witness for a note that the key `sk` can spend. -/
def spendWitness (hash : List Fp → Fp) (value : U128) (rcm rho sk : Bytes32) : NoteWitness where
  value := value
  rcm := rcm
  recipientIvk := fpToBytes (hash [tagFp Domain.ivkFromSk, bytesToFp sk])
  rho := rho
  spendingKey := sk

theorem ivk_spendWitness (hash : List Fp → Fp) (value : U128) (rcm rho sk : Bytes32) (aid : U64) :
    (NoteCells.honest (spendWitness hash value rcm rho sk) aid).ivk = hash [tagFp Domain.ivkFromSk,
        (NoteCells.honest (spendWitness hash value rcm rho sk) aid).sk] :=
  bytesToFp_fpToBytes _

def siblingPath (cm : Fin 2 → Fp) (i : Fin 2) : ℕ → Fp × Bool
  | 0 => (cm i.rev, i.val = 0)
  | _ + 1 => (0, true)

theorem merkleWalk_siblingPath (hash : List Fp → Fp) (cm : Fin 2 → Fp) (i : Fin 2) (n : ℕ) :
    merkleWalk hash (cm i) (siblingPath cm i) (n + 1) =
      merkleWalk hash (cm (Fin.last 1)) (siblingPath cm (Fin.last 1)) (n + 1) := by
  induction n with
  | zero =>
    fin_cases i
    · rfl
    · rfl
  | succ n ih =>
    have hstep : ∀ j, merkleWalk hash (cm j) (siblingPath cm j) (n + 1 + 1) =
      hash [merkleWalk hash (cm j) (siblingPath cm j) (n + 1), 0] := fun _ => rfl
    rw [hstep, hstep, ih]

section Example

variable (hash : List Fp → Fp)

def pairIn (i : Fin 2) : NoteCells := NoteCells.honest (spendWitness hash 1 0 (BitVec.ofNat 256 i) 1) 1

def plainOut (value : U128) : NoteCells := NoteCells.honest ⟨value, 0, 0, 0, 0⟩ 1

/-- A note of value -1: the running sum starts at -1, and all bits are set. -/
def wrappedOut : NoteCells := { plainOut 1 with value := -1, start := -1, bits := fun _ => 1 }

def pairCm (i : Fin 2) : Fp :=
  hash [(pairIn hash i).value, (pairIn hash i).asset, (pairIn hash i).rcm, (pairIn hash i).rho]

/-- The assignment that spends the two notes into `outs`. -/
def pairAssign (outs : Fin 2 → NoteCells) : Cell Transfer.Region Column → Fp :=
  Transfer.assign hash (bytesToFp (assetBytes 1)) (pairIn hash) outs (siblingPath (pairCm hash))

def pairInputs (outs : Fin 2 → NoteCells) : ℕ → Fp :=
  Transfer.publicInputs hash (bytesToFp (assetBytes 1))
    (merkleWalk hash (pairCm hash (Fin.last 1)) (siblingPath (pairCm hash) (Fin.last 1)) 32)
    (pairIn hash) outs

theorem satisfies_pair {outs : Fin 2 → NoteCells} (hout : ∀ j, (outs j).Ok)
    (hsum : (outs 0).value + (outs 1).value = 2) :
    Satisfies gates hash (pairAssign hash outs) (pairInputs hash outs) Transfer.synthesize := by
  have hone : ∀ i, (pairIn hash i).value = 1 := fun i => by
    rfl
  have hin : ∀ i, (pairIn hash i).Ok := fun i =>
    NoteCells.honest_ok (show (1 : U128) ≠ 0 by decide) 1
  have hivk : ∀ i, (pairIn hash i).ivk = hash [tagFp Domain.ivkFromSk, (pairIn hash i).sk] :=
    fun i => ivk_spendWitness _ _ _ _ _ _
  have hroot : ∀ i, merkleWalk hash (pairCm hash i) (siblingPath (pairCm hash) i) 32 =
      merkleWalk hash (pairCm hash (Fin.last 1)) (siblingPath (pairCm hash) (Fin.last 1)) 32 :=
    fun i => merkleWalk_siblingPath hash (pairCm hash) i 31
  have hbal : (pairIn hash 0).value + (pairIn hash 1).value = (outs 0).value + (outs 1).value := by
    rw [hone, hone, hsum]
    norm_num
  exact Transfer.satisfies_assign hin hout (fun _ => rfl) hivk hroot hbal

theorem wrappedOut_ok : wrappedOut.Ok := by
  have hsum : ∀ n, RunningSum.runningSum (-1 : Fp) (fun _ => 1) n = -1 := by
    intro n
    induction n with
    | zero => rfl
    | succ n ih => rw [RunningSum.runningSum_succ, ih]; ring
  exact ⟨neg_ne_zero.2 one_ne_zero, fun _ _ => .inr rfl, hsum 128⟩

end Example

theorem honest_pair_conserves : Transfer.Conserves (pairAssign List.sum fun _ => plainOut 1) := by
  have hok : ∀ _ : Fin 2, (plainOut 1).Ok := fun _ => NoteCells.honest_ok (by decide) 1
  have h := satisfies_pair List.sum hok (by decide)
  rw [Transfer.transfer_conserves_iff List.sum _ _ h]
  exact ⟨fun i => startOk_of_zero (Transfer.satisfies_inputNote h i) rfl,
    fun j => startOk_of_zero (Transfer.satisfies_outputNote h j) rfl⟩

/-- A prover turns 1 and 1 into `pallas - 1` and 3, whatever the hash. -/
theorem transfer_wraps :
    ∃ (a : (List Fp → Fp) → Cell Transfer.Region Column → Fp) (inst : (List Fp → Fp) → ℕ → Fp),
      ∀ hash, Satisfies gates hash (a hash) (inst hash) Transfer.synthesize ∧
        (a hash (Transfer.inputValue 0)).val = 1 ∧ (a hash (Transfer.inputValue 1)).val = 1 ∧
        (a hash (Transfer.outputValue 0)).val = pallas - 1 ∧
        (a hash (Transfer.outputValue 1)).val = 3 := by
  let outs : Fin 2 → NoteCells := fun j => if j = 0 then wrappedOut else plainOut 3
  have hok : ∀ j, (outs j).Ok := by
    intro j
    fin_cases j
    · exact wrappedOut_ok
    · exact NoteCells.honest_ok (by decide) 1
  have hone : (bytesToFp (valueToFpBytes 1)).val = 1 := by decide
  have hthr : (bytesToFp (valueToFpBytes 3)).val = 3 := by decide
  have hwrap : (-1 : Fp).val = pallas - 1 := by decide
  refine ⟨fun hash => pairAssign hash outs, fun hash => pairInputs hash outs, fun hash => ?_⟩
  exact ⟨satisfies_pair hash hok (by decide), hone, hone, hwrap, hthr⟩

end Callchain.Shielded

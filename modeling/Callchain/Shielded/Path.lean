/-
# The Merkle paths of the circuits

`verify_poseidon_proof` hashes from a leaf along the siblings of a path and compares
with a root. Whatever fills the cells of a spend, its direction cells are bits, and its
sibling cells are a path that the verifier accepts from the note commitment up to the
public root.
-/
import Callchain.Shielded.Opening
import Callchain.Shielded.Storage

namespace Callchain.Shielded

open Plonk

/-- The loop of `verify_poseidon_proof`; a sibling that is right is hashed second. -/
def climb (hash : List Fp → Fp) (leaf : Bytes32) (proof : List (Bytes32 × Bool)) : Bytes32 :=
  proof.foldl (fun current s => if s.2 then poseidonHashPair hash current s.1
    else poseidonHashPair hash s.1 current) leaf

def verifyPoseidonProof (hash : List Fp → Fp) (root leaf : Bytes32) (proof : List (Bytes32 × Bool)) :
    Bool :=
  climb hash leaf proof = root

variable {R : Type*} {ι : SpendRegion → R} {hash : List Fp → Fp} {a : Cell R Column → Fp}
  {inst : ℕ → Fp} {depth row : ℕ}

/-- The direction cells are bits, and a path of 32 siblings leads from the
commitment up to `root`. -/
def PathAccepted (hash : List Fp → Fp) (ι : SpendRegion → R) (a : Cell R Column → Fp) (root : Fp) :
    Prop :=
  (∀ j < 32, a ⟨ι (.merkle j), .bit, 0⟩ = 0 ∨ a ⟨ι (.merkle j), .bit, 0⟩ = 1) ∧
  ∃ proof : List (Bytes32 × Bool), proof.length = 32 ∧
    verifyPoseidonProof hash (fpToBytes root) (fpToBytes (a (digest (ι .hashCm)))) proof = true

theorem climb_merklePath (h : Satisfies gates hash a inst (merklePath ι depth row)) {n : ℕ}
    (hn : n ≤ depth) : ∃ proof : List (Bytes32 × Bool), proof.length = n ∧
      climb hash (fpToBytes (a (digest (ι .hashCm)))) proof = fpToBytes (a (pathCell ι n)) := by
  induction n with
  | zero => exact ⟨[], rfl, rfl⟩
  | succ n ih =>
    obtain ⟨proof, hlen, hclimb⟩ := ih (by omega)
    obtain ⟨hcur, isRight, -, hl, hr, hhash⟩ := (satisfies_merklePath.1 h).1 n (by omega)
    refine ⟨proof ++ [(fpToBytes (a ⟨ι (.merkle n), .sibling, 0⟩), isRight)], by simp [hlen], ?_⟩
    unfold climb at hclimb ⊢
    rw [List.foldl_append, hclimb, pathCell, hhash, hl, hr, hcur]
    cases isRight <;> simp [poseidonHashPair, bytesToFp_fpToBytes]

theorem pathAccepted (h : Satisfies gates hash a inst (merklePath ι 32 row)) :
    PathAccepted hash ι a (inst row) := by
  obtain ⟨hlevels, hroot⟩ := satisfies_merklePath.1 h
  refine ⟨fun j hj => ?_, ?_⟩
  · obtain ⟨-, isRight, hbit, -⟩ := hlevels j hj
    cases isRight
    · exact .inl hbit
    · exact .inr hbit
  · obtain ⟨proof, hlen, hclimb⟩ := climb_merklePath h le_rfl
    rw [hroot] at hclimb
    exact ⟨proof, hlen, decide_eq_true hclimb⟩

/-- **A spend has a path.** A spend has a Merkle path, whatever fills the cells: a withdrawal, and
each input of a transfer. -/
theorem spend_path_accepted (hash : List Fp → Fp) (inst : ℕ → Fp) :
    (∀ a, Satisfies gates hash a inst (Withdraw.synthesize 32) →
      PathAccepted hash .spend a (inst 3)) ∧
    ∀ i a, Satisfies gates hash a inst (Transfer.processInput i) →
      PathAccepted hash (.input i) a (inst 5) := by
  refine ⟨fun a h => ?_, fun i a h => ?_⟩
  · simp only [Withdraw.synthesize, satisfies_append] at h
    exact pathAccepted h.1.1.2
  · simp only [Transfer.processInput, satisfies_append] at h
    exact pathAccepted h.2

theorem spend_path_accepted_at_receivedNote :
    PathAccepted foldHash .spend (withdrawWith foldHash 1 7)
      (Withdraw.publicInputs foldHash (spentWith foldHash 1) (fun _ => (0, true)) 32 7 3) :=
  (spend_path_accepted foldHash _).1 _ (Withdraw.satisfies_assign
    (NoteCells.honest_ok (show (10 : U128) ≠ 0 by decide) 1) (ivk_spendWitness _ _ _ _ _ _) _ 32 7)

end Callchain.Shielded

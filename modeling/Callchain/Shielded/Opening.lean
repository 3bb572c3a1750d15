/-
# What a spend says about the note it opens

A withdraw proof, and each input of a transfer proof, opens a note commitment and
exposes a nullifier. Both come from cells that the prover fills: the commitment is a
hash of value, asset, `rcm` and `rho`, and the nullifier a hash of the viewing key and
`rho`, where the viewing key is derived from the spending key. Nothing ties the spending
key to the commitment, and the domain tags are cells like any other. So the nullifier of
a commitment is unique exactly up to the tags and the spending key
(`nullifier_unique_iff`), and the spender of a deposited note holds the recipient's key
exactly if the `rcm` of the note is the one its own key derives
(`spender_holds_key_iff`), which the deposit circuit checks and the spend circuits do
not.
-/
import Callchain.Shielded.Range

namespace Callchain.Shielded

open Plonk

/-- A satisfying assignment of the withdraw circuit, or of the transfer circuit at one
input, has the opening `x` and exposes `nf`. -/
inductive Spends (hash : List Fp → Fp) : Opening → Fp → Prop
  | withdraw {depth : ℕ} {a : Cell Withdraw.Region Column → Fp} {inst : ℕ → Fp} :
      Satisfies gates hash a inst (Withdraw.synthesize depth) →
      Spends hash (Withdraw.opening a) (inst 0)
  | transfer (i : Fin 2) {a : Cell Transfer.Region Column → Fp} {inst : ℕ → Fp} :
      Satisfies gates hash a inst Transfer.synthesize →
      Spends hash (Transfer.opening i a) (inst i)

/-- No two of the tuples, of one length, have one hash. -/
def CollisionFree (hash : List Fp → Fp) (tuples : List (List Fp)) : Prop :=
  ∀ u ∈ tuples, ∀ v ∈ tuples, u.length = v.length → hash u = hash v → u = v

instance (hash : List Fp → Fp) (tuples : List (List Fp)) : Decidable (CollisionFree hash tuples) := by
  unfold CollisionFree; infer_instance

theorem CollisionFree.eq {hash : List Fp → Fp} {tuples : List (List Fp)} {u v : List Fp}
    (h : CollisionFree hash tuples) (he : hash u = hash v) (hl : u.length = v.length)
    (hu : u ∈ tuples) (hv : v ∈ tuples) : u = v := h u hu v hv hl he

/-- The tuples that are hashed on the way to a nullifier and a commitment. -/
def Opening.hashed (hash : List Fp → Fp) (x : Opening) : List (List Fp) :=
  [[x.ivkTag, x.sk], [x.fvkTag, x.ivk], [hash [x.fvkTag, x.ivk], x.rho],
    [x.value, x.asset, x.rcm, x.rho]]

def Deposit.Note.hashed (d : Deposit.Note) : List (List Fp) :=
  [[d.value, d.asset, d.rcm, d.rho], [d.rcmTag, d.ivk, d.value, d.asset, d.rho]]

variable {hash : List Fp → Fp} {x y : Opening} {n m : Fp}

theorem Spends.derived (h : Spends hash x n) : x.Derived hash ∧ x.nf = n := by
  cases h with
  | withdraw h => exact Withdraw.derived h
  | transfer i h => exact Transfer.derived h i

/-- Two openings of one commitment have the same `rho`, so their nullifiers
agree exactly if their tags and spending keys do. -/
theorem Opening.nf_eq_iff (hx : x.Derived hash) (hy : y.Derived hash) (hcm : x.cm = y.cm)
    (hfree : CollisionFree hash (x.hashed hash ++ y.hashed hash)) :
    x.nf = y.nf ↔ x.fvkTag = y.fvkTag ∧ x.ivkTag = y.ivkTag ∧ x.sk = y.sk := by
  have hrho : x.rho = y.rho := by
    rw [hx.cm, hy.cm] at hcm
    have := hfree.eq hcm rfl (by simp [hashed]) (by simp [hashed])
    simp only [List.cons.injEq] at this
    exact this.2.2.2.1
  constructor
  · intro hnf
    rw [hx.nf, hy.nf] at hnf
    have h1 := hfree.eq hnf rfl (by simp [hashed]) (by simp [hashed])
    simp only [List.cons.injEq] at h1
    have h2 := hfree.eq h1.1 rfl (by simp [hashed]) (by simp [hashed])
    simp only [List.cons.injEq] at h2
    obtain ⟨hfvk, hivk, -⟩ := h2
    rw [hx.ivk, hy.ivk] at hivk
    have h3 := hfree.eq hivk rfl (by simp [hashed]) (by simp [hashed])
    simp only [List.cons.injEq] at h3
    exact ⟨hfvk, h3.1, h3.2.1⟩
  · rintro ⟨hfvk, hivk, hsk⟩
    rw [hx.nf, hy.nf, hx.ivk, hy.ivk, hfvk, hivk, hsk, hrho]

/-- **One note, one nullifier.** Two spends of one commitment expose the same nullifier exactly if
they have the same tags and the same spending key. -/
theorem nullifier_unique_iff (hash : List Fp → Fp) (x y : Opening) (n m : Fp) (hx : Spends hash x n)
    (hy : Spends hash y m) (hcm : x.cm = y.cm)
    (hfree : CollisionFree hash (x.hashed hash ++ y.hashed hash)) :
    n = m ↔ x.fvkTag = y.fvkTag ∧ x.ivkTag = y.ivkTag ∧ x.sk = y.sk := by
  rw [← hx.derived.2, ← hy.derived.2]
  exact Opening.nf_eq_iff hx.derived.1 hy.derived.1 hcm hfree

/-- **The spender has the key.** The spender of a deposited note holds the recipient's key exactly
if the note's `rcm` is derived from the viewing key of the spender. -/
theorem spender_holds_key_iff (hash : List Fp → Fp) (a : Cell Deposit.Region Column → Fp)
    (inst : ℕ → Fp) (x : Opening) (n : Fp) (hd : Satisfies gates hash a inst Deposit.synthesize)
    (hx : Spends hash x n) (hcm : inst 0 = x.cm)
    (hfree : CollisionFree hash ((Deposit.read a).hashed ++ x.hashed hash ++
      [[(Deposit.read a).rcmTag, hash [tagFp Domain.ivkFromSk, x.sk], x.value, x.asset, x.rho]])) :
    hash [tagFp Domain.ivkFromSk, x.sk] = (Deposit.read a).ivk ↔
      x.rcm = hash [(Deposit.read a).rcmTag, hash [tagFp Domain.ivkFromSk, x.sk], x.value, x.asset,
        x.rho] := by
  obtain ⟨hdep, hinst⟩ := Deposit.derived hd
  set d := Deposit.read a
  have heq : [d.value, d.asset, d.rcm, d.rho] = [x.value, x.asset, x.rcm, x.rho] := by
    rw [← hinst, hdep.cm, hx.derived.1.cm] at hcm
    exact hfree.eq hcm rfl (by simp [Deposit.Note.hashed]) (by simp [Opening.hashed])
  simp only [List.cons.injEq] at heq
  obtain ⟨hval, hass, hrcm, hrho, -⟩ := heq
  constructor
  · intro hkey
    rw [hkey, ← hrcm, ← hval, ← hass, ← hrho]
    exact hdep.rcm
  · intro hown
    rw [← hrcm, hdep.rcm] at hown
    have := hfree.eq hown rfl (by simp [Deposit.Note.hashed]) (by simp)
    simp only [List.cons.injEq] at this
    exact this.2.1.symm

/-! ### Two keys for one note -/

def foldHash (tuple : List Fp) : Fp := tuple.foldl (fun h x => h * 1000003 + x) 1

/-- What the recipient with key `1` is sent: a note of value 10 whose `rcm` is
derived from the recipient's viewing key. -/
def receivedNote (hash : List Fp → Fp) : NoteWitness :=
  let ivk := hash [tagFp Domain.ivkFromSk, bytesToFp 1]
  spendWitness hash 10 (fpToBytes (hash [tagFp Domain.rcm, ivk, bytesToFp (valueToFpBytes 10),
    bytesToFp (assetBytes 1), bytesToFp 5])) 5 1

/-- The note as the holder of the key `sk` spends it. -/
def spentWith (hash : List Fp → Fp) (sk : Bytes32) : NoteCells :=
  NoteCells.honest (spendWitness hash 10 (receivedNote hash).rcm 5 sk) 1

def withdrawWith (hash : List Fp → Fp) (sk : Bytes32) (target : Fp) : Cell Withdraw.Region Column → Fp :=
  Withdraw.assign hash (spentWith hash sk) (fun _ => (0, true)) target

def nullifierWith (hash : List Fp → Fp) (sk : Bytes32) : Fp :=
  hash [hash [tagFp Domain.fvkFromIvk, (spentWith hash sk).ivk], bytesToFp 5]

theorem spends_withdrawWith (hash : List Fp → Fp) (sk : Bytes32) (target : Fp) :
    Spends hash (Withdraw.opening (withdrawWith hash sk target)) (nullifierWith hash sk) :=
  Spends.withdraw (Withdraw.satisfies_assign (NoteCells.honest_ok (show (10 : U128) ≠ 0 by decide) 1)
    (ivk_spendWitness _ _ _ _ _ _) (fun _ => (0, true)) 32 target)

theorem same_key_same_nullifier : (Withdraw.opening (withdrawWith foldHash 1 7)).cm =
      (Withdraw.opening (withdrawWith foldHash 1 8)).cm ∧
    (Withdraw.opening (withdrawWith foldHash 1 7)).nf =
      (Withdraw.opening (withdrawWith foldHash 1 8)).nf := by
  have h7 := spends_withdrawWith foldHash 1 7
  have h8 := spends_withdrawWith foldHash 1 8
  have hsame := (nullifier_unique_iff foldHash _ _ _ _ h7 h8 rfl (by decide +kernel)).2 ⟨rfl, rfl, rfl⟩
  exact ⟨rfl, h7.derived.2.trans (hsame.trans h8.derived.2.symm)⟩

/-- One commitment has two nullifiers, for two spending keys and provers who follow the
code, whatever the hash. -/
theorem two_nullifiers : ∃ (x y : (List Fp → Fp) → Opening) (n m : (List Fp → Fp) → Fp),
      (∀ hash, Spends hash (x hash) (n hash) ∧ Spends hash (y hash) (m hash) ∧
        (x hash).cm = (y hash).cm ∧
        (CollisionFree hash ((x hash).hashed hash ++ (y hash).hashed hash) → n hash ≠ m hash)) ∧
      CollisionFree foldHash ((x foldHash).hashed foldHash ++ (y foldHash).hashed foldHash) := by
  refine ⟨fun hash => Withdraw.opening (withdrawWith hash 1 7),
    fun hash => Withdraw.opening (withdrawWith hash 2 7), fun hash => nullifierWith hash 1,
    fun hash => nullifierWith hash 2, fun hash => ?_, by decide +kernel⟩
  have h1 := spends_withdrawWith hash 1 7
  have h2 := spends_withdrawWith hash 2 7
  refine ⟨h1, h2, rfl, fun hfree heq => ?_⟩
  have hnf := h1.derived.2.trans (heq.trans h2.derived.2.symm)
  have hsk : bytesToFp 1 = bytesToFp 2 :=
    ((Opening.nf_eq_iff h1.derived.1 h2.derived.1 rfl hfree).1 hnf).2.2
  exact absurd hsk (by decide)

def depositCells (hash : List Fp → Fp) : NoteCells := NoteCells.honest (receivedNote hash) 1

theorem satisfies_deposit (hash : List Fp → Fp) :
    Satisfies gates hash (Deposit.assign hash (depositCells hash))
      (Deposit.publicInputs hash (depositCells hash)) Deposit.synthesize := by
  apply Deposit.satisfies_assign (NoteCells.honest_ok (show (10 : U128) ≠ 0 by decide) 1)
  show bytesToFp (fpToBytes _) = hash [_, bytesToFp (fpToBytes _), _, _, _]
  rw [bytesToFp_fpToBytes, bytesToFp_fpToBytes]
  rfl

theorem recipient_holds_key :
    foldHash [tagFp Domain.ivkFromSk, (Withdraw.opening (withdrawWith foldHash 1 7)).sk] =
      (Deposit.read (Deposit.assign foldHash (depositCells foldHash))).ivk :=
  (spender_holds_key_iff foldHash _ _ _ _ (satisfies_deposit foldHash)
    (spends_withdrawWith foldHash 1 7) rfl (by decide +kernel)).2 (by decide +kernel)

/-- The holder of another key, who knows value, `rcm` and `rho` of a deposited note,
opens its commitment, whatever the hash. -/
theorem stranger_spends :
    ∃ (a : (List Fp → Fp) → Cell Deposit.Region Column → Fp) (inst : (List Fp → Fp) → ℕ → Fp)
      (x : (List Fp → Fp) → Opening) (n : (List Fp → Fp) → Fp),
      ∀ hash, Satisfies gates hash (a hash) (inst hash) Deposit.synthesize ∧
        Spends hash (x hash) (n hash) ∧ inst hash 0 = (x hash).cm ∧
        (hash [tagFp Domain.ivkFromSk, 1] ≠ hash [tagFp Domain.ivkFromSk, 2] →
          hash [tagFp Domain.ivkFromSk, (x hash).sk] ≠ (Deposit.read (a hash)).ivk) := by
  refine ⟨fun hash => Deposit.assign hash (depositCells hash),
    fun hash => Deposit.publicInputs hash (depositCells hash),
    fun hash => Withdraw.opening (withdrawWith hash 2 7), fun hash => nullifierWith hash 2,
    fun hash => ⟨satisfies_deposit hash, spends_withdrawWith hash 2 7, rfl, fun hne heq => ?_⟩⟩
  have h1 : bytesToFp 1 = 1 := by decide
  have h2 : bytesToFp 2 = 2 := by decide
  have hivk : (Deposit.read (Deposit.assign hash (depositCells hash))).ivk =
      hash [tagFp Domain.ivkFromSk, bytesToFp 1] := bytesToFp_fpToBytes _
  have hsk : (Withdraw.opening (withdrawWith hash 2 7)).sk = bytesToFp 2 := rfl
  rw [hivk] at heq
  exact hne heq.symm

end Callchain.Shielded

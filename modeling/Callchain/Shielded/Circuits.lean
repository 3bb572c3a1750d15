/-
# The deposit, withdraw and transfer circuits

The constraints that `synthesize` adds for each circuit, and the assignment that it
makes for a prover who follows it. That assignment satisfies the circuit for the public
inputs computed from the witness; the statements do not ask that the running sum of a
note starts at zero, so they also cover provers who start it elsewhere.
-/
import Callchain.Shielded.Gadgets

namespace Callchain.Shielded

open Plonk RunningSum

variable {R : Type*}

/-! ### What a prover assigns -/

structure NoteCells where
  value : Fp
  asset : Fp
  rcm : Fp
  ivk : Fp
  rho : Fp
  sk : Fp
  start : Fp
  bits : ℕ → Fp

/-- Row 0 has the note and the start of the running sum, the bits follow. -/
def NoteCells.cell (n : NoteCells) : Column → ℕ → Fp
  | .value, 0 => n.value
  | .rcm, 0 => n.rcm
  | .ivk, 0 => n.ivk
  | .rho, 0 => n.rho
  | .sk, 0 => n.sk
  | .assetId, 0 => n.asset
  | .valueInv, 0 => n.value⁻¹
  | .bit, j + 1 => n.bits j
  | .runningSum, j => RunningSum.runningSum n.start n.bits j
  | _, _ => 0

structure NoteCells.Ok (n : NoteCells) : Prop where
  value_ne_zero : n.value ≠ 0
  bits : ∀ j < 128, n.bits j = 0 ∨ n.bits j = 1
  sum : RunningSum.runningSum n.start n.bits 128 = n.value

structure NoteWitness where
  value : U128
  rcm : Bytes32
  recipientIvk : Bytes32
  rho : Bytes32
  spendingKey : Bytes32 := 0

/-- What `synthesize` assigns: the running sum starts at zero, and the bits
are those of the value, the most significant first. -/
def NoteCells.honest (w : NoteWitness) (assetId : U64) : NoteCells where
  value := bytesToFp (valueToFpBytes w.value)
  asset := bytesToFp (assetBytes assetId)
  rcm := bytesToFp w.rcm
  ivk := bytesToFp w.recipientIvk
  rho := bytesToFp w.rho
  sk := bytesToFp w.spendingKey
  start := 0
  bits j := (bitAt 128 w.value.toNat j : Fp)

theorem NoteCells.honest_ok {w : NoteWitness} (hw : w.value ≠ 0) (aid : U64) :
    (NoteCells.honest w aid).Ok := by
  have hval : (NoteCells.honest w aid).value = (w.value.toNat : Fp) := bytesToFp_valueToFpBytes _
  have hlt : w.value.toNat < pallas := w.value.isLt.trans (by decide)
  have hpos : w.value.toNat ≠ 0 := fun h => hw (BitVec.eq_of_toNat_eq h)
  refine ⟨?_, fun j _ => ?_, ?_⟩
  · rw [hval]
    intro h0
    apply hpos
    rw [← ZMod.val_natCast_of_lt hlt, h0, ZMod.val_zero]
  · have hbit := bitAt_lt 128 w.value.toNat j
    rcases (by omega : bitAt 128 w.value.toNat j = 0 ∨ bitAt 128 w.value.toNat j = 1) with h | h
    · left
      simp [NoteCells.honest, h]
    · right
      simp [NoteCells.honest, h]
  · rw [hval]
    conv_rhs => rw [← runningSum_bitAt w.value.isLt, cast_runningSum]
    rfl

section Assign

variable {hash : List Fp → Fp} {a : Cell R Column → Fp} {inst : ℕ → Fp} {note : R} {n : NoteCells}

theorem NoteCells.Ok.satisfies (h : n.Ok) (ha : ∀ c j, a ⟨note, c, j⟩ = n.cell c j) :
    Satisfies gates hash a inst (noteRegion note) := by
  rw [satisfies_noteRegion]
  simp only [ha, Nat.add_comm 1, NoteCells.cell]
  refine ⟨mul_inv_cancel₀ h.value_ne_zero, fun j hj => ⟨h.bits j hj, rfl⟩, h.sum⟩

variable (hash)

/-- A spent note: the tags are the constants of the code, and `path` has the siblings
with the side they are on. -/
def spendCells (n : NoteCells) (path : ℕ → Fp × Bool) : SpendRegion → Column → ℕ → Fp :=
  let ivkTag := tagFp Domain.ivkFromSk
  let fvkTag := tagFp Domain.fvkFromIvk
  let current := merkleWalk hash (hash [n.value, n.asset, n.rcm, n.rho]) path
  fun region c j => match region, c, j with
  | .note, c, j => n.cell c j
  | .ivkTag, .value, 0 => ivkTag
  | .hashIvk, .poseidonState, 0 => hash [ivkTag, n.sk]
  | .fvkTag, .value, 0 => fvkTag
  | .hashFvk, .poseidonState, 0 => hash [fvkTag, n.ivk]
  | .hashNf, .poseidonState, 0 => hash [hash [fvkTag, n.ivk], n.rho]
  | .hashCm, .poseidonState, 0 => hash [n.value, n.asset, n.rcm, n.rho]
  | .merkle l, .valueInv, 0 => current l
  | .merkle l, .sibling, 0 => (path l).1
  | .merkle l, .bit, 0 => if (path l).2 then 1 else 0
  | .merkle l, .valueInv, 1 => if (path l).2 then current l else (path l).1
  | .merkle l, .bit, 1 => if (path l).2 then (path l).1 else current l
  | .hashMerkle l, .poseidonState, 0 => current (l + 1)
  | _, _, _ => 0

variable {hash} {ι : SpendRegion → R} {path : ℕ → Fp × Bool} {asset : Cell R Column} {depth row : ℕ}

section

variable (ha : ∀ r c j, a ⟨ι r, c, j⟩ = spendCells hash n path r c j)
include ha

theorem pathCell_assign (l : ℕ) :
    a (pathCell ι l) = merkleWalk hash (hash [n.value, n.asset, n.rcm, n.rho]) path l := by
  cases l with
  | zero | succ => exact ha _ _ _

theorem satisfies_merklePath_assign
    (hroot : merkleWalk hash (hash [n.value, n.asset, n.rcm, n.rho]) path depth = inst row) :
    Satisfies gates hash a inst (merklePath ι depth row) := by
  rw [satisfies_merklePath]
  refine ⟨fun l _ => ⟨?_, (path l).2, ?_, ?_, ?_, ?_⟩, ?_⟩
  · rw [pathCell_assign ha, ha]
    rfl
  · rw [ha]; rfl
  · rw [ha, ha, ha]; rfl
  · rw [ha, ha, ha]; rfl
  · rw [digest, ha, ha, ha]
    simp only [spendCells, merkleWalk]
    split_ifs <;> rfl
  · rw [pathCell_assign ha, hroot]

theorem satisfies_spend_assign (hivk : n.ivk = hash [tagFp Domain.ivkFromSk, n.sk])
    (hass : a asset = n.asset)
    (hnf : inst row = hash [hash [tagFp Domain.fvkFromIvk, n.ivk], n.rho]) :
    Satisfies gates hash a inst (ivkFromSk ι) ∧
      Satisfies gates hash a inst (nullifierDerivation ι row) ∧
      Satisfies gates hash a inst (noteCommitment ι asset) := by
  simp only [ivkFromSk, nullifierDerivation, noteCommitment, satisfies_cons, satisfies_nil,
    holds_hash, holds_constrainEqual, holds_constrainInstance, List.map_cons, List.map_nil, and_true,
    digest, ha, hass, hnf]
  exact ⟨⟨rfl, hivk.symm⟩, ⟨rfl, rfl, rfl⟩, rfl⟩

end

end Assign

/-! ### Deposit -/

namespace Deposit

inductive Region where
  | witnesses
  | hashCm
  | rcmTag
  | hashRcm
  deriving DecidableEq

/-- Public inputs: commitment, amount, asset id. -/
def synthesize : List (Constraint Region Column Selector) :=
  let value : Cell Region Column := ⟨.witnesses, .value, 0⟩
  let rcm : Cell Region Column := ⟨.witnesses, .rcm, 0⟩
  let ivk : Cell Region Column := ⟨.witnesses, .ivk, 0⟩
  let rho : Cell Region Column := ⟨.witnesses, .rho, 0⟩
  let assetId : Cell Region Column := ⟨.witnesses, .assetId, 0⟩
  noteRegion .witnesses ++
  [.constrainInstance value 1,
    .constrainInstance assetId 2,
    .hash [value, assetId, rcm, rho] (digest .hashCm),
    .constrainInstance (digest .hashCm) 0,
    .hash [⟨.rcmTag, .value, 0⟩, ivk, value, assetId, rho] (digest .hashRcm),
    .constrainEqual (digest .hashRcm) rcm]

structure Note where
  value : Fp
  asset : Fp
  rcm : Fp
  rho : Fp
  ivk : Fp
  rcmTag : Fp
  cm : Fp

def read (a : Cell Region Column → Fp) : Note where
  value := a ⟨.witnesses, .value, 0⟩
  asset := a ⟨.witnesses, .assetId, 0⟩
  rcm := a ⟨.witnesses, .rcm, 0⟩
  rho := a ⟨.witnesses, .rho, 0⟩
  ivk := a ⟨.witnesses, .ivk, 0⟩
  rcmTag := a ⟨.rcmTag, .value, 0⟩
  cm := a (digest .hashCm)

/-- What the circuit says about a deposit: D1 and D3, over the tag it has. -/
structure Note.Derived (hash : List Fp → Fp) (d : Note) : Prop where
  cm : d.cm = hash [d.value, d.asset, d.rcm, d.rho]
  rcm : d.rcm = hash [d.rcmTag, d.ivk, d.value, d.asset, d.rho]

variable {hash : List Fp → Fp} {a : Cell Region Column → Fp} {inst : ℕ → Fp}

theorem derived (h : Satisfies gates hash a inst synthesize) :
    (read a).Derived hash ∧ (read a).cm = inst 0 := by
  simp only [synthesize, satisfies_append, satisfies_cons, satisfies_nil, holds_hash,
    holds_constrainEqual, holds_constrainInstance, List.map_cons, List.map_nil, and_true] at h
  obtain ⟨-, -, -, hcm, hinst, hhash, hrcm⟩ := h
  exact ⟨⟨hcm, hrcm.symm.trans hhash⟩, hinst⟩

variable (hash)

def assign (n : NoteCells) : Cell Region Column → Fp
  | ⟨.witnesses, c, j⟩ => n.cell c j
  | ⟨.hashCm, .poseidonState, 0⟩ => hash [n.value, n.asset, n.rcm, n.rho]
  | ⟨.rcmTag, .value, 0⟩ => tagFp Domain.rcm
  | ⟨.hashRcm, .poseidonState, 0⟩ => hash [tagFp Domain.rcm, n.ivk, n.value, n.asset, n.rho]
  | _ => 0

def publicInputs (n : NoteCells) : ℕ → Fp :=
  ([hash [n.value, n.asset, n.rcm, n.rho], n.value, n.asset].getD · 0)

variable {hash}

theorem satisfies_assign {n : NoteCells} (hn : n.Ok)
    (hrcm : n.rcm = hash [tagFp Domain.rcm, n.ivk, n.value, n.asset, n.rho]) :
    Satisfies gates hash (assign hash n) (publicInputs hash n) synthesize := by
  have hnote : Satisfies gates hash (assign hash n) (publicInputs hash n) (noteRegion .witnesses) :=
    hn.satisfies fun _ _ => rfl
  simp only [synthesize, satisfies_append, satisfies_cons, satisfies_nil, holds_hash,
    holds_constrainEqual, holds_constrainInstance, List.map_cons, List.map_nil, and_true]
  exact ⟨hnote, rfl, rfl, rfl, rfl, rfl, hrcm.symm⟩

end Deposit

/-! ### Withdraw -/

namespace Withdraw

inductive Region where
  | spend (region : SpendRegion)
  | targetAddress
  deriving DecidableEq

/-- Public inputs: nullifier, asset id, value, Merkle root, target address.
The number of levels is that of the witness's path. -/
def synthesize (depth : ℕ) : List (Constraint Region Column Selector) :=
  let value : Cell Region Column := ⟨.spend .note, .value, 0⟩
  let assetId : Cell Region Column := ⟨.spend .note, .assetId, 0⟩
  noteRegion (.spend .note) ++
  [.constrainInstance value 2] ++
  ivkFromSk .spend ++
  noteCommitment .spend assetId ++
  merklePath .spend depth 3 ++
  nullifierDerivation .spend 0 ++
  [.constrainInstance assetId 1,
    .constrainInstance ⟨.targetAddress, .value, 0⟩ 4]

def opening (a : Cell Region Column → Fp) : Opening := readOpening .spend ⟨.spend .note, .assetId, 0⟩ a

variable {hash : List Fp → Fp} {a : Cell Region Column → Fp} {inst : ℕ → Fp} {depth : ℕ}

theorem derived (h : Satisfies gates hash a inst (synthesize depth)) :
    (opening a).Derived hash ∧ (opening a).nf = inst 0 := by
  simp only [synthesize, satisfies_append] at h
  obtain ⟨⟨⟨⟨⟨⟨-, -⟩, hivk⟩, hcm⟩, -⟩, hnf⟩, -⟩ := h
  exact derived_readOpening hivk hnf hcm

variable (hash)

def assign (n : NoteCells) (path : ℕ → Fp × Bool) (target : Fp) : Cell Region Column → Fp
  | ⟨.spend r, c, j⟩ => spendCells hash n path r c j
  | ⟨.targetAddress, .value, 0⟩ => target
  | _ => 0

def publicInputs (n : NoteCells) (path : ℕ → Fp × Bool) (depth : ℕ) (target : Fp) : ℕ → Fp :=
  ([hash [hash [tagFp Domain.fvkFromIvk, n.ivk], n.rho], n.asset, n.value,
    merkleWalk hash (hash [n.value, n.asset, n.rcm, n.rho]) path depth, target].getD · 0)

variable {hash}

theorem satisfies_assign {n : NoteCells} (hn : n.Ok)
    (hivk : n.ivk = hash [tagFp Domain.ivkFromSk, n.sk]) (path : ℕ → Fp × Bool) (depth : ℕ)
    (target : Fp) :
    Satisfies gates hash (assign hash n path target) (publicInputs hash n path depth target)
      (synthesize depth) := by
  have ha : ∀ r c j, assign hash n path target ⟨.spend r, c, j⟩ = spendCells hash n path r c j :=
    fun _ _ _ => rfl
  have hass : assign hash n path target ⟨.spend .note, .assetId, 0⟩ = n.asset := rfl
  have hnull : publicInputs hash n path depth target 0 =
    hash [hash [tagFp Domain.fvkFromIvk, n.ivk], n.rho] := rfl
  obtain ⟨hsk, hnf, hcm⟩ := satisfies_spend_assign ha hivk hass hnull
  simp only [synthesize, satisfies_append, satisfies_cons, satisfies_nil, holds_constrainInstance,
    and_true]
  exact ⟨⟨⟨⟨⟨⟨hn.satisfies fun _ _ => rfl, rfl⟩, hsk⟩, hcm⟩, satisfies_merklePath_assign ha rfl⟩, hnf⟩,
    rfl, rfl⟩

end Withdraw

/-! ### Transfer -/

namespace Transfer

inductive Region where
  | assetId
  | input (i : Fin 2) (region : SpendRegion)
  | output (j : Fin 2)
  | hashOut (j : Fin 2)
  | conservation
  deriving DecidableEq

def assetCell : Cell Region Column := ⟨.assetId, .assetId, 0⟩

def inputValue (i : Fin 2) : Cell Region Column := ⟨.input i .note, .value, 0⟩

def outputValue (j : Fin 2) : Cell Region Column := ⟨.output j, .value, 0⟩

def processInput (i : Fin 2) : List (Constraint Region Column Selector) :=
  noteRegion (.input i .note) ++
  ivkFromSk (.input i) ++
  nullifierDerivation (.input i) i ++
  noteCommitment (.input i) assetCell ++
  merklePath (.input i) 32 5

def processOutput (j : Fin 2) : List (Constraint Region Column Selector) :=
  noteRegion (.output j) ++
  [.hash [outputValue j, assetCell, ⟨.output j, .rcm, 0⟩, ⟨.output j, .rho, 0⟩] (digest (.hashOut j)),
    .constrainInstance (digest (.hashOut j)) (2 + j)]

/-- Public inputs: two nullifiers, two commitments, asset id, Merkle root. -/
def synthesize : List (Constraint Region Column Selector) :=
  (List.finRange 2).flatMap processInput ++
  (List.finRange 2).flatMap processOutput ++
  [.constrainEqual ⟨.conservation, .value, 0⟩ (inputValue 0),
    .constrainEqual ⟨.conservation, .rcm, 0⟩ (inputValue 1),
    .constrainEqual ⟨.conservation, .ivk, 0⟩ (outputValue 0),
    .constrainEqual ⟨.conservation, .rho, 0⟩ (outputValue 1),
    .enable .conservation .conservation 0,
    .constrainInstance assetCell 4]

def opening (i : Fin 2) (a : Cell Region Column → Fp) : Opening := readOpening (.input i) assetCell a

variable {hash : List Fp → Fp} {a : Cell Region Column → Fp} {inst : ℕ → Fp}

section Sound

variable (h : Satisfies gates hash a inst synthesize)
include h

theorem satisfies_input (i : Fin 2) : Satisfies gates hash a inst (processInput i) := by
  simp only [synthesize, satisfies_append, satisfies_flatMap] at h
  exact h.1.1 i (List.mem_finRange i)

theorem satisfies_output (j : Fin 2) : Satisfies gates hash a inst (processOutput j) := by
  simp only [synthesize, satisfies_append, satisfies_flatMap] at h
  exact h.1.2 j (List.mem_finRange j)

theorem derived (i : Fin 2) : (opening i a).Derived hash ∧ (opening i a).nf = inst i := by
  have hi := satisfies_input h i
  simp only [processInput, satisfies_append] at hi
  obtain ⟨⟨⟨⟨-, hivk⟩, hnf⟩, hcm⟩, -⟩ := hi
  exact derived_readOpening hivk hnf hcm

theorem satisfies_inputNote (i : Fin 2) :
    Satisfies gates hash a inst (noteRegion (.input i .note)) := by
  have hi := satisfies_input h i
  simp only [processInput, satisfies_append] at hi
  exact hi.1.1.1.1

theorem satisfies_outputNote (j : Fin 2) : Satisfies gates hash a inst (noteRegion (.output j)) := by
  have hj := satisfies_output h j
  simp only [processOutput, satisfies_append] at hj
  exact hj.1

theorem conservation :
    a (inputValue 0) + a (inputValue 1) = a (outputValue 0) + a (outputValue 1) := by
  simp only [synthesize, satisfies_append, satisfies_cons, satisfies_nil, holds_constrainEqual,
    holds_enable, gates, Rotation.at, List.forall_mem_singleton] at h
  obtain ⟨-, hin0, hin1, hout0, hout1, hsum, -⟩ := h
  rw [hin0, hin1, hout0, hout1, sub_sub, sub_eq_zero] at hsum
  exact hsum

end Sound

variable (hash)

def assign (asset : Fp) (ins outs : Fin 2 → NoteCells) (paths : Fin 2 → ℕ → Fp × Bool) :
    Cell Region Column → Fp
  | ⟨.assetId, .assetId, 0⟩ => asset
  | ⟨.input i r, c, j⟩ => spendCells hash (ins i) (paths i) r c j
  | ⟨.output j, c, k⟩ => (outs j).cell c k
  | ⟨.hashOut j, .poseidonState, 0⟩ => hash [(outs j).value, asset, (outs j).rcm, (outs j).rho]
  | ⟨.conservation, .value, 0⟩ => (ins 0).value
  | ⟨.conservation, .rcm, 0⟩ => (ins 1).value
  | ⟨.conservation, .ivk, 0⟩ => (outs 0).value
  | ⟨.conservation, .rho, 0⟩ => (outs 1).value
  | _ => 0

def nullifierOf (n : NoteCells) : Fp := hash [hash [tagFp Domain.fvkFromIvk, n.ivk], n.rho]

def publicInputs (asset root : Fp) (ins outs : Fin 2 → NoteCells) : ℕ → Fp :=
  ([nullifierOf hash (ins 0), nullifierOf hash (ins 1),
    hash [(outs 0).value, asset, (outs 0).rcm, (outs 0).rho],
    hash [(outs 1).value, asset, (outs 1).rcm, (outs 1).rho], asset, root].getD · 0)

variable {hash}

/-- The prover's assignment satisfies the transfer circuit, if the values add up in the
field and both paths lead to one root. -/
theorem satisfies_assign {asset root : Fp} {ins outs : Fin 2 → NoteCells}
    {paths : Fin 2 → ℕ → Fp × Bool} (hin : ∀ i, (ins i).Ok) (hout : ∀ j, (outs j).Ok)
    (hass : ∀ i, (ins i).asset = asset)
    (hivk : ∀ i, (ins i).ivk = hash [tagFp Domain.ivkFromSk, (ins i).sk])
    (hroot : ∀ i, merkleWalk hash (hash [(ins i).value, (ins i).asset, (ins i).rcm, (ins i).rho])
      (paths i) 32 = root)
    (hsum : (ins 0).value + (ins 1).value = (outs 0).value + (outs 1).value) :
    Satisfies gates hash (assign hash asset ins outs paths) (publicInputs hash asset root ins outs)
      synthesize := by
  have hinp : ∀ i, Satisfies gates hash (assign hash asset ins outs paths)
      (publicInputs hash asset root ins outs) (processInput i) := by
    intro i
    have ha : ∀ r c j, assign hash asset ins outs paths ⟨.input i r, c, j⟩ =
        spendCells hash (ins i) (paths i) r c j := fun _ _ _ => rfl
    have hcell : assign hash asset ins outs paths assetCell = (ins i).asset := (hass i).symm
    have hnf : publicInputs hash asset root ins outs i =
        hash [hash [tagFp Domain.fvkFromIvk, (ins i).ivk], (ins i).rho] := by
      fin_cases i <;> rfl
    obtain ⟨hsk, hnull, hcm⟩ := satisfies_spend_assign ha (hivk i) hcell hnf
    simp only [processInput, satisfies_append]
    exact ⟨⟨⟨⟨(hin i).satisfies fun _ _ => rfl, hsk⟩, hnull⟩, hcm⟩,
      satisfies_merklePath_assign ha (hroot i)⟩
  have houtp : ∀ j, Satisfies gates hash (assign hash asset ins outs paths)
      (publicInputs hash asset root ins outs) (processOutput j) := by
    intro j
    simp only [processOutput, satisfies_append, satisfies_cons, satisfies_nil, holds_hash,
      holds_constrainInstance, List.map_cons, List.map_nil, and_true]
    refine ⟨(hout j).satisfies fun _ _ => rfl, rfl, ?_⟩
    fin_cases j <;> rfl
  have hgate : (ins 0).value + (ins 1).value - (outs 0).value - (outs 1).value = 0 := by
    rw [hsum]
    ring
  simp only [synthesize, satisfies_append, satisfies_flatMap, satisfies_cons, satisfies_nil,
    holds_constrainEqual, holds_constrainInstance, holds_enable, gates, Rotation.at,
    List.forall_mem_singleton, and_true]
  exact ⟨⟨fun i _ => hinp i, fun j _ => houtp j⟩, rfl, rfl, rfl, rfl, hgate, rfl⟩

end Transfer

end Callchain.Shielded

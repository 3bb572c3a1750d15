/-
# Proof statements and their public inputs

`verify_shielded_proof` checks the shape of a proof, writes the public inputs of its
circuit as a string of 32-byte blocks, and hands the field elements these blocks stand
for to the verifier, `halo2_proofs::verify_proof` with the keys of a version, which is a
parameter. The cache of answers is in `Callchain.Shielded.Cache`.
-/
import Callchain.Shielded.Field

namespace Callchain.Shielded

abbrev U32 := BitVec 32

inductive CircuitType where
  | deposit
  | withdraw
  | transfer
  deriving DecidableEq

inductive Statement where
  | deposit (commitment : Bytes32) (amount : U128) (assetId : U64)
  | withdraw (nullifier : Bytes32) (assetId : U64) (value : U128) (merkleRoot : Bytes32)
      (target : Address)
  | transfer (nullifiers commitments : List Bytes32) (assetId : U64) (merkleRoot : Bytes32)

namespace Statement

def circuitType : Statement → CircuitType
  | .deposit _ _ _ => .deposit
  | .withdraw _ _ _ _ _ => .withdraw
  | .transfer _ _ _ _ => .transfer

def nullifiers : Statement → List Bytes32
  | .deposit _ _ _ => []
  | .withdraw nullifier _ _ _ _ => [nullifier]
  | .transfer nullifiers _ _ _ => nullifiers

def commitments : Statement → List Bytes32
  | .deposit commitment _ _ => [commitment]
  | .withdraw _ _ _ _ _ => []
  | .transfer _ commitments _ _ => commitments

end Statement

def maxKeyVersion : U32 := 1000

/-- The structural checks. -/
def verifyZkProof (proofData : Bytes) (keyVersion : U32) (statement : Statement) : Bool :=
  let nullifiers := statement.nullifiers
  let commitments := statement.commitments
  if keyVersion > maxKeyVersion then false
  else if proofData.isEmpty || proofData.length > 20000 then false
  else if nullifiers.isEmpty && commitments.isEmpty then false
  else if ¬ nullifiers.Nodup then false
  else if ¬ commitments.Nodup then false
  else if ¬ nullifiers.isEmpty && ¬ commitments.isEmpty &&
    (nullifiers.length != 2 || commitments.length != 2) then false
  else true

def targetBytes (target : Address) : Bytes32 := ofLeBytes (beBytes 20 target.toNat)

/-- The blocks that `verify_shielded_proof` writes for each circuit. -/
def publicInputs : Statement → List Bytes32
  | .deposit commitment amount assetId => [commitment, valueToFpBytes amount, assetBytes assetId]
  | .withdraw nullifier assetId value merkleRoot target =>
    [nullifier, assetBytes assetId, valueToFpBytes value, merkleRoot, targetBytes target]
  | .transfer nullifiers commitments assetId merkleRoot =>
    nullifiers ++ commitments ++ [assetBytes assetId, merkleRoot]

/-- One field element for each block of 32 bytes. -/
def bytesToInstances (bytes : Bytes) : List Fp :=
  (List.range ((bytes.length + 31) / 32)).map fun i =>
    bytesToFp (ofLeBytes ((bytes.drop (32 * i)).take 32))

theorem bytesToInstances_append (block : Bytes32) (bytes : Bytes) :
    bytesToInstances (leBytes block ++ bytes) = bytesToFp block :: bytesToInstances bytes := by
  have hlen : ((leBytes block ++ bytes).length + 31) / 32 = (bytes.length + 31) / 32 + 1 := by
    rw [List.length_append, length_leBytes]
    omega
  rw [bytesToInstances, hlen, List.range_succ_eq_map, List.map_cons, List.map_map]
  refine List.cons_eq_cons.2 ⟨?_, ?_⟩
  · rw [List.drop_zero, List.take_left' (length_leBytes block), ofLeBytes_leBytes]
  · refine List.map_congr_left fun i _ => ?_
    have hdrop : (leBytes block ++ bytes).drop (32 * (i + 1)) = bytes.drop (32 * i) := by
      rw [List.drop_append, length_leBytes, List.drop_eq_nil_of_le (by rw [length_leBytes]; omega),
        List.nil_append]
      have hsub : 32 * (i + 1) - 32 = 32 * i := by omega
      rw [hsub]
    rw [Function.comp_apply, hdrop]

theorem bytesToInstances_flatMap (blocks : List Bytes32) :
    bytesToInstances (blocks.flatMap leBytes) = blocks.map bytesToFp := by
  induction blocks with
  | nil => rfl
  | cons block blocks ih => rw [List.flatMap_cons, bytesToInstances_append, ih, List.map_cons]

def instances (statement : Statement) : List Fp :=
  bytesToInstances ((publicInputs statement).flatMap leBytes)

def seenNullifiers (statement : Statement) : List Fp :=
  (instances statement).take statement.nullifiers.length

theorem seenNullifiers_eq (statement : Statement) :
    seenNullifiers statement = statement.nullifiers.map bytesToFp := by
  rw [seenNullifiers, instances, bytesToInstances_flatMap, ← List.map_take]
  congr 1
  cases statement with
  | deposit | withdraw => rfl
  | transfer nullifiers =>
    rw [publicInputs, Statement.nullifiers, List.append_assoc, List.take_left']
    rfl

/-- The keys of the registered versions: the verifier of each circuit. -/
abbrev Keys := U32 → Option (CircuitType → Bytes → List Fp → Bool)

def verifyShieldedProof (keys : Keys) (proofData : Bytes) (keyVersion : U32) (statement : Statement) :
    Except String Bool :=
  if ¬ verifyZkProof proofData keyVersion statement then .ok false
  else match keys keyVersion with
    | none => .error ("no prover keys registered for version " ++ toString keyVersion.toNat)
    | some verifyProof => .ok (verifyProof statement.circuitType proofData (instances statement))

end Callchain.Shielded

/-
# Blocks and their headers

A block is a header and a list of raw transactions. The hash of a header covers its
fields up to the version; the seal of the validators is added later and left out of it,
and of the transactions only the state root speaks.
-/
import Callchain.Consensus.Fork

namespace Callchain.Consensus

/-- The messages of `ConsensusError::InvalidBlock`. -/
inductive InvalidBlock where
  /-- "parent hash mismatch: expected …, got …" -/
  | parentHashMismatch (expected got : B256)
  /-- "genesis block must have zero parent hash" -/
  | genesisParent
  /-- "zero timestamp" -/
  | zeroTimestamp
  /-- "zero proposer" -/
  | zeroProposer
  /-- "block version mismatch: …" -/
  | version (e : ForkError)
  /-- "expected height …, got …" and "height mismatch: expected …, got …" -/
  | height (expected got : U64)
  /-- "evm execution failed: …" -/
  | evmExecution (msg : String)
  /-- the division in `update_base_fee`, at which the node panics -/
  | zeroGasTarget
  deriving DecidableEq

/-- `ConsensusError`, as far as the checks and the execution of a block return
it. -/
inductive BlockError where
  | proposerNotInSubset (proposer : ValidatorId)
  | invalidBlock (reason : InvalidBlock)
  deriving DecidableEq

structure BlockHeader where
  parentHash : B256
  height : U64
  timestampMillis : U64
  stateRoot : B256 := 0
  proposer : ValidatorId
  signature : BitVec 520 := 0
  version : ProtocolVersion
  blsAggregateSignature : Option Bytes := none
  blsSignerBitmap : Bytes := []
  deriving DecidableEq

namespace BlockHeader

variable (h : BlockHeader)

def preimage : Bytes :=
  beBytes 32 h.parentHash.toNat ++ toLeBytes 8 h.height.toNat ++
    toLeBytes 8 h.timestampMillis.toNat ++ beBytes 32 h.stateRoot.toNat ++
    toLeBytes 4 h.proposer.toNat ++ beBytes 65 h.signature.toNat ++
    toLeBytes 2 h.version.major.toNat ++ toLeBytes 2 h.version.minor.toNat ++
    toLeBytes 2 h.version.patch.toNat

def hash (keccak256 : Bytes → B256) : B256 := keccak256 h.preimage

def validate (expectedParent : B256) (fm : ForkManager) : Except BlockError Unit :=
  if h.parentHash ≠ expectedParent then
    .error (.invalidBlock (.parentHashMismatch expectedParent h.parentHash))
  else if h.height = 0 ∧ h.parentHash ≠ 0 then .error (.invalidBlock .genesisParent)
  else if h.timestampMillis = 0 then .error (.invalidBlock .zeroTimestamp)
  else if h.proposer = 0 then .error (.invalidBlock .zeroProposer)
  else
    match fm.validateBlockVersion h.height h.version with
    | .error e => .error (.invalidBlock (.version e))
    | .ok () => .ok ()

theorem validate_eq_ok {expectedParent : B256} {fm : ForkManager} :
    h.validate expectedParent fm = .ok () ↔
      h.parentHash = expectedParent ∧ (h.height = 0 → h.parentHash = 0) ∧
        h.timestampMillis ≠ 0 ∧ h.proposer ≠ 0 ∧ h.version = fm.versionAtHeight h.height := by
  have hver : fm.validateBlockVersion h.height h.version = .ok () ↔
      h.version = fm.versionAtHeight h.height := by
    unfold ForkManager.validateBlockVersion
    dsimp only
    split_ifs with hne
    · exact iff_of_false (by simp) hne
    · exact iff_of_true rfl (not_not.1 hne)
  unfold validate
  split_ifs with hpar hgen hts hpro
  · exact iff_of_false (by simp) fun hv => hpar hv.1
  · exact iff_of_false (by simp) fun hv => hgen.2 (hv.2.1 hgen.1)
  · exact iff_of_false (by simp) fun hv => hv.2.2.1 hts
  · exact iff_of_false (by simp) fun hv => hv.2.2.2.1 hpro
  · have hche : h.parentHash = expectedParent ∧ (h.height = 0 → h.parentHash = 0) ∧
        h.timestampMillis ≠ 0 ∧ h.proposer ≠ 0 := by
      refine ⟨not_not.1 hpar, fun h0 => ?_, hts, hpro⟩
      by_contra hne
      exact hgen ⟨h0, hne⟩
    rw [← hver]
    cases fm.validateBlockVersion h.height h.version with
    | error => exact iff_of_false (by simp) fun hv => absurd hv.2.2.2.2 (by simp)
    | ok => exact iff_of_true rfl ⟨hche.1, hche.2.1, hche.2.2.1, hche.2.2.2, rfl⟩

end BlockHeader

structure Block where
  header : BlockHeader
  evmTxs : List Bytes
  deriving DecidableEq

namespace Block

def new (height : U64) (parentHash : B256) (timestampMillis : U64) (proposer : ValidatorId)
    (version : ProtocolVersion) (evmTxs : List Bytes) : Block where
  header := { parentHash, height, timestampMillis, proposer, version }
  evmTxs := evmTxs

def validate (block : Block) (expectedParent : B256) (fm : ForkManager) :
    Except BlockError Unit :=
  block.header.validate expectedParent fm

/-- It is given the root that the execution computed. -/
def finalize (block : Block) (stateRoot : B256) : Block :=
  { block with header := { block.header with stateRoot } }

end Block
end Callchain.Consensus

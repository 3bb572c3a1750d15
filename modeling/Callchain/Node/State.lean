/-
# The node and its vote

A validator votes for a block on the root alone: the `verify` arm of the BFT loop
executes the block at the height of its own header, on a copy of the state, and compares
roots. What `SimplexConsensus::validate_block` asks of the header is not asked, and the
execution reads neither the parent nor the version (`bftVerify_header`). So the vote
accepts a valid block only where it accepts no block at all (`verify_validates_iff`).
-/
import Callchain.Consensus.Execute

namespace Callchain.Node

open Consensus

/-- The fields of `OracleTracker` that the node's handlers read. -/
structure OracleTracker where
  currentContributors : List ValidatorId := []
  lastOutliers : List ValidatorId := []

/-- What the handlers of a node share: the database, the fee parameters, the driver, the
block counter, the schedule of upgrades and the oracle's tracker. -/
structure NodeState where
  db : ChainState := {}
  feeParams : FeeParams := {}
  consensus : SimplexConsensus := {}
  currentBlock : U64 := 0
  forkManager : ForkManager
  oracleTracker : OracleTracker := {}

namespace NodeState

variable (R : Runtime) (node : NodeState) (block : Block) (height : U64)

/-- The state goes back to the database, and the fee parameters are those of the node.
-/
def executeBlock : Except BlockError (NodeState × BlockExecutionResult) :=
  (block.execute R node.db node.feeParams height).map fun r =>
    ({ node with db := r.1, feeParams := r.2.1 }, r.2.2)

def executeBlockCloned : Except BlockError BlockExecutionResult :=
  (block.execute R node.db node.feeParams height).map fun r => r.2.2

def RootMatches : Prop :=
  ∃ db feeParams result,
    block.execute R node.db node.feeParams height = .ok (db, feeParams, result) ∧
      result.stateRoot = block.header.stateRoot

end NodeState

/-- The `verify` arm of the BFT loop: the vote on a block that the cache may
hold. -/
def bftVerify (R : Runtime) (node : NodeState) : Option Block → Bool
  | none => false
  | some block =>
    match node.executeBlockCloned R block block.header.height with
    | .ok result => result.stateRoot = block.header.stateRoot
    | .error _ => false

variable {R : Runtime} {node : NodeState} {block : Block}

theorem bftVerify_eq_true :
    bftVerify R node (some block) = true ↔ node.RootMatches R block block.header.height := by
  unfold bftVerify NodeState.executeBlockCloned NodeState.RootMatches
  cases hexec : block.execute R node.db node.feeParams block.header.height with
  | error => simp [hexec, Except.map]
  | ok r =>
    obtain ⟨db, feeParams, result⟩ := r
    simp only [hexec, Except.map, decide_eq_true_eq, Except.ok.injEq, Prod.mk.injEq]
    constructor
    · intro hroot
      exact ⟨db, feeParams, result, ⟨rfl, rfl, rfl⟩, hroot⟩
    · rintro ⟨_, _, _, ⟨_, _, rfl⟩, hroot⟩
      exact hroot

theorem bftVerify_header {db : ChainState} {feeParams : FeeParams} {result : BlockExecutionResult}
    (h : block.execute R node.db node.feeParams block.header.height = .ok (db, feeParams, result))
    (parentHash : B256) : bftVerify R node (some { block with
        header := { block.header with stateRoot := result.stateRoot, parentHash } }) = true := by
  refine bftVerify_eq_true.2 ⟨db, feeParams, result, ?_, rfl⟩
  exact h

/-- **A vote validates.** A vote for a block implies its validity exactly if the block does not
execute to its root or its header has the driver's height, parent and version, a timestamp, and a
proposer of the subset: for all blocks only if none executes. -/
theorem verify_validates_iff (R : Runtime) (node : NodeState) :
    (∀ block : Block, (bftVerify R node (some block) = true →
        node.consensus.validateBlock block node.consensus.lastBlockHash node.forkManager = .ok ()) ↔
      ¬ node.RootMatches R block block.header.height ∨
        node.consensus.Valid block.header node.consensus.lastBlockHash node.forkManager) ∧
    ((∀ block : Block, bftVerify R node (some block) = true →
        node.consensus.validateBlock block node.consensus.lastBlockHash node.forkManager = .ok ()) ↔
      ∀ block : Block, ∃ e,
        block.execute R node.db node.feeParams block.header.height = .error e) := by
  constructor
  · intro block
    rw [bftVerify_eq_true, SimplexConsensus.validateBlock_eq_ok, imp_iff_not_or]
  constructor
  · intro hval block
    cases hexec : block.execute R node.db node.feeParams block.header.height with
    | error e => exact ⟨e, rfl⟩
    | ok =>
      -- the same block, on another parent
      have hok := hval _ (bftVerify_header hexec (node.consensus.lastBlockHash + 1))
      have hpar := (SimplexConsensus.validateBlock_eq_ok.1 hok).parent
      exact absurd hpar (by simp)
  · intro hfai block hver
    obtain ⟨db, feeParams, result, hexec, _⟩ := bftVerify_eq_true.1 hver
    obtain ⟨e, he⟩ := hfai block
    rw [hexec] at he
    cases he

/-- A small runtime: each transaction adds one to the pool of oracle rewards,
and the root is that pool. -/
def poolRuntime : Runtime where
  crypto := ⟨fun bytes => BitVec.ofNat 256 (beValue bytes), fun pubkey _ => pubkey⟩
  executeBlockTransactions := fun txs s _ =>
    .ok (s.addOracleReward (BitVec.ofNat 128 txs.length), {})
  stateRoot := fun s => s.oracleRewardPool.setWidth 256

def nodeAt5 : NodeState where
  consensus := atHeight5
  currentBlock := 5
  forkManager := .new ⟨1, 0, 0⟩ 21

/-- The node votes for an empty block of height 9, of the wrong parent and
version, by a proposer outside the subset. -/
theorem invalid_block_accepted :
    let block := Block.new 9 8 1000 2 ⟨3, 0, 0⟩ []
    bftVerify poolRuntime nodeAt5 (some block) = true ∧
      nodeAt5.consensus.validateBlock block nodeAt5.consensus.lastBlockHash nodeAt5.forkManager =
        .error (.proposerNotInSubset 2) := by
  decide

end Callchain.Node

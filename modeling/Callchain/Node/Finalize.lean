/-
# Finalizing a block

The `finalize` arm of the BFT loop executes a block on the shared state and only then
looks at it: a wrong root and a refused commit both leave the handler after
`execute_block` has written the database and the fee parameters. So a block that is
turned down leaves its execution behind, unless that changed nothing
(`finalize_atomic_iff`).

Database errors, and what the arm keeps beside the state (mempool, receipts, logs,
snapshots), are left out.
-/
import Callchain.Governance.Advancer
import Callchain.Node.State

namespace Callchain.Node

open Consensus

/-! ### The oracle's period -/

def oracleUpdateInterval : U64 := 1000

/-- Equal shares, with the remainder spread over the first contributors. -/
def OracleTracker.distributeRewards (t : OracleTracker) (rewardPool : U128) :
    List (ValidatorId × U128) :=
  if rewardPool = 0 ∨ t.currentContributors.isEmpty then []
  else
    let count : U128 := BitVec.ofNat 128 t.currentContributors.length
    t.currentContributors.zipIdx.map fun (vid, i) =>
      (vid, rewardPool / count + if BitVec.ofNat 128 i < rewardPool % count then 1 else 0)

def distributeOracleReward (s : ChainState) (reward : ValidatorId × U128) : ChainState :=
  let addr := s.gov.validators.validatorAddr (reward.1.setWidth 64)
  if 0 < reward.2 ∧ addr ≠ 0 then s.distributeRewardEvm addr reward.2 else s

/-- What the end of an oracle period does to the state: it slashes the outliers
and pays the pool to the contributors. -/
def OracleTracker.period (t : OracleTracker) (height : U64) (s : ChainState) : ChainState :=
  if height % oracleUpdateInterval = 0 then
    let s := s.withValidators (t.lastOutliers.foldl
      (fun v vid => settled v (SimplexConsensus.handleOracleOutlier v vid)) s.gov.validators)
    let rewards := t.distributeRewards s.oracleRewardPool
    let s := if rewards.isEmpty then s else { s with oracleRewardPool := 0 }
    rewards.foldl distributeOracleReward s
  else s

/-- The same on the node, whose tracker is cleared. -/
def NodeState.oraclePeriod (node : NodeState) (height : U64) : NodeState :=
  { node with
    db := node.oracleTracker.period height node.db
    oracleTracker := if height % oracleUpdateInterval = 0 then {} else node.oracleTracker }

/-! ### The handler -/

variable (R : Runtime) (node : NodeState) (block : Block)

def NodeState.advanceRound : NodeState :=
  let r := node.consensus.advanceRound R.crypto node.db.gov.validators
  { node with consensus := r.1, db := node.db.withValidators r.2 }

/-- `governance_advancer.advance`; where it panics there is no state after it. -/
def NodeState.advanceGovernance (currentBlock : U64) : Option NodeState :=
  (node.db.gov.advance currentBlock).map fun gov => { node with db := { node.db with gov } }

/-- The `finalize` arm, for a block that was found. -/
def finalize : Option NodeState :=
  let height := block.header.height
  if height < node.consensus.currentHeight then some node
  else
    match node.executeBlock R block height with
    | .error _ => some node
    | .ok (node, result) =>
      if result.stateRoot ≠ block.header.stateRoot then some node
      else
        let node := node.oraclePeriod height
        match node.consensus.commitBlock R.crypto block with
        | .error _ => some node
        | .ok consensus =>
          let node := { node with consensus }.advanceRound R
          { node with currentBlock := height + 1 }.advanceGovernance (height + 1)

/-! ### What a block leaves that is turned down -/

variable {R node block}

theorem finalize_of_error {e : BlockError}
    (h : block.execute R node.db node.feeParams block.header.height = .error e) :
    finalize R node block = some node := by
  unfold finalize NodeState.executeBlock
  dsimp only
  rw [h]
  exact ite_self _

section Executed

variable {db : ChainState} {feeParams : FeeParams} {result : BlockExecutionResult}
  (hheight : ¬ block.header.height < node.consensus.currentHeight)
  (h : block.execute R node.db node.feeParams block.header.height = .ok (db, feeParams, result))

include hheight h

theorem finalize_of_mismatch (hroot : result.stateRoot ≠ block.header.stateRoot) :
    finalize R node block = some { node with db, feeParams } := by
  unfold finalize NodeState.executeBlock
  rw [if_neg hheight, h]
  exact if_pos hroot

theorem finalize_of_refused (hroot : result.stateRoot = block.header.stateRoot)
    (hcom : block.header.height ≠ node.consensus.currentHeight) : finalize R node block =
      some ({ node with db, feeParams }.oraclePeriod block.header.height) := by
  unfold finalize NodeState.executeBlock
  rw [if_neg hheight, h]
  refine (if_neg (not_not.2 hroot)).trans ?_
  simp only [NodeState.oraclePeriod, SimplexConsensus.commitBlock, if_pos hcom]

theorem finalize_of_commit (hroot : result.stateRoot = block.header.stateRoot)
    {consensus : SimplexConsensus}
    (hcom : node.consensus.commitBlock R.crypto block = .ok consensus) : finalize R node block =
      { { { node with db, feeParams }.oraclePeriod block.header.height with
        consensus }.advanceRound R with
        currentBlock := block.header.height + 1 }.advanceGovernance
          (block.header.height + 1) := by
  unfold finalize NodeState.executeBlock
  rw [if_neg hheight, h]
  refine (if_neg (not_not.2 hroot)).trans ?_
  simp only [NodeState.oraclePeriod, hcom]

end Executed

/-- A block that executes to another root leaves the node as it was. -/
def MismatchHarmless (R : Runtime) (node : NodeState) (block : Block) : Prop :=
  ∀ db feeParams result,
    block.execute R node.db node.feeParams block.header.height = .ok (db, feeParams, result) →
    result.stateRoot ≠ block.header.stateRoot → finalize R node block = some node

/-- A block whose commit is refused leaves state, fees and driver as they were. -/
def RefusalHarmless (R : Runtime) (node : NodeState) (block : Block) : Prop :=
  ∀ e, node.consensus.commitBlock R.crypto block = .error e →
    ∃ node', finalize R node block = some node' ∧ node'.db = node.db ∧
      node'.feeParams = node.feeParams ∧ node'.consensus = node.consensus

section Harmless

variable {db : ChainState} {feeParams : FeeParams} {result : BlockExecutionResult}
  (hheight : ¬ block.header.height < node.consensus.currentHeight)
  (h : block.execute R node.db node.feeParams block.header.height = .ok (db, feeParams, result))

include hheight h

theorem mismatchHarmless_iff (hroot : result.stateRoot ≠ block.header.stateRoot) :
    MismatchHarmless R node block ↔ db = node.db ∧ feeParams = node.feeParams := by
  have hfin := finalize_of_mismatch hheight h hroot
  constructor
  · intro hhar
    rw [hhar db feeParams result h hroot, Option.some_inj] at hfin
    exact ⟨congrArg NodeState.db hfin.symm, congrArg NodeState.feeParams hfin.symm⟩
  · rintro ⟨rfl, rfl⟩ _ _ _ _ _
    exact hfin

theorem refusalHarmless_of_mismatch (hroot : result.stateRoot ≠ block.header.stateRoot)
    (hdb : db = node.db) (hfee : feeParams = node.feeParams) : RefusalHarmless R node block :=
  fun _ _ => ⟨_, finalize_of_mismatch hheight h hroot, hdb, hfee, rfl⟩

theorem refusalHarmless_iff (hroot : result.stateRoot = block.header.stateRoot) :
    RefusalHarmless R node block ↔ (block.header.height ≠ node.consensus.currentHeight →
      node.oracleTracker.period block.header.height db = node.db ∧ feeParams = node.feeParams) := by
  constructor
  · intro hhar hne
    obtain ⟨e, he⟩ := (SimplexConsensus.exists_commitBlock_error R.crypto).2 hne
    obtain ⟨node', hnode, hdb, hfee, -⟩ := hhar e he
    rw [finalize_of_refused hheight h hroot hne] at hnode
    cases hnode
    exact ⟨hdb, hfee⟩
  · intro hsame e he
    have hne := (SimplexConsensus.exists_commitBlock_error R.crypto).1 ⟨e, he⟩
    obtain ⟨hdb, hfee⟩ := hsame hne
    exact ⟨_, finalize_of_refused hheight h hroot hne, hdb, hfee, rfl⟩

end Harmless

/-! The input cases: a block below the height, one that fails, and the next block. -/

theorem harmless_of_low (h : block.header.height < node.consensus.currentHeight) :
    MismatchHarmless R node block ∧ RefusalHarmless R node block := by
  have hsta : finalize R node block = some node := if_pos h
  exact ⟨fun _ _ _ _ _ => hsta, fun _ _ => ⟨node, hsta, rfl, rfl, rfl⟩⟩

theorem harmless_of_error {e : BlockError}
    (h : block.execute R node.db node.feeParams block.header.height = .error e) :
    MismatchHarmless R node block ∧ RefusalHarmless R node block := by
  refine ⟨fun db feeParams result hok => ?_, fun _ _ => ?_⟩
  · rw [h] at hok
    cases hok
  · exact ⟨node, finalize_of_error h, rfl, rfl, rfl⟩

theorem mismatchHarmless_of_root (h : node.RootMatches R block block.header.height) :
    MismatchHarmless R node block := by
  intro _ _ _ hexec hne
  obtain ⟨_, _, _, h, hroot⟩ := h
  rw [h] at hexec
  cases hexec
  exact absurd hroot hne

theorem harmless_of_next (hroot : node.RootMatches R block block.header.height)
    (hheight : block.header.height = node.consensus.currentHeight) :
    MismatchHarmless R node block ∧ RefusalHarmless R node block := by
  refine ⟨mismatchHarmless_of_root hroot, fun e he => ?_⟩
  exact absurd hheight ((SimplexConsensus.exists_commitBlock_error R.crypto).1 ⟨e, he⟩)

/-- **Finalizing is atomic.** For every node and finalized block: a wrong root and a refused
commit are without effect exactly if the block lies below the driver's height, or its execution
fails, or it is the next block with the right root, or it changes neither the state nor the fees.
-/
theorem finalize_atomic_iff (R : Runtime) (node : NodeState) (block : Block) :
    MismatchHarmless R node block ∧ RefusalHarmless R node block ↔
      block.header.height < node.consensus.currentHeight ∨ ∀ db feeParams result,
        block.execute R node.db node.feeParams block.header.height = .ok (db, feeParams, result) →
        (result.stateRoot ≠ block.header.stateRoot → db = node.db ∧ feeParams = node.feeParams) ∧
        (result.stateRoot = block.header.stateRoot →
          block.header.height ≠ node.consensus.currentHeight →
          node.oracleTracker.period block.header.height db = node.db ∧
            feeParams = node.feeParams) := by
  by_cases hheight : block.header.height < node.consensus.currentHeight
  · exact iff_of_true (harmless_of_low hheight) (Or.inl hheight)
  rw [or_iff_right hheight]
  cases hexec : block.execute R node.db node.feeParams block.header.height with
  | error => exact iff_of_true (harmless_of_error hexec) (by simp)
  | ok r =>
    obtain ⟨db, feeParams, result⟩ := r
    by_cases hroot : result.stateRoot = block.header.stateRoot
    · have hmis : MismatchHarmless R node block :=
        mismatchHarmless_of_root ⟨db, feeParams, result, hexec, hroot⟩
      rw [and_iff_right hmis, refusalHarmless_iff hheight hexec hroot]
      constructor
      · rintro hsame _ _ _ heq
        cases heq
        exact ⟨fun hne => absurd hroot hne, fun _ => hsame⟩
      · intro hcond
        exact (hcond db feeParams result rfl).2 hroot
    · constructor
      · rintro ⟨hmis, -⟩ _ _ _ heq
        cases heq
        have hsame := (mismatchHarmless_iff hheight hexec hroot).1 hmis
        exact ⟨fun _ => hsame, fun h => absurd h hroot⟩
      · intro hcond
        have hsame := (hcond db feeParams result rfl).1 hroot
        exact ⟨(mismatchHarmless_iff hheight hexec hroot).2 hsame,
          refusalHarmless_of_mismatch hheight hexec hroot hsame.1 hsame.2⟩

/-- A block with a wrong root, and one with the right root for a height that is not yet
due, are turned down, and both leave their credits and a lower base fee. -/
theorem rejected_block_remains :
    let wrongRoot := (Block.new 5 7 1000 1 ⟨1, 0, 0⟩ [[1], [2]]).finalize 1
    let early := (Block.new 6 7 1000 1 ⟨1, 0, 0⟩ [[1], [2]]).finalize 2
    (finalize poolRuntime nodeAt5 wrongRoot).map (fun n =>
        (n.db.oracleRewardPool, n.feeParams.baseFee, n.consensus)) = some (2, 9, atHeight5) ∧
      (finalize poolRuntime nodeAt5 early).map (fun n =>
        (n.db.oracleRewardPool, n.feeParams.baseFee, n.consensus)) = some (2, 9, atHeight5) ∧
      (nodeAt5.db.oracleRewardPool, nodeAt5.feeParams.baseFee) = (0, 10) := by
  decide

end Callchain.Node

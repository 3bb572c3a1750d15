/-
# A synced node and one that took part

A validator applies a block in the `finalize` arm, a node that lags in the loop over a
peer's answer. Both execute it, commit it and advance the round; but `finalize` also
ends the oracle's period and runs the governance advancer. The two reach the same state
as long as these have nothing to do.
-/
import Callchain.Node.Sync

namespace Callchain

/-! ### The advancer with nothing to do -/

namespace Governance

/-- The proposal's review is over, its vote is over, or its timelock or its timeout has
passed. -/
def Proposal.Due (p : Proposal) (execTimeout currentBlock : U64) : Prop :=
  match p.status with
  | .pending => p.ReviewDone currentBlock
  | .active => p.endBlock < currentBlock
  | .queued => p.TimedOut execTimeout currentBlock ∨ p.executionBlock ≤ currentBlock
  | .executed | .defeated | .expired | .lapsed => False

namespace State

variable {s : State} {now : U64}

theorem advanceProposal_of_not_due {c : AdvanceConfig} {pid : U64}
    (h : ¬ (s.gov.proposal pid).Due c.execTimeout now) : advanceProposal c now s pid = some s := by
  unfold advanceProposal
  unfold Proposal.Due at h
  dsimp only
  cases hsta : (s.gov.proposal pid).status with
  | pending | active =>
    rw [hsta] at h
    exact if_neg h
  | queued =>
    rw [hsta, not_or] at h
    exact (if_neg h.1).trans (if_neg h.2)
  | _ => rfl

theorem advance_of_not_due (h : ∀ proposalId ∈ s.proposalIds,
    ¬ (s.gov.proposal proposalId).Due s.gov.executionTimeout now) : s.advance now = some s :=
  Sweep.sweep_of_stay fun proposalId hid => advanceProposal_of_not_due (h proposalId hid)

end State
end Governance

namespace Node

open Consensus

variable {R : Runtime} {node : NodeState} {block : Block}

/-! ### One block -/

/-- A child of the node's last block that executes to its root. -/
structure ValidNext (R : Runtime) (node : NodeState) (block : Block) : Prop where
  counter : node.currentBlock = node.consensus.currentHeight
  height : block.header.height = node.consensus.currentHeight
  parent : block.header.parentHash = node.consensus.lastBlockHash
  root : node.RootMatches R block block.header.height

/-- At the end of an oracle's period the tracker has no outliers, and no contributors or
nothing to pay them; and in the state that the block and the end of its round leave, no
proposal is due. -/
structure Quiet (R : Runtime) (node : NodeState) (block : Block) : Prop where
  oracle : block.header.height % oracleUpdateInterval = 0 →
    node.oracleTracker.lastOutliers = [] ∧
      ∀ db feeParams result,
        block.execute R node.db node.feeParams block.header.height = .ok (db, feeParams, result) →
        node.oracleTracker.currentContributors = [] ∨ db.oracleRewardPool = 0
  governance : ∀ after, node.syncBlock R block block.header.height = some after →
    ∀ proposalId ∈ after.db.gov.proposalIds,
      ¬ (after.db.gov.gov.proposal proposalId).Due after.db.gov.gov.executionTimeout
        (block.header.height + 1)

theorem OracleTracker.period_of_quiet {t : OracleTracker} {height : U64} {s : ChainState}
    (h : height % oracleUpdateInterval = 0 →
      t.lastOutliers = [] ∧ (t.currentContributors = [] ∨ s.oracleRewardPool = 0)) :
    t.period height s = s := by
  unfold period
  split_ifs with hbou
  · obtain ⟨hout, hrew⟩ := h hbou
    have hnone : t.distributeRewards s.oracleRewardPool = [] := by
      refine if_pos ?_
      rcases hrew with hemp | hzero
      · exact .inr (by rw [hemp]; rfl)
      · exact .inl hzero
    have hsame : s.withValidators s.gov.validators = s := rfl
    simp only [hout, List.foldl_nil, hsame, hnone, List.isEmpty_nil, if_true]
  · rfl

theorem syncBlock_withTracker (node : NodeState) (block : Block) (height : U64)
    (t : OracleTracker) : { node with oracleTracker := t }.syncBlock R block height =
      (node.syncBlock R block height).map fun n => { n with oracleTracker := t } := by
  unfold NodeState.syncBlock NodeState.executeBlockCloned NodeState.executeBlock
  cases block.execute R node.db node.feeParams height with
  | error => rfl
  | ok =>
    simp only [Except.map]
    split_ifs
    · rfl
    · rfl

theorem advanceGovernance_of_not_due {now : U64} (h : ∀ proposalId ∈ node.db.gov.proposalIds,
      ¬ (node.db.gov.gov.proposal proposalId).Due node.db.gov.gov.executionTimeout now) :
    node.advanceGovernance now = some node := by
  unfold NodeState.advanceGovernance
  rw [Governance.State.advance_of_not_due h]
  rfl

theorem syncBlock_of_root {height : U64} {db : ChainState} {feeParams : FeeParams}
    {result : BlockExecutionResult}
    (hexec : block.execute R node.db node.feeParams height = .ok (db, feeParams, result))
    (hroot : result.stateRoot = block.header.stateRoot) : node.syncBlock R block height =
      some ({ node with db, feeParams }.commitSynced R block height) := by
  have hblo : block.finalize block.header.stateRoot = block := rfl
  unfold NodeState.syncBlock NodeState.executeBlockCloned NodeState.executeBlock
  simp only [hexec, Except.map, hroot, hblo, ne_eq, not_true_eq_false, if_false]

/-- One quiet block: the handler of a validator and the body of the loop lead to the
same node, up to the tracker. -/
theorem finalize_eq_sync (hval : ValidNext R node block) (hqui : Quiet R node block) :
    ∃ after t, node.syncBlock R block block.header.height = some after ∧
      finalize R node block = some { after with oracleTracker := t } := by
  obtain ⟨db, feeParams, result, hexec, hroot⟩ := hval.root
  have hhei : ¬ block.header.height < node.consensus.currentHeight := by
    rw [hval.height]
    exact BitVec.lt_irrefl _
  obtain ⟨consensus, hcom⟩ : ∃ consensus,
      node.consensus.commitBlock R.crypto block = .ok consensus :=
    ⟨_, (SimplexConsensus.commitBlock_eq_ok R.crypto).2 ⟨hval.height, rfl⟩⟩
  have hsync := syncBlock_of_root hexec hroot
  have haft : { node with db, feeParams }.commitSynced R block block.header.height =
      { { node with db, feeParams, consensus }.advanceRound R with
        currentBlock := block.header.height + 1 } := by
    simp only [NodeState.commitSynced, hcom]
  have hper : node.oracleTracker.period block.header.height db = db :=
    OracleTracker.period_of_quiet fun hbou =>
      ⟨(hqui.oracle hbou).1, (hqui.oracle hbou).2 _ _ _ hexec⟩
  have hdue := hqui.governance _ hsync
  rw [haft] at hsync hdue
  refine ⟨_, ({ node with db, feeParams }.oraclePeriod block.header.height).oracleTracker, hsync, ?_⟩
  rw [finalize_of_commit hhei hexec hroot hcom]
  refine Eq.trans ?_ (advanceGovernance_of_not_due hdue)
  simp only [NodeState.oraclePeriod, hper]
  rfl

/-! ### A list of blocks -/

/-- A validator finalizes the next block; a node that has panicked stays so. -/
def bftStep (R : Runtime) (s : Option NodeState) (block : Block) : Option NodeState :=
  s.bind fun node => finalize R node block

/-- The same state, fees, driver and block counter. -/
structure SameChain (n m : NodeState) : Prop where
  db : n.db = m.db
  feeParams : n.feeParams = m.feeParams
  consensus : n.consensus = m.consensus
  currentBlock : n.currentBlock = m.currentBlock

theorem heightAt_of_lt {start : U64} {i : ℕ} (h : start.toNat + i < 2 ^ 64) :
    heightAt start i = BitVec.ofNat 64 (start.toNat + i) := by
  rw [heightAt, min_eq_left (by omega)]

theorem syncLoop_cons {decode : Bytes → Option Block} {start : U64} {i : ℕ} {data : Bytes}
    {rest : List Bytes} {after : NodeState} (hat : heightAt start i = node.currentBlock)
    (hdec : decode data = some block)
    (hstep : node.syncBlock R block node.currentBlock = some after) :
    syncLoop R decode start i (data :: rest) node = ((syncLoop R decode start (i + 1) rest after).1,
        ⟨node, block, after⟩ :: (syncLoop R decode start (i + 1) rest after).2) := by
  rw [syncLoop]
  simp only [hat, BitVec.lt_irrefl, if_false, hdec, hstep]

theorem agree_from (R : Runtime) (decode : Bytes → Option Block) (start : U64)
    {data : List Bytes} {blocks : List Block}
    (hdata : List.Forall₂ (fun d b => decode d = some b) data blocks) :
    ∀ (i : ℕ) (node : NodeState) (t : OracleTracker),
      node.currentBlock = BitVec.ofNat 64 (start.toNat + i) →
      start.toNat + i + blocks.length ≤ 2 ^ 64 →
      Run.Along (bftStep R) (fun s b => ∀ n ∈ s, ValidNext R n b ∧ Quiet R n b) (some node) blocks →
      ∃ n t', Run.run (bftStep R) (some node) blocks = some n ∧
        (syncLoop R decode start i data { node with oracleTracker := t }).1 =
          { n with oracleTracker := t' } ∧
        (syncLoop R decode start i data { node with oracleTracker := t }).2.length =
          blocks.length := by
  induction hdata with
  | nil =>
    intro i node t _ _ _
    exact ⟨node, t, rfl, rfl, rfl⟩
  | @cons d b data blocks hd _ ih =>
    rintro i node t hcur hroom ⟨hb, hblo⟩
    obtain ⟨hval, hqui⟩ := hb node rfl
    obtain ⟨after, t', hsync, hfin⟩ := finalize_eq_sync hval hqui
    have hhei : b.header.height = node.currentBlock := hval.height.trans hval.counter.symm
    have hnext : after.currentBlock = BitVec.ofNat 64 (start.toNat + (i + 1)) := by
      rw [(syncBlock_of_height hsync hval.height).2.2, hhei, hcur]
      exact (BitVec.ofNat_add _ 1).symm
    have hstep : bftStep R (some node) b = some { after with oracleTracker := t' } := hfin
    rw [hstep] at hblo
    rw [List.length_cons] at hroom
    -- the loop sees the same block from a node with another tracker
    have hat : heightAt start i = node.currentBlock := by
      rw [heightAt_of_lt (by omega), hcur]
    have hloop : { node with oracleTracker := t }.syncBlock R b node.currentBlock =
        some { after with oracleTracker := t } := by
      rw [syncBlock_withTracker, ← hhei, hsync]
      rfl
    obtain ⟨n, t'', hrun, hnode, hlen⟩ :=
      ih (i + 1) { after with oracleTracker := t' } t hnext (by omega) hblo
    have hcons : syncLoop R decode start i (d :: data) { node with oracleTracker := t } =
        ((syncLoop R decode start (i + 1) data { after with oracleTracker := t }).1,
          ⟨{ node with oracleTracker := t }, b, { after with oracleTracker := t }⟩ ::
            (syncLoop R decode start (i + 1) data { after with oracleTracker := t }).2) :=
      syncLoop_cons hat hd hloop
    refine ⟨n, t'', ?_, ?_, ?_⟩
    · rw [Run.run_cons, hstep]
      exact hrun
    · rw [hcons]
      exact hnode
    · rw [hcons]
      exact congrArg (· + 1) hlen

/-- **A synced node agrees.** For every node and list of blocks below height 2^64: if on the
validator's side each block is the next valid one and nothing beside it happens at its height,
then a node that applies the list through the loop applies all of it and ends with the same state,
fees, driver and block counter. -/
theorem synced_node_agrees (R : Runtime) (decode : Bytes → Option Block) (node : NodeState)
    (data : List Bytes) (blocks : List Block)
    (hdata : List.Forall₂ (fun d b => decode d = some b) data blocks)
    (hroom : node.currentBlock.toNat + blocks.length ≤ 2 ^ 64)
    (hblocks : Run.Along (bftStep R) (fun s b => ∀ n ∈ s, ValidNext R n b ∧ Quiet R n b)
      (some node) blocks) : ∃ n, Run.run (bftStep R) (some node) blocks = some n ∧
      SameChain n (applySyncedBlocks R decode ⟨node.currentBlock, data⟩ node).1 ∧
      (applySyncedBlocks R decode ⟨node.currentBlock, data⟩ node).2 = blocks.length := by
  obtain ⟨n, t, hrun, hnode, hlen⟩ :=
    agree_from R decode node.currentBlock hdata 0 node node.oracleTracker
      (by rw [Nat.add_zero, BitVec.ofNat_toNat, BitVec.setWidth_eq]) hroom hblocks
  refine ⟨n, hrun, ?_, hlen⟩
  have hfst : (applySyncedBlocks R decode ⟨node.currentBlock, data⟩ node).1 =
      { n with oracleTracker := t } := hnode
  rw [hfst]
  exact ⟨rfl, rfl, rfl, rfl⟩

/-- A proposal is open to votes until block 100. -/
def voteOpen : NodeState :=
  { nodeAt5 with
    db := { gov := { gov :=
      { proposalCount := 1, proposal := fun _ => { status := .active, endBlock := 100 } } } } }

theorem quiet_of_open {n : NodeState} {b : Block}
    (hbou : b.header.height % oracleUpdateInterval ≠ 0) (h : (n.syncBlock poolRuntime b b.header.height).map (fun after =>
      (after.db.gov.gov.proposalCount, (after.db.gov.gov.proposal 1).status,
        (after.db.gov.gov.proposal 1).endBlock)) = some (1, .active, 100))
    (hend : b.header.height + 1 ≤ 100) : Quiet poolRuntime n b := by
  refine ⟨fun h => absurd h hbou, fun after haft proposalId hid hdue => ?_⟩
  rw [haft, Option.map_some, Option.some_inj, Prod.mk.injEq, Prod.mk.injEq] at h
  obtain ⟨hcou, hsta, hlast⟩ := h
  rw [Governance.State.proposalIds, hcou] at hid
  obtain rfl : proposalId = 1 := List.mem_singleton.1 hid
  unfold Governance.Proposal.Due at hdue
  rw [hsta] at hdue
  exact BitVec.not_lt.2 hend (hlast ▸ hdue)

theorem synced_node_agrees_at_children :
    ∃ n, Run.run (bftStep poolRuntime) (some voteOpen) [childAt5, childAt6] = some n ∧
      SameChain n (applySyncedBlocks poolRuntime decodeChildren ⟨5, [[], [1]]⟩ voteOpen).1 ∧
      (applySyncedBlocks poolRuntime decodeChildren ⟨5, [[], [1]]⟩ voteOpen).2 = 2 := by
  refine synced_node_agrees poolRuntime decodeChildren voteOpen [[], [1]] [childAt5, childAt6]
    (.cons rfl (.cons rfl .nil)) (by decide) ⟨?_, ?_, trivial⟩
  · rintro n ⟨⟩
    exact ⟨⟨rfl, rfl, rfl, bftVerify_eq_true.1 (by decide)⟩,
      quiet_of_open (by decide) (by decide) (by decide)⟩
  · rintro n ⟨⟩
    exact ⟨⟨rfl, rfl, rfl, bftVerify_eq_true.1 (by decide)⟩,
      quiet_of_open (by decide) (by decide) (by decide)⟩

def pauseDue : NodeState :=
  { nodeAt5 with
    db := { gov := { gov :=
      { proposalCount := 1
        proposal := fun _ =>
          { status := .queued, proposalType := .emergencyPause, executionBlock := 3 } } } } }

/-- The validator's chain is paused while the synced node's is not. -/
theorem synced_node_not_paused : ValidNext poolRuntime pauseDue childAt5 ∧
      (Run.run (bftStep poolRuntime) (some pauseDue) [childAt5]).map (·.db.gov.gov.paused) =
        some true ∧
      (applySyncedBlocks poolRuntime (fun _ => some childAt5) ⟨5, [[]]⟩ pauseDue).2 = 1 ∧
      (applySyncedBlocks poolRuntime (fun _ => some childAt5) ⟨5, [[]]⟩
        pauseDue).1.db.gov.gov.paused = false :=
  ⟨⟨rfl, rfl, rfl, bftVerify_eq_true.1 (by decide)⟩, by decide, by decide, by decide⟩

end Node
end Callchain

/-
# Applying synced blocks

A node that lags asks its peers for blocks and applies the answer in one loop. The place
of a block in the answer, not its header, gives the height at which it is executed; the
root is checked on a copy of the state. The header's height is first looked at by
`commit_block`, after the state has been written, and a refusal is only logged: the
round and the block counter go on. The parent hash is not looked at.
-/
import Callchain.Node.Finalize

namespace Callchain.Node

open Consensus

/-- The root it also carries is not read. -/
structure SyncResponse where
  startHeight : U64
  blocks : List Bytes

variable (R : Runtime)

/-- The end of the loop's body, for a block that was executed: the commit may
fail, and all the rest goes on. -/
def NodeState.commitSynced (node : NodeState) (block : Block) (blockHeight : U64) : NodeState :=
  let consensus :=
    match node.consensus.commitBlock R.crypto block with
    | .ok consensus => consensus
    | .error _ => node.consensus
  { { node with consensus }.advanceRound R with currentBlock := blockHeight + 1 }

def NodeState.syncBlock (node : NodeState) (block : Block) (blockHeight : U64) :
    Option NodeState :=
  match node.executeBlockCloned R block blockHeight with
  | .error _ => none
  | .ok cloned =>
    if cloned.stateRoot ≠ block.header.stateRoot then none
    else
      match node.executeBlock R block blockHeight with
      | .error _ => none
      | .ok (node, result) =>
        some (node.commitSynced R (block.finalize result.stateRoot) blockHeight)

structure Applied where
  before : NodeState
  block : Block
  after : NodeState

def heightAt (startHeight : U64) (i : ℕ) : U64 :=
  BitVec.ofNat 64 (min (startHeight.toNat + i) (2 ^ 64 - 1))

/-- The loop from index `i`: the node after it, and what was executed.
`decode` is `serde_json::from_slice`. -/
def syncLoop (decode : Bytes → Option Block) (startHeight : U64) :
    ℕ → List Bytes → NodeState → NodeState × List Applied
  | _, [], node => (node, [])
  | i, data :: rest, node =>
    let blockHeight := heightAt startHeight i
    if blockHeight < node.currentBlock then syncLoop decode startHeight (i + 1) rest node
    else if node.currentBlock < blockHeight then (node, [])
    else
      match decode data with
      | none => syncLoop decode startHeight (i + 1) rest node
      | some block =>
        match node.syncBlock R block blockHeight with
        | none => (node, [])
        | some after =>
          let r := syncLoop decode startHeight (i + 1) rest after
          (r.1, ⟨node, block, after⟩ :: r.2)

/-- With the number of blocks applied. -/
def applySyncedBlocks (decode : Bytes → Option Block) (response : SyncResponse)
    (node : NodeState) : NodeState × ℕ :=
  let r := syncLoop R decode response.startHeight 0 response.blocks node
  (r.1, r.2.length)

variable {R} {node : NodeState} {block : Block}

/-! ### One block -/

theorem advanceRound_currentHeight (node : NodeState) :
    (node.advanceRound R).consensus.currentHeight = node.consensus.currentHeight ∧
      (node.advanceRound R).consensus.lastBlockHash = node.consensus.lastBlockHash := by
  unfold NodeState.advanceRound SimplexConsensus.advanceRound
  dsimp only
  split_ifs
  · exact ⟨rfl, rfl⟩
  · exact ⟨rfl, rfl⟩

theorem syncBlock_spec {height : U64} {after : NodeState}
    (h : node.syncBlock R block height = some after) : ∃ db feeParams result,
      block.execute R node.db node.feeParams height = .ok (db, feeParams, result) ∧
        result.stateRoot = block.header.stateRoot ∧
        after = { node with db, feeParams }.commitSynced R block height := by
  unfold NodeState.syncBlock NodeState.executeBlockCloned NodeState.executeBlock at h
  cases hexec : block.execute R node.db node.feeParams height with
  | error =>
    rw [hexec] at h
    cases h
  | ok r =>
    obtain ⟨db, feeParams, result⟩ := r
    rw [hexec] at h
    simp only [Except.map] at h
    split_ifs at h with hne
    have hroot := not_not.1 hne
    have hblo : block.finalize result.stateRoot = block := by
      rw [hroot]
      rfl
    rw [hblo] at h
    exact ⟨db, feeParams, result, rfl, hroot, (Option.some_inj.1 h).symm⟩

theorem syncBlock_of_height {height : U64} {after : NodeState}
    (h : node.syncBlock R block height = some after)
    (hhei : block.header.height = node.consensus.currentHeight) :
    after.consensus.currentHeight = node.consensus.currentHeight + 1 ∧
      after.consensus.lastBlockHash = block.header.hash R.crypto.keccak256 ∧
      after.currentBlock = height + 1 := by
  obtain ⟨db, feeParams, result, _, _, rfl⟩ := syncBlock_spec h
  have hcom : node.consensus.commitBlock R.crypto block = .ok
      { node.consensus with
        lastBlockHash := block.header.hash R.crypto.keccak256
        currentHeight := node.consensus.currentHeight + 1 } :=
    (SimplexConsensus.commitBlock_eq_ok R.crypto).2 ⟨hhei, rfl⟩
  unfold NodeState.commitSynced
  simp only [hcom]
  exact ⟨(advanceRound_currentHeight _).1, (advanceRound_currentHeight _).2, trivial⟩

/-! ### The whole loop -/

/-- The blocks count up from the height and each has the hash before it as parent. -/
def Chained (keccak256 : Bytes → B256) : U64 → B256 → List Block → Prop
  | _, _, [] => True
  | height, parentHash, block :: rest =>
    block.header.height = height ∧ block.header.parentHash = parentHash ∧
      Chained keccak256 (height + 1) (block.header.hash keccak256) rest

/-- Every block that the loop executes has the driver's height and last hash, the two
counters end equal, and a block whose commit is refused changes nothing. -/
structure SyncSafe (R : Runtime) (r : NodeState × List Applied) : Prop where
  linked : ∀ a ∈ r.2, a.block.header.height = a.before.consensus.currentHeight ∧
    a.block.header.parentHash = a.before.consensus.lastBlockHash
  counters : r.1.currentBlock = r.1.consensus.currentHeight
  refused : ∀ a ∈ r.2, ∀ e, a.before.consensus.commitBlock R.crypto a.block = .error e →
    a.after.db = a.before.db

theorem commitBlock_ne_error {e : BlockError}
    (hhei : block.header.height = node.consensus.currentHeight) :
    node.consensus.commitBlock R.crypto block ≠ .error e := by
  rw [(SimplexConsensus.commitBlock_eq_ok R.crypto).2 ⟨hhei, rfl⟩]
  intro h
  cases h

theorem syncSafe_nil : SyncSafe R (node, []) ↔ node.currentBlock = node.consensus.currentHeight :=
  ⟨fun h => h.counters, fun h => ⟨by simp, h, by simp⟩⟩

theorem syncSafe_cons {a : Applied} {r : NodeState × List Applied} :
    SyncSafe R (r.1, a :: r.2) ↔ (a.block.header.height = a.before.consensus.currentHeight ∧
        a.block.header.parentHash = a.before.consensus.lastBlockHash) ∧ SyncSafe R r := by
  constructor
  · intro h
    refine ⟨h.linked a List.mem_cons_self, fun x hx => ?_, h.counters, fun x hx => ?_⟩
    · exact h.linked x (List.mem_cons_of_mem _ hx)
    · exact h.refused x (List.mem_cons_of_mem _ hx)
  · rintro ⟨ha, h⟩
    refine ⟨fun x hx => ?_, h.counters, fun x hx e he => ?_⟩
    · rcases List.mem_cons.1 hx with rfl | hx
      · exact ha
      · exact h.linked x hx
    · rcases List.mem_cons.1 hx with rfl | hx
      · exact absurd he (commitBlock_ne_error ha.1)
      · exact h.refused x hx e he

/-- The induction runs over the list; the counters are equal before every block,
as long as the blocks are linked. -/
theorem syncSafe_iff_chained (decode : Bytes → Option Block) (start : U64) :
    ∀ (i : ℕ) (blocks : List Bytes) (node : NodeState),
      node.currentBlock = node.consensus.currentHeight →
      (SyncSafe R (syncLoop R decode start i blocks node) ↔
        Chained R.crypto.keccak256 node.currentBlock node.consensus.lastBlockHash
          ((syncLoop R decode start i blocks node).2.map (·.block)))
  | _, [], node, hcou => iff_of_true (syncSafe_nil.2 hcou) trivial
  | i, data :: rest, node, hcou => by
    have hskip := syncSafe_iff_chained decode start (i + 1) rest node hcou
    have hlea : SyncSafe R (node, []) ↔ Chained R.crypto.keccak256 node.currentBlock
        node.consensus.lastBlockHash (([] : List Applied).map (·.block)) :=
      iff_of_true (syncSafe_nil.2 hcou) trivial
    rw [syncLoop]
    by_cases hlow : heightAt start i < node.currentBlock
    · rw [if_pos hlow]
      exact hskip
    by_cases hhigh : node.currentBlock < heightAt start i
    · rw [if_neg hlow, if_pos hhigh]
      exact hlea
    rw [if_neg hlow, if_neg hhigh]
    have hat : heightAt start i = node.currentBlock :=
      BitVec.le_antisymm (BitVec.not_lt.1 hhigh) (BitVec.not_lt.1 hlow)
    cases decode data with
    | none => exact hskip
    | some block =>
      cases hstep : node.syncBlock R block (heightAt start i) with dsimp only
      | none =>
        rw [hstep]
        exact hlea
      | some after =>
        rw [hstep]
        rw [syncSafe_cons, List.map_cons, Chained, ← hcou, ← and_assoc]
        refine and_congr_right fun hlin => ?_
        obtain ⟨hhei, hhash, hblo⟩ := syncBlock_of_height hstep (hlin.1.trans hcou)
        have haft : after.currentBlock = after.consensus.currentHeight := by
          rw [hblo, hhei, hat, hcou]
        rw [syncSafe_iff_chained decode start (i + 1) rest after haft, hblo, hat, hhash]

def childAt5 : Block := (Block.new 5 7 1000 1 ⟨1, 0, 0⟩ [[1]]).finalize 1

def childAt6 : Block :=
  (Block.new 6 (childAt5.header.hash poolRuntime.crypto.keccak256) 1010 1 ⟨1, 0, 0⟩
    [[2]]).finalize 2

/-- The text of the first block is empty. -/
def decodeChildren (data : Bytes) : Option Block := some (if data = [] then childAt5 else childAt6)

end Callchain.Node

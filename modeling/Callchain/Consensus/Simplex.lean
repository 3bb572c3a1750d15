/-
# The consensus driver

`SimplexConsensus` keeps the height, the round, the hash of the last block and the
validators that may propose in this epoch. They are chosen by a score that depends on
the last hash and the round, anew when the round is a multiple of the epoch's length.

A block is accepted by `validate_block` on its header alone, which does not commit to
the transactions: an accepted block stays accepted, with its hash, under any list of
them (`transactions_bound_iff`).
-/
import Callchain.Consensus.Block
import Callchain.Consensus.Writers
import Callchain.Evm.BlockExecutor

namespace Callchain.Consensus

open Validator

structure Crypto where
  keccak256 : Bytes → B256
  /-- `vrf_sortition_score` of a public key and a seed -/
  vrfSortitionScore : Bytes32 → B256 → B256

section Proposer

variable (C : Crypto)

def deriveVrfSeed (prevBlockHash : B256) (round : U64) : B256 :=
  C.keccak256 (beBytes 32 prevBlockHash.toNat ++ toLeBytes 8 round.toNat)

/-- The bytes of two scores compare as numbers do. -/
def selectProposerSubset (validators : List ValidatorId)
    (validatorPubkeys : ValidatorId → Option Bytes32) (seed : B256) (subsetSize : BitVec 32) :
    List ValidatorId :=
  if validators.isEmpty ∨ subsetSize = 0 then []
  else
    let scored := validators.filterMap fun id =>
      (validatorPubkeys id).map fun pk => (id, C.vrfSortitionScore pk seed)
    let subset := ((scored.insertionSort fun a b => a.2 ≤ b.2).take subsetSize.toNat).map Prod.fst
    subset.insertionSort (· ≤ ·)

def selectProposer (subset : List ValidatorId) (round : U64) : Option ValidatorId :=
  subset[round.toNat % subset.length]?

end Proposer

namespace SimplexConsensus

variable (C : Crypto) (c : SimplexConsensus) (v : ValidatorStorage)

/-- `qualified_validators_internal`; the ids are cut to 32 bits. -/
def qualifiedValidators (params : ConsensusParams) : List ValidatorId :=
  (validatorIds v).filterMap fun id =>
    let addr := v.validatorAddr id
    if addr ≠ 0 ∧ v.status addr ≠ 0 ∧ params.minSelfStake ≤ v.stake addr
    then some (id.setWidth 32) else none

/-- `build_pubkey_map_internal` -/
def buildPubkeyMap : ValidatorId → Option Bytes32 :=
  (validatorIds v).foldl
    (fun map id =>
      if v.validatorAddr id ≠ 0
      then Function.update map (id.setWidth 32) (some (v.pubkey (v.validatorAddr id)))
      else map)
    fun _ => none

def subsetFor (params : ConsensusParams) (lastBlockHash : B256) (round : U64) :
    List ValidatorId :=
  selectProposerSubset C (qualifiedValidators v params) (buildPubkeyMap v)
    (deriveVrfSeed C lastBlockHash round) params.subsetSize

def new (params : ConsensusParams) : SimplexConsensus :=
  { params, proposerSubset := subsetFor C v params 0 0 }

def recomputeProposerSubset : SimplexConsensus :=
  { c with proposerSubset := subsetFor C v c.params c.lastBlockHash c.currentRound }

def currentProposer : Option ValidatorId := selectProposer c.proposerSubset c.currentRound

/-- With the validators after the churn. -/
def advanceRound : SimplexConsensus × ValidatorStorage :=
  let c := { c with currentRound := c.currentRound + 1 }
  if c.currentRound % c.params.epochLength = 0 then
    let v := c.processEpochChurn v
    (c.recomputeProposerSubset C v, v)
  else (c, v)

def validateBlock (block : Block) (parentHash : B256) (fm : ForkManager) :
    Except BlockError Unit :=
  if block.header.proposer ∉ c.proposerSubset then
    .error (.proposerNotInSubset block.header.proposer)
  else if block.header.height ≠ c.currentHeight then
    .error (.invalidBlock (.height c.currentHeight block.header.height))
  else block.validate parentHash fm

def commitBlock (block : Block) : Except BlockError SimplexConsensus :=
  if block.header.height ≠ c.currentHeight then
    .error (.invalidBlock (.height c.currentHeight block.header.height))
  else .ok
    { c with
      lastBlockHash := block.header.hash C.keccak256
      currentHeight := c.currentHeight + 1 }

/-- What `validate_block` asks of a header. -/
structure Valid (h : BlockHeader) (parentHash : B256) (fm : ForkManager) : Prop where
  inSubset : h.proposer ∈ c.proposerSubset
  height : h.height = c.currentHeight
  parent : h.parentHash = parentHash
  genesis : h.height = 0 → h.parentHash = 0
  timestamp : h.timestampMillis ≠ 0
  proposer : h.proposer ≠ 0
  version : h.version = fm.versionAtHeight h.height

variable {c} {block : Block} {parentHash : B256} {fm : ForkManager}

theorem validateBlock_eq_ok :
    c.validateBlock block parentHash fm = .ok () ↔ c.Valid block.header parentHash fm := by
  unfold validateBlock Block.validate
  by_cases hsub : block.header.proposer ∈ c.proposerSubset
  case neg =>
    rw [if_pos hsub]
    exact iff_of_false (by simp) fun hv => hsub hv.inSubset
  by_cases hhei : block.header.height = c.currentHeight
  case neg =>
    rw [if_neg (not_not.2 hsub), if_pos hhei]
    exact iff_of_false (by simp) fun hv => hhei hv.height
  rw [if_neg (not_not.2 hsub), if_neg (not_not.2 hhei), BlockHeader.validate_eq_ok]
  constructor
  · rintro ⟨hpar, hgen, htim, hpro, hver⟩
    exact ⟨hsub, hhei, hpar, hgen, htim, hpro, hver⟩
  · intro hv
    exact ⟨hv.parent, hv.genesis, hv.timestamp, hv.proposer, hv.version⟩

theorem commitBlock_eq_ok {c' : SimplexConsensus} :
    c.commitBlock C block = .ok c' ↔ block.header.height = c.currentHeight ∧ c' = { c with
        lastBlockHash := block.header.hash C.keccak256
        currentHeight := c.currentHeight + 1 } := by
  unfold commitBlock
  split_ifs with hhei
  · exact iff_of_false (by simp) fun h => hhei h.1
  · rw [Except.ok.injEq, eq_comm]
    exact (and_iff_right (not_not.1 hhei)).symm

theorem exists_commitBlock_error :
    (∃ e, c.commitBlock C block = .error e) ↔ block.header.height ≠ c.currentHeight := by
  unfold commitBlock
  split_ifs with hhei
  · exact iff_of_true ⟨_, rfl⟩ hhei
  · exact iff_of_false (by simp) hhei

/-! ### What a header hash fixes -/

/-- Some block is accepted, unless nobody with an id may propose or the first
block would need another parent. -/
theorem exists_valid_iff : (∃ h : BlockHeader, c.Valid h parentHash fm) ↔
      (∃ p ∈ c.proposerSubset, p ≠ 0) ∧ (c.currentHeight = 0 → parentHash = 0) := by
  constructor
  · rintro ⟨h, hv⟩
    refine ⟨⟨h.proposer, hv.inSubset, hv.proposer⟩, fun h0 => ?_⟩
    rw [← hv.parent]
    exact hv.genesis (hv.height.trans h0)
  · rintro ⟨⟨p, hp, hne⟩, hgen⟩
    let h : BlockHeader :=
      { parentHash
        height := c.currentHeight
        timestampMillis := 1
        proposer := p
        version := fm.versionAtHeight c.currentHeight }
    exact ⟨h, hp, rfl, rfl, hgen, (by decide : (1 : U64) ≠ 0), hne, rfl⟩

end SimplexConsensus

theorem executeBlockTransactions_append_nil (H : Evm.Host) (txs : List Bytes)
    (provider : Evm.InMemoryStateProvider) (blk : Evm.BlockParams) :
    Evm.executeBlockTransactions H (txs ++ [[]]) provider blk =
      Evm.executeBlockTransactions H txs provider blk := by
  have hskip : ∀ s, (Evm.executeTx H blk s []).1 = s := fun _ => rfl
  simp only [Evm.executeBlockTransactions, Evm.executeLoop, Evm.runTxs, Run.run_append,
    Run.run_cons, Run.run_nil, hskip]

/-- **The hash binds the header only.** Two accepted blocks with one header hash carry the same
transactions only if no block is accepted. And every block has a twin with one more transaction
and the same verdict, hash and execution. -/
theorem transactions_bound_iff (C : Crypto) (c : SimplexConsensus) (parentHash : B256)
    (fm : ForkManager) : ((∀ b b' : Block, c.validateBlock b parentHash fm = .ok () →
        c.validateBlock b' parentHash fm = .ok () →
        b.header.hash C.keccak256 = b'.header.hash C.keccak256 → b.evmTxs = b'.evmTxs) ↔
      (∀ p ∈ c.proposerSubset, p = 0) ∨ (c.currentHeight = 0 ∧ parentHash ≠ 0)) ∧
    ∀ b : Block, ∃ b' : Block, b'.evmTxs ≠ b.evmTxs ∧
      c.validateBlock b' parentHash fm = c.validateBlock b parentHash fm ∧
      b'.header.hash C.keccak256 = b.header.hash C.keccak256 ∧
      ∀ H provider blk, Evm.executeBlockTransactions H b'.evmTxs provider blk =
        Evm.executeBlockTransactions H b.evmTxs provider blk := by
  have hnone : ((∀ p ∈ c.proposerSubset, p = 0) ∨ (c.currentHeight = 0 ∧ parentHash ≠ 0)) ↔
      ¬ ∃ h : BlockHeader, c.Valid h parentHash fm := by
    rw [SimplexConsensus.exists_valid_iff, not_and_or]
    push Not
    rfl
  refine ⟨⟨fun hbou => ?_, fun hcond b _ hb _ _ => ?_⟩, fun b => ?_⟩
  · rw [hnone]
    rintro ⟨h, hv⟩
    have hok : ∀ txs, c.validateBlock ⟨h, txs⟩ parentHash fm = .ok () :=
      fun _ => SimplexConsensus.validateBlock_eq_ok.2 hv
    exact absurd (hbou ⟨h, []⟩ ⟨h, [[]]⟩ (hok _) (hok _) rfl) (by simp)
  · exact absurd ⟨_, SimplexConsensus.validateBlock_eq_ok.1 hb⟩ (hnone.1 hcond)
  · refine ⟨⟨b.header, b.evmTxs ++ [[]]⟩, by simp, rfl, rfl, fun H provider blk => ?_⟩
    exact executeBlockTransactions_append_nil H b.evmTxs provider blk

def atHeight5 : SimplexConsensus where
  currentHeight := 5
  proposerSubset := [1]
  lastBlockHash := 7

def blockAt5 (evmTxs : List Bytes) : Block := Block.new 5 7 1000 1 ⟨1, 0, 0⟩ evmTxs

/-- Two accepted blocks at height 5, of no and of one transaction, whatever the
hash. -/
theorem twin_blocks_accepted :
    atHeight5.validateBlock (blockAt5 []) 7 (.new ⟨1, 0, 0⟩ 21) = .ok () ∧
      atHeight5.validateBlock (blockAt5 [[0x02, 0xc0]]) 7 (.new ⟨1, 0, 0⟩ 21) = .ok () ∧
      (∀ keccak256 : Bytes → B256,
        (blockAt5 []).header.hash keccak256 = (blockAt5 [[0x02, 0xc0]]).header.hash keccak256) ∧
      (blockAt5 []).evmTxs ≠ (blockAt5 [[0x02, 0xc0]]).evmTxs :=
  ⟨rfl, rfl, fun _ => rfl, by decide⟩

end Callchain.Consensus

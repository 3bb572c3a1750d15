/-
# Executing a block

`Block::execute` runs the transactions and then settles the block: it moves the base fee
by the gas used, and credits shares of the fees, at the new base fee, to the pool of
oracle rewards and to the proposer's stake. The state root is taken after that.

The state is the accounts and the records of the precompiles that the node itself reads
and writes. How the transactions change it (`Evm.executeBlockTransactions` has the loop
over raw storage) and the root are parameters.
-/
import Callchain.Consensus.Simplex
import Callchain.Governance.Storage

namespace Callchain.Consensus

/-! ### Fees -/

/-- With the source's defaults. -/
structure FeeParams where
  baseFee : U128 := 10
  targetGasPerBlock : U64 := 10000000
  maxGasPerBlock : U64 := 20000000
  adjustmentCoefficient : U128 := 1
  minBaseFee : U128 := 1
  maxBaseFee : U128 := 1000000000
  initialBaseFee : U128 := 10
  oracleFeeShareBps : BitVec 16 := 100
  validatorFeeShareBps : BitVec 16 := 0
  deriving DecidableEq

/-- An `i128` product, which wraps in a release build. -/
def wrapI128 (x : ℤ) : ℤ := Int.bmod x (2 ^ 128)

/-- The result of a saturating `i128` operation. -/
def saturateI128 (x : ℤ) : ℤ := max (-2 ^ 127) (min x (2 ^ 127 - 1))

namespace FeeParams

variable (p : FeeParams)

/-- `base_fee * numerator / (target * 8)` in `i128`. -/
def feeChange (distance : ℤ) : ℤ :=
  let numerator := wrapI128 (distance * p.adjustmentCoefficient.toInt)
  (saturateI128 (p.baseFee.toInt * numerator)).tdiv (p.targetGasPerBlock.toNat * 8)

/-- A gas target of zero that is exceeded divides by zero: the node panics. -/
def updateBaseFee (gasUsed : U64) : Option FeeParams :=
  let diff : ℤ := gasUsed.toNat - p.targetGasPerBlock.toNat
  if 0 < diff then
    if p.targetGasPerBlock = 0 then none
    else
      let fee := saturateI128 (p.baseFee.toInt + p.feeChange diff)
      some { p with
        baseFee := BitVec.ofInt 128 (max (min fee p.maxBaseFee.toInt) p.minBaseFee.toInt) }
  else if diff < 0 then
    let fee := saturateI128 (p.baseFee.toInt - p.feeChange (-diff))
    some { p with baseFee := BitVec.ofInt 128 (max fee p.minBaseFee.toInt) }
  else some p

end FeeParams

/-! ### The state of the chain -/

/-- The state that blocks change: the precompiles that the node works on, the pool of
oracle rewards, and the accounts with all other storage. -/
structure ChainState where
  accounts : Evm.InMemoryStateProvider := ⟨fun _ => none⟩
  gov : Governance.State := {}
  oracleRewardPool : U128 := 0

namespace ChainState

variable (s : ChainState)

def withValidators (validators : Validator.ValidatorStorage) : ChainState :=
  { s with gov := { s.gov with validators } }

def addOracleReward (amount : U128) : ChainState :=
  { s with oracleRewardPool := s.oracleRewardPool + amount }

def distributeRewardEvm (addr : Address) (amount : U128) : ChainState :=
  s.withValidators { s.gov.validators with
    stake := Function.update s.gov.validators.stake addr (s.gov.validators.stake addr + amount) }

end ChainState

structure Runtime where
  crypto : Crypto
  /-- `execute_block_transactions`, with its delta applied -/
  executeBlockTransactions : List Bytes → ChainState → Evm.BlockParams →
    Except String (ChainState × Evm.BlockTxResult)
  /-- `compute_state_root_with_updates`, without the updates -/
  stateRoot : ChainState → B256

structure BlockExecutionResult where
  stateRoot : B256
  evmTxCount : ℕ
  totalValidatorReward : U128
  evmGasUsed : U64
  evmTxResults : List Evm.BlockTxEntry

namespace Block

variable (R : Runtime) (block : Block)

/-- The state and the fees after it, and its result. The products wrap. -/
def execute (s : ChainState) (feeParams : FeeParams) (currentBlockHeight : U64) :
    Except BlockError (ChainState × FeeParams × BlockExecutionResult) :=
  match R.executeBlockTransactions block.evmTxs s
      ⟨currentBlockHeight, block.header.timestampMillis, feeParams.baseFee⟩ with
  | .error e => .error (.invalidBlock (.evmExecution e))
  | .ok (s, txResult) =>
    match feeParams.updateBaseFee txResult.evmGasUsed with
    | none => .error (.invalidBlock .zeroGasTarget)
    | some feeParams =>
      let totalFees : U128 := txResult.evmGasUsed.setWidth 128 * feeParams.baseFee
      let oracleShare := totalFees * feeParams.oracleFeeShareBps.setWidth 128 / 10000
      let s := s.addOracleReward oracleShare
      let validatorShare := totalFees * feeParams.validatorFeeShareBps.setWidth 128 / 10000
      let proposerAddr := s.gov.validators.validatorAddr (block.header.proposer.setWidth 64)
      let rewarded : Bool := 0 < validatorShare ∧ proposerAddr ≠ 0
      let s := if rewarded then s.distributeRewardEvm proposerAddr validatorShare else s
      .ok (s, feeParams,
        { stateRoot := R.stateRoot s
          evmTxCount := txResult.evmTxCount
          totalValidatorReward := if rewarded then validatorShare else 0
          evmGasUsed := txResult.evmGasUsed
          evmTxResults := txResult.evmTxResults })

variable {R block}

end Block
end Callchain.Consensus

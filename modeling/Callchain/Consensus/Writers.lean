/-
# Validators as consensus writes them

The consensus engine changes the slots of the validator precompile from outside:
`state_accessors` has writers that stake, slash and remove a validator without the asset
storage, the queue or the count of active validators, and `SimplexConsensus` calls them
to punish and at the end of every epoch. This module has the writers, their callers, and
the run in which they interleave with the precompile's operations.
-/
import Callchain.Validator.Invariants

namespace Callchain.Consensus

open Validator Asset

/-! ### The writers of `state_accessors` -/

section Writers

variable (v : ValidatorStorage)

def removeValidatorEvm (addr : Address) : ValidatorStorage :=
  { v with
    stake := Function.update v.stake addr 0
    status := Function.update v.status addr 0 }

/-- With the id it assigns. The BLS key, which no modelled function reads, is left out.
-/
def stakeValidatorEvm (addr : Address) (pubkey : Bytes32) (amount : U128) :
    ValidatorStorage × U64 :=
  let validatorId := v.validatorCount + 1
  ({ v with
    validatorCount := validatorId
    validatorAddr := Function.update v.validatorAddr validatorId addr
    validatorByAddr := Function.update v.validatorByAddr addr validatorId
    stake := Function.update v.stake addr amount
    pubkey := Function.update v.pubkey addr pubkey
    status := Function.update v.status addr 1 }, validatorId)

/-- With what was slashed. -/
def slashValidatorEvm (addr : Address) (amount : U128) : ValidatorStorage × U128 :=
  let current := v.stake addr
  let slashed := if current ≤ amount then current else amount
  let newStake := current - slashed
  ({ v with
    stake := Function.update v.stake addr newStake
    status := if newStake = 0 then Function.update v.status addr 0 else v.status }, slashed)

end Writers

/-! ### `SimplexConsensus` -/

/-- With the source's defaults. -/
structure ConsensusParams where
  maxValidators : BitVec 32 := 216
  subsetSize : BitVec 32 := 21
  blockTimeMillis : U64 := 250
  slashingWindow : U64 := 10000
  oracleRequestDelayMs : U64 := 200
  epochLength : U64 := 100
  minSelfStake : U128 := 1000000000000000000000000
  unbondingPeriodBlocks : U64 := 120960
  offlineSlashRateBps : U128 := 10
  keyRotationGraceBlocks : U64 := 100
  churnLimitQuotient : U64 := 16
  minChurnLimit : U64 := 2
  safetyRatioNum : BitVec 32 := 4
  safetyRatioDen : BitVec 32 := 3
  unbondingSlashExtend : BitVec 32 := 2
  maxUnbondingMultiplier : BitVec 32 := 10
  deriving DecidableEq

def ConsensusParams.churnLimit (p : ConsensusParams) (qualifiedCount : U64) : U64 :=
  if p.minChurnLimit ≤ qualifiedCount / p.churnLimitQuotient
  then qualifiedCount / p.churnLimitQuotient else p.minChurnLimit

/-- `ConsensusError`, as far as the handlers return it. -/
inductive ConsensusError where
  | validatorNotFound (validatorId : BitVec 32)
  deriving DecidableEq

structure SimplexConsensus where
  params : ConsensusParams := {}
  currentRound : U64 := 0
  currentHeight : U64 := 0
  proposerSubset : List (BitVec 32) := []
  lastBlockHash : B256 := 0
  deriving DecidableEq

namespace SimplexConsensus

variable (c : SimplexConsensus) (v : ValidatorStorage)

def currentBlock : U64 := if c.currentHeight = 0 then 0 else c.currentHeight - 1

/-- Whether the loop of `process_epoch_churn` removes the validator: it is
active with too small a stake, or its unbonding period is over. -/
def exits (addr : Address) : Bool :=
  if addr = 0 then false
  else if v.status addr ≠ 2 then v.status addr = 1 ∧ v.stake addr < c.params.minSelfStake
  else min (2 ^ 64 - 1) ((v.unbondHeight addr).toNat + c.params.unbondingPeriodBlocks.toNat) ≤
    c.currentBlock.toNat

/-- The loop of `process_epoch_churn`; `room` is what the limit leaves. -/
def churnLoop : List U64 → ℕ → ValidatorStorage → ValidatorStorage
  | [], _, v => v
  | _ :: _, 0, v => v
  | id :: ids, room + 1, v =>
    if c.exits v (v.validatorAddr id)
    then churnLoop ids room (removeValidatorEvm v (v.validatorAddr id))
    else churnLoop ids (room + 1) v

def validatorIds : List U64 :=
  (List.range v.validatorCount.toNat).map fun i => BitVec.ofNat 64 (i + 1)

def processEpochChurn : ValidatorStorage :=
  c.churnLoop (validatorIds v) (c.params.churnLimit v.validatorCount).toNat v

def punish (validatorId : BitVec 32) (amount : U128 → U128) :
    Except ConsensusError (ValidatorStorage × U128) :=
  let addr := v.validatorAddr (validatorId.setWidth 64)
  if addr = 0 then .error (.validatorNotFound validatorId)
  else
    let slashed := amount (v.stake addr)
    .ok ((slashValidatorEvm v addr slashed).1, slashed)

def handleDoubleSign (validatorId : BitVec 32) :
    Except ConsensusError (ValidatorStorage × U128) :=
  punish v validatorId fun stake => stake

/-- The products wrap, as in a release build. -/
def handleOffline (validatorId : BitVec 32) (roundsOffline : U64) :
    Except ConsensusError (ValidatorStorage × U128) :=
  punish v validatorId fun selfStake =>
    selfStake * (c.params.offlineSlashRateBps * roundsOffline.setWidth 128) / 10000

def handleOracleOutlier (validatorId : BitVec 32) :
    Except ConsensusError (ValidatorStorage × U128) :=
  punish v validatorId fun selfStake => selfStake * 10 / 10000

end SimplexConsensus

/-! ### What churn and a handler come to -/

namespace SimplexConsensus

variable {c : SimplexConsensus} {v : ValidatorStorage} {P : ValidatorStorage → Prop}

theorem churnLoop_induction : ∀ {ids : List U64} {room : ℕ}
    {v : ValidatorStorage}, (∀ v, ∀ id ∈ ids, P v → c.exits v (v.validatorAddr id) = true →
      P (removeValidatorEvm v (v.validatorAddr id))) → P v → P (c.churnLoop ids room v)
  | [], _, _, _, hv => hv
  | _ :: _, 0, _, _, hv => hv
  | id :: ids, room + 1, v, hstep, hv => by
    have hrest : ∀ v, ∀ i ∈ ids, P v → c.exits v (v.validatorAddr i) = true →
        P (removeValidatorEvm v (v.validatorAddr i)) :=
      fun v i hi => hstep v i (List.mem_cons_of_mem _ hi)
    rw [churnLoop]
    split_ifs with hexit
    · exact churnLoop_induction hrest (hstep v id List.mem_cons_self hv hexit)
    · exact churnLoop_induction hrest hv

theorem processEpochChurn_induction
    (hstep : ∀ v, ∀ addr, P v → c.exits v addr = true → P (removeValidatorEvm v addr)) (hv : P v) :
    P (c.processEpochChurn v) :=
  churnLoop_induction (fun v _ _ => hstep v _) hv

theorem status_of_exits {addr : Address} (h : c.exits v addr = true) :
    (v.status addr = 1 ∧ v.stake addr < c.params.minSelfStake) ∨ v.status addr = 2 := by
  unfold exits at h
  split_ifs at h with h0 h2
  · left
    simpa using h
  · right
    exact not_not.1 h2

end SimplexConsensus

def settled (v : ValidatorStorage) (r : Except ConsensusError (ValidatorStorage × U128)) :
    ValidatorStorage :=
  match r with
  | .error _ => v
  | .ok (v', _) => v'

theorem settled_punish {P : ValidatorStorage → Prop} {v : ValidatorStorage}
    {vid : BitVec 32} {amount : U128 → U128} (hv : P v)
    (hsla : ∀ addr, addr = v.validatorAddr (vid.setWidth 64) → addr ≠ 0 →
      P (slashValidatorEvm v addr (amount (v.stake addr))).1) :
    P (settled v (SimplexConsensus.punish v vid amount)) := by
  unfold SimplexConsensus.punish
  dsimp only
  split_ifs with h0
  · exact hv
  · exact hsla _ rfl h0

/-! ### Runs -/

inductive Call where
  | precompile (call : ValidatorCall)
  | stakeValidatorEvm (addr : Address) (pubkey : Bytes32) (amount : U128)
  | slashValidatorEvm (addr : Address) (amount : U128)
  | removeValidatorEvm (addr : Address)
  | processEpochChurn (c : SimplexConsensus)
  | handleDoubleSign (validatorId : BitVec 32)
  | handleOffline (c : SimplexConsensus) (validatorId : BitVec 32) (roundsOffline : U64)
  | handleOracleOutlier (validatorId : BitVec 32)

def write (v : ValidatorStorage) : Call → ValidatorStorage
  | .precompile _ => v
  | .stakeValidatorEvm addr pubkey amount => (stakeValidatorEvm v addr pubkey amount).1
  | .slashValidatorEvm addr amount => (slashValidatorEvm v addr amount).1
  | .removeValidatorEvm addr => removeValidatorEvm v addr
  | .processEpochChurn c => c.processEpochChurn v
  | .handleDoubleSign validatorId => settled v (SimplexConsensus.handleDoubleSign v validatorId)
  | .handleOffline c validatorId roundsOffline =>
    settled v (c.handleOffline v validatorId roundsOffline)
  | .handleOracleOutlier validatorId =>
    settled v (SimplexConsensus.handleOracleOutlier v validatorId)

def step (s : Registry) : Call → Registry
  | .precompile call => Validator.step s call
  | call => { s with validators := write s.validators call }

end Callchain.Consensus

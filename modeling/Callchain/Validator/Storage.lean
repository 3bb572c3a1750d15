/-
# The validator registry

`ValidatorStorage` keeps the stake, the status and the position of every validator, and
the queue of those that are unbonding. The stakes themselves are CALL balances of an
escrow address. `slash_stake` takes a validator's stake out of the escrow and clears all
that is recorded of it.

A call that fails part way has made its earlier writes, so the operations return the
storage beside their result.
-/
import Callchain.Asset.Storage

namespace Callchain.Validator

open Asset

inductive ValidatorError where
  | insufficientBalance
  | balanceOverflow
  | escrowOverflow
  | escrowUnderflow
  | belowMinimumStake
  | alreadyStaked
  | notAValidator
  | idMismatch
  | alreadyUnbonding
  | notUnbonding
  | unbondingPeriodNotElapsed
  | noUnbondingRequest
  | belowSafetyFloor
  | invalidPubkey
  | validatorCountOverflow
  deriving DecidableEq

def stakingEscrow : Address := 0xACE

structure UnbondingEntry where
  validatorId : U64 := 0
  amount : U128 := 0
  deriving DecidableEq

structure ValidatorStorage where
  validatorByAddr : Address → U64 := fun _ => 0
  validatorAddr : U64 → Address := fun _ => 0
  stake : Address → U128 := fun _ => 0
  pubkey : Address → Bytes32 := fun _ => 0
  status : Address → BitVec 8 := fun _ => 0
  unbondHeight : Address → U64 := fun _ => 0
  unbondingCount : U64 := 0
  unbonding : U64 → UnbondingEntry := fun _ => {}
  activeValidatorCount : U64 := 0
  validatorCount : U64 := 0
  safetyFloor : U64 := 0
  unbondingPeriodBlocks : U64 := 0

namespace ValidatorStorage

/-- The search of `remove_from_unbonding_queue` for the first entry of a
validator. -/
def findUnbonding (s : ValidatorStorage) (validatorId : U64) : Option ℕ :=
  (List.range s.unbondingCount.toNat).find? fun i =>
    (s.unbonding (BitVec.ofNat 64 i)).validatorId = validatorId

/-- The last entry moves to the place of the one removed. -/
def removeFromUnbondingQueue (s : ValidatorStorage) (validatorId : U64) :
    Except ValidatorError (ValidatorStorage × U128) :=
  match s.findUnbonding validatorId with
  | none => .error .noUnbondingRequest
  | some foundIdx =>
    let found := BitVec.ofNat 64 foundIdx
    let last := s.unbondingCount - 1
    let moved := if s.unbondingCount > 1 ∧ found ≠ last
      then Function.update s.unbonding found (s.unbonding last) else s.unbonding
    .ok ({ s with
      unbonding := Function.update moved last {}
      unbondingCount := last }, (s.unbonding found).amount)

def clearValidatorState (s : ValidatorStorage) (addr : Address) (validatorId : U64) :
    ValidatorStorage :=
  { s with
    validatorByAddr := Function.update s.validatorByAddr addr 0
    stake := Function.update s.stake addr 0
    status := Function.update s.status addr 0
    pubkey := Function.update s.pubkey addr 0
    unbondHeight := Function.update s.unbondHeight addr 0
    validatorAddr := Function.update s.validatorAddr validatorId 0 }

/-- The last write of `slash_stake`: an active validator is counted out. -/
def countOut (s : ValidatorStorage) (status : BitVec 8) : ValidatorStorage :=
  if status = 1 then
    { s with activeValidatorCount :=
        if s.activeValidatorCount = 0 then 0 else s.activeValidatorCount - 1 }
  else s

/-- An address that is no validator has nothing to lose. -/
def slashStake (s : ValidatorStorage) (assets : AssetStorage) (validator : Address) :
    (AssetStorage × ValidatorStorage) × Except ValidatorError U128 :=
  let validatorId := s.validatorByAddr validator
  if validatorId = 0 then ((assets, s), .ok 0)
  else
    let stake := s.stake validator
    match (if stake > 0 then assets.deductBalance callAssetId stakingEscrow stake
      else .ok assets) with
    | .error _ => ((assets, s), .error .escrowUnderflow)
    | .ok assets =>
      let status := s.status validator
      match (if status = 2 then (s.removeFromUnbondingQueue validatorId).map (·.1) else .ok s) with
      | .error e => ((assets, s), .error e)
      | .ok s => ((assets, (s.clearValidatorState validator validatorId).countOut status), .ok stake)

structure Slashable (s : ValidatorStorage) (assets : AssetStorage) (validator : Address) : Prop where
  covered : s.stake validator > 0 →
    (s.stake validator).toNat ≤ (assets.balance callAssetId stakingEscrow).toNat ∧
      (assets.balance callAssetId stakingEscrow).toNat < 2 ^ 128
  queued : s.status validator = 2 → ∃ i, s.findUnbonding (s.validatorByAddr validator) = some i

variable {s : ValidatorStorage} {assets : AssetStorage} {validator : Address}

theorem removeFromUnbondingQueue_ok_iff {vid : U64} :
    (∃ p, s.removeFromUnbondingQueue vid = .ok p) ↔ ∃ i, s.findUnbonding vid = some i := by
  unfold removeFromUnbondingQueue
  cases s.findUnbonding vid with
  | none | some => simp

theorem countOut_validatorByAddr (status : BitVec 8) :
    (s.countOut status).validatorByAddr = s.validatorByAddr := by
  unfold countOut
  split_ifs <;> rfl

theorem slashStake_unregistered (hid : s.validatorByAddr validator = 0) :
    s.slashStake assets validator = ((assets, s), .ok 0) := by
  unfold slashStake
  rw [if_pos hid]

theorem slashStake_registered (hid : s.validatorByAddr validator ≠ 0)
    (h : s.Slashable assets validator) :
    ∃ (assets' : AssetStorage) (s' : ValidatorStorage), (if s.stake validator > 0
        then assets.deductBalance callAssetId stakingEscrow (s.stake validator) else .ok assets) =
          .ok assets' ∧ s.slashStake assets validator =
        ((assets', (s'.clearValidatorState validator (s.validatorByAddr validator)).countOut
          (s.status validator)), .ok (s.stake validator)) := by
  obtain ⟨assets', ha⟩ : ∃ assets', (if s.stake validator > 0
      then assets.deductBalance callAssetId stakingEscrow (s.stake validator) else .ok assets) =
        .ok assets' := by
    split_ifs with hpos
    · obtain ⟨hle, hlt⟩ := h.covered hpos
      exact ⟨_, AssetStorage.deductBalance_eq_ok.2 ⟨hle, hlt, rfl⟩⟩
    · exact ⟨assets, rfl⟩
  obtain ⟨s', hs⟩ : ∃ s', (if s.status validator = 2
      then (s.removeFromUnbondingQueue (s.validatorByAddr validator)).map (·.1) else .ok s) =
        .ok s' := by
    split_ifs with hst
    · obtain ⟨p, hp⟩ := removeFromUnbondingQueue_ok_iff.2 (h.queued hst)
      exact ⟨p.1, by rw [hp]; rfl⟩
    · exact ⟨s, rfl⟩
  refine ⟨assets', s', ha, ?_⟩
  unfold slashStake
  dsimp only
  rw [if_neg hid, ha]
  rw [hs]

theorem slashStake_ok_iff : (∃ n, (s.slashStake assets validator).2 = .ok n) ↔
      s.validatorByAddr validator = 0 ∨ s.Slashable assets validator := by
  constructor
  · rintro ⟨n, hn⟩
    by_cases hid : s.validatorByAddr validator = 0
    · exact .inl hid
    right
    unfold slashStake at hn
    dsimp only at hn
    rw [if_neg hid] at hn
    split at hn
    · cases hn
    · rename_i assets' ha
      split at hn
      · cases hn
      · rename_i s' hs
        constructor
        · intro hpos
          rw [if_pos hpos] at ha
          have hded := AssetStorage.deductBalance_eq_ok.1 ha
          exact ⟨hded.1, hded.2.1⟩
        · intro hst
          rw [if_pos hst] at hs
          rw [← removeFromUnbondingQueue_ok_iff]
          cases hq : s.removeFromUnbondingQueue (s.validatorByAddr validator) with
          | error =>
            rw [hq] at hs
            cases hs
          | ok p => exact ⟨p, rfl⟩
  · intro h
    by_cases hid : s.validatorByAddr validator = 0
    · exact ⟨0, by rw [slashStake_unregistered hid]⟩
    · obtain ⟨assets', s', -, heq⟩ := slashStake_registered hid (h.resolve_left hid)
      exact ⟨_, congrArg Prod.snd heq⟩

theorem slashStake_spec {n : U128} (h : (s.slashStake assets validator).2 = .ok n) :
    (s.slashStake assets validator).1.2.validatorByAddr validator = 0 ∧
      ∀ assetId addr, ¬ (assetId = callAssetId ∧ addr = stakingEscrow) →
        (s.slashStake assets validator).1.1.balance assetId addr = assets.balance assetId addr := by
  by_cases hid : s.validatorByAddr validator = 0
  · rw [slashStake_unregistered hid]
    exact ⟨hid, fun _ _ _ => rfl⟩
  · have hs := (slashStake_ok_iff.1 ⟨n, h⟩).resolve_left hid
    obtain ⟨assets', s', ha, heq⟩ := slashStake_registered hid hs
    rw [heq]
    constructor
    · rw [countOut_validatorByAddr]
      exact Function.update_self ..
    · intro assetId addr hne
      split_ifs at ha with hpos
      · obtain ⟨-, -, rfl⟩ := AssetStorage.deductBalance_eq_ok.1 ha
        apply BitVec.eq_of_toNat_eq
        rw [AssetStorage.writeBalance_toNat, if_neg hne]
      · cases ha
        rfl

end ValidatorStorage

end Callchain.Validator

/-
# What a punishment takes

A handler of `SimplexConsensus` reports the amount it asked for, and
`slash_validator_evm` takes at most the stake. A double sign costs the whole stake. An
offline validator is charged for every round, and neither that product nor the one for
an oracle outlier is checked.
-/
import Callchain.Consensus.Writers

namespace Callchain.Consensus

open Validator SimplexConsensus

/-- A handler that goes through has taken and reports the exact `amount`. A stake that
is gone ends the status; no other slot changes. -/
def Takes (v : ValidatorStorage) (validatorId : BitVec 32) (amount : ℕ → ℕ)
    (r : Except ConsensusError (ValidatorStorage × U128)) : Prop :=
  ∀ w a, r = .ok (w, a) →
    let addr := v.validatorAddr (validatorId.setWidth 64)
    a.toNat = amount (v.stake addr).toNat ∧ a ≤ v.stake addr ∧
      w = { v with
        stake := Function.update v.stake addr (v.stake addr - a)
        status := if v.stake addr - a = 0 then Function.update v.status addr 0 else v.status }

variable {v : ValidatorStorage} {validatorId : BitVec 32}

theorem takes_punish_iff {amount : U128 → U128} {exact : ℕ → ℕ} :
    Takes v validatorId exact (punish v validatorId amount) ↔
      (v.validatorAddr (validatorId.setWidth 64) ≠ 0 →
        let stake := v.stake (v.validatorAddr (validatorId.setWidth 64))
        (amount stake).toNat = exact stake.toNat ∧ (amount stake).toNat ≤ stake.toNat) := by
  unfold Takes punish
  generalize v.validatorAddr (validatorId.setWidth 64) = addr
  dsimp only
  by_cases h0 : addr = 0
  · simp [h0]
  rw [if_neg h0]
  constructor
  · intro h _
    obtain ⟨heq, hle, -⟩ := h _ _ rfl
    exact ⟨heq, BitVec.le_def.1 hle⟩
  · intro h w a hr
    obtain ⟨heq, hle⟩ := h h0
    obtain ⟨rfl, rfl⟩ := Prod.mk.inj (Except.ok.inj hr)
    refine ⟨heq, BitVec.le_def.2 hle, ?_⟩
    -- what is taken is the amount, which is at most the stake
    have htaken : (if v.stake addr ≤ amount (v.stake addr) then v.stake addr
        else amount (v.stake addr)) = amount (v.stake addr) := by
      split_ifs with hge
      · exact BitVec.le_antisymm hge (BitVec.le_def.2 hle)
      · rfl
    rw [slashValidatorEvm, htaken]

theorem offline_exact_iff (stake rate : U128) (rounds : U64) :
    ((stake * (rate * rounds.setWidth 128) / 10000).toNat =
        min stake.toNat (stake.toNat * rate.toNat * rounds.toNat / 10000) ∧
      (stake * (rate * rounds.setWidth 128) / 10000).toNat ≤ stake.toNat) ↔
      (let p := stake.toNat * rate.toNat * rounds.toNat
       if p < 2 ^ 128 then p / 10000 ≤ stake.toNat else p % 2 ^ 128 / 10000 = stake.toNat) := by
  have hrounds : (rounds.setWidth 128).toNat = rounds.toNat := by
    rw [BitVec.toNat_setWidth, Nat.mod_eq_of_lt (by omega)]
  have hval : (stake * (rate * rounds.setWidth 128) / 10000).toNat =
      stake.toNat * rate.toNat * rounds.toNat % 2 ^ 128 / 10000 := by
    rw [BitVec.toNat_udiv, BitVec.toNat_mul, BitVec.toNat_mul, hrounds, Nat.mul_mod_mod, Nat.mul_assoc]
    rfl
  rw [hval]
  generalize stake.toNat * rate.toNat * rounds.toNat = p
  dsimp only
  split_ifs <;> omega

theorem outlier_exact_iff (stake : U128) : ((stake * 10 / 10000).toNat = stake.toNat * 10 / 10000 ∧
      (stake * 10 / 10000).toNat ≤ stake.toNat) ↔ stake.toNat * 10 < 2 ^ 128 := by
  have hval : (stake * 10 / 10000).toNat = stake.toNat * 10 % 2 ^ 128 / 10000 := by
    rw [BitVec.toNat_udiv, BitVec.toNat_mul]
    rfl
  rw [hval]
  by_cases hfits : stake.toNat * 10 < 2 ^ 128
  · rw [Nat.mod_eq_of_lt hfits]
    omega
  · have hmod := Nat.mod_add_div (stake.toNat * 10) (2 ^ 128)
    have hdiv := Nat.div_pos (not_lt.1 hfits) (by norm_num)
    omega

/-- **Punishments are exact.** For every table, validator and number of rounds each handler takes
and reports its exact amount exactly when the products fit and the charge for being offline is at
most the stake, or wraps to the stake. -/
theorem punishments_exact_iff (c : SimplexConsensus) (v : ValidatorStorage)
    (validatorId : BitVec 32) (roundsOffline : U64) :
    (Takes v validatorId (fun stake => stake) (handleDoubleSign v validatorId) ∧ Takes v validatorId
        (fun stake => min stake
          (stake * c.params.offlineSlashRateBps.toNat * roundsOffline.toNat / 10000))
        (c.handleOffline v validatorId roundsOffline) ∧
      Takes v validatorId (fun stake => stake * 10 / 10000) (handleOracleOutlier v validatorId)) ↔
      (v.validatorAddr (validatorId.setWidth 64) ≠ 0 →
        let stake := (v.stake (v.validatorAddr (validatorId.setWidth 64))).toNat
        let p := stake * c.params.offlineSlashRateBps.toNat * roundsOffline.toNat
        (if p < 2 ^ 128 then p / 10000 ≤ stake else p % 2 ^ 128 / 10000 = stake) ∧
          stake * 10 < 2 ^ 128) := by
  unfold handleDoubleSign handleOffline handleOracleOutlier
  rw [takes_punish_iff, takes_punish_iff, takes_punish_iff, ← imp_and, ← imp_and]
  refine imp_congr_right fun _ => ?_
  dsimp only
  rw [offline_exact_iff, outlier_exact_iff]
  exact and_iff_right ⟨rfl, le_rfl⟩

def smallStake : ValidatorStorage :=
  { validatorAddr := fun id => if id = 1 then 7 else 0, stake := fun a => if a = 7 then 100 else 0 }

/-- 2000 rounds at 10 basis points: 200 are reported, and 100 were there. -/
theorem offline_reports_more : (({} : SimplexConsensus).handleOffline smallStake 1 2000).map
      (fun r => (r.1.stake 7, r.2)) = .ok (0, 200) := by
  decide

end Callchain.Consensus

/-
# What a call of the bridge can do

A call that fails leaves the slots of the bridge as they were, whatever it has done to
balances and validators; one that succeeds does one of six things. `Effect` has a
constructor for each, with all that was checked, and the rest of the development never
unfolds an operation.
-/
import Callchain.Bridge.Precompile

namespace Callchain.Bridge
namespace Precompile

open LightClient Asset Validator

inductive Effect (B : Build) (s : Store) : BridgeCall → Store → Except BridgeError Unit → Prop
  | failed {call : BridgeCall} {t : Store} {e : BridgeError} : t.bridge = s.bridge →
      Effect B s call t (.error e)
  | deposited {sourceChain : U64} {sourceContract : Address} {sourceTxHash : B256} {assetId : U64}
      {recipient : Address} {amount : U128} {validator : Address} {blockHeight day : U64}
      {fee : U128} {credited assets : AssetStorage} {bridge : BridgeStorage} :
      checkDeposit s sourceChain sourceContract sourceTxHash assetId recipient amount blockHeight =
        .ok (day, fee) →
      s.assets.addBalance assetId recipient (amount - fee) = .ok credited →
      payFee credited assetId fee = .ok assets →
      s.bridge.addTotalDeposits (amount - fee) = .ok bridge →
      Effect B s (.externalDeposit sourceChain sourceContract sourceTxHash assetId recipient amount
          validator blockHeight)
        { s with
          assets := assets
          bridge := (bridge.recordDailyUsed assetId amount day).recordDeposit sourceTxHash assetId
            recipient (amount - fee) blockHeight validator } (.ok ())
  | withdrawn {assetId : U64} {amount : U128} {caller : Address} {currentBlock : U64}
      {limitCheck : WithdrawLimitCheck} {fee : U128} {debited assets : AssetStorage}
      {bridge : BridgeStorage} :
      checkWithdraw s assetId amount currentBlock = .ok (limitCheck, fee) →
      s.assets.deductBalance assetId caller amount = .ok debited →
      payFee debited assetId fee = .ok assets →
      s.bridge.addTotalWithdrawals (amount - fee) = .ok bridge →
      Effect B s (.externalWithdraw assetId amount caller currentBlock)
        { s with
          assets := assets
          bridge := bridge.recordWithdrawUsed assetId amount currentBlock limitCheck } (.ok ())
  | challenged {sourceTxHash : B256} {proof : Bytes} {challenger : Address} {currentBlock : U64}
      {assets : AssetStorage} :
      checkChallenge s.bridge sourceTxHash proof currentBlock = .ok () →
      s.assets.deductBalance callAssetId challenger s.bridge.readGlobalChallengeBond = .ok assets →
      currentBlock.toNat + s.bridge.readChallengePeriod.toNat < 2 ^ 64 →
      Effect B s (.initiateChallenge sourceTxHash proof challenger currentBlock)
        { s with
          assets := assets
          bridge := { s.bridge with
            challenge := Function.update s.bridge.challenge sourceTxHash
              ((s.bridge.challenge sourceTxHash).opened B.keccak challenger
                (currentBlock + s.bridge.readChallengePeriod) s.bridge.readGlobalChallengeBond
                proof) } } (.ok ())
  | upheld {sourceTxHash : B256} {currentBlock : U64} {resolver : Address} {stake : U128}
      {slashed assets : AssetStorage} {validators : ValidatorStorage} {bridge : BridgeStorage} :
      checkResolve s.bridge sourceTxHash currentBlock resolver = .ok () →
      verifyFraudProof B s.bridge sourceTxHash = some true →
      s.validators.slashStake s.assets (s.bridge.challenge sourceTxHash).originalValidator =
        ((slashed, validators), .ok stake) →
      slashed.deductBalance (s.bridge.deposit sourceTxHash).assetId
        (s.bridge.deposit sourceTxHash).recipient (s.bridge.deposit sourceTxHash).amount =
          .ok assets →
      s.bridge.subTotalDeposits (s.bridge.deposit sourceTxHash).amount = .ok bridge →
      Effect B s (.resolveChallenge sourceTxHash currentBlock resolver)
        { assets := assets
          validators := validators
          bridge := { bridge with
            deposit := Function.update bridge.deposit sourceTxHash {}
            challenge := Function.update bridge.challenge sourceTxHash
              (ChallengeSlots.cleared
                { s.bridge.challenge sourceTxHash with status := .successful } true) } } (.ok ())
  | dismissed {sourceTxHash : B256} {currentBlock : U64} {resolver : Address}
      {assets : AssetStorage} :
      checkResolve s.bridge sourceTxHash currentBlock resolver = .ok () →
      verifyFraudProof B s.bridge sourceTxHash = some false →
      s.assets.addBalance callAssetId (s.bridge.challenge sourceTxHash).originalValidator
        (s.bridge.challenge sourceTxHash).bond = .ok assets →
      Effect B s (.resolveChallenge sourceTxHash currentBlock resolver)
        { s with
          assets := assets
          bridge := { s.bridge with
            challenge := Function.update s.bridge.challenge sourceTxHash
              (ChallengeSlots.cleared
                { s.bridge.challenge sourceTxHash with status := .failed } false) } } (.ok ())
  | rewarded {sourceTxHash : B256} {caller : Address} {assets : AssetStorage} :
      (s.bridge.challenge sourceTxHash).status = .successful →
      (s.bridge.challenge sourceTxHash).challenger = caller →
      s.assets.addBalance callAssetId caller ((s.bridge.challenge sourceTxHash).bond +
        (s.bridge.challenge sourceTxHash).bond / 10) = .ok assets →
      Effect B s (.withdrawChallengeBond sourceTxHash caller)
        { s with
          assets := assets
          bridge := { s.bridge with
            challenge := Function.update s.bridge.challenge sourceTxHash
              { s.bridge.challenge sourceTxHash with status := .withdrawn, bond := 0 } } } (.ok ())

variable {B : Build} {s : Store}

theorem externalDeposit_effect (sourceChain : U64) (origin : Address) (src : B256) (aid : U64)
    (recipient : Address) (amount : U128) (validator : Address) (height : U64) :
    Effect B s (.externalDeposit sourceChain origin src aid recipient amount validator height)
      (externalDeposit s sourceChain origin src aid recipient amount validator height).1
      ((externalDeposit s sourceChain origin src aid recipient amount validator
        height).2.map fun _ => ()) := by
  unfold externalDeposit
  split
  · exact .failed rfl
  · rename_i day fee hche
    dsimp only
    split
    · exact .failed rfl
    · rename_i credited hcre
      split
      · exact .failed rfl
      · rename_i assets hfee
        split
        · exact .failed rfl
        · rename_i bridge htot
          exact .deposited hche hcre hfee htot

theorem externalWithdraw_effect (aid : U64) (amount : U128) (caller : Address) (now : U64) :
    Effect B s (.externalWithdraw aid amount caller now)
      (externalWithdraw s aid amount caller now).1
      ((externalWithdraw s aid amount caller now).2.map fun _ => ()) := by
  unfold externalWithdraw
  split
  · exact .failed rfl
  · rename_i limitCheck fee hche
    dsimp only
    split
    · exact .failed rfl
    · rename_i debited hdeb
      split
      · exact .failed rfl
      · rename_i assets hfee
        split
        · exact .failed rfl
        · rename_i bridge htot
          exact .withdrawn hche hdeb hfee htot

theorem initiateChallenge_effect (src : B256) (proof : Bytes) (challenger : Address) (now : U64) :
    Effect B s (.initiateChallenge src proof challenger now)
      (initiateChallenge B s src proof challenger now).1
      (initiateChallenge B s src proof challenger now).2 := by
  unfold initiateChallenge
  split
  · exact .failed rfl
  · rename_i hche
    dsimp only
    split
    · exact .failed rfl
    · rename_i assets hbond
      split_ifs with hdea
      · exact .failed rfl
      · exact .challenged hche hbond (by omega)

theorem resolveChallenge_effect (src : B256) (now : U64) (resolver : Address) :
    Effect B s (.resolveChallenge src now resolver) (resolveChallenge B s src now resolver).1
      ((resolveChallenge B s src now resolver).2.map fun _ => ()) := by
  unfold resolveChallenge
  split
  · exact .failed rfl
  · rename_i hche
    split
    · exact .failed rfl
    · rename_i hfra
      unfold resolveFraud
      dsimp only
      split
      · exact .failed rfl
      · rename_i hsla
        split
        · exact .failed rfl
        · rename_i hclaw
          split
          · exact .failed rfl
          · rename_i htot
            exact .upheld hche hfra hsla hclaw htot
    · rename_i hfra
      unfold resolveNoFraud
      dsimp only
      split
      · exact .failed rfl
      · rename_i hbond
        exact .dismissed hche hfra hbond

theorem withdrawChallengeBond_effect (src : B256) (caller : Address) :
    Effect B s (.withdrawChallengeBond src caller) (withdrawChallengeBond s src caller).1
      ((withdrawChallengeBond s src caller).2.map fun _ => ()) := by
  unfold withdrawChallengeBond
  dsimp only
  split_ifs with hsta hcal hover
  · exact .failed rfl
  · exact .failed rfl
  · exact .failed rfl
  · split
    · exact .failed rfl
    · rename_i hpay
      rw [not_ne_iff] at hsta hcal
      rw [hcal] at hpay
      exact .rewarded hsta hcal hpay

theorem exec_effect (B : Build) (s : Store) (call : BridgeCall) :
    Effect B s call (exec B s call).1 (exec B s call).2 := by
  cases call with
  | externalDeposit => exact externalDeposit_effect ..
  | externalWithdraw => exact externalWithdraw_effect ..
  | initiateChallenge => exact initiateChallenge_effect ..
  | resolveChallenge => exact resolveChallenge_effect ..
  | withdrawChallengeBond => exact withdrawChallengeBond_effect ..

theorem step_effect (B : Build) (reverting : Bool) (s : Store) (call : BridgeCall) :
    (step B reverting s call).bridge = s.bridge ∧ (exec B s call).2.isOk = false ∨
      Effect B s call (step B reverting s call) (.ok ()) := by
  have h := exec_effect B s call
  unfold step
  generalize exec B s call = r at h ⊢
  obtain ⟨t, result⟩ := r
  cases result with
  | ok =>
    right
    cases reverting <;> exact h
  | error =>
    left
    cases h with
    | failed hb => cases reverting <;> exact ⟨by first | exact hb | rfl, rfl⟩

/-! ### Running totals -/

section Totals

variable {b t : BridgeStorage} {amount : U128}

theorem addTotalDeposits_eq_ok : b.addTotalDeposits amount = .ok t ↔
    b.totalDeposits.toNat + amount.toNat < 2 ^ 128 ∧
      t = { b with totalDeposits := b.totalDeposits + amount } := by
  unfold BridgeStorage.addTotalDeposits
  rw [ite_error_eq_ok, not_le, Except.ok.injEq]
  exact and_congr_right' eq_comm

theorem addTotalWithdrawals_eq_ok : b.addTotalWithdrawals amount = .ok t ↔
    b.totalWithdrawals.toNat + amount.toNat < 2 ^ 128 ∧
      t = { b with totalWithdrawals := b.totalWithdrawals + amount } := by
  unfold BridgeStorage.addTotalWithdrawals
  rw [ite_error_eq_ok, not_le, Except.ok.injEq]
  exact and_congr_right' eq_comm

theorem subTotalDeposits_eq_ok : b.subTotalDeposits amount = .ok t ↔
    amount.toNat ≤ b.totalDeposits.toNat ∧
      t = { b with totalDeposits := b.totalDeposits - amount } := by
  unfold BridgeStorage.subTotalDeposits
  rw [ite_error_eq_ok, BitVec.not_lt, Except.ok.injEq]
  exact and_congr_right' eq_comm

end Totals

theorem recordWithdrawUsed_frame (b : BridgeStorage) (aid : U64) (amount : U128)
    (now : U64) (check : WithdrawLimitCheck) :
    (b.recordWithdrawUsed aid amount now check).config = b.config ∧
      (b.recordWithdrawUsed aid amount now check).processed = b.processed := by
  cases check <;> exact ⟨rfl, rfl⟩

theorem Effect.config {call : BridgeCall} {t : Store} (h : Effect B s call t (.ok ())) :
    t.bridge.config = s.bridge.config := by
  cases h with
  | deposited _ _ _ htot =>
    obtain ⟨-, rfl⟩ := addTotalDeposits_eq_ok.1 htot
    rfl
  | withdrawn _ _ _ htot =>
    obtain ⟨-, rfl⟩ := addTotalWithdrawals_eq_ok.1 htot
    exact (recordWithdrawUsed_frame ..).1
  | upheld _ _ _ _ htot =>
    obtain ⟨-, rfl⟩ := subTotalDeposits_eq_ok.1 htot
    rfl
  | _ => rfl

theorem step_config (B : Build) (reverting : Bool) (s : Store) (call : BridgeCall) :
    (step B reverting s call).bridge.config = s.bridge.config := by
  rcases step_effect B reverting s call with ⟨hb, -⟩ | heff
  · rw [hb]
  · exact heff.config

end Precompile
end Callchain.Bridge

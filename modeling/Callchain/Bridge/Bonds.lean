/-
# Bonds, rewards and stakes

A challenger puts up a bond. It goes to the validator if the challenge is dismissed; if
it is upheld the challenger may fetch it and a tenth more. The tenth is created then,
and the stake that the slash took from the escrow is gone: nothing links the two.

`owed` is what the open challenges can still draw. Every call keeps the books: what it
credits and what is owed after it make what was owed before, the bond it took, and the
tenth it promised (`step_flow`).
-/
import Callchain.Bridge.Challenge
import Callchain.Lib.Ledger

namespace Callchain.Bridge
namespace Precompile

open LightClient Asset Validator Run Ledger
open Function (update update_of_ne update_self)

/-! ### What a call moves -/

def callOf (assets : AssetStorage) (addr : Address) : ℕ :=
  (assets.balance callAssetId addr).toNat

/-- The CALL that addresses gain from `before` to `after`. -/
def gained (before after : AssetStorage) : ℕ :=
  total fun addr => callOf after addr - callOf before addr

/-- What a challenge call credits, going from `s` to `t`. -/
def BridgeCall.credit (s t : Store) : BridgeCall → ℕ
  | .initiateChallenge .. | .resolveChallenge .. | .withdrawChallengeBond .. =>
    gained s.assets t.assets
  | .externalDeposit .. | .externalWithdraw .. => 0

def BridgeCall.bond (s t : Store) : BridgeCall → ℕ
  | .initiateChallenge .. => gained t.assets s.assets
  | .resolveChallenge .. | .withdrawChallengeBond .. | .externalDeposit ..
  | .externalWithdraw .. => 0

/-- The stake that the `slash_stake` of `resolve_challenge` removes. -/
def BridgeCall.stake (B : Build) (s : Store) : BridgeCall → ℕ
  | .resolveChallenge sourceTxHash _ _ =>
    if verifyFraudProof B s.bridge sourceTxHash = some true then
      gained (s.validators.slashStake s.assets
        (s.bridge.challenge sourceTxHash).originalValidator).1.1 s.assets
    else 0
  | .initiateChallenge .. | .withdrawChallengeBond .. | .externalDeposit ..
  | .externalWithdraw .. => 0

def BridgeCall.promise (B : Build) (s : Store) : BridgeCall → ℕ
  | .resolveChallenge sourceTxHash _ _ =>
    if verifyFraudProof B s.bridge sourceTxHash = some true then
      (s.bridge.challenge sourceTxHash).bond.toNat / 10
    else 0
  | .initiateChallenge .. | .withdrawChallengeBond .. | .externalDeposit ..
  | .externalWithdraw .. => 0

/-- The challenge whose bond is paid out. -/
def BridgeCall.payout (B : Build) (s : Store) : BridgeCall → List B256
  | .resolveChallenge sourceTxHash _ _ =>
    if verifyFraudProof B s.bridge sourceTxHash = some true then [] else [sourceTxHash]
  | .withdrawChallengeBond sourceTxHash _ => [sourceTxHash]
  | .initiateChallenge .. | .externalDeposit .. | .externalWithdraw .. => []

def Succeeds (B : Build) (s : Store) (call : BridgeCall) : Bool := (exec B s call).2.isOk

def bondCredits (B : Build) (s : Store) (call : BridgeCall) : ℕ :=
  if Succeeds B s call then call.credit s (exec B s call).1 else 0

def bondTaken (B : Build) (s : Store) (call : BridgeCall) : ℕ :=
  if Succeeds B s call then call.bond s (exec B s call).1 else 0

def stakeTaken (B : Build) (s : Store) (call : BridgeCall) : ℕ :=
  if Succeeds B s call then call.stake B s else 0

/-- What a successful call promises on top of a bond. -/
def promised (B : Build) (s : Store) (call : BridgeCall) : ℕ :=
  if Succeeds B s call then call.promise B s else 0

def payouts (B : Build) (s : Store) (call : BridgeCall) : List B256 :=
  if Succeeds B s call then call.payout B s else []

def ChallengeSlots.owed (c : ChallengeSlots) : ℕ :=
  match c.status with
  | .pending => c.bond.toNat
  | .successful => c.bond.toNat + c.bond.toNat / 10
  | .none | .failed | .withdrawn => 0

def owed (b : BridgeStorage) : ℕ := total fun h => (b.challenge h).owed

/-! ### One step -/

variable {B : Build} {reverting : Bool} {s t : Store}

section Balances

variable {assets assets' : AssetStorage} {aid : U64} {addr : Address} {amount : U128}

theorem gained_addBalance (h : assets.addBalance callAssetId addr amount = .ok assets') :
    gained assets assets' = amount.toNat := by
  have hbal := AssetStorage.addBalance_toNat h callAssetId
  unfold gained callOf
  rw [total_sub_of_agree addr fun j hj => by rw [hbal, if_neg fun h => hj h.2], hbal,
    if_pos ⟨rfl, rfl⟩, Nat.add_sub_cancel_left]

theorem gained_deductBalance (h : assets.deductBalance callAssetId addr amount = .ok assets') :
    gained assets' assets = amount.toNat := by
  have hbal := AssetStorage.deductBalance_toNat h callAssetId
  have hle := (AssetStorage.deductBalance_eq_ok.1 h).1
  unfold gained callOf
  rw [total_sub_of_agree addr fun j hj => by rw [hbal, if_neg fun h => hj h.2], hbal,
    if_pos ⟨rfl, rfl⟩, Nat.sub_sub_self hle]

theorem deductBalance_le (h : assets.deductBalance aid addr amount = .ok assets')
    (addr' : Address) : callOf assets' addr' ≤ callOf assets addr' := by
  unfold callOf
  rw [AssetStorage.deductBalance_toNat h]
  split_ifs with ha
  · rw [ha.1, ha.2]
    omega
  · exact le_refl _

section Slash

variable {v v' : ValidatorStorage} {validator : Address} {n : U128}
  (h : v.slashStake assets validator = ((assets', v'), .ok n))
include h

theorem slashStake_taken :
    assets' = assets ∧ (v.validatorByAddr validator = 0 ∨ v.stake validator = 0) ∨
      v.validatorByAddr validator ≠ 0 ∧
        assets.deductBalance callAssetId stakingEscrow (v.stake validator) = .ok assets' := by
  have hn : (v.slashStake assets validator).2 = .ok n := by rw [h]
  by_cases hid : v.validatorByAddr validator = 0
  · rw [ValidatorStorage.slashStake_unregistered hid] at h
    cases h
    exact .inl ⟨rfl, .inl hid⟩
  · obtain ⟨assets₁, v₁, ha, heq⟩ := ValidatorStorage.slashStake_registered hid
      ((ValidatorStorage.slashStake_ok_iff.1 ⟨n, hn⟩).resolve_left hid)
    rw [heq] at h
    cases h
    split_ifs at ha with hpos
    · exact .inr ⟨hid, ha⟩
    · cases ha
      exact .inl ⟨rfl, .inr (BitVec.le_zero_iff.1 (BitVec.not_lt.1 hpos))⟩

theorem slashStake_le (addr' : Address) : callOf assets' addr' ≤ callOf assets addr' := by
  rcases slashStake_taken h with ⟨rfl, -⟩ | ⟨-, ha⟩
  · exact le_refl _
  · exact deductBalance_le ha addr'

theorem gained_slashStake (hid : v.validatorByAddr validator ≠ 0) :
    gained assets' assets = (v.stake validator).toNat := by
  rcases slashStake_taken h with ⟨rfl, hzero⟩ | ⟨-, ha⟩
  · rw [hzero.resolve_left hid]
    exact total_sub_eq_zero fun _ => le_refl _
  · exact gained_deductBalance ha

end Slash

end Balances

structure Sets (b c : BridgeStorage) (h : B256) (status : ChallengeStatus) (bond : U128) : Prop where
  status : (c.challenge h).status = status
  bond : (c.challenge h).bond = bond
  others : ∀ h', h' ≠ h → c.challenge h' = b.challenge h'

inductive BondMove (B : Build) (s t : Store) : BridgeCall → Prop
  | none {call : BridgeCall} : ¬ call.IsChallenge →
      (∀ h, (t.bridge.challenge h).status = (s.bridge.challenge h).status ∧
        (t.bridge.challenge h).bond = (s.bridge.challenge h).bond) → BondMove B s t call
  | opened {h : B256} {proof : Bytes} {challenger : Address} {currentBlock : U64} :
      (s.bridge.challenge h).status = .none →
      Sets s.bridge t.bridge h .pending s.bridge.readGlobalChallengeBond →
      s.assets.deductBalance callAssetId challenger s.bridge.readGlobalChallengeBond =
        .ok t.assets →
      BondMove B s t (.initiateChallenge h proof challenger currentBlock)
  | upheld {h : B256} {currentBlock : U64} {resolver : Address} {slashed : AssetStorage}
      {validators : ValidatorStorage} {n : U128} : (s.bridge.challenge h).status = .pending →
      verifyFraudProof B s.bridge h = some true →
      Sets s.bridge t.bridge h .successful (s.bridge.challenge h).bond →
      s.validators.slashStake s.assets (s.bridge.challenge h).originalValidator =
        ((slashed, validators), .ok n) →
      (∀ addr, callOf t.assets addr ≤ callOf s.assets addr) →
      BondMove B s t (.resolveChallenge h currentBlock resolver)
  | dismissed {h : B256} {currentBlock : U64} {resolver : Address} :
      (s.bridge.challenge h).status = .pending →
      verifyFraudProof B s.bridge h = some false →
      Sets s.bridge t.bridge h .failed 0 →
      s.assets.addBalance callAssetId (s.bridge.challenge h).originalValidator
        (s.bridge.challenge h).bond = .ok t.assets →
      BondMove B s t (.resolveChallenge h currentBlock resolver)
  | rewarded {h : B256} {caller : Address} : (s.bridge.challenge h).status = .successful →
      Sets s.bridge t.bridge h .withdrawn 0 →
      s.assets.addBalance callAssetId caller ((s.bridge.challenge h).bond +
        (s.bridge.challenge h).bond / 10) = .ok t.assets →
      BondMove B s t (.withdrawChallengeBond h caller)

variable {call : BridgeCall} {h : B256}

theorem Effect.bondMove (h : Effect B s call t (.ok ())) : BondMove B s t call := by
  cases h with
  | @deposited _ _ sourceTxHash _ _ _ _ _ _ _ _ _ _ _ _ _ htot =>
    obtain ⟨-, rfl⟩ := addTotalDeposits_eq_ok.1 htot
    refine .none (fun h => h) fun h => ?_
    show (update s.bridge.challenge sourceTxHash _ h).status = _ ∧
      (update s.bridge.challenge sourceTxHash _ h).bond = _
    by_cases hh : h = sourceTxHash
    · subst hh
      rw [update_self]
      exact ⟨rfl, rfl⟩
    · rw [update_of_ne hh]
      exact ⟨rfl, rfl⟩
  | @withdrawn _ _ _ _ limitCheck _ _ _ _ _ _ _ htot =>
    obtain ⟨-, rfl⟩ := addTotalWithdrawals_eq_ok.1 htot
    exact .none (fun h => h) fun h => by cases limitCheck <;> exact ⟨rfl, rfl⟩
  | @challenged h _ _ _ _ hche hbond =>
    exact .opened (checkChallenge_eq_ok.1 hche).2.1
      ⟨by simp [ChallengeSlots.opened], by simp [ChallengeSlots.opened],
        fun h' hh => update_of_ne hh ..⟩ hbond
  | @upheld h _ _ _ _ _ _ _ hche hfra hsla hclaw htot =>
    obtain ⟨-, rfl⟩ := subTotalDeposits_eq_ok.1 htot
    exact .upheld (checkResolve_eq_ok.1 hche).1 hfra
      ⟨by simp [ChallengeSlots.cleared], by simp [ChallengeSlots.cleared],
        fun h' hh => update_of_ne hh ..⟩ hsla
      fun addr => (deductBalance_le hclaw addr).trans (slashStake_le hsla addr)
  | @dismissed h _ _ _ hche hfra hbond =>
    exact .dismissed (checkResolve_eq_ok.1 hche).1 hfra
      ⟨by simp [ChallengeSlots.cleared], by simp [ChallengeSlots.cleared],
        fun h' hh => update_of_ne hh ..⟩ hbond
  | @rewarded h _ _ hsta _ hpay =>
    exact .rewarded hsta ⟨by simp, by simp, fun h' hh => update_of_ne hh ..⟩ hpay

theorem Sets.owed {b c : BridgeStorage} {status : ChallengeStatus} {bond : U128}
    (hset : Sets b c h status bond) :
    owed c + (b.challenge h).owed = owed b + (c.challenge h).owed :=
  total_of_agree (f := fun h => (b.challenge h).owed) (g := fun h => (c.challenge h).owed) h
    fun h' hh => congrArg ChallengeSlots.owed (hset.others h' hh)

/-- All a call credits comes out of what was owed, the bond it took and the tenth it
promised. -/
theorem BondMove.flow (h : BondMove B s t call) :
    call.credit s t + owed t.bridge ≤ owed s.bridge + call.bond s t + call.promise B s := by
  cases h with
  | none hcall hsame =>
    have howed : owed t.bridge = owed s.bridge := total_congr fun h => by
      rw [ChallengeSlots.owed, ChallengeSlots.owed, (hsame h).1, (hsame h).2]
    have hcre : call.credit s t = 0 := by cases call <;> first | rfl | exact absurd trivial hcall
    omega
  | opened hnone hset hbond =>
    have howed := hset.owed
    have hgain : gained s.assets t.assets = 0 := total_sub_eq_zero (deductBalance_le hbond)
    simp only [ChallengeSlots.owed, hnone, hset.status, hset.bond] at howed
    simp only [BridgeCall.credit, BridgeCall.bond, BridgeCall.promise]
    rw [gained_deductBalance hbond]
    omega
  | upheld hpen hfra hset hsla hle =>
    have howed := hset.owed
    have hgain : gained s.assets t.assets = 0 := total_sub_eq_zero hle
    simp only [ChallengeSlots.owed, hpen, hset.status, hset.bond] at howed
    simp only [BridgeCall.credit, BridgeCall.bond, BridgeCall.promise]
    rw [if_pos hfra]
    omega
  | dismissed hpen hfra hset hbond =>
    have howed := hset.owed
    simp only [ChallengeSlots.owed, hpen, hset.status] at howed
    simp only [BridgeCall.credit, BridgeCall.bond, BridgeCall.promise]
    rw [gained_addBalance hbond]
    omega
  | @rewarded h _ hsta hset hpay =>
    have howed := hset.owed
    have hsum : ((s.bridge.challenge h).bond + (s.bridge.challenge h).bond / 10).toNat ≤
        (s.bridge.challenge h).bond.toNat + (s.bridge.challenge h).bond.toNat / 10 := by
      exact (Nat.mod_le _ _).trans (by rw [BitVec.toNat_udiv]; rfl)
    simp only [ChallengeSlots.owed, hsta, hset.status] at howed
    simp only [BridgeCall.credit, BridgeCall.bond, BridgeCall.promise]
    rw [gained_addBalance hpay]
    omega

theorem step_bondMove (B : Build) (reverting : Bool) (s : Store) (call : BridgeCall) :
    Succeeds B s call = false ∧ (step B reverting s call).bridge = s.bridge ∨
      Succeeds B s call = true ∧ step B reverting s call = (exec B s call).1 ∧
        BondMove B s (exec B s call).1 call := by
  have h := exec_effect B s call
  unfold step Succeeds
  generalize exec B s call = r at h ⊢
  obtain ⟨t, result⟩ := r
  cases result with
  | ok => exact .inr ⟨rfl, by cases reverting <;> rfl, h.bondMove⟩
  | error =>
    cases h with
    | failed hb => exact .inl ⟨rfl, by cases reverting <;> first | exact hb | rfl⟩

theorem step_flow (B : Build) (reverting : Bool) (s : Store) (call : BridgeCall) :
    bondCredits B s call + owed (step B reverting s call).bridge ≤
      owed s.bridge + (bondTaken B s call + promised B s call) := by
  unfold bondCredits bondTaken promised
  rcases step_bondMove B reverting s call with ⟨hfail, hb⟩ | ⟨hok, hstep, hmove⟩
  · rw [hfail, hb]
    simp
  · rw [hok, hstep]
    have := hmove.flow
    simp only [if_true]
    omega

/-- Where fraud is found, the validator's stake covers what is promised on top of the bond. -/
def Funded (B : Build) (s : Store) : BridgeCall → Prop
  | .resolveChallenge sourceTxHash _ _ =>
    verifyFraudProof B s.bridge sourceTxHash = some true →
      s.validators.validatorByAddr (s.bridge.challenge sourceTxHash).originalValidator ≠ 0 ∧
        (s.bridge.challenge sourceTxHash).bond.toNat / 10 ≤
          (s.validators.stake (s.bridge.challenge sourceTxHash).originalValidator).toNat
  | .initiateChallenge .. | .withdrawChallengeBond .. | .externalDeposit ..
  | .externalWithdraw .. => True

theorem promised_le_stakeTaken (h : Funded B s call) : promised B s call ≤ stakeTaken B s call := by
  unfold promised stakeTaken
  rcases step_bondMove B true s call with ⟨hfail, -⟩ | ⟨hok, -, hmove⟩
  · rw [hfail]
    exact Nat.zero_le _
  rw [hok]
  cases hmove with
  | none hcall =>
    cases call with
    | externalDeposit | externalWithdraw => exact Nat.zero_le _
    | _ => exact absurd trivial hcall
  | opened | rewarded => exact Nat.zero_le _
  | upheld _ hfra _ hsla =>
    obtain ⟨hid, hle⟩ := h hfra
    have htak := congrArg (fun r => r.1.1) hsla
    have hgain := gained_slashStake hsla hid
    simp only [BridgeCall.promise, BridgeCall.stake, if_pos hfra]
    rw [htak, hgain]
    exact hle
  | dismissed _ hfra =>
    simp only [BridgeCall.promise, hfra]
    exact Nat.zero_le _

theorem bondTaken_initiateChallenge (h : B256) (proof : Bytes) (challenger : Address) (now : U64) :
    bondTaken B s (.initiateChallenge h proof challenger now) =
      if Succeeds B s (.initiateChallenge h proof challenger now)
      then s.bridge.readGlobalChallengeBond.toNat else 0 := by
  unfold bondTaken
  rcases step_bondMove B true s (.initiateChallenge h proof challenger now) with
    ⟨hfail, -⟩ | ⟨hok, -, hmove⟩
  · rw [hfail, if_neg Bool.false_ne_true, if_neg Bool.false_ne_true]
  · rw [hok]
    cases hmove with
    | none hcall => exact absurd trivial hcall
    | opened _ _ hbond => exact gained_deductBalance hbond

theorem credited_withdrawChallengeBond (h : B256) (caller : Address) :
    bondCredits B s (.withdrawChallengeBond h caller) =
      if Succeeds B s (.withdrawChallengeBond h caller)
      then ((s.bridge.challenge h).bond + (s.bridge.challenge h).bond / 10).toNat else 0 := by
  unfold bondCredits
  rcases step_bondMove B true s (.withdrawChallengeBond h caller) with
    ⟨hfail, -⟩ | ⟨hok, -, hmove⟩
  · rw [hfail, if_neg Bool.false_ne_true, if_neg Bool.false_ne_true]
  · rw [hok]
    cases hmove with
    | none hcall => exact absurd trivial hcall
    | rewarded _ _ hpay => exact gained_addBalance hpay

theorem stakeTaken_unregistered {now : U64} {resolver : Address}
    (hid : s.validators.validatorByAddr (s.bridge.challenge h).originalValidator = 0) :
    stakeTaken B s (.resolveChallenge h now resolver) = 0 := by
  have hsame : (s.validators.slashStake s.assets
      (s.bridge.challenge h).originalValidator).1.1 = s.assets := by
    rw [ValidatorStorage.slashStake_unregistered hid]
  unfold stakeTaken BridgeCall.stake
  dsimp only
  rw [hsame]
  have hzero : gained s.assets s.assets = 0 := total_sub_eq_zero fun _ => le_refl _
  rw [hzero]
  split_ifs <;> rfl

/-! ### Runs -/

/-- No bond is held or waits to be withdrawn. -/
def NoneOpen (b : BridgeStorage) : Prop :=
  ∀ h, (b.challenge h).status ≠ .pending ∧ (b.challenge h).status ≠ .successful

theorem NoneOpen.owed {b : BridgeStorage} (h : NoneOpen b) : owed b = 0 := by
  refine total_eq_zero fun h' => ?_
  obtain ⟨hpen, hsuc⟩ := h h'
  unfold ChallengeSlots.owed
  split
  · exact absurd ‹_› hpen
  · exact absurd ‹_› hsuc
  all_goals rfl

def PaidOut (s : Store) (h : B256) : Prop :=
  (s.bridge.challenge h).status ∈ [ChallengeStatus.failed, .withdrawn]

theorem Sets.paidOut {k : B256} {status : ChallengeStatus} {bond : U128}
    (hset : Sets s.bridge t.bridge k status bond) (hk : ¬ PaidOut s k) (hh : PaidOut s h) :
    PaidOut t h := by
  have hne : h ≠ k := fun he => hk (he ▸ hh)
  unfold PaidOut
  rw [hset.others h hne]
  exact hh

theorem payouts_spec (reverting : Bool) (hh : h ∈ payouts B s call) :
    ¬ PaidOut s h ∧ PaidOut (step B reverting s call) h := by
  unfold payouts at hh
  rcases step_bondMove B reverting s call with ⟨hfail, -⟩ | ⟨hok, hstep, hmove⟩
  · rw [hfail] at hh
    cases hh
  rw [hok, if_pos rfl] at hh
  unfold PaidOut
  rw [hstep]
  cases hmove with
  | none hcall =>
    cases call with
    | externalDeposit | externalWithdraw => cases hh
    | _ => exact absurd trivial hcall
  | opened => cases hh
  | upheld _ hfra =>
    rw [BridgeCall.payout, if_pos hfra] at hh
    cases hh
  | dismissed hpen hfra hset =>
    rw [BridgeCall.payout, hfra, if_neg (by decide), List.mem_singleton] at hh
    subst hh
    rw [hpen, hset.status]
    decide
  | rewarded hsuc hset =>
    rw [BridgeCall.payout, List.mem_singleton] at hh
    subst hh
    rw [hsuc, hset.status]
    decide

theorem PaidOut.step (hh : PaidOut s h) : PaidOut (step B reverting s call) h := by
  rcases step_bondMove B reverting s call with ⟨-, hb⟩ | ⟨-, hstep, hmove⟩
  · unfold PaidOut
    rw [hb]
    exact hh
  rw [hstep]
  cases hmove with
  | none _ hsame =>
    unfold PaidOut
    rw [(hsame h).1]
    exact hh
  | opened h1 hset _ | upheld h1 _ hset _ _ | dismissed h1 _ hset _ | rewarded h1 hset _ =>
    refine hset.paidOut ?_ hh
    unfold PaidOut
    rw [h1]
    decide

theorem payouts_nodup (B : Build) (reverting : Bool) (s : Store) (calls : List BridgeCall) :
    (collect (step B reverting) (payouts B) s calls).Nodup := by
  refine (collect_nodup (C := fun _ _ => True) (fun s h => ¬ PaidOut s h) ?_ ?_ ?_ ?_
    (along_of_invariant (I := fun _ => True) (fun _ _ h => h) trivial)).1
  · intro s call _
    unfold payouts
    split_ifs
    · cases call with
      | resolveChallenge h =>
        rw [BridgeCall.payout]
        split_ifs
        · exact List.nodup_nil
        · exact List.nodup_singleton h
      | withdrawChallengeBond h => exact List.nodup_singleton h
      | _ => exact List.nodup_nil
    · exact List.nodup_nil
  · exact fun s call _ h hh => (payouts_spec reverting hh).1
  · exact fun s call _ h hh => not_not_intro (payouts_spec reverting hh).2
  · exact fun s call h _ hfree hpaid => hfree hpaid.step

/-- **Credits are funded.** Over any calls from a store without an open challenge, the credits are
at most the bonds taken and the tenths promised, and at most the bonds and the stakes taken where
every challenge that is upheld finds its validator with a tenth of the bond. No bond is paid out
twice. -/
theorem credits_bounded (B : Build) (reverting : Bool) {s : Store} (hs : NoneOpen s.bridge)
    (calls : List BridgeCall) : tally (step B reverting) (bondCredits B) s calls ≤
        tally (step B reverting) (bondTaken B) s calls +
          tally (step B reverting) (promised B) s calls ∧
      (Along (step B reverting) (Funded B) s calls →
        tally (step B reverting) (bondCredits B) s calls ≤
          tally (step B reverting) (bondTaken B) s calls +
            tally (step B reverting) (stakeTaken B) s calls) ∧
      (collect (step B reverting) (payouts B) s calls).Nodup := by
  have howed := hs.owed
  refine ⟨?_, fun hfun => ?_, payouts_nodup B reverting s calls⟩
  · have hany : Along (step B reverting) (fun _ _ => True) s calls :=
      along_of_invariant (I := fun _ => True) (fun _ _ h => h) trivial
    have h := bounded (M := fun s : Store => owed s.bridge)
      (fun s call (_ : True) => step_flow B reverting s call) hany
    rw [tally_add] at h
    omega
  · have h := bounded (M := fun s : Store => owed s.bridge) (f := bondCredits B)
      (g := fun s call => bondTaken B s call + stakeTaken B s call) (fun s call hcall => by
        have h1 := step_flow B reverting s call
        have h2 := promised_le_stakeTaken hcall
        omega) hfun
    rw [tally_add] at h
    omega

def rewardCalls : List BridgeCall :=
  [.initiateChallenge 7 forgedProof 6 2, .resolveChallenge 7 2419202 6, .withdrawChallengeBond 7 6]

theorem genuineDeposited_noneOpen : NoneOpen genuineDeposited.bridge := by
  intro h
  show (update (fun _ => ({} : ChallengeSlots)) 7 _ h).status ≠ .pending ∧
    (update (fun _ => ({} : ChallengeSlots)) 7 _ h).status ≠ .successful
  by_cases hh : h = 7
  · subst hh
    exact ⟨by decide, by decide⟩
  · rw [update_of_ne hh]
    exact ⟨by decide, by decide⟩

theorem credits_bounded_at_rewardCalls : NoneOpen genuineDeposited.bridge ∧
    tally (step forgingBuild true) (bondCredits forgingBuild) genuineDeposited rewardCalls ≤
      tally (step forgingBuild true) (bondTaken forgingBuild) genuineDeposited rewardCalls +
        tally (step forgingBuild true) (stakeTaken forgingBuild) genuineDeposited rewardCalls := by
  refine ⟨genuineDeposited_noneOpen,
    (credits_bounded forgingBuild true genuineDeposited_noneOpen rewardCalls).2.1 ?_⟩
  exact ⟨trivial, fun _ => ⟨by decide +kernel, by decide +kernel⟩, trivial, trivial⟩

def unstakedStore : Store := { genuineDeposited with validators := {} }

def unstakedChallenged : Store :=
  step forgingBuild true unstakedStore (.initiateChallenge 7 forgedProof 6 2)

def unstakedUpheld : Store :=
  step forgingBuild true unstakedChallenged (.resolveChallenge 7 2419202 6)

theorem tally_rewardCalls (f : Store → BridgeCall → ℕ) :
    tally (step forgingBuild true) f unstakedStore rewardCalls =
      f unstakedStore (.initiateChallenge 7 forgedProof 6 2) +
        (f unstakedChallenged (.resolveChallenge 7 2419202 6) +
          f unstakedUpheld (.withdrawChallengeBond 7 6)) := rfl

/-- The bond of 1000 is all that is taken, and 1100 are credited. -/
theorem reward_unfunded : NoneOpen unstakedStore.bridge ∧
    tally (step forgingBuild true) (bondTaken forgingBuild) unstakedStore rewardCalls = 1000 ∧
    tally (step forgingBuild true) (stakeTaken forgingBuild) unstakedStore rewardCalls = 0 ∧
    1100 ≤ tally (step forgingBuild true) (bondCredits forgingBuild) unstakedStore rewardCalls := by
  have hbond : bondTaken forgingBuild unstakedStore (.initiateChallenge 7 forgedProof 6 2) =
      1000 := by
    rw [bondTaken_initiateChallenge]
    decide +kernel
  have hnone : bondTaken forgingBuild unstakedChallenged (.resolveChallenge 7 2419202 6) = 0 ∧
      bondTaken forgingBuild unstakedUpheld (.withdrawChallengeBond 7 6) = 0 :=
    ⟨ite_self _, ite_self _⟩
  have hsta : stakeTaken forgingBuild unstakedChallenged (.resolveChallenge 7 2419202 6) = 0 :=
    stakeTaken_unregistered (by decide +kernel)
  have hnone' : stakeTaken forgingBuild unstakedStore (.initiateChallenge 7 forgedProof 6 2) = 0 ∧
      stakeTaken forgingBuild unstakedUpheld (.withdrawChallengeBond 7 6) = 0 :=
    ⟨ite_self _, ite_self _⟩
  have hrew : bondCredits forgingBuild unstakedUpheld (.withdrawChallengeBond 7 6) = 1100 := by
    rw [credited_withdrawChallengeBond]
    decide +kernel
  refine ⟨genuineDeposited_noneOpen, ?_, ?_, ?_⟩
  · rw [tally_rewardCalls, hbond, hnone.1, hnone.2]
  · rw [tally_rewardCalls, hsta, hnone'.1, hnone'.2]
  · rw [tally_rewardCalls, hrew, ← Nat.add_assoc]
    exact Nat.le_add_left _ _

end Precompile
end Callchain.Bridge

/-
# The challenge of a deposit

A deposit has one challenge slot, and `initiate_challenge` takes it only while it is
free. So the first challenge is the last: one with a worthless proof keeps every other
out, and fails for good (`failed_stays`). One whose proof verifies stands: no call of
anybody displaces it, and it never fails.
-/
import Callchain.Bridge.Fraud

namespace Callchain.Bridge
namespace Precompile

open LightClient Asset Validator Run

def BridgeCall.IsChallenge : BridgeCall → Prop
  | .initiateChallenge .. | .resolveChallenge .. | .withdrawChallengeBond .. => True
  | .externalDeposit .. | .externalWithdraw .. => False

variable {B : Build} {reverting : Bool} {s u : Store} {sourceTxHash : B256}

/-- What a challenge call does to a deposit: nothing, or the one move its challenge
status allows. -/
inductive ChallengeMove (B : Build) (s u : Store) (sourceTxHash : B256) : Prop
  | none : u.bridge.challenge sourceTxHash = s.bridge.challenge sourceTxHash →
      u.bridge.deposit sourceTxHash = s.bridge.deposit sourceTxHash →
      ChallengeMove B s u sourceTxHash
  | opened : (s.bridge.challenge sourceTxHash).status = .none →
      (u.bridge.challenge sourceTxHash).status = .pending → ChallengeMove B s u sourceTxHash
  | upheld : (s.bridge.challenge sourceTxHash).status = .pending →
      verifyFraudProof B s.bridge sourceTxHash = some true →
      (u.bridge.challenge sourceTxHash).status = .successful → ChallengeMove B s u sourceTxHash
  | dismissed : (s.bridge.challenge sourceTxHash).status = .pending →
      verifyFraudProof B s.bridge sourceTxHash = some false →
      (u.bridge.challenge sourceTxHash).status = .failed → ChallengeMove B s u sourceTxHash
  | rewarded : (s.bridge.challenge sourceTxHash).status = .successful →
      (u.bridge.challenge sourceTxHash).status = .withdrawn → ChallengeMove B s u sourceTxHash

theorem step_challengeMove (B : Build) (reverting : Bool) (s : Store) {call : BridgeCall}
    (hcall : call.IsChallenge) (src : B256) : ChallengeMove B s (step B reverting s call) src := by
  rcases step_effect B reverting s call with ⟨hb, -⟩ | heff
  · exact .none (by rw [hb]) (by rw [hb])
  generalize step B reverting s call = u at heff ⊢
  cases heff with
  | deposited | withdrawn => exact hcall.elim
  | @challenged h _ _ _ _ hche =>
    by_cases he : src = h
    · subst he
      exact .opened (checkChallenge_eq_ok.1 hche).2.1 (by simp [ChallengeSlots.opened])
    · exact .none (Function.update_of_ne he ..) rfl
  | @upheld h _ _ _ _ _ _ _ hche hfra _ _ htot =>
    obtain ⟨-, rfl⟩ := subTotalDeposits_eq_ok.1 htot
    by_cases he : src = h
    · subst he
      exact .upheld (checkResolve_eq_ok.1 hche).1 hfra (by simp [ChallengeSlots.cleared])
    · exact .none (Function.update_of_ne he ..) (Function.update_of_ne he ..)
  | @dismissed h _ _ _ hche hfra =>
    by_cases he : src = h
    · subst he
      exact .dismissed (checkResolve_eq_ok.1 hche).1 hfra (by simp [ChallengeSlots.cleared])
    · exact .none (Function.update_of_ne he ..) rfl
  | @rewarded h _ _ hsta =>
    by_cases he : src = h
    · subst he
      exact .rewarded hsta (by simp)
    · exact .none (Function.update_of_ne he ..) rfl

/-! ### A challenge that failed -/

theorem failed_stays {calls : List BridgeCall} (hcal : ∀ call ∈ calls, call.IsChallenge)
    (h : (s.bridge.challenge sourceTxHash).status = .failed) :
    ((run (step B reverting) s calls).bridge.challenge sourceTxHash).status = .failed := by
  refine invariant_mem (I := fun s : Store => (s.bridge.challenge sourceTxHash).status = .failed)
    ?_ h
  intro s call hcall hs
  cases step_challengeMove B reverting s (hcal call hcall) sourceTxHash with
  | none hsame => rw [hsame, hs]
  | opened h1 _ | upheld h1 _ _ | dismissed h1 _ _ | rewarded h1 _ =>
    rw [hs] at h1
    cases h1

/-! ### A challenge that stands -/

/-- The challenge of the deposit is the one that `s` holds, and its record is
too, or the challenge has been upheld. -/
def Standing (s : Store) (sourceTxHash : B256) (u : Store) : Prop :=
  (u.bridge.challenge sourceTxHash = s.bridge.challenge sourceTxHash ∧
      u.bridge.deposit sourceTxHash = s.bridge.deposit sourceTxHash) ∨
    (u.bridge.challenge sourceTxHash).status = .successful ∨
    (u.bridge.challenge sourceTxHash).status = .withdrawn

theorem verifyFraudProof_congr {b b' : BridgeStorage}
    (hc : b.challenge sourceTxHash = b'.challenge sourceTxHash)
    (hd : b.deposit sourceTxHash = b'.deposit sourceTxHash) :
    verifyFraudProof B b sourceTxHash = verifyFraudProof B b' sourceTxHash := by
  unfold verifyFraudProof
  rw [hc, hd]

theorem Standing.step (hpen : (s.bridge.challenge sourceTxHash).status = .pending)
    (hgood : verifyFraudProof B s.bridge sourceTxHash = some true) {call : BridgeCall}
    (hcall : call.IsChallenge) (h : Standing s sourceTxHash u) :
    Standing s sourceTxHash (step B reverting u call) := by
  rcases h with ⟨hc, hd⟩ | h
  · have hgood' : verifyFraudProof B u.bridge sourceTxHash = some true :=
      (verifyFraudProof_congr hc hd).trans hgood
    have hpen' : (u.bridge.challenge sourceTxHash).status = .pending := by rw [hc, hpen]
    cases step_challengeMove B reverting u hcall sourceTxHash with
    | none hc' hd' => exact .inl ⟨hc'.trans hc, hd'.trans hd⟩
    | opened h1 _ | rewarded h1 _ =>
      rw [hpen'] at h1
      cases h1
    | upheld _ _ h2 => exact .inr (Or.inl h2)
    | dismissed _ hbad =>
      rw [hgood'] at hbad
      cases hbad
  · right
    cases step_challengeMove B reverting u hcall sourceTxHash with
    | none hc' => rwa [hc']
    | opened h1 _ | upheld h1 _ _ | dismissed h1 _ _ =>
      rw [h1] at h
      rcases h with h | h <;> cases h
    | rewarded _ h2 => exact .inr h2

/-- What an upheld challenge takes can be had: the stake of the validator, the deposit
from the recipient, who is not the escrow, and the amount from the total. -/
structure Collectable (s : Store) (sourceTxHash : B256) : Prop where
  slashable :
    s.validators.validatorByAddr (s.bridge.challenge sourceTxHash).originalValidator = 0 ∨
    s.validators.Slashable s.assets (s.bridge.challenge sourceTxHash).originalValidator
  notEscrow : ¬ ((s.bridge.deposit sourceTxHash).assetId = callAssetId ∧
    (s.bridge.deposit sourceTxHash).recipient = stakingEscrow)
  held : (s.bridge.deposit sourceTxHash).amount.toNat ≤ (s.assets.balance
    (s.bridge.deposit sourceTxHash).assetId (s.bridge.deposit sourceTxHash).recipient).toNat
  balanceFits : (s.assets.balance (s.bridge.deposit sourceTxHash).assetId
    (s.bridge.deposit sourceTxHash).recipient).toNat < 2 ^ 128
  covered : (s.bridge.deposit sourceTxHash).amount.toNat ≤ s.bridge.totalDeposits.toNat

theorem resolveFraud_of_collectable (h : Collectable s sourceTxHash) :
    (resolveFraud s sourceTxHash).2 = .ok (true, (s.bridge.challenge sourceTxHash).challenger) ∧
    ((resolveFraud s sourceTxHash).1.bridge.challenge sourceTxHash).status = .successful ∧
    (resolveFraud s sourceTxHash).1.validators.validatorByAddr
      (s.bridge.challenge sourceTxHash).originalValidator = 0 := by
  obtain ⟨n, hn⟩ := ValidatorStorage.slashStake_ok_iff.2 h.slashable
  obtain ⟨hgone, hoth⟩ := ValidatorStorage.slashStake_spec hn
  have hbal := hoth _ _ h.notEscrow
  have htot := subTotalDeposits_eq_ok.2 ⟨h.covered, rfl⟩
  unfold resolveFraud
  dsimp only
  generalize s.validators.slashStake s.assets (s.bridge.challenge sourceTxHash).originalValidator =
    r at hn hgone hbal ⊢
  obtain ⟨⟨assets, validators⟩, result⟩ := r
  obtain rfl : result = .ok n := hn
  have hheld := h.held
  have hfits := h.balanceFits
  rw [← hbal] at hheld hfits
  have hclaw := AssetStorage.deductBalance_eq_ok.2 ⟨hheld, hfits, rfl⟩
  dsimp only at hclaw ⊢
  rw [hclaw]
  rw [htot]
  refine ⟨rfl, ?_, hgone⟩
  simp [ChallengeSlots.cleared]

theorem Standing.of_pending (h : Standing s sourceTxHash u)
    (hpen : (u.bridge.challenge sourceTxHash).status = .pending) :
    u.bridge.challenge sourceTxHash = s.bridge.challenge sourceTxHash ∧
      u.bridge.deposit sourceTxHash = s.bridge.deposit sourceTxHash := by
  rcases h with h | h
  · exact h
  · rw [hpen] at h
    rcases h with h | h <;> cases h

/-- **The first challenge stands.** A challenger with the bond and a proof that verifies gets the
challenge of an unchallenged deposit pending. It stays so, whatever challenge calls follow, until
it is upheld; and after its deadline the challenger has it upheld if everything can be collected.
-/
theorem first_challenge_stands {proof : Bytes} {challenger : Address} {currentBlock : U64}
    (hcan : CanChallenge s sourceTxHash challenger currentBlock) (hadm : Admissible proof)
    (hgood : verifyFraudProof B
      (challengedStore B s sourceTxHash proof challenger currentBlock).bridge sourceTxHash =
        some true)
    (reverting : Bool) (calls : List BridgeCall) (hcalls : ∀ call ∈ calls, call.IsChallenge) :
    (initiateChallenge B s sourceTxHash proof challenger currentBlock).2 = .ok () ∧
    ∀ u, u = run (step B reverting)
        (initiateChallenge B s sourceTxHash proof challenger currentBlock).1 calls →
      (u.bridge.challenge sourceTxHash).status ∈
        [ChallengeStatus.pending, .successful, .withdrawn] ∧
      ((u.bridge.challenge sourceTxHash).status = .pending → u.bridge.challenge sourceTxHash =
        (s.bridge.challenge sourceTxHash).opened B.keccak challenger
          (currentBlock + s.bridge.readChallengePeriod) s.bridge.readGlobalChallengeBond proof) ∧
      ∀ later : U64, (u.bridge.challenge sourceTxHash).status = .pending →
        currentBlock.toNat + s.bridge.readChallengePeriod.toNat ≤ later.toNat →
        Collectable u sourceTxHash →
        (resolveChallenge B u sourceTxHash later challenger).2 = .ok (true, challenger) ∧
        ((resolveChallenge B u sourceTxHash later challenger).1.bridge.challenge
          sourceTxHash).status = .successful ∧
        (resolveChallenge B u sourceTxHash later challenger).1.validators.validatorByAddr
          (s.bridge.challenge sourceTxHash).originalValidator = 0 := by
  rw [initiateChallenge_eq_ok.2 ⟨hcan, hadm, rfl⟩]
  refine ⟨rfl, ?_⟩
  rintro u rfl
  have hopen : (challengedStore B s sourceTxHash proof challenger currentBlock).bridge.challenge
      sourceTxHash = (s.bridge.challenge sourceTxHash).opened B.keccak challenger
        (currentBlock + s.bridge.readChallengePeriod) s.bridge.readGlobalChallengeBond proof :=
    Function.update_self ..
  have hpen : ((challengedStore B s sourceTxHash proof challenger
      currentBlock).bridge.challenge sourceTxHash).status = .pending := by rw [hopen]; rfl
  have hsta : Standing (challengedStore B s sourceTxHash proof challenger currentBlock)
      sourceTxHash (run (step B reverting)
        (challengedStore B s sourceTxHash proof challenger currentBlock) calls) :=
    invariant_mem (fun u call hcall hu => hu.step hpen hgood (hcalls call hcall))
      (Or.inl ⟨rfl, rfl⟩)
  generalize run (step B reverting) (challengedStore B s sourceTxHash proof challenger
    currentBlock) calls = u at hsta
  refine ⟨?_, fun hp => (hsta.of_pending hp).1.trans hopen, ?_⟩
  · rcases hsta with ⟨hc, -⟩ | hup | hup
    · rw [hc, hpen]
      exact List.mem_cons_self
    · rw [hup]
      decide
    · rw [hup]
      decide
  · intro later hp hlat hcol
    obtain ⟨hc, hd⟩ := hsta.of_pending hp
    have hfra : TakesFraudBranch B u sourceTxHash later challenger := by
      refine ⟨checkResolve_opened (hc.trans hopen) ?_, (verifyFraudProof_congr hc hd).trans hgood⟩
      rw [BitVec.toNat_add, Nat.mod_eq_of_lt hcan.deadlineFits]
      exact hlat
    have hres := resolveFraud_of_collectable hcol
    rw [hc, hopen] at hres
    rw [resolveChallenge_of_fraud hfra]
    exact hres

theorem genuineDeposited_canChallenge : CanChallenge genuineDeposited 7 6 2 :=
  ⟨by decide, by decide, by decide, by decide, by decide, by decide, by decide⟩

theorem forgedProof_good : verifyFraudProof forgingBuild
    (challengedStore forgingBuild genuineDeposited 7 forgedProof 6 2).bridge 7 = some true := by
  decide +kernel

/-- The validator tries to challenge as well and to resolve before the deadline. -/
def meanwhile : List BridgeCall :=
  [.initiateChallenge 7 (List.replicate 32 0) 9 3, .resolveChallenge 7 4 9]

theorem first_challenge_stands_meanwhile : (resolveChallenge forgingBuild
      (run (step forgingBuild true)
        (initiateChallenge forgingBuild genuineDeposited 7 forgedProof 6 2).1 meanwhile)
      7 2419202 6).2 = .ok (true, 6) := by
  have h := first_challenge_stands genuineDeposited_canChallenge (forged_admissible lastWord)
    forgedProof_good true meanwhile (by simp [meanwhile, BridgeCall.IsChallenge])
  refine ((h.2 _ rfl).2.2 2419202 ?_ ?_ ?_).1
  · decide +kernel
  · decide +kernel
  · exact ⟨Or.inr ⟨fun _ => by decide +kernel, fun h => absurd h (by decide +kernel)⟩,
      by decide +kernel, by decide +kernel, by decide +kernel, by decide +kernel⟩

def contestedStore : Store :=
  { genuineDeposited with assets := genuineDeposited.assets.writeBalance callAssetId 9 1000 }

def blockedStore : Store :=
  (initiateChallenge forgingBuild contestedStore 7 (List.replicate 32 0) 9 2).1

def dismissedStore : Store := (resolveChallenge forgingBuild blockedStore 7 2419202 9).1

/-- A challenger has the bond, the time and a good proof, but the validator was first:
the good proof is refused, the deposit is never taken back, and the validator gets its
bond back. -/
theorem worthless_challenge_blocks :
    (CanChallenge contestedStore 7 6 3 ∧ Admissible forgedProof ∧ verifyFraudProof forgingBuild
        (challengedStore forgingBuild contestedStore 7 forgedProof 6 3).bridge 7 = some true) ∧
    (initiateChallenge forgingBuild blockedStore 7 forgedProof 6 3).2 = .error .alreadyChallenged ∧
    dismissedStore.assets.balance callAssetId 9 = 1000 ∧
    ∀ calls : List BridgeCall, (∀ call ∈ calls, call.IsChallenge) →
      ((run (step forgingBuild true) dismissedStore calls).bridge.challenge 7).status =
        .failed := by
  refine ⟨⟨⟨by decide, by decide, by decide, by decide,
    by decide, by decide, by decide⟩, forged_admissible lastWord,
    by decide +kernel⟩, by decide +kernel, by decide +kernel, ?_⟩
  intro calls hcal
  exact failed_stays hcal (by decide)

end Precompile
end Callchain.Bridge

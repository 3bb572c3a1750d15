/-
# The supply across the bridge

The bridge credits a deposit, debits a withdrawal and settles a challenge on
the balances of `AssetStorage`, and never writes the supply that `mint` and
`burn` keep beside them.
-/
import Callchain.Asset.Supply
import Callchain.Bridge.Bonds
import Callchain.Bridge.WithdrawLimit

namespace Callchain.Bridge
namespace Precompile

open Asset Validator Run AssetStorage

/-- The slots of the assets, and the rest of what the bridge works on. -/
structure World where
  slots : Slot → U256
  bridge : BridgeStorage
  validators : ValidatorStorage

namespace World

def store (w : World) : Store := ⟨w.bridge, assetStorage w.slots, w.validators⟩

def put (w : World) (s : Store) : World where
  slots
    | .balance id addr => s.assets.balance id addr
    | k => w.slots k
  bridge := s.bridge
  validators := s.validators

structure Backed (w : World) : Prop where
  sum : ∀ id, held w.slots id = supplyOf w.slots id
  capped : ∀ id, maxSupplyOf w.slots id ≠ 0 → held w.slots id ≤ maxSupplyOf w.slots id

end World

inductive LedgerCall where
  | asset (call : AssetCall)
  | bridge (call : BridgeCall)

def ledgerStep (B : Build) (w : World) : LedgerCall → World
  | .asset call => { w with slots := Asset.step w.slots call }
  | .bridge call => w.put (step B true w.store call)

/-- What an accepted call creates of an asset, less what it destroys. -/
def BridgeCall.flow (B : Build) (s : Store) (id : U64) : BridgeCall → ℤ
  | .externalDeposit _ _ _ assetId _ amount _ _ => if id = assetId then amount.toNat else 0
  | .externalWithdraw assetId amount _ _ =>
    if id = assetId then s.bridge.readBridgeFee.toNat - amount.toNat else 0
  | .initiateChallenge .. => if id = callAssetId then -s.bridge.readGlobalChallengeBond.toNat else 0
  | .resolveChallenge h _ _ =>
    let c := s.bridge.challenge h
    if verifyFraudProof B s.bridge h = some true then
      -(if id = (s.bridge.deposit h).assetId then (s.bridge.deposit h).amount.toNat else 0) -
        if id = callAssetId ∧ s.validators.validatorByAddr c.originalValidator ≠ 0
        then (s.validators.stake c.originalValidator).toNat else 0
    else if id = callAssetId then c.bond.toNat else 0
  | .withdrawChallengeBond h _ =>
    let bond := (s.bridge.challenge h).bond
    if id = callAssetId then (bond + bond / 10).toNat else 0

/-- A bridge call that succeeds creates and destroys nothing. -/
def Unmoved (B : Build) (w : World) : LedgerCall → Prop
  | .asset _ => True
  | .bridge call => Succeeds B w.store call → ∀ id, call.flow B w.store id = 0

section
variable {B : Build} {s t : Store} {a b : AssetStorage} {aid : U64} {amount : U128}
  {call : BridgeCall} {w : World}

theorem payFee_balances (h : payFee a aid amount = .ok b) (id : U64) :
    b.balances id = a.balances id + if id = aid then amount.toNat else 0 := by
  unfold payFee at h
  split_ifs at h with hpos
  · exact balances_add h id
  · cases h
    have hzero : amount = 0 := BitVec.le_zero_iff.1 (BitVec.not_lt.1 hpos)
    simp [hzero]

theorem slashStake_balances {v v' : ValidatorStorage} {validator : Address} {n : U128}
    (h : v.slashStake a validator = ((b, v'), .ok n)) (id : U64) :
    b.balances id + (if id = callAssetId ∧ v.validatorByAddr validator ≠ 0
      then (v.stake validator).toNat else 0) = a.balances id := by
  rcases slashStake_taken h with ⟨rfl, hzero⟩ | ⟨hid, ha⟩
  · rcases hzero with hzero | hzero <;> simp [hzero]
  · simp only [hid, ne_eq, not_false_eq_true, and_true]
    exact balances_deduct ha id

theorem checkDeposit_fee {sourceChain height day : U64} {origin recipient : Address}
    {src : B256} {fee : U128} (h : checkDeposit s sourceChain origin src
      aid recipient amount height = .ok (day, fee)) : fee < amount := by
  unfold checkDeposit at h
  rw [ite_error_eq_ok, ite_error_eq_ok, ite_error_eq_ok, ite_error_eq_ok] at h
  obtain ⟨-, -, -, -, h⟩ := h
  split at h
  · cases h
  · rw [ite_error_eq_ok, ite_error_eq_ok] at h
    obtain ⟨-, -, h⟩ := h
    split at h
    · cases h
    · obtain ⟨hfee, h⟩ := ite_error_eq_ok.1 h
      cases h
      exact BitVec.not_le.1 hfee

theorem Effect.balances (h : Effect B s call t (.ok ())) (id : U64) :
    (t.assets.balances id : ℤ) = s.assets.balances id + call.flow B s id := by
  cases h with
  | @deposited _ _ _ aid _ amount _ _ _ fee _ _ _ hche hadd hfee =>
    have hlt := BitVec.lt_def.1 (checkDeposit_fee hche)
    have hnet : (amount - fee).toNat = amount.toNat - fee.toNat := BitVec.toNat_sub_of_le hlt.le
    dsimp only [BridgeCall.flow]
    rw [payFee_balances hfee, balances_add hadd]
    split_ifs <;> omega
  | withdrawn hche hded hfee =>
    obtain ⟨-, rfl⟩ := checkWithdraw_eq_ok hche
    have hdeb := balances_deduct hded id
    dsimp only [BridgeCall.flow]
    rw [payFee_balances hfee]
    split_ifs at hdeb ⊢ <;> omega
  | challenged _ hded =>
    have hdeb := balances_deduct hded id
    dsimp only [BridgeCall.flow]
    split_ifs at hdeb ⊢ <;> omega
  | upheld _ hfra hsla hded =>
    have hsta := slashStake_balances hsla id
    have hdeb := balances_deduct hded id
    dsimp only [BridgeCall.flow]
    split_ifs at hdeb hsta ⊢ <;> omega
  | dismissed _ hfra hadd =>
    dsimp only [BridgeCall.flow]
    rw [balances_add hadd]
    split_ifs <;> simp_all
  | rewarded _ hcal hadd =>
    dsimp only [BridgeCall.flow]
    rw [balances_add hadd]
    split_ifs <;> omega

theorem held_step_iff (B : Build) (w : World) (call : BridgeCall) :
    (∀ id, held (ledgerStep B w (.bridge call)).slots id = held w.slots id) ↔
      Unmoved B w (.bridge call) := by
  dsimp only [Unmoved, ledgerStep, Succeeds]
  have he := exec_effect B w.store call
  unfold step
  rcases hr : exec B w.store call with ⟨t, e | ⟨⟩⟩
  · exact iff_of_true (fun _ => rfl) fun h => absurd h Bool.false_ne_true
  · rw [hr] at he
    show (∀ id, held (w.put t).slots id = held w.slots id) ↔
      (true = true → ∀ id, call.flow B w.store id = 0)
    rw [forall_prop_of_true rfl]
    refine forall_congr' fun id => ?_
    have hflow : (held (w.put t).slots id : ℤ) = held w.slots id + call.flow B w.store id :=
      he.balances id
    omega

theorem backed_step_iff (hw : Inv w.slots) (c : LedgerCall) :
    ((ledgerStep B w c).Backed ↔ Unmoved B w c) ∧
      (Unmoved B w c → Inv (ledgerStep B w c).slots) := by
  have hbac : ∀ v : World, Inv v.slots → v.Backed :=
    fun v h => ⟨h.sum, fun id hmax => (h.sum id).trans_le (h.capped id hmax)⟩
  cases c with
  | asset call =>
    have hstep := hw.step call
    exact ⟨iff_of_true (hbac _ hstep) trivial, fun _ => hstep⟩
  | bridge call =>
    have hsums := held_step_iff B w call
    have hstep : Unmoved B w (.bridge call) → Inv (ledgerStep B w (.bridge call)).slots :=
      fun h => ⟨fun id => (hsums.2 h id).trans (hw.sum id), hw.capped, hw.fresh⟩
    exact ⟨⟨fun h => hsums.1 fun id => (h.sum id).trans (hw.sum id).symm,
      fun h => hbac _ (hstep h)⟩, hstep⟩

end

/-- **The bridge keeps the supply.** The balances add up to the supply after every call of a run
exactly if no call of the bridge that is accepted creates or destroys anything. -/
theorem backed_along_iff (B : Build) (bridge : BridgeStorage) (validators : ValidatorStorage)
    (calls : List LedgerCall) :
    Along (ledgerStep B) (fun w c => (ledgerStep B w c).Backed) ⟨emptyStorage, bridge, validators⟩
        calls ↔ Along (ledgerStep B) (Unmoved B) ⟨emptyStorage, bridge, validators⟩ calls := by
  have hrun : ∀ w : World, Inv w.slots →
      (Along (ledgerStep B) (fun w c => (ledgerStep B w c).Backed) w calls ↔
        Along (ledgerStep B) (Unmoved B) w calls) := by
    induction calls with
    | nil => exact fun _ _ => Iff.rfl
    | cons c calls ih =>
      intro w hw
      obtain ⟨hiff, hkeep⟩ := backed_step_iff hw c
      exact (and_congr_left' hiff).trans (and_congr_right fun h => ih _ (hkeep h))
  exact hrun _ Inv.empty

/-- Asset 1 may have a supply of 100. After a deposit of 150 they are in the
balances, and the supply is zero. -/
theorem deposit_not_minted :
    let w := ledgerStep plainBuild
      ⟨emptyStorage, { config := { authorizedContract := fun _ _ => 1 } }, {}⟩
      (.asset (.register [67] [67] 6 100 0xA 0))
    let t := ledgerStep plainBuild w (.bridge (.externalDeposit 1 2 7 1 0xB 150 9 1))
    t.slots (.balance 1 0xB) = 150 ∧ supplyOf t.slots 1 = 0 ∧ maxSupplyOf t.slots 1 = 100 ∧
      ¬ t.Backed := by
  intro w t
  have hw : Inv w.slots := Inv.empty.step (.register [67] [67] 6 100 0xA 0)
  refine ⟨by decide +kernel, by decide +kernel, by decide +kernel, fun h => ?_⟩
  have hflow := (backed_step_iff hw _).1.1 h (by decide +kernel) 1
  exact absurd hflow (by decide)

end Precompile
end Callchain.Bridge

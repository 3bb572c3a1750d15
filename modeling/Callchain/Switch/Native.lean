/-
# Switching CALL

CALL moves between the protocol balances and the native balances. A call that succeeds
takes its amount from one ledger and adds it to the other, whoever the caller and the
recipient are; one that fails is reverted, and in a static context every call fails. So
the sum over both never changes.
-/
import Callchain.Asset.Supply
import Callchain.Precompile.Static
import Callchain.Switch.Precompile

namespace Callchain.Switch

open Precompile Asset Ledger
open Function (update update_of_ne update_self)

/-! ### Calls -/

inductive Direction where
  | toEvm
  | toProtocol
  deriving DecidableEq

structure SwitchCall where
  direction : Direction
  caller : Address
  receiver : Address
  amount : U128
  env : Env
  gasLimit : ℕ
  isStatic : Bool
  warm : Slot → Bool
  original : Slot → U256

def SwitchCall.handler (c : SwitchCall) (assetId : U64) : Prog Slot Unit :=
  match c.direction with
  | .toEvm => switchToEvmHandler c.env c.caller assetId c.receiver c.amount
  | .toProtocol => switchToProtocolHandler c.env c.caller assetId c.receiver c.amount

def SwitchCall.calldata (c : SwitchCall) (assetId : U64) : SwitchCalldata :=
  match c.direction with
  | .toEvm => .switchToEvm assetId c.receiver c.amount
  | .toProtocol => .switchToProtocol assetId c.receiver c.amount

def SwitchCall.start (c : SwitchCall) (w : World Slot) : World Slot :=
  { w with warm := c.warm, original := c.original }

variable (evm : Evm Slot) (assetId : U64)

def switch (w : World Slot) (c : SwitchCall) :
    Provider Slot × Except PrecompileError (Output Words) :=
  switchPrecompile evm c.env c.caller (.new { world := c.start w } c.gasLimit c.isStatic)
    (c.calldata assetId)

def step (w : World Slot) (c : SwitchCall) : World Slot :=
  (switch evm assetId w c).1.journal.world

def Succeeds (w : World Slot) (c : SwitchCall) : Prop := ∃ out, (switch evm assetId w c).2 = .ok out

variable {evm assetId} {w w' : World Slot} {c : SwitchCall}

theorem switch_eq (w : World Slot) (c : SwitchCall) :
    switch evm assetId w c = mutateWords evm 20000 (do c.handler assetId; return [])
      (.new { world := c.start w } c.gasLimit c.isStatic) := by
  unfold switch SwitchCall.calldata SwitchCall.handler
  cases c.direction with
  | toEvm | toProtocol => rfl

theorem switch_ok (h : Succeeds evm assetId w c) :
    (c.handler assetId).outcome evm c.isStatic (c.start w) = (step evm assetId w c, .ok ()) := by
  obtain ⟨out, hout⟩ := h
  unfold step
  rw [switch_eq] at hout ⊢
  rcases hmut : mutateWords evm 20000 (do c.handler assetId; return [])
    (.new { world := c.start w } c.gasLimit c.isStatic) with ⟨q, r⟩
  rw [hmut] at hout
  obtain rfl : r = .ok out := hout
  obtain ⟨⟨⟩, -, houtc⟩ := mutate_eq_ok (by decide) hmut
  obtain ⟨w₁, ⟨⟩, hhan, hret⟩ := outcome_bind_eq_ok.1 houtc
  obtain rfl := congrArg Prod.fst hret
  exact hhan

theorem step_error (h : ¬Succeeds evm assetId w c) : step evm assetId w c = c.start w := by
  unfold step
  unfold Succeeds at h
  rw [switch_eq] at h ⊢
  rcases hmut : mutateWords evm 20000 (do c.handler assetId; return [])
    (.new { world := c.start w } c.gasLimit c.isStatic) with ⟨q, e | out⟩
  · rw [mutate_journal_of_error hmut]
    rfl
  · rw [hmut] at h
    exact absurd ⟨out, rfl⟩ h

/-! ### `SwitchStorage` on a storage -/

section Storage

variable {s t : Slot → U256} {addr : Address} {amount : U128} {u : Unit}

theorem loadProtocolBal_eq_ok {b : U128} : (loadProtocolBal assetId addr).eval s = (t, .ok b) ↔
      (s (.balance assetId addr)).toNat < 2 ^ 128 ∧ s = t ∧
        u256ToU128 (s (.balance assetId addr)) = b := by
  unfold loadProtocolBal
  rw [Access.eval_get_bind, Access.eval_require_bind_eq_ok]
  simp

theorem addProtocolBal_spec (h : (addProtocolBal assetId addr amount).eval s = (t, .ok u)) :
    ∃ v : U256, t = update s (.balance assetId addr) v ∧
      v.toNat = (s (.balance assetId addr)).toNat + amount.toNat := by
  obtain ⟨s', current, hread, h⟩ := Access.eval_bind_eq_ok.1 h
  obtain ⟨hlt, rfl, rfl⟩ := loadProtocolBal_eq_ok.1 hread
  obtain ⟨hsum, h⟩ := Access.eval_require_bind_eq_ok.1 h
  refine ⟨_, (congrArg Prod.fst h).symm, ?_⟩
  rw [u128ToU256_toNat, BitVec.toNat_add, Nat.mod_eq_of_lt hsum, u256ToU128_toNat hlt]

theorem subProtocolBal_spec (h : (subProtocolBal assetId addr amount).eval s = (t, .ok u)) :
    ∃ v : U256, t = update s (.balance assetId addr) v ∧
      v.toNat + amount.toNat = (s (.balance assetId addr)).toNat := by
  obtain ⟨s', current, hread, h⟩ := Access.eval_bind_eq_ok.1 h
  obtain ⟨hlt, rfl, rfl⟩ := loadProtocolBal_eq_ok.1 hread
  obtain ⟨hle, h⟩ := Access.eval_require_bind_eq_ok.1 h
  refine ⟨_, (congrArg Prod.fst h).symm, ?_⟩
  rw [u128ToU256_toNat, BitVec.toNat_sub_of_le hle, u256ToU128_toNat hlt]
  rw [BitVec.le_def, u256ToU128_toNat hlt] at hle
  omega

end Storage

/-! ### What a handler goes through -/

section Handler

variable {static : Bool} {caller receiver : Address} {amount : U128} {u : Unit}

theorem readOnly_checkCompliance (addr : Address) : (checkCompliance addr).ReadOnly :=
  (Prog.readOnly_call rfl).bind fun _ => Prog.readOnly_require _ _

theorem writesIn_checkHasErc20 (P : Slot → Prop) (aid : U64) : (checkHasErc20 aid).WritesIn P := by
  unfold checkHasErc20
  split_ifs
  · trivial
  · exact (Access.writesIn_get P _).bind fun _ => Access.writesIn_require P _ _

theorem readOnly_switchChecks (msgSender : Address) :
    (switchChecks msgSender assetId receiver amount).ReadOnly := by
  refine (readOnly_requireCaller msgSender).bind fun caller => ?_
  refine (readOnly_checkCompliance _).bind fun _ => ?_
  refine (readOnly_checkCompliance _).bind fun _ => ?_
  refine (Prog.readOnly_require _ _).bind fun _ => ?_
  refine (Prog.readOnly_require _ _).bind fun _ => ?_
  refine (readOnly_storageRef _ ?_).bind fun _ => ?_
  · exact (Access.writesIn_get _ _).bind fun _ => Access.writesIn_require _ _ _
  · exact (readOnly_storageRef _ (writesIn_checkHasErc20 _ assetId)).bind fun _ => trivial

theorem switchChecks_outcome {msgSender : Address}
    (h : (switchChecks msgSender assetId receiver amount).outcome evm static w = (w', .ok caller)) :
    caller = msgSender ∧ SameState w w' := by
  have hsame : SameState w
      ((switchChecks msgSender assetId receiver amount).outcome evm static w).1 :=
    (readOnly_switchChecks msgSender).outcome
  rw [h] at hsame
  refine ⟨?_, hsame⟩
  obtain ⟨w₁, a, hcal, hrest⟩ := outcome_bind_eq_ok.1 h
  obtain ⟨-, rfl, rfl⟩ := requireCaller_outcome hcal
  obtain ⟨w₂, ⟨⟩, -, hrest⟩ := outcome_bind_eq_ok.1 hrest
  obtain ⟨w₃, ⟨⟩, -, hrest⟩ := outcome_bind_eq_ok.1 hrest
  obtain ⟨w₄, ⟨⟩, -, hrest⟩ := outcome_bind_eq_ok.1 hrest
  obtain ⟨w₅, ⟨⟩, -, hrest⟩ := outcome_bind_eq_ok.1 hrest
  obtain ⟨w₆, ⟨⟩, -, hrest⟩ := outcome_bind_eq_ok.1 hrest
  obtain ⟨w₇, ⟨⟩, -, hret⟩ := outcome_bind_eq_ok.1 hrest
  exact (Except.ok.inj (congrArg Prod.snd hret)).symm

theorem switchToEvm_outcome {env : Env}
    (h : (switchToEvmHandler env caller assetId receiver amount).outcome evm static w =
      (w', .ok u)) : ∃ w₁ w₂, SameState w w₁ ∧
      (store (subProtocolBal assetId caller amount)).outcome evm static w₁ = (w₂, .ok ()) ∧
      (creditEvm assetId receiver amount).outcome evm static w₂ = (w', .ok ()) := by
  obtain ⟨w₁, a, hche, hrest⟩ := outcome_bind_eq_ok.1 h
  obtain ⟨rfl, hsame⟩ := switchChecks_outcome hche
  obtain ⟨w₂, ⟨⟩, hsub, hrest⟩ := outcome_bind_eq_ok.1 hrest
  obtain ⟨w₃, ⟨⟩, hcre, heve⟩ := outcome_bind_eq_ok.1 hrest
  obtain rfl := congrArg Prod.fst heve
  exact ⟨w₁, w₂, hsame, hsub, hcre⟩

theorem switchToProtocol_outcome {env : Env}
    (h : (switchToProtocolHandler env caller assetId receiver amount).outcome evm static w =
      (w', .ok u)) : ∃ w₁ w₂, SameState w w₁ ∧
      (debitEvm assetId caller amount).outcome evm static w₁ = (w₂, .ok ()) ∧
      (store (addProtocolBal assetId receiver amount)).outcome evm static w₂ = (w', .ok ()) := by
  obtain ⟨w₁, a, hche, hrest⟩ := outcome_bind_eq_ok.1 h
  obtain ⟨rfl, hsame⟩ := switchChecks_outcome hche
  obtain ⟨w₂, ⟨⟩, hdeb, hrest⟩ := outcome_bind_eq_ok.1 hrest
  obtain ⟨w₃, ⟨⟩, hadd, heve⟩ := outcome_bind_eq_ok.1 hrest
  obtain rfl := congrArg Prod.fst heve
  exact ⟨w₁, w₂, hsame, hdeb, hadd⟩

theorem creditEvm_native
    (h : (creditEvm callAssetId receiver amount).outcome evm static w = (w', .ok u)) :
    static = false ∧ (w.balance receiver).toNat + amount.toNat < 2 ^ 256 ∧
      w' = w.setBalance receiver (w.balance receiver + u128ToU256 amount) := by
  replace h := (outcome_mapErr_eq_ok _).1 h
  rw [Op.outcome, Op.ample] at h
  cases static with
  | true => cases h
  | false =>
    by_cases hover : 2 ^ 256 ≤ (w.balance receiver).toNat + (u128ToU256 amount).toNat
    · rw [if_pos hover] at h
      cases h
    · rw [if_neg hover] at h
      exact ⟨rfl, Nat.not_le.1 hover, (congrArg Prod.fst h).symm⟩

theorem debitEvm_native
    (h : (debitEvm callAssetId caller amount).outcome evm static w = (w', .ok u)) :
    static = false ∧ amount.toNat ≤ (w.balance caller).toNat ∧
      w' = w.setBalance caller (w.balance caller - u128ToU256 amount) := by
  replace h := (outcome_mapErr_eq_ok _).1 h
  rw [Op.outcome, Op.ample] at h
  cases static with
  | true => cases h
  | false =>
    by_cases hless : (w.balance caller).toNat < (u128ToU256 amount).toNat
    · rw [if_pos hless] at h
      cases h
    · rw [if_neg hless] at h
      exact ⟨rfl, Nat.not_lt.1 hless, (congrArg Prod.fst h).symm⟩

end Handler

/-! ### CALL -/

/-- Only the protocol balance of `holder` and the native one of `account` change. -/
structure OnlyAt (holder account : Address) (w w' : World Slot) : Prop where
  storage : ∀ k, k ≠ .balance callAssetId holder → w'.storage k = w.storage k
  balance : ∀ a, a ≠ account → w'.balance a = w.balance a

/-- The amount of a call has moved: from the protocol balance of the caller to
the native balance of the recipient, or the other way. -/
def Moved (c : SwitchCall) (w w' : World Slot) : Prop :=
  match c.direction with
  | .toEvm => OnlyAt c.caller c.receiver w w' ∧
    (w'.storage (.balance callAssetId c.caller)).toNat + c.amount.toNat =
      (w.storage (.balance callAssetId c.caller)).toNat ∧
    (w'.balance c.receiver).toNat = (w.balance c.receiver).toNat + c.amount.toNat
  | .toProtocol => OnlyAt c.receiver c.caller w w' ∧
    (w'.balance c.caller).toNat + c.amount.toNat = (w.balance c.caller).toNat ∧
    (w'.storage (.balance callAssetId c.receiver)).toNat =
      (w.storage (.balance callAssetId c.receiver)).toNat + c.amount.toNat

def worth (w : World Slot) : ℕ := (total fun a => (w.balance a).toNat) + held w.storage callAssetId

theorem OnlyAt.sums {holder account : Address} (h : OnlyAt holder account w w') :
    held w'.storage callAssetId + (w.storage (.balance callAssetId holder)).toNat =
        held w.storage callAssetId + (w'.storage (.balance callAssetId holder)).toNat ∧
      (total fun a => (w'.balance a).toNat) + (w.balance account).toNat =
        (total fun a => (w.balance a).toNat) + (w'.balance account).toNat := by
  constructor
  · exact total_of_agree (f := fun a => (w.storage (.balance callAssetId a)).toNat)
      (g := fun a => (w'.storage (.balance callAssetId a)).toNat) holder
      fun b hb => by rw [h.storage _ (by simp [hb])]
  · exact total_of_agree (f := fun a => (w.balance a).toNat) (g := fun a => (w'.balance a).toNat)
      account fun b hb => by rw [h.balance b hb]

theorem Moved.worth_eq (h : Moved c w w') : worth w' = worth w := by
  unfold Moved at h
  unfold worth
  cases hd : c.direction with
  | toEvm | toProtocol =>
    rw [hd] at h
    obtain ⟨honly, hfrom, hto⟩ := h
    obtain ⟨hheld, hnat⟩ := honly.sums
    omega

theorem toNat_add_amount {b : U256} {amount : U128} (h : b.toNat + amount.toNat < 2 ^ 256) :
    (b + u128ToU256 amount).toNat = b.toNat + amount.toNat := by
  rw [BitVec.toNat_add, u128ToU256_toNat, Nat.mod_eq_of_lt h]

theorem toNat_sub_amount {b : U256} {amount : U128} (h : amount.toNat ≤ b.toNat) :
    (b - u128ToU256 amount).toNat + amount.toNat = b.toNat := by
  have hle : u128ToU256 amount ≤ b := by
    exact h
  rw [BitVec.toNat_sub_of_le hle]
  exact Nat.sub_add_cancel h

/-- A call for CALL that succeeds moves its amount, whichever of its addresses coincide,
and is made outside a static context. -/
theorem native_moved (h : Succeeds evm callAssetId w c) :
    c.isStatic = false ∧ Moved c w (step evm callAssetId w c) := by
  have hout := switch_ok h
  unfold SwitchCall.handler at hout
  unfold Moved
  cases hd : c.direction with rw [hd] at hout
  | toEvm =>
    obtain ⟨w₁, w₂, hsame, hsub, hcred⟩ := switchToEvm_outcome hout
    obtain ⟨hsta, hlt, hw⟩ := creditEvm_native hcred
    rw [hsta] at hsub
    obtain ⟨heval, hbal, -⟩ := outcome_storageRef _ _ _ hsub
    obtain ⟨v, hsto, hv⟩ := subProtocolBal_spec heval
    have hold : w₁.storage = w.storage := hsame.storage
    have hnat : w₂.balance = w.balance := hbal.trans hsame.balance
    rw [hold] at hsto hv
    rw [hnat] at hlt
    have haft : (step evm callAssetId w c).storage =
        update w.storage (.balance callAssetId c.caller) v := by
      rw [hw, ← hsto]
      rfl
    have hcre : (step evm callAssetId w c).balance = update w.balance c.receiver
        (w.balance c.receiver + u128ToU256 c.amount) := by
      rw [hw, ← hnat]
      rfl
    refine ⟨hsta, ⟨fun k hk => ?_, fun a ha => ?_⟩, ?_, ?_⟩
    · rw [haft, update_of_ne hk]
    · rw [hcre, update_of_ne ha]
    · rw [haft, update_self]
      exact hv
    · rw [hcre, update_self]
      exact toNat_add_amount hlt
  | toProtocol =>
    obtain ⟨w₁, w₂, hsame, hdebi, hadd⟩ := switchToProtocol_outcome hout
    obtain ⟨hsta, hle, rfl⟩ := debitEvm_native hdebi
    rw [hsta] at hadd
    obtain ⟨heval, hbal, -⟩ := outcome_storageRef _ _ _ hadd
    obtain ⟨v, hsto, hv⟩ := addProtocolBal_spec heval
    have hold : w₁.storage = w.storage := hsame.storage
    have hnat : w₁.balance = w.balance := hsame.balance
    have haft : (step evm callAssetId w c).storage =
        update w.storage (.balance callAssetId c.receiver) v := by
      rw [hsto, ← hold]
      rfl
    have hdeb : (step evm callAssetId w c).balance = update w.balance c.caller
        (w.balance c.caller - u128ToU256 c.amount) := by
      rw [hbal, ← hnat]
      rfl
    rw [hnat] at hle
    refine ⟨hsta, ⟨fun k hk => ?_, fun a ha => ?_⟩, ?_, ?_⟩
    · rw [haft, update_of_ne hk]
    · rw [hdeb, update_of_ne ha]
    · rw [hdeb, update_self]
      exact toNat_sub_amount hle
    · rw [haft, update_self, hv, ← hold]
      rfl

theorem native_step (w : World Slot) (c : SwitchCall) :
    (Succeeds evm callAssetId w c → Moved c w (step evm callAssetId w c)) ∧
      (¬Succeeds evm callAssetId w c → SameState w (step evm callAssetId w c)) := by
  refine ⟨fun h => (native_moved h).2, fun h => ?_⟩
  rw [step_error h]
  exact ⟨rfl, rfl, rfl⟩

/-- **Switching conserves CALL.** After any calls the native and the protocol balances sum to what
they did, each call that succeeds has moved its amount, and each that fails has moved nothing. -/
theorem native_conserved (evm : Evm Slot) (w : World Slot) (calls : List SwitchCall) :
    worth (Run.run (step evm callAssetId) w calls) = worth w ∧
      Run.Along (step evm callAssetId) (fun w c =>
        (Succeeds evm callAssetId w c → Moved c w (step evm callAssetId w c)) ∧
          (¬Succeeds evm callAssetId w c → SameState w (step evm callAssetId w c))) w calls := by
  constructor
  · induction calls generalizing w with
    | nil => rfl
    | cons c calls ih =>
      rw [Run.run_cons, ih]
      obtain ⟨hmov, hsame⟩ := native_step w c
      by_cases h : Succeeds evm callAssetId w c
      · exact (hmov h).worth_eq
      · have hs := hsame h
        rw [worth, hs.storage, hs.balance, worth]
  · induction calls generalizing w with
    | nil => trivial
    | cons c calls ih => exact ⟨native_step w c, ih _⟩

end Callchain.Switch

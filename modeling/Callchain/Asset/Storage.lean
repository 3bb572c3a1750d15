/-
# The protocol balances

`AssetStorage` keeps the balance of every asset and address in a slot of the asset
precompile, and the metadata of the asset beside it. A slot holds 256 bits, a balance
128, and reading a slot above that is an error. Each family of slots is a field, and
different keys are taken to have different slots.
-/
import Callchain.Lib.Ledger
import Callchain.Primitives

namespace Callchain.Asset

inductive AssetError where
  | insufficientBalance
  | balanceOverflow
  | supplyOverflow
  | supplyUnderflow
  | maxSupplyExceeded
  | notIssuer
  | assetNotFound
  | insufficientAllowance
  | complianceFailed
  | invalidMetadata (key : String)
  | assetIdOverflow
  | invalidDecimals (decimals : U8)
  | erc20AlreadyBound (contract : Address)
  deriving DecidableEq

def callAssetId : U64 := 1

structure AssetStorage where
  balance : U64 → Address → U256 := fun _ _ => 0
  issuer : U64 → Address := fun _ => 0

namespace AssetStorage

def readBalance (s : AssetStorage) (assetId : U64) (addr : Address) : Except AssetError U128 :=
  if 2 ^ 128 ≤ (s.balance assetId addr).toNat then .error .balanceOverflow
  else .ok ((s.balance assetId addr).setWidth 128)

def writeBalance (s : AssetStorage) (assetId : U64) (addr : Address) (amount : U128) :
    AssetStorage :=
  { s with
    balance := Function.update s.balance assetId
      (Function.update (s.balance assetId) addr (amount.setWidth 256)) }

def addBalance (s : AssetStorage) (assetId : U64) (addr : Address) (amount : U128) :
    Except AssetError AssetStorage :=
  match s.readBalance assetId addr with
  | .error e => .error e
  | .ok current =>
    if 2 ^ 128 ≤ current.toNat + amount.toNat then .error .balanceOverflow
    else .ok (s.writeBalance assetId addr (current + amount))

def deductBalance (s : AssetStorage) (assetId : U64) (addr : Address) (amount : U128) :
    Except AssetError AssetStorage :=
  match s.readBalance assetId addr with
  | .error e => .error e
  | .ok current =>
    if current < amount then .error .insufficientBalance
    else .ok (s.writeBalance assetId addr (current - amount))

variable {s t : AssetStorage} {aid : U64} {addr : Address} {amount : U128}

theorem readBalance_of_lt (h : (s.balance aid addr).toNat < 2 ^ 128) :
    s.readBalance aid addr = .ok ((s.balance aid addr).setWidth 128) := by
  rw [readBalance, if_neg (by omega)]

theorem readBalance_of_le (h : 2 ^ 128 ≤ (s.balance aid addr).toNat) :
    s.readBalance aid addr = .error .balanceOverflow := by
  rw [readBalance, if_pos h]

theorem setWidth_toNat_of_lt {w : U256} (h : w.toNat < 2 ^ 128) : (w.setWidth 128).toNat = w.toNat := by
  rw [BitVec.toNat_setWidth, Nat.mod_eq_of_lt h]

theorem writeBalance_toNat (aid' : U64) (addr' : Address) :
    ((s.writeBalance aid addr amount).balance aid' addr').toNat =
      if aid' = aid ∧ addr' = addr then amount.toNat else (s.balance aid' addr').toNat := by
  have hlt : amount.toNat < 2 ^ 256 := lt_trans amount.isLt (by norm_num)
  have hword : (amount.setWidth 256).toNat = amount.toNat := by
    rw [BitVec.toNat_setWidth, Nat.mod_eq_of_lt hlt]
  show (Function.update s.balance aid
    (Function.update (s.balance aid) addr (amount.setWidth 256)) aid' addr').toNat = _
  by_cases ha : aid' = aid
  · subst ha
    by_cases hd : addr' = addr
    · subst hd
      rw [if_pos ⟨rfl, rfl⟩, Function.update_self, Function.update_self, hword]
    · rw [if_neg fun h => hd h.2, Function.update_self, Function.update_of_ne hd]
  · rw [if_neg fun h => ha h.1, Function.update_of_ne ha]

theorem addBalance_eq_ok :
    s.addBalance aid addr amount = .ok t ↔ (s.balance aid addr).toNat + amount.toNat < 2 ^ 128 ∧
        t = s.writeBalance aid addr ((s.balance aid addr).setWidth 128 + amount) := by
  unfold addBalance
  rcases lt_or_ge (s.balance aid addr).toNat (2 ^ 128) with hlt | hge
  · rw [readBalance_of_lt hlt]
    dsimp only
    rw [setWidth_toNat_of_lt hlt, ite_error_eq_ok, not_le, Except.ok.injEq]
    exact and_congr_right' eq_comm
  · rw [readBalance_of_le hge]
    exact iff_of_false (fun he => nomatch he) fun he => absurd he.1 (by omega)

/-- Deducting succeeds exactly when the slot holds a balance that covers the amount, and
writes the difference. -/
theorem deductBalance_eq_ok :
    s.deductBalance aid addr amount = .ok t ↔ amount.toNat ≤ (s.balance aid addr).toNat ∧
        (s.balance aid addr).toNat < 2 ^ 128 ∧
        t = s.writeBalance aid addr ((s.balance aid addr).setWidth 128 - amount) := by
  unfold deductBalance
  rcases lt_or_ge (s.balance aid addr).toNat (2 ^ 128) with hlt | hge
  · rw [readBalance_of_lt hlt]
    rw [ite_error_eq_ok, BitVec.not_lt, BitVec.le_def, setWidth_toNat_of_lt hlt, Except.ok.injEq]
    exact and_congr_right' (eq_comm.trans (and_iff_right hlt).symm)
  · rw [readBalance_of_le hge]
    exact iff_of_false (fun he => nomatch he) fun he => absurd he.2.1 (by omega)

theorem addBalance_toNat (h : s.addBalance aid addr amount = .ok t) (aid' : U64)
    (addr' : Address) : (t.balance aid' addr').toNat =
      if aid' = aid ∧ addr' = addr then (s.balance aid addr).toNat + amount.toNat
      else (s.balance aid' addr').toNat := by
  obtain ⟨hlt, rfl⟩ := addBalance_eq_ok.1 h
  rw [writeBalance_toNat, BitVec.toNat_add, setWidth_toNat_of_lt (by omega), Nat.mod_eq_of_lt hlt]

theorem deductBalance_toNat (h : s.deductBalance aid addr amount = .ok t) (aid' : U64)
    (addr' : Address) : (t.balance aid' addr').toNat =
      if aid' = aid ∧ addr' = addr then (s.balance aid addr).toNat - amount.toNat
      else (s.balance aid' addr').toNat := by
  obtain ⟨hle, hlt, rfl⟩ := deductBalance_eq_ok.1 h
  have hw := setWidth_toNat_of_lt hlt
  rw [writeBalance_toNat, BitVec.toNat_sub_of_le (by rw [BitVec.le_def, hw]; exact hle), hw]

def balances (s : AssetStorage) (assetId : U64) : ℕ :=
  Ledger.total fun addr => (s.balance assetId addr).toNat

theorem balances_add (h : s.addBalance aid addr amount = .ok t) (aid' : U64) :
    t.balances aid' = s.balances aid' + if aid' = aid then amount.toNat else 0 := by
  have htot := Ledger.total_of_agree (f := fun x => (s.balance aid' x).toNat)
    (g := fun x => (t.balance aid' x).toNat) addr fun x hx => by
      rw [addBalance_toNat h, if_neg fun he => hx he.2]
  unfold balances
  rw [addBalance_toNat h] at htot
  by_cases hid : aid' = aid
  · subst hid
    rw [if_pos ⟨rfl, rfl⟩] at htot
    rw [if_pos rfl]
    omega
  · rw [if_neg fun he => hid he.1] at htot
    rw [if_neg hid]
    omega

theorem balances_deduct (h : s.deductBalance aid addr amount = .ok t) (aid' : U64) :
    t.balances aid' + (if aid' = aid then amount.toNat else 0) = s.balances aid' := by
  have hle := (deductBalance_eq_ok.1 h).1
  have htot := Ledger.total_of_agree (f := fun x => (s.balance aid' x).toNat)
    (g := fun x => (t.balance aid' x).toNat) addr fun x hx => by
      rw [deductBalance_toNat h, if_neg fun he => hx he.2]
  unfold balances
  rw [deductBalance_toNat h] at htot
  by_cases hid : aid' = aid
  · subst hid
    rw [if_pos ⟨rfl, rfl⟩] at htot
    rw [if_pos rfl]
    omega
  · rw [if_neg fun he => hid he.1] at htot
    rw [if_neg hid]
    omega

theorem balances_of_single (h : ∀ x, x ≠ addr → s.balance aid x = 0) :
    s.balances aid = (s.balance aid addr).toNat := by
  have hzero : Ledger.total (fun _ : Address => 0) = 0 := Ledger.total_eq_zero fun _ => rfl
  have hoth : ∀ x, x ≠ addr → (s.balance aid x).toNat = 0 := by
    intro x hx
    rw [h x hx]
    rfl
  have htot := Ledger.total_of_agree (f := fun _ => 0)
    (g := fun x => (s.balance aid x).toNat) addr hoth
  rw [hzero, Nat.zero_add, Nat.add_zero] at htot
  exact htot

end AssetStorage

end Callchain.Asset

/-
# The methods of the asset storage

`AssetStorage` is generic in its backend: each method is a program of loads and stores
with an `AssetError`, run on a plain storage by `Access.eval` and on the provider of a
precompile through `StorageRef`. The slots of the asset precompile are hashed from their
keys; `Slot` is the keys.

`AssetStorage` of `Callchain.Asset.Storage`, on which the bridge and the validators
work, is what these methods see of the balances, over any credits and debits.
-/
import Callchain.Lib.Access
import Callchain.Lib.Ledger
import Callchain.Lib.Run
import Callchain.Asset.Storage

namespace Callchain.Asset

open Access hiding pure

open Function (update update_of_ne update_self)

/-- The suffixes of `slot_asset_meta`. -/
inductive MetaField where
  | symbol
  | name
  | decimals
  | issuer
  | maxSupply
  | supply
  | status
  | compliance
  | registeredAt
  | hasErc20
  | evmContract
  | dominance
  deriving DecidableEq

def MetaField.key : MetaField → String
  | .symbol => "symbol"
  | .name => "name"
  | .decimals => "decimals"
  | .issuer => "issuer"
  | .maxSupply => "max_supply"
  | .supply => "supply"
  | .status => "status"
  | .compliance => "compliance"
  | .registeredAt => "registered_at"
  | .hasErc20 => "has_erc20"
  | .evmContract => "evm_contract"
  | .dominance => "dominance"

/-- A storage slot: the next id, `slot_balance`, `slot_allowance`, `slot_asset_meta` and
`erc20_binding_slot` of the asset precompile, `slot_compliance` of the compliance
precompile, and those of every other account. -/
inductive Slot where
  | nextAssetId
  | balance (assetId : U64) (addr : Address)
  | allowance (assetId : U64) (owner spender : Address)
  | assetMeta (assetId : U64) (field : MetaField)
  | erc20Binding (contract : Address)
  | compliance (addr : Address)
  | account (addr : Address) (slot : U256)
  deriving DecidableEq

def Slot.asset : Slot → Option U64
  | .balance assetId _ => some assetId
  | .allowance assetId _ _ => some assetId
  | .assetMeta assetId _ => some assetId
  | _ => none

def Slot.holder (assetId : U64) : Slot → Option Address
  | .balance id addr => if id = assetId then some addr else none
  | _ => none

abbrev Method (α : Type) := Access Slot U256 AssetError α

/-! ### Words and strings -/

def u128ToU256 (v : U128) : U256 := v.setWidth 256

def u256ToU128 (v : U256) : U128 := v.setWidth 128

def addressToU256 (a : Address) : U256 := a.setWidth 256

def u256ToAddress (v : U256) : Address := v.setWidth 160

def u256ToU8 (v : U256) : U8 := v.setWidth 8

def string32 (v : U256) : Bytes := (beBytes 32 v.toNat).takeWhile (· ≠ 0)

/-- `write_string32`, and what `store_meta_string` stores: the bytes of a string, padded
to 32. -/
def writeString32 (s : Bytes) : U256 :=
  B256.fromSlice (s.take 32 ++ List.replicate (32 - s.length) 0)

/-! ### Balances and allowances -/

def readBalance (assetId : U64) (addr : Address) : Method U128 := do
  let raw ← get (.balance assetId addr)
  require (raw.toNat < 2 ^ 128) .balanceOverflow
  return u256ToU128 raw

def writeBalance (assetId : U64) (addr : Address) (amount : U128) : Method Unit :=
  put (.balance assetId addr) (u128ToU256 amount)

def addBalance (assetId : U64) (addr : Address) (amount : U128) : Method Unit := do
  let current ← readBalance assetId addr
  require (current.toNat + amount.toNat < 2 ^ 128) .balanceOverflow
  writeBalance assetId addr (current + amount)

def deductBalance (assetId : U64) (addr : Address) (amount : U128) : Method Unit := do
  let current ← readBalance assetId addr
  require (amount ≤ current) .insufficientBalance
  writeBalance assetId addr (current - amount)

def readAllowance (assetId : U64) (owner spender : Address) : Method U128 := do
  let raw ← get (.allowance assetId owner spender)
  require (raw.toNat < 2 ^ 128) .balanceOverflow
  return u256ToU128 raw

def writeAllowance (assetId : U64) (owner spender : Address) (amount : U128) : Method Unit :=
  put (.allowance assetId owner spender) (u128ToU256 amount)

/-! ### Metadata -/

structure AssetMeta where
  symbol : Bytes
  name : Bytes
  decimals : U8
  issuer : Address
  maxSupply : U128
  supply : U128
  status : U8
  registeredAt : U256
  evmContract : Address
  dominance : U8

def loadMetaU256 (assetId : U64) (field : MetaField) : Method U256 :=
  get (.assetMeta assetId field)

def loadMetaU128 (assetId : U64) (field : MetaField) : Method U128 := do
  return u256ToU128 (← loadMetaU256 assetId field)

def loadMetaU8 (assetId : U64) (field : MetaField) : Method U8 := do
  return u256ToU8 (← loadMetaU256 assetId field)

def loadMetaAddress (assetId : U64) (field : MetaField) : Method Address := do
  return u256ToAddress (← loadMetaU256 assetId field)

def loadMetaString (assetId : U64) (field : MetaField) : Method Bytes := do
  let v ← loadMetaU256 assetId field
  require (validUtf8 (string32 v)) (.invalidMetadata field.key)
  return string32 v

def storeMetaU256 (assetId : U64) (field : MetaField) (value : U256) : Method Unit :=
  put (.assetMeta assetId field) value

def storeMetaString (assetId : U64) (field : MetaField) (value : Bytes) : Method Unit := do
  require (value.length ≤ 32) (.invalidMetadata
    ("'" ++ field.key ++ "' exceeds 32 bytes (" ++ toString value.length ++ " bytes)"))
  storeMetaU256 assetId field (writeString32 value)

def readMeta (assetId : U64) : Method AssetMeta := do
  let symbol ← loadMetaString assetId .symbol
  let issuer ← loadMetaAddress assetId .issuer
  -- unregistered slots default to zeros
  require (¬ (issuer = 0 ∧ symbol = [])) .assetNotFound
  let name ← loadMetaString assetId .name
  let decimals ← loadMetaU8 assetId .decimals
  let maxSupply ← loadMetaU128 assetId .maxSupply
  let supply ← loadMetaU128 assetId .supply
  let status ← loadMetaU8 assetId .status
  let registeredAt ← loadMetaU256 assetId .registeredAt
  let evmContract ← loadMetaAddress assetId .evmContract
  let dominance ← loadMetaU8 assetId .dominance
  return { symbol, name, decimals, issuer, maxSupply, supply, status, registeredAt, evmContract
           dominance }

/-! ### Transfers -/

/-- The balance of the receiver is read and checked before the sender's is deducted, and
a transfer to oneself does nothing. -/
def transfer (assetId : U64) (sender receiver : Address) (amount : U128) : Method Unit := do
  let toCurrent ← readBalance assetId receiver
  require (toCurrent.toNat + amount.toNat < 2 ^ 128) .balanceOverflow
  if sender = receiver then return ()
  else
    deductBalance assetId sender amount
    writeBalance assetId receiver (toCurrent + amount)

def batchTransfer (assetId : U64) (sender : Address) : List (Address × U128) → Method Unit
  | [] => return ()
  | (receiver, amount) :: recipients => do
    transfer assetId sender receiver amount
    batchTransfer assetId sender recipients

def approve (assetId : U64) (owner spender : Address) (amount : U128) : Method Unit := do
  let _ ← readMeta assetId
  writeAllowance assetId owner spender amount

def transferFrom (assetId : U64) (spender sender receiver : Address) (amount : U128) : Method Unit := do
  let allowance ← readAllowance assetId sender spender
  require (amount ≤ allowance) .insufficientAllowance
  transfer assetId sender receiver amount
  writeAllowance assetId sender spender (allowance - amount)

def mint (assetId : U64) (caller receiver : Address) (amount : U128) : Method Unit := do
  let info ← readMeta assetId
  require (info.issuer = caller) .notIssuer
  require (info.supply.toNat + amount.toNat < 2 ^ 128) .supplyOverflow
  let newSupply := info.supply + amount
  require (¬ (0 < info.maxSupply ∧ info.maxSupply < newSupply)) .maxSupplyExceeded
  addBalance assetId receiver amount
  storeMetaU256 assetId .supply (u128ToU256 newSupply)

def spendAllowance (assetId : U64) (caller sender : Address) (amount : U128) :
    Method (Option U128) :=
  if caller = sender then return none
  else do
    let allowance ← readAllowance assetId sender caller
    require (amount ≤ allowance) .insufficientAllowance
    return some (allowance - amount)

/-- The allowance is written only after the balance is deducted. -/
def burn (assetId : U64) (caller sender : Address) (amount : U128) : Method Unit := do
  let newAllowance ← spendAllowance assetId caller sender amount
  deductBalance assetId sender amount
  newAllowance.elim (pure ()) (writeAllowance assetId sender caller)
  let supply ← loadMetaU128 assetId .supply
  require (amount ≤ supply) .supplyUnderflow
  storeMetaU256 assetId .supply (u128ToU256 (supply - amount))

/-! ### Registration -/

def allocateAssetId : Method U64 := do
  let raw ← get .nextAssetId
  require (raw.toNat < 2 ^ 64) .assetIdOverflow
  let assetId : U64 := if raw = 0 then 1 else raw.setWidth 64
  require (assetId.toNat + 1 < 2 ^ 64) .assetIdOverflow
  put .nextAssetId ((assetId + 1).setWidth 256)
  return assetId

def writeBaseMeta (assetId : U64) (symbol name : Bytes) (decimals : U8) (maxSupply : U128)
    (issuer : Address) (registeredAt : U256) : Method Unit := do
  storeMetaString assetId .symbol symbol
  storeMetaString assetId .name name
  storeMetaU256 assetId .decimals (decimals.setWidth 256)
  storeMetaU256 assetId .issuer (addressToU256 issuer)
  storeMetaU256 assetId .maxSupply (u128ToU256 maxSupply)
  storeMetaU256 assetId .supply 0
  storeMetaU256 assetId .status 0
  storeMetaU256 assetId .compliance 0
  storeMetaU256 assetId .registeredAt registeredAt

def register (symbol name : Bytes) (decimals : U8) (maxSupply : U128) (issuer : Address)
    (registeredAt : U256) : Method U64 := do
  require (decimals ≤ 18) (.invalidDecimals decimals)
  let assetId ← allocateAssetId
  writeBaseMeta assetId symbol name decimals maxSupply issuer registeredAt
  storeMetaU256 assetId .hasErc20 0
  return assetId

def evmContractAssetId (evmContract : Address) : Method (Option U64) := do
  let raw ← get (.erc20Binding evmContract)
  return if raw = 0 then none else some (raw.setWidth 64)

def setEvmContractAssetId (evmContract : Address) (assetId : U64) : Method Unit :=
  put (.erc20Binding evmContract) (assetId.setWidth 256)

def registerErc20 (evmContract : Address) (symbol name : Bytes) (decimals : U8) (maxSupply : U128)
    (issuer : Address) (registeredAt : U256) : Method U64 := do
  require (decimals ≤ 18) (.invalidDecimals decimals)
  let bound ← evmContractAssetId evmContract
  require (bound = none) (.erc20AlreadyBound evmContract)
  let assetId ← allocateAssetId
  writeBaseMeta assetId symbol name decimals maxSupply issuer registeredAt
  storeMetaU256 assetId .hasErc20 1
  storeMetaU256 assetId .evmContract (addressToU256 evmContract)
  setEvmContractAssetId evmContract assetId
  return assetId

def hasErc20 (assetId : U64) : Method Bool := do
  if assetId = callAssetId then return false
  else return (← loadMetaU8 assetId .hasErc20) = 1

def setHasErc20 (assetId : U64) (value : U8) : Method Unit :=
  storeMetaU256 assetId .hasErc20 (value.setWidth 256)

def setEvmContract (assetId : U64) (addr : Address) : Method Unit :=
  storeMetaU256 assetId .evmContract (addressToU256 addr)

def setDominance (assetId : U64) (value : U8) : Method Unit :=
  storeMetaU256 assetId .dominance (value.setWidth 256)

/-! ### What the methods do to a storage -/

variable {s t : Slot → U256} {assetId : U64} {addr : Address} {amount : U128} {u : Unit}

theorem u128ToU256_toNat (v : U128) : (u128ToU256 v).toNat = v.toNat := by
  have hlt : v.toNat < 2 ^ 256 := lt_trans v.isLt (by norm_num)
  rw [u128ToU256, BitVec.toNat_setWidth, Nat.mod_eq_of_lt hlt]

theorem u256ToU128_toNat {v : U256} (h : v.toNat < 2 ^ 128) : (u256ToU128 v).toNat = v.toNat :=
  AssetStorage.setWidth_toNat_of_lt h

theorem u256ToU128_u128ToU256 (v : U128) : u256ToU128 (u128ToU256 v) = v := by
  apply BitVec.eq_of_toNat_eq
  rw [u256ToU128_toNat (by rw [u128ToU256_toNat]; exact v.isLt), u128ToU256_toNat]

theorem readBalance_eq_ok {b : U128} : (readBalance assetId addr).eval s = (t, .ok b) ↔
      (s (.balance assetId addr)).toNat < 2 ^ 128 ∧ s = t ∧
        u256ToU128 (s (.balance assetId addr)) = b := by
  unfold readBalance
  rw [eval_get_bind, eval_require_bind_eq_ok]
  simp

theorem readAllowance_eq_ok {owner spender : Address} {b : U128} :
    (readAllowance assetId owner spender).eval s = (t, .ok b) ↔
      (s (.allowance assetId owner spender)).toNat < 2 ^ 128 ∧ s = t ∧
        u256ToU128 (s (.allowance assetId owner spender)) = b := by
  unfold readAllowance
  rw [eval_get_bind, eval_require_bind_eq_ok]
  simp

theorem spendAllowance_state {caller sender : Address} {left : Option U128}
    (h : (spendAllowance assetId caller sender amount).eval s = (t, .ok left)) : t = s := by
  unfold spendAllowance at h
  split_ifs at h with hself
  · exact (congrArg Prod.fst h).symm
  · obtain ⟨s', allowance, hread, hrest⟩ := eval_bind_eq_ok.1 h
    obtain ⟨-, rfl, -⟩ := readAllowance_eq_ok.1 hread
    obtain ⟨-, hrest⟩ := eval_require_bind_eq_ok.1 hrest
    exact (congrArg Prod.fst hrest).symm

theorem addBalance_spec (h : (addBalance assetId addr amount).eval s = (t, .ok u)) :
    ∃ w : U256, t = update s (.balance assetId addr) w ∧ w.toNat < 2 ^ 128 ∧
      w.toNat = (s (.balance assetId addr)).toNat + amount.toNat := by
  obtain ⟨s', current, hread, h⟩ := eval_bind_eq_ok.1 h
  obtain ⟨hlt, rfl, rfl⟩ := readBalance_eq_ok.1 hread
  obtain ⟨hsum, h⟩ := eval_require_bind_eq_ok.1 h
  have hw : (u128ToU256 (u256ToU128 (s (.balance assetId addr)) + amount)).toNat =
      (s (.balance assetId addr)).toNat + amount.toNat := by
    rw [u128ToU256_toNat, BitVec.toNat_add, Nat.mod_eq_of_lt hsum, u256ToU128_toNat hlt]
  rw [u256ToU128_toNat hlt] at hsum
  exact ⟨_, (congrArg Prod.fst h).symm, by omega, hw⟩

theorem deductBalance_spec (h : (deductBalance assetId addr amount).eval s = (t, .ok u)) :
    ∃ w : U256, t = update s (.balance assetId addr) w ∧
      w.toNat + amount.toNat = (s (.balance assetId addr)).toNat := by
  obtain ⟨s', current, hread, h⟩ := eval_bind_eq_ok.1 h
  obtain ⟨hlt, rfl, rfl⟩ := readBalance_eq_ok.1 hread
  obtain ⟨hle, h⟩ := eval_require_bind_eq_ok.1 h
  refine ⟨_, (congrArg Prod.fst h).symm, ?_⟩
  rw [u128ToU256_toNat, BitVec.toNat_sub_of_le hle, u256ToU128_toNat hlt]
  rw [BitVec.le_def, u256ToU128_toNat hlt] at hle
  omega

theorem transfer_spec {sender receiver : Address}
    (h : (transfer assetId sender receiver amount).eval s = (t, .ok u)) :
    (sender = receiver ∧ t = s) ∨ (sender ≠ receiver ∧ ∃ w w' : U256,
      t = update (update s (.balance assetId sender) w) (.balance assetId receiver) w' ∧
      w.toNat + amount.toNat = (s (.balance assetId sender)).toNat ∧
      w'.toNat = (s (.balance assetId receiver)).toNat + amount.toNat) := by
  obtain ⟨s', current, hread, h⟩ := eval_bind_eq_ok.1 h
  obtain ⟨hlt, rfl, rfl⟩ := readBalance_eq_ok.1 hread
  obtain ⟨hsum, h⟩ := eval_require_bind_eq_ok.1 h
  by_cases hself : sender = receiver
  · rw [if_pos hself] at h
    exact .inl ⟨hself, (congrArg Prod.fst h).symm⟩
  · rw [if_neg hself] at h
    obtain ⟨s', ⟨⟩, hded, h⟩ := eval_bind_eq_ok.1 h
    obtain ⟨w, rfl, hw⟩ := deductBalance_spec hded
    refine .inr ⟨hself, w, _, (congrArg Prod.fst h).symm, hw, ?_⟩
    rw [u128ToU256_toNat, BitVec.toNat_add, Nat.mod_eq_of_lt hsum, u256ToU128_toNat hlt]

/-! ### Metadata and registration -/

section

variable (P : Slot → Prop)

theorem writesIn_readBalance (aid : U64) (addr : Address) : (readBalance aid addr).WritesIn P :=
  (writesIn_get P _).bind fun _ => (writesIn_require P _ _).bind fun _ => trivial

theorem writesIn_loadMetaString (aid : U64) (field : MetaField) :
    (loadMetaString aid field).WritesIn P :=
  (writesIn_get P _).bind fun _ => (writesIn_require P _ _).bind fun _ => trivial

theorem writesIn_readMeta (aid : U64) : (readMeta aid).WritesIn P := by
  refine (writesIn_loadMetaString P _ _).bind fun symbol => ?_
  refine Access.WritesIn.bind (fun _ => trivial) fun issuer => ?_
  refine (writesIn_require P _ _).bind fun _ => ?_
  refine (writesIn_loadMetaString P _ _).bind fun name => ?_
  exact fun _ _ _ _ _ _ _ => trivial

end

theorem loadMetaString_eq_ok {field : MetaField} {b : Bytes} :
    (loadMetaString assetId field).eval s = (t, .ok b) ↔
      validUtf8 (string32 (s (.assetMeta assetId field))) = true ∧ s = t ∧
        string32 (s (.assetMeta assetId field)) = b := by
  unfold loadMetaString loadMetaU256
  rw [eval_get_bind, eval_require_bind_eq_ok]
  simp

theorem readMeta_spec {info : AssetMeta} (h : (readMeta assetId).eval s = (t, .ok info)) :
    t = s ∧ info.issuer = u256ToAddress (s (.assetMeta assetId .issuer)) ∧
      info.maxSupply = u256ToU128 (s (.assetMeta assetId .maxSupply)) ∧
      info.supply = u256ToU128 (s (.assetMeta assetId .supply)) ∧
      ¬ (u256ToAddress (s (.assetMeta assetId .issuer)) = 0 ∧
        string32 (s (.assetMeta assetId .symbol)) = []) := by
  obtain ⟨s', symbol, hsym, h⟩ := eval_bind_eq_ok.1 h
  obtain ⟨-, rfl, rfl⟩ := loadMetaString_eq_ok.1 hsym
  obtain ⟨hfou, h⟩ := eval_require_bind_eq_ok.1 h
  obtain ⟨s', name, hname, h⟩ := eval_bind_eq_ok.1 h
  obtain ⟨-, rfl, rfl⟩ := loadMetaString_eq_ok.1 hname
  -- only loads are left
  obtain ⟨rfl, hinfo⟩ := Prod.mk.inj h
  cases hinfo
  exact ⟨rfl, rfl, rfl, rfl, hfou⟩

def nextId (s : Slot → U256) : ℕ := if s .nextAssetId = 0 then 1 else (s .nextAssetId).toNat

theorem allocateAssetId_spec {id : U64} (h : allocateAssetId.eval s = (t, .ok id)) :
    id.toNat = nextId s ∧ nextId t = nextId s + 1 ∧ ∃ w, t = update s .nextAssetId w := by
  obtain ⟨hlt, h⟩ := eval_require_bind_eq_ok.1 h
  obtain ⟨hnext, h⟩ := eval_require_bind_eq_ok.1 h
  obtain ⟨ht, hid⟩ := Prod.mk.inj h
  cases hid
  have hid : (if s .nextAssetId = 0 then (1 : U64) else (s .nextAssetId).setWidth 64).toNat =
      nextId s := by
    unfold nextId
    split_ifs with h0
    · rfl
    · rw [BitVec.toNat_setWidth, Nat.mod_eq_of_lt hlt]
  refine ⟨hid, ?_, _, ht.symm⟩
  rw [hid] at hnext
  have hw : (t .nextAssetId).toNat = nextId s + 1 := by
    rw [← ht, update_self, BitVec.toNat_setWidth, BitVec.toNat_add, hid,
      show (1 : U64).toNat = 1 from rfl, Nat.mod_eq_of_lt hnext,
      Nat.mod_eq_of_lt (lt_trans hnext (by norm_num))]
  have hne : t .nextAssetId ≠ 0 := by
    intro h0
    rw [h0] at hw
    exact absurd hw (by simp)
  rw [nextId, if_neg hne, hw]

theorem writeBaseMeta_spec {symbol name : Bytes} {decimals : U8} {maxSupply : U128}
    {issuer : Address} {registeredAt : U256}
    (h : (writeBaseMeta assetId symbol name decimals maxSupply issuer registeredAt).eval s =
      (t, .ok u)) :
    t (.assetMeta assetId .supply) = 0 ∧ t (.assetMeta assetId .issuer) = addressToU256 issuer ∧
      (∀ k, (∀ f, k ≠ .assetMeta assetId f) → t k = s k) ∧
      ∀ f ∈ [MetaField.hasErc20, .evmContract, .dominance],
        t (.assetMeta assetId f) = s (.assetMeta assetId f) := by
  obtain ⟨s', ⟨⟩, hsym, h⟩ := eval_bind_eq_ok.1 h
  obtain ⟨-, hsym⟩ := eval_require_bind_eq_ok.1 hsym
  obtain rfl := congrArg Prod.fst hsym
  obtain ⟨s', ⟨⟩, hname, h⟩ := eval_bind_eq_ok.1 h
  obtain ⟨-, hname⟩ := eval_require_bind_eq_ok.1 hname
  obtain rfl := congrArg Prod.fst hname
  -- only stores are left
  obtain rfl := congrArg Prod.fst h
  simp only [storeMetaU256, eval_put_bind, eval_put]
  refine ⟨by simp, by simp, fun k hk => ?_, ?_⟩
  · simp [update_of_ne, hk]
  · simp

/-! ### The balances as the bridge and the validators see them -/

def assetStorage (s : Slot → U256) : AssetStorage where
  balance assetId addr := s (.balance assetId addr)
  issuer assetId := u256ToAddress (s (.assetMeta assetId .issuer))

theorem eval_readBalance : (readBalance assetId addr).eval s =
    (s, (assetStorage s).readBalance assetId addr) := by
  rcases Nat.lt_or_ge (s (.balance assetId addr)).toNat (2 ^ 128) with hlt | hge
  · rw [AssetStorage.readBalance_of_lt hlt]
    exact readBalance_eq_ok.2 ⟨hlt, rfl, rfl⟩
  · rw [AssetStorage.readBalance_of_le hge, readBalance, eval_get_bind, require, if_neg (Nat.not_lt.2 hge)]
    rfl

theorem assetStorage_writeBalance :
    assetStorage (update s (.balance assetId addr) (u128ToU256 amount)) =
      (assetStorage s).writeBalance assetId addr amount := by
  have hbal : ∀ id a, update s (.balance assetId addr) (u128ToU256 amount)
      (.balance id a) = ((assetStorage s).writeBalance assetId addr amount).balance id a := by
    intro id a
    show _ = update (assetStorage s).balance assetId
      (update ((assetStorage s).balance assetId) addr (amount.setWidth 256)) id a
    by_cases hid : id = assetId
    · subst hid
      by_cases ha : a = addr
      · subst ha
        rw [update_self, update_self, update_self, u128ToU256]
      · rw [update_of_ne (by simp [ha]), update_self, update_of_ne ha]
        rfl
    · rw [update_of_ne (by simp [hid]), update_of_ne hid]
      rfl
  have hiss : ∀ id, update s (.balance assetId addr) (u128ToU256 amount)
      (.assetMeta id .issuer) = s (.assetMeta id .issuer) := fun id =>
    update_of_ne (by simp) _ _
  unfold assetStorage AssetStorage.writeBalance at *
  simp only [AssetStorage.mk.injEq]
  exact ⟨funext fun id => funext fun a => hbal id a, funext fun id => by rw [hiss]⟩

variable {r : Except AssetError Unit}

theorem addBalance_refines (h : (addBalance assetId addr amount).eval s = (t, r)) :
    (assetStorage s).addBalance assetId addr amount = r.map fun _ => assetStorage t := by
  unfold addBalance at h
  rw [eval_bind, eval_readBalance] at h
  unfold AssetStorage.addBalance
  cases hread : (assetStorage s).readBalance assetId addr with rw [hread] at h
  | error =>
    cases h
    rfl
  | ok current =>
    dsimp only at h ⊢
    rcases Nat.lt_or_ge (current.toNat + amount.toNat) (2 ^ 128) with hlt | hge
    · rw [require, if_pos hlt] at h
      cases h
      rw [if_neg (Nat.not_le.2 hlt), ← assetStorage_writeBalance]
      rfl
    · rw [require, if_neg (Nat.not_lt.2 hge)] at h
      cases h
      rw [if_pos hge]
      rfl

theorem deductBalance_refines (h : (deductBalance assetId addr amount).eval s = (t, r)) :
    (assetStorage s).deductBalance assetId addr amount = r.map fun _ => assetStorage t := by
  unfold deductBalance at h
  rw [eval_bind, eval_readBalance] at h
  unfold AssetStorage.deductBalance
  cases hread : (assetStorage s).readBalance assetId addr with rw [hread] at h
  | error =>
    cases h
    rfl
  | ok current =>
    dsimp only at h ⊢
    by_cases hle : amount ≤ current
    · rw [require, if_pos hle] at h
      cases h
      rw [if_neg (BitVec.not_lt.2 hle), ← assetStorage_writeBalance]
      rfl
    · rw [require, if_neg hle] at h
      cases h
      rw [if_pos (BitVec.not_le.1 hle)]
      rfl

/-- What the bridge and the validators ask of `AssetStorage`. -/
inductive BalanceCall
  | credit (assetId : U64) (addr : Address) (amount : U128)
  | debit (assetId : U64) (addr : Address) (amount : U128)

namespace BalanceCall

def method : BalanceCall → Method Unit
  | credit assetId addr amount => addBalance assetId addr amount
  | debit assetId addr amount => deductBalance assetId addr amount

def exec (st : AssetStorage) : BalanceCall → Except AssetError AssetStorage
  | credit assetId addr amount => st.addBalance assetId addr amount
  | debit assetId addr amount => st.deductBalance assetId addr amount

theorem exec_eq (s : Slot → U256) (c : BalanceCall) : c.exec (assetStorage s) =
    (c.method.eval s).2.map fun _ => assetStorage (c.method.eval s).1 := by
  cases c with
  | credit => exact addBalance_refines rfl
  | debit => exact deductBalance_refines rfl

/-- A failed call is reverted. -/
def step (s : Slot → U256) (c : BalanceCall) : Slot → U256 :=
  match c.method.eval s with
  | (t, .ok _) => t
  | (_, .error _) => s

end BalanceCall

/-- **Credits and debits refine the ledger.** After any credits and debits the slots hold the
balances that `AssetStorage` has, and the next call ends alike on both. -/
theorem credits_and_debits_refine (s : Slot → U256) (calls : List BalanceCall) (c : BalanceCall) :
    let t := Run.run BalanceCall.step s calls
    let st := Run.run (fun st c => (c.exec st).toOption.getD st) (assetStorage s) calls
    st = assetStorage t ∧ (c.exec st).map (fun _ => ()) = (c.method.eval t).2 := by
  intro t st
  have hst : st = assetStorage t := by
    refine List.foldl_hom assetStorage fun s c => ?_
    rw [c.exec_eq, BalanceCall.step]
    rcases c.method.eval s with ⟨_, _ | _⟩ <;> rfl
  refine ⟨hst, ?_⟩
  rw [hst, c.exec_eq]
  cases (c.method.eval t).2 <;> rfl

end Callchain.Asset

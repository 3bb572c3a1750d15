/-
# The switch precompile

Address `0x207`: it moves an asset between its protocol balances, slots of the asset
precompile, and the EVM. There CALL is the native balance; any other asset is an ERC-20
token that is called in a nested transaction: `transfer` out of the escrow of the
precompile and `transferFrom` into it, or `bridgeMint` and `bridgeBurn` where the token
is a wrapper (dominance 1).
-/
import Callchain.Asset.Precompile

namespace Callchain.Switch

open Precompile Asset Access

def switchAddress : Address := 0x207

inductive SwitchError where
  | assetNotActive
  | assetHasNoErc20Bridge
  | evmContractNotRegistered
  | insufficientProtocolBalance
  | insufficientEvmBalance
  | protocolBalanceOverflow
  | protocolBalanceUnderflow
  | amountMustBePositive
  | toCannotBeZero
  deriving DecidableEq

def SwitchError.display : SwitchError → String
  | .assetNotActive => "asset not active"
  | .assetHasNoErc20Bridge => "asset has no ERC-20 bridge; use protocol-only operations"
  | .evmContractNotRegistered => "EVM contract not registered for asset"
  | .insufficientProtocolBalance => "insufficient protocol balance"
  | .insufficientEvmBalance => "insufficient EVM balance"
  | .protocolBalanceOverflow => "protocol balance overflow"
  | .protocolBalanceUnderflow => "protocol balance underflow"
  | .amountMustBePositive => "amount must be > 0"
  | .toCannotBeZero => "to cannot be zero address"

/-! ### `SwitchStorage` -/

abbrev SwitchMethod (α : Type) := Access Slot U256 SwitchError α

def loadProtocolBal (assetId : U64) (addr : Address) : SwitchMethod U128 := do
  let raw ← get (.balance assetId addr)
  require (raw.toNat < 2 ^ 128) .protocolBalanceOverflow
  return u256ToU128 raw

def saveProtocolBal (assetId : U64) (addr : Address) (amount : U128) : SwitchMethod Unit :=
  put (.balance assetId addr) (u128ToU256 amount)

def addProtocolBal (assetId : U64) (addr : Address) (amount : U128) : SwitchMethod Unit := do
  let bal ← loadProtocolBal assetId addr
  require (bal.toNat + amount.toNat < 2 ^ 128) .protocolBalanceOverflow
  saveProtocolBal assetId addr (bal + amount)

def subProtocolBal (assetId : U64) (addr : Address) (amount : U128) : SwitchMethod Unit := do
  let bal ← loadProtocolBal assetId addr
  require (amount ≤ bal) .insufficientProtocolBalance
  saveProtocolBal assetId addr (bal - amount)

def readEvmContract (assetId : U64) : SwitchMethod Address := do
  let addr := u256ToAddress (← get (.assetMeta assetId .evmContract))
  require (addr ≠ 0) .evmContractNotRegistered
  return addr

def checkAssetActive (assetId : U64) : SwitchMethod Unit := do
  let status := u256ToU8 (← get (.assetMeta assetId .status))
  require (status = 0) .assetNotActive

def checkHasErc20 (assetId : U64) : SwitchMethod Unit :=
  if assetId = callAssetId then return ()
  else do
    let bridged := u256ToU8 (← get (.assetMeta assetId .hasErc20))
    require (bridged = 1) .assetHasNoErc20Bridge

def readDominance (assetId : U64) : SwitchMethod U8 :=
  if assetId = callAssetId then return 0
  else do return u256ToU8 (← get (.assetMeta assetId .dominance))

/-- A method through `StorageRef`, with its errors displayed. -/
def store {α : Type} (m : SwitchMethod α) : Prog Slot α :=
  Prog.storageRef (fun e => .other e.display) m

/-! ### Calls of the token -/

/-- An address as an argument: 12 null bytes and the 20 of the address. -/
def encodeAddress (a : Address) : Bytes := List.replicate 12 0 ++ beBytes 20 a.toNat

def encodeAmount (amount : U128) : Bytes := beBytes 32 amount.toNat

def encodeTransfer (receiver : Address) (amount : U128) : Bytes :=
  [0xa9, 0x05, 0x9c, 0xbb] ++ encodeAddress receiver ++ encodeAmount amount

def encodeTransferFrom (sender receiver : Address) (amount : U128) : Bytes :=
  [0x23, 0xb8, 0x72, 0xdd] ++ encodeAddress sender ++ encodeAddress receiver ++ encodeAmount amount

def encodeBridgeMint (receiver : Address) (amount : U128) : Bytes :=
  [0x8c, 0x2a, 0x99, 0x3e] ++ encodeAddress receiver ++ encodeAmount amount

def encodeBridgeBurn (sender : Address) (amount : U128) : Bytes :=
  [0x74, 0xf4, 0xf5, 0x47] ++ encodeAddress sender ++ encodeAmount amount

def decodeAbiBool (output : Bytes) : Bool := 32 ≤ output.length && output[31]? == some 1

def hexEncode (output : Bytes) : String :=
  String.ofList (output.flatMap fun b =>
    [Nat.digitChar (b.toNat / 16), Nat.digitChar (b.toNat % 16)])

/-- What is made of the result of the token. The calls of a wrapper return
nothing, the others a `bool`. -/
def settleErc20 (dominance : U8) (r : EvmResult Slot) : Prog Slot Unit :=
  match r.result with
  | .success output => do
    Prog.require (dominance = 1 ∨ decodeAbiBool output = true) (.other "ERC-20 call returned false")
    applyStateChanges r.state
  | .revert output => .throw (.other ("ERC-20 reverted: " ++ hexEncode output))
  | .halt reason => .throw (.other ("ERC-20 halted: " ++ reason))

def callErc20 (assetId : U64) (wrapper escrowed : Bytes) : Prog Slot Unit := do
  let contract ← store (readEvmContract assetId)
  let code : Bytes ← Prog.call (.codeGet contract)
  Prog.require (code ≠ []) (.other "no code at ERC-20 contract")
  let dominance ← store (readDominance assetId)
  let r : EvmResult Slot ← Prog.call
    (.executeEvmCall switchAddress contract (if dominance = 1 then wrapper else escrowed))
  settleErc20 dominance r

/-! ### The handlers -/

def emitSwitchEvent (env : Env) (signature : String) (assetId : U64) (sender receiver : Address)
    (amount : U128) : Prog Slot Unit :=
  Prog.call (.emitEvent ⟨switchAddress, [env.topic signature, u64Topic assetId,
    addressTopic sender, addressTopic receiver], encodeU128 amount⟩)

def switchChecks (msgSender : Address) (assetId : U64) (receiver : Address) (amount : U128) :
    Prog Slot Address := do
  let caller ← requireCaller msgSender
  checkCompliance caller
  checkCompliance receiver
  Prog.require (amount ≠ 0) (.other "amount must be > 0")
  Prog.require (receiver ≠ 0) (.other "to cannot be zero address")
  store (checkAssetActive assetId)
  store (checkHasErc20 assetId)
  return caller

/-- The EVM side of `switchToEvm`. -/
def creditEvm (assetId : U64) (receiver : Address) (amount : U128) : Prog Slot Unit :=
  if assetId = callAssetId then
    (Prog.call (.balanceAdd receiver (u128ToU256 amount))).mapErr fun e =>
      .other ("native balance add: " ++ displayError e)
  else callErc20 assetId (encodeBridgeMint receiver amount) (encodeTransfer receiver amount)

/-- The EVM side of `switchToProtocol`. -/
def debitEvm (assetId : U64) (caller : Address) (amount : U128) : Prog Slot Unit :=
  if assetId = callAssetId then
    (Prog.call (.balanceSub caller (u128ToU256 amount))).mapErr fun e =>
      .other ("native balance sub: " ++ displayError e)
  else
    callErc20 assetId (encodeBridgeBurn caller amount)
      (encodeTransferFrom caller switchAddress amount)

def switchToEvmHandler (env : Env) (msgSender : Address) (assetId : U64) (receiver : Address)
    (amount : U128) : Prog Slot Unit := do
  let caller ← switchChecks msgSender assetId receiver amount
  store (subProtocolBal assetId caller amount)
  creditEvm assetId receiver amount
  emitSwitchEvent env "SwitchedToEvm(uint64,address,address,uint128)" assetId caller receiver amount

def switchToProtocolHandler (env : Env) (msgSender : Address) (assetId : U64) (receiver : Address)
    (amount : U128) : Prog Slot Unit := do
  let caller ← switchChecks msgSender assetId receiver amount
  debitEvm assetId caller amount
  store (addProtocolBal assetId receiver amount)
  emitSwitchEvent env "SwitchedToProtocol(uint64,address,address,uint128)" assetId caller receiver
    amount

/-! ### The precompile -/

inductive SwitchCalldata where
  | switchToEvm (assetId : U64) (receiver : Address) (amount : U128)
  | switchToProtocol (assetId : U64) (receiver : Address) (amount : U128)
  | getEvmContract (assetId : U64)
  | canSwitch (assetId : U64)
  | getDominance (assetId : U64)

/-- The handler of `getEvmContract`: an asset without a contract has address 0. -/
def getEvmContractHandler (assetId : U64) : Prog Slot Words := do
  let word : U256 ← Prog.call (.load (.assetMeta assetId .evmContract) 0)
  return [addressToU256 (u256ToAddress word)]

/-- Whether `check_has_erc20` is ok. -/
def hasBridge (assetId : U64) : Prog Slot Bool :=
  if assetId = callAssetId then return true
  else do
    let word : U256 ← Prog.call (.load (.assetMeta assetId .hasErc20) 0)
    return u256ToU8 word = 1

/-- The handler of `canSwitch`: the second check is made where the first is ok. -/
def canSwitchHandler (assetId : U64) : Prog Slot Words := do
  let status : U256 ← Prog.call (.load (.assetMeta assetId .status) 0)
  if u256ToU8 status = 0 then
    return [if ← hasBridge assetId then 1 else 0]
  else return [0]

def getDominanceHandler (assetId : U64) : Prog Slot Words := do
  return [(← store (readDominance assetId)).setWidth 256]

/-- `SwitchPrecompile::call` -/
def switchPrecompile (evm : Evm Slot) (env : Env) (msgSender : Address) (p : Provider Slot) :
    SwitchCalldata → Provider Slot × Except PrecompileError (Output Words)
  | .switchToEvm assetId receiver amount =>
    mutateWords evm 20000
      (do switchToEvmHandler env msgSender assetId receiver amount; return []) p
  | .switchToProtocol assetId receiver amount =>
    mutateWords evm 20000
      (do switchToProtocolHandler env msgSender assetId receiver amount; return []) p
  | .getEvmContract assetId => viewWords evm 800 (getEvmContractHandler assetId) p
  | .canSwitch assetId => viewWords evm 800 (canSwitchHandler assetId) p
  | .getDominance assetId => viewWords evm 600 (getDominanceHandler assetId) p

end Callchain.Switch

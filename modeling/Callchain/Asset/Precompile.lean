/-
# The asset precompile

Address `0x201`: each method decodes its call, checks the caller and the compliance of
the parties, runs a method of `AssetStorage` through `StorageRef` and emits an event.
`batchTransfer` alone charges for its entries before the dispatch and takes its own
checkpoint.

`createWrapper` deploys a token through `WrappedTokenFactory` in a nested transaction
and records its address; `registerErc20` records the address of a token that exists, and
the asset under it. A call comes decoded, and a value goes back before its ABI encoding.
-/
import Callchain.Asset.Methods
import Callchain.Precompile.Nested

namespace Callchain.Asset

open Precompile

def assetAddress : Address := 0x201

def wrappedTokenFactoryAddress : Address := 0x20A

/-- `Display` of an error, as it stands in a `PrecompileError`. -/
def AssetError.display (env : Env) : AssetError → String
  | .insufficientBalance => "insufficient balance"
  | .balanceOverflow => "balance overflow"
  | .supplyOverflow => "supply overflow"
  | .supplyUnderflow => "supply underflow"
  | .maxSupplyExceeded => "max supply exceeded"
  | .notIssuer => "not asset issuer"
  | .assetNotFound => "asset not found"
  | .insufficientAllowance => "insufficient allowance"
  | .complianceFailed => "compliance check failed"
  | .invalidMetadata key => "invalid metadata: " ++ key
  | .assetIdOverflow => "asset id overflow"
  | .invalidDecimals d => "invalid decimals: " ++ toString d.toNat ++ " (max 18)"
  | .erc20AlreadyBound addr => "ERC-20 contract already bound: " ++ env.displayAddress addr

def displayError : PrecompileError → String
  | .outOfGas => "out of gas"
  | .other reason => reason

/-- A method of `AssetStorage`, with `map_err(|e| PrecompileError::Other(..))`. -/
def store {α : Type} (env : Env) (m : Method α) : Prog Slot α :=
  Prog.storageRef (fun e => .other (e.display env)) m

/-! ### Shared checks -/

def requireCaller (msgSender : Address) : Prog Slot Address :=
  if msgSender = 0 then .throw (.other "caller not available") else return msgSender

theorem requireCaller_outcome {evm : Evm Slot} {static : Bool} {msgSender a : Address}
    {w w' : World Slot} (h : (requireCaller msgSender).outcome evm static w = (w', .ok a)) :
    msgSender ≠ 0 ∧ a = msgSender ∧ w' = w := by
  unfold requireCaller at h
  split_ifs at h with hzero
  · cases h
  · obtain ⟨hw, ha⟩ := Prod.mk.inj h
    exact ⟨hzero, (Except.ok.inj ha).symm, hw.symm⟩

/-- A status that cannot be read counts as clear. -/
def checkCompliance (addr : Address) : Prog Slot Unit := do
  let status : U256 ← Prog.call (.load (.compliance addr) 0)
  Prog.require (u256ToU8 status = 0) (.other "compliance check failed")

def requireCompliance (env : Env) (addr : Address) : Prog Slot Unit :=
  (checkCompliance addr).mapErr fun _ => .other (AssetError.complianceFailed.display env)

def emitAssetEvent (env : Env) (signature : String) (topics : List B256) (data : Bytes) :
    Prog Slot Unit :=
  Prog.call (.emitEvent ⟨assetAddress, env.topic signature :: topics, data⟩)

def u64Topic (v : U64) : B256 := v.setWidth 256

def addressTopic (a : Address) : B256 := addressToU256 a

def encodeU128 (v : U128) : Bytes := beBytes 32 v.toNat

/-! ### Transfers, mint and burn -/

def transferHandler (env : Env) (msgSender : Address) (assetId : U64) (receiver : Address)
    (amount : U128) : Prog Slot Unit := do
  let sender ← requireCaller msgSender
  requireCompliance env sender
  requireCompliance env receiver
  let _ ← store env (readMeta assetId)
  store env (transfer assetId sender receiver amount)
  emitAssetEvent env "Transfer(uint64,address,address,uint128)"
    [u64Topic assetId, addressTopic sender, addressTopic receiver] (encodeU128 amount)

def approveHandler (env : Env) (msgSender : Address) (assetId : U64) (spender : Address)
    (amount : U128) : Prog Slot Unit := do
  let owner ← requireCaller msgSender
  store env (approve assetId owner spender amount)
  emitAssetEvent env "Approval(uint64,address,address,uint128)"
    [u64Topic assetId, addressTopic owner, addressTopic spender] (encodeU128 amount)

def transferFromHandler (env : Env) (msgSender : Address) (assetId : U64)
    (sender receiver : Address) (amount : U128) : Prog Slot Unit := do
  let spender ← requireCaller msgSender
  requireCompliance env spender
  requireCompliance env sender
  requireCompliance env receiver
  let _ ← store env (readMeta assetId)
  store env (transferFrom assetId spender sender receiver amount)
  emitAssetEvent env "Transfer(uint64,address,address,uint128)"
    [u64Topic assetId, addressTopic sender, addressTopic receiver] (encodeU128 amount)

def mintHandler (env : Env) (msgSender : Address) (assetId : U64) (receiver : Address)
    (amount : U128) : Prog Slot Unit := do
  let caller ← requireCaller msgSender
  Prog.require (receiver ≠ 0) (.other "mint to zero address")
  requireCompliance env caller
  requireCompliance env receiver
  store env (mint assetId caller receiver amount)
  emitAssetEvent env "Mint(uint64,address,uint128)"
    [u64Topic assetId, addressTopic receiver] (encodeU128 amount)

def burnHandler (env : Env) (msgSender : Address) (assetId : U64) (sender : Address)
    (amount : U128) : Prog Slot Unit := do
  let caller ← requireCaller msgSender
  Prog.require (sender ≠ 0) (.other "burn from zero address")
  requireCompliance env caller
  requireCompliance env sender
  let _ ← store env (readMeta assetId)
  store env (burn assetId caller sender amount)
  emitAssetEvent env "Burn(uint64,address,uint128)"
    [u64Topic assetId, addressTopic sender] (encodeU128 amount)

/-! ### Batches -/

def requireComplianceAll (env : Env) : List Address → Prog Slot Unit
  | [] => return ()
  | addr :: addrs => do
    requireCompliance env addr
    requireComplianceAll env addrs

def emitTransfers (env : Env) (assetId : U64) (sender : Address) :
    List (Address × U128) → Prog Slot Unit
  | [] => return ()
  | (receiver, amount) :: pairs => do
    emitAssetEvent env "Transfer(uint64,address,address,uint128)"
      [u64Topic assetId, addressTopic sender, addressTopic receiver] (encodeU128 amount)
    emitTransfers env assetId sender pairs

/-- `batchTransfer` before its checkpoint. -/
def batchTransferChecks (env : Env) (msgSender : Address) (receivers : List Address)
    (amounts : List U128) : Prog Slot Address := do
  Prog.require (receivers.length = amounts.length)
    (.other "recipients and amounts length mismatch")
  Prog.require (receivers ≠ []) (.other "empty batch")
  Prog.require (receivers.length ≤ 256) (.other "batch size exceeds limit of 256")
  -- 5000 for an entry and 1700 for its event
  Prog.call (.chargeGas ((5000 + 1700) * receivers.length))
  let sender ← requireCaller msgSender
  requireCompliance env sender
  requireComplianceAll env receivers
  return sender

/-- `batchTransfer` after its checkpoint. -/
def batchTransferHandler (env : Env) (sender : Address) (assetId : U64)
    (pairs : List (Address × U128)) : Prog Slot Unit := do
  let _ ← store env (readMeta assetId)
  store env (batchTransfer assetId sender pairs)
  emitTransfers env assetId sender pairs

/-! ### Registration -/

def registerHandler (env : Env) (msgSender : Address) (symbol name : Bytes) (decimals : U8)
    (maxSupply : U128) : Prog Slot U64 := do
  let caller ← requireCaller msgSender
  Prog.require (symbol.length ≤ 32) (.other "symbol exceeds 32 bytes")
  Prog.require (name.length ≤ 32) (.other "name exceeds 32 bytes")
  let assetId ← store env (register symbol name decimals maxSupply caller env.timestamp)
  emitAssetEvent env "Register(uint64,address,bytes32)"
    [u64Topic assetId, addressTopic caller] (B256.asSlice (writeString32 symbol))
  return assetId

def registerErc20Handler (env : Env) (msgSender : Address) (evmContract : Address) :
    Prog Slot U64 := do
  let caller ← requireCaller msgSender
  let info ← (readErc20Metadata env Slot.account evmContract).mapErr fun e =>
    .other ("ERC-20 read failed: " ++ displayError e)
  Prog.require (info.symbol.length ≤ 32) (.other "ERC-20 symbol exceeds 32 bytes")
  Prog.require (info.name.length ≤ 32) (.other "ERC-20 name exceeds 32 bytes")
  let bound ← store env (evmContractAssetId evmContract)
  Prog.require (bound = none) (.other "ERC-20 contract already bound to an asset")
  -- uncapped, and no issuer can mint
  let assetId ← store env
    (registerErc20 evmContract info.symbol info.name info.decimals 0 0 env.timestamp)
  emitAssetEvent env "Register(uint64,address,bytes32)"
    [u64Topic assetId, addressTopic caller] (B256.asSlice (writeString32 info.symbol))
  return assetId

/-- The ABI of `IWrappedTokenFactory.createWrapper`: the calldata for a name, a
symbol, decimals and an asset, and the address in what it returns. -/
structure FactoryAbi where
  encode : Bytes → Bytes → U8 → U256 → Bytes
  decodeReturns : Bytes → Except String Address

def wrapperAddress (abi : FactoryAbi) : ExecutionResult → Prog Slot Address
  | .success output =>
    match abi.decodeReturns output with
    | .ok wrapper => return wrapper
    | .error e => .throw (.other ("factory decode failed: " ++ e))
  | _ => .throw (.other "factory call failed")

/-- The handler of `createWrapper`. The index from contract to asset is not
touched. -/
def createWrapperHandler (env : Env) (abi : FactoryAbi) (msgSender : Address) (assetId : U64) :
    Prog Slot Address := do
  let caller ← requireCaller msgSender
  requireCompliance env caller
  let info ← store env (readMeta assetId)
  Prog.require (info.issuer = caller) (.other "not asset issuer")
  let bound ← store env (hasErc20 assetId)
  Prog.require (bound = false) (.other "asset already has ERC-20 bridge")
  -- set before the nested call, as a lock
  store env (setHasErc20 assetId 1)
  let r : EvmResult Slot ← Prog.call (.executeEvmCall assetAddress wrappedTokenFactoryAddress
    (abi.encode info.name info.symbol info.decimals (assetId.setWidth 256)))
  let wrapper ← wrapperAddress abi r.result
  Prog.require (wrapper ≠ 0) (.other "factory returned zero address")
  applyStateChanges r.state
  store env (setEvmContract assetId wrapper)
  store env (setDominance assetId 1)
  emitAssetEvent env "WrapperCreated(uint64,address,address)"
    [u64Topic assetId, addressTopic wrapper, addressTopic caller] []
  return wrapper

/-! ### The precompile -/

inductive AssetCalldata where
  | getBalance (assetId : U64) (account : Address)
  | getTotalSupply (assetId : U64)
  | getAssetInfo (assetId : U64)
  | transfer (assetId : U64) (receiver : Address) (amount : U128)
  | batchTransfer (assetId : U64) (receivers : List Address) (amounts : List U128)
  | approve (assetId : U64) (spender : Address) (amount : U128)
  | transferFrom (assetId : U64) (sender receiver : Address) (amount : U128)
  | mint (assetId : U64) (receiver : Address) (amount : U128)
  | burn (assetId : U64) (sender : Address) (amount : U128)
  | register (symbol name : Bytes) (decimals : U8) (maxSupply : U128)
  | registerErc20 (evmContract : Address)
  | createWrapper (assetId : U64)

abbrev Words := List U256

def getBalanceHandler (env : Env) (assetId : U64) (account : Address) : Prog Slot Words := do
  let _ ← store env (readMeta assetId)
  let balance ← store env (readBalance assetId account)
  return [u128ToU256 balance]

def getTotalSupplyHandler (env : Env) (assetId : U64) : Prog Slot Words := do
  let info ← store env (readMeta assetId)
  return [u128ToU256 info.supply]

def getAssetInfoHandler (env : Env) (assetId : U64) : Prog Slot Words := do
  let info ← store env (readMeta assetId)
  return [writeString32 info.symbol, writeString32 info.name, info.decimals.setWidth 256,
    addressToU256 info.issuer, u128ToU256 info.maxSupply, info.status.setWidth 256,
    info.registeredAt]

def batchTransferCall (evm : Evm Slot) (env : Env) (msgSender : Address) (assetId : U64)
    (receivers : List Address) (amounts : List U128) (p : Provider Slot) :
    Provider Slot × Except PrecompileError (Output Words) :=
  match (batchTransferChecks env msgSender receivers amounts).run evm p with
  | (q, .error e) => (q, .error e)
  | (q, .ok sender) =>
    match (batchTransferHandler env sender assetId (receivers.zip amounts)).run evm q with
    | (r, .error e) => (r.checkpointRevert q.journal, .error e)
    | (r, .ok ()) => (r, .ok (r.fillPrecompileOutput []))

/-- `dispatch::mutate` of a handler that returns words. -/
def mutateWords (evm : Evm Slot) (gas : ℕ) (handler : Prog Slot Words) (p : Provider Slot) :
    Provider Slot × Except PrecompileError (Output Words) :=
  mutate evm (fun _ => .ok ()) gas (fun () => handler) [] p

/-- `dispatch::view` of a handler that returns words. -/
def viewWords (evm : Evm Slot) (gas : ℕ) (handler : Prog Slot Words) (p : Provider Slot) :
    Provider Slot × Except PrecompileError (Output Words) :=
  view evm (fun _ => .ok ()) gas (fun () => handler) [] p

/-- `AssetPrecompile::call` -/
def assetPrecompile (evm : Evm Slot) (env : Env) (abi : FactoryAbi) (msgSender : Address)
    (p : Provider Slot) : AssetCalldata → Provider Slot × Except PrecompileError (Output Words)
  | .getBalance assetId account => viewWords evm 800 (getBalanceHandler env assetId account) p
  | .getTotalSupply assetId => viewWords evm 800 (getTotalSupplyHandler env assetId) p
  | .getAssetInfo assetId => viewWords evm 1000 (getAssetInfoHandler env assetId) p
  | .transfer assetId receiver amount =>
    mutateWords evm 5000 (do transferHandler env msgSender assetId receiver amount; return []) p
  | .batchTransfer assetId receivers amounts =>
    batchTransferCall evm env msgSender assetId receivers amounts p
  | .approve assetId spender amount =>
    mutateWords evm 3000 (do approveHandler env msgSender assetId spender amount; return []) p
  | .transferFrom assetId sender receiver amount =>
    mutateWords evm 6000
      (do transferFromHandler env msgSender assetId sender receiver amount; return []) p
  | .mint assetId receiver amount =>
    mutateWords evm 10000 (do mintHandler env msgSender assetId receiver amount; return []) p
  | .burn assetId sender amount =>
    mutateWords evm 8000 (do burnHandler env msgSender assetId sender amount; return []) p
  | .register symbol name decimals maxSupply =>
    mutateWords evm 50000
      (do return [(← registerHandler env msgSender symbol name decimals maxSupply).setWidth 256]) p
  | .registerErc20 evmContract =>
    mutateWords evm 50000
      (do return [(← registerErc20Handler env msgSender evmContract).setWidth 256]) p
  | .createWrapper assetId =>
    mutateWords evm 100000
      (do return [addressToU256 (← createWrapperHandler env abi msgSender assetId)]) p

end Callchain.Asset

/-
# The genesis executor

`GenesisExecutor::execute` (`chainspec/src/genesis.rs`) builds the first state from a
configuration: it distributes the assets, registers the validators and deploys an ERC-20
contract for every asset but CALL.

The provider has the nonce, the balance and the code of every account, and the storage
as the other modules see it: the slots of `Asset.Slot`, the registry of validators, and
the slot `contract` that only genesis writes. Strings are their bytes. A distribution, a
hash map in the source, is the list of its entries as they are visited, in any order.
What `execute` does not read is left out. `Vm` is revm.
-/
import Callchain.Asset.Methods
import Callchain.Lib.SortByKey
import Callchain.Validator.Registry
import Mathlib.Data.List.AList

namespace Callchain.Chainspec

open Asset Validator

/-! ### The configuration -/

structure GenesisAsset where
  assetId : U64
  symbol : Bytes
  name : Bytes
  decimals : U8
  distribution : List (Bytes × U128)

structure GenesisValidator where
  address : Bytes
  ed25519Pubkey : Bytes
  selfStake : U128

structure Genesis where
  chainName : Bytes
  chainId : U64
  timestampMillis : U64
  initialAssets : List GenesisAsset
  /-- The asset ids of the fee currencies. -/
  initialFeeCurrencies : List U64
  validators : List GenesisValidator

/-- What is wrong with a hexadecimal string: the errors of `hex::decode`, and a length that is
not the one expected. -/
inductive HexError where
  | oddLength
  | invalidHexCharacter (c : UInt8) (index : ℕ)
  | expected (bytes got : ℕ)
  deriving DecidableEq

inductive GenesisError where
  | invalidJson (message : String)
  | invalidAddress (error : HexError)
  | invalidPublicKey (error : HexError)
  | executionFailed (message : String)
  deriving DecidableEq

/-! ### Strings -/

def hexDigit (c : UInt8) : Option ℕ :=
  if 0x41 ≤ c ∧ c ≤ 0x46 then some (c.toNat - 0x41 + 10)
  else if 0x61 ≤ c ∧ c ≤ 0x66 then some (c.toNat - 0x61 + 10)
  else if 0x30 ≤ c ∧ c ≤ 0x39 then some (c.toNat - 0x30)
  else none

/-- The loop of `hex::decode` over pairs of characters. -/
def hexPairs (index : ℕ) : Bytes → Except HexError Bytes
  | c :: d :: rest =>
    match hexDigit c with
    | none => .error (.invalidHexCharacter c index)
    | some high =>
      match hexDigit d with
      | none => .error (.invalidHexCharacter d (index + 1))
      | some low => (hexPairs (index + 2) rest).map (UInt8.ofNat (16 * high + low) :: ·)
  | _ => .ok []

def hexDecode (s : Bytes) : Except HexError Bytes :=
  if s.length % 2 ≠ 0 then .error .oddLength else hexPairs 0 s

def stripHexPrefix : Bytes → Bytes
  | 0x30 :: 0x78 :: rest => rest
  | s => s

def parseBytes (n : ℕ) (s : Bytes) : Except HexError Bytes :=
  match hexDecode (stripHexPrefix s) with
  | .error e => .error e
  | .ok bytes => if bytes.length ≠ n then .error (.expected n bytes.length) else .ok bytes

def parseAddress (s : Bytes) : Except GenesisError Address :=
  match parseBytes 20 s with
  | .error e => .error (.invalidAddress e)
  | .ok bytes => .ok (BitVec.ofNat 160 (beValue bytes))

def parsePubkey (s : Bytes) : Except GenesisError Bytes32 :=
  match parseBytes 32 s with
  | .error e => .error (.invalidPublicKey e)
  | .ok bytes => .ok (B256.fromSlice bytes)

/-! ### The provider -/

def validatorAddress : Address := 0x204

def assetAddress : Address := 0x201

def bridgeEvmAddress : Address := BitVec.allOnes 160

structure Account where
  nonce : U64 := 0
  balance : U256 := 0
  code : Bytes := []
  deriving DecidableEq

/-- `InMemoryStateProvider`, with its storage by what is kept in it. -/
structure Provider where
  accounts : AList fun _ : Address => Account
  slots : Slot → U256
  /-- `slot_asset_meta(asset_id, b"contract")` -/
  assetContract : U64 → U256
  validators : ValidatorStorage

def Provider.new : Provider := ⟨∅, fun _ => 0, fun _ => 0, {}⟩

namespace Provider

variable (p : Provider)

/-- `entry(address).or_default()` -/
def entry (a : Address) : Account := (p.accounts.lookup a).getD {}

def modify (a : Address) (f : Account → Account) : Provider :=
  { p with accounts := p.accounts.insert a (f (p.entry a)) }

def createAccount (a : Address) : Provider := p.modify a id

def setBalance (a : Address) (balance : U256) : Provider := p.modify a ({ · with balance })

def setCode (a : Address) (code : Bytes) : Provider := p.modify a ({ · with code })

def getBalance (a : Address) : U256 := (p.entry a).balance

def getNonce (a : Address) : U64 := (p.entry a).nonce

def getCode (a : Address) : Bytes := (p.entry a).code

/-- Methods of `AssetStorage` on the provider; a store creates the account, and an early
return leaves what was written. -/
def runAsset {α : Type} (method : Method α) : Provider :=
  { p.createAccount assetAddress with slots := (method.eval p.slots).1 }

def seedBalance (assetId : U64) (addr : Address) (amount : U128) : Provider :=
  p.runAsset (writeBalance assetId addr amount)

end Provider

def writeMeta (assetId : U64) (info : AssetMeta) : Method Unit := do
  storeMetaString assetId .symbol info.symbol
  storeMetaString assetId .name info.name
  storeMetaU256 assetId .decimals (info.decimals.setWidth 256)
  storeMetaU256 assetId .issuer (addressToU256 info.issuer)
  storeMetaU256 assetId .maxSupply (u128ToU256 info.maxSupply)
  storeMetaU256 assetId .supply (u128ToU256 info.supply)
  storeMetaU256 assetId .status (info.status.setWidth 256)
  storeMetaU256 assetId .registeredAt info.registeredAt
  storeMetaU256 assetId .evmContract (addressToU256 info.evmContract)
  storeMetaU256 assetId .dominance (info.dominance.setWidth 256)

def GenesisAsset.info (asset : GenesisAsset) (supply : U128) : AssetMeta :=
  { symbol := asset.symbol, name := asset.name, decimals := asset.decimals, issuer := 0
    maxSupply := 0, supply, status := 0, registeredAt := 0, evmContract := 0, dominance := 0 }

/-- An error of `write_meta` is dropped. -/
def Provider.seedAsset (p : Provider) (asset : GenesisAsset) (supply : U128) : Provider :=
  let p := p.runAsset (writeMeta asset.assetId (asset.info supply))
  let p := p.runAsset (storeMetaU256 asset.assetId .compliance 0)
  p.runAsset (storeMetaU256 asset.assetId .registeredAt 0)

/-! ### Assets -/

/-- The loop of `register_assets` over a distribution. -/
def distribute (assetId : U64) : Provider → U128 → List (Bytes × U128) →
    Except GenesisError (Provider × U128)
  | p, total, [] => .ok (p, total)
  | p, total, (addressStr, amount) :: rest =>
    match parseAddress addressStr with
    | .error e => .error e
    | .ok addr =>
      if 2 ^ 128 ≤ total.toNat + amount.toNat then .error (.executionFailed "supply overflow")
      else
        let p :=
          -- CALL: native EVM balance only; other assets: protocol and EVM balance
          if assetId = callAssetId then p.setBalance addr (u128ToU256 amount)
          else (p.seedBalance assetId addr amount).setBalance addr (u128ToU256 amount)
        distribute assetId (p.createAccount addr) (total + amount) rest

def registerAssets : Provider → List GenesisAsset → Except GenesisError Provider
  | p, [] => .ok p
  | p, asset :: rest =>
    match distribute asset.assetId p 0 asset.distribution with
    | .error e => .error e
    | .ok (p, totalAllocated) => registerAssets (p.seedAsset asset totalAllocated) rest

/-! ### Validators -/

def Provider.writeValidator (p : Provider) (validatorId : U64) (addr : Address) (pubkey : Bytes32)
    (selfStake : U128) : Provider :=
  { p.createAccount validatorAddress with
    validators := p.validators.register addr validatorId selfStake pubkey }

/-- The loop of `register_validators`, from position `i`. -/
def registerValidators : Provider → ℕ → List GenesisValidator → Except GenesisError Provider
  | p, _, [] => .ok p
  | p, i, gv :: rest =>
    match parseAddress gv.address with
    | .error e => .error e
    | .ok addr =>
      match parsePubkey gv.ed25519Pubkey with
      | .error e => .error e
      | .ok pubkey =>
        let p := p.writeValidator (BitVec.ofNat 64 (i + 1)) addr pubkey gv.selfStake
        registerValidators (p.seedBalance callAssetId stakingEscrow gv.selfStake) (i + 1) rest

/-! ### Contracts -/

/-- What `deploy_erc20_template` asks revm to run. -/
structure Deployment where
  chainId : U64
  deployer : Address
  nonce : U64
  asset : GenesisAsset
  bridge : Address
  issuer : Address

structure AccountDelta where
  balance : U256
  nonce : U64
  code : Option Bytes
  storage : List (Slot × U256)

structure DeployResult where
  success : Bool
  output : Bytes
  delta : List (Address × AccountDelta)

structure Vm where
  executeTxDb : Provider → Deployment → Except String DeployResult
  deriveCreateAddress : Address → U64 → Address

def Provider.applyAccount (p : Provider) (a : Address) (d : AccountDelta) : Provider :=
  { p.modify a fun account =>
      { balance := d.balance, nonce := d.nonce, code := d.code.getD account.code } with
    slots := d.storage.foldl (fun slots w => Function.update slots w.1 w.2) p.slots }

def Provider.applyFromRevmState (p : Provider) (delta : List (Address × AccountDelta)) : Provider :=
  delta.foldl (fun p d => p.applyAccount d.1 d.2) p

section
variable (vm : Vm) (chainId : U64)

def deployErc20Template (p : Provider) (deployer : Address) (asset : GenesisAsset) :
    Except GenesisError (Provider × Address × Bool) :=
  let nonce := p.getNonce deployer
  let contractAddr := vm.deriveCreateAddress deployer nonce
  match vm.executeTxDb p
    { chainId, deployer, nonce, asset, bridge := bridgeEvmAddress, issuer := 0 } with
  | .error e => .error (.executionFailed e)
  | .ok result =>
    let p := p.applyFromRevmState result.delta
    let p := if result.output = [] then p else p.setCode contractAddr result.output
    .ok (p, contractAddr, result.success)

def Provider.seedAssetContractAddress (p : Provider) (assetId : U64) (addr : Address) : Provider :=
  { p.createAccount assetAddress with
    assetContract := Function.update p.assetContract assetId (addressToU256 addr) }

def Provider.readAssetContractAddress (p : Provider) (assetId : U64) : Option Address :=
  if p.assetContract assetId = 0 then none else some (u256ToAddress (p.assetContract assetId))

def deployEvmTemplates : Provider → List GenesisAsset → Except GenesisError Provider
  | p, [] => .ok p
  | p, asset :: rest =>
    if asset.assetId = callAssetId then deployEvmTemplates p rest
    else
      let p := (p.setBalance bridgeEvmAddress 100000000000).createAccount bridgeEvmAddress
      match deployErc20Template vm chainId p bridgeEvmAddress asset with
      | .error e => .error e
      | .ok (p, contractAddr, success) =>
        if ¬ success then .error (.executionFailed "ERC-20 deployment reverted")
        else deployEvmTemplates (p.seedAssetContractAddress asset.assetId contractAddr) rest

end

/-! ### The state root -/

section
variable (K : Bytes → B256)

/-- Address, nonce in little-endian order, balance, hash of the code. -/
def accountBytes (a : Address) (account : Account) : Bytes :=
  beBytes 20 a.toNat ++ toLeBytes 8 account.nonce.toNat ++ beBytes 32 account.balance.toNat ++
    (K account.code).asSlice

/-- What `compute_evm_state_root` hashes: the accounts in the order of their addresses. -/
def rootData (p : Provider) : Bytes :=
  (sortByKey (fun e : Σ _ : Address, Account => e.1.toNat) p.accounts.entries).flatMap fun e =>
    accountBytes K e.1 e.2

def computeEvmStateRoot (p : Provider) : B256 :=
  if rootData K p = [] then 0 else K (rootData K p)

end

/-! ### Execution -/

structure GenesisState where
  stateRoot : B256
  evmState : Provider
  feeCurrencies : List U64

def duplicateAssetId : List U64 → List U64 → Option U64
  | _, [] => none
  | seen, id :: rest => if id ∈ seen then some id else duplicateAssetId (id :: seen) rest

def validate (g : Genesis) : Except GenesisError Unit :=
  if g.chainName = [] then .error (.invalidJson "chain_name is empty")
  else if g.chainId = 0 then .error (.invalidJson "chain_id must be non-zero")
  else if g.timestampMillis = 0 then .error (.invalidJson "timestamp_millis must be non-zero")
  else if g.validators.isEmpty then .error (.invalidJson "no genesis validators")
  else if g.initialAssets.isEmpty then .error (.invalidJson "no initial assets")
  else if g.initialFeeCurrencies.isEmpty then .error (.invalidJson "no fee currencies")
  else
    match duplicateAssetId [] (g.initialAssets.map (·.assetId)) with
    | some id => .error (.invalidJson ("duplicate asset_id: " ++ toString id.toNat))
    | none => .ok ()

def execute (K : Bytes → B256) (vm : Vm) (g : Genesis) : Except GenesisError GenesisState := do
  validate g
  let evmState ← registerAssets Provider.new g.initialAssets
  let evmState ← registerValidators evmState 0 g.validators
  let feeCurrencies := g.initialFeeCurrencies
  let evmState ← deployEvmTemplates vm g.chainId evmState g.initialAssets
  return { stateRoot := computeEvmStateRoot K evmState, evmState, feeCurrencies }

end Callchain.Chainspec

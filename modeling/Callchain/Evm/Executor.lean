/-
# Transactions and the executor over revm

`crates/evm/src/executor.rs`: the transaction type of the node, what the executor asks
revm to run, the compliance checks made before, the block's gas tracker and the address
of a created contract.

What the node takes from other crates is a `Host`: the hash, the two decoders of a raw
transaction, signature recovery and revm's `transact`. revm reads accounts and slots
through the cache and changes nothing else in it, so `transact` is a function of what
the cache answers (`DbView`) and lists what it asked for. To revm a missing account and
an empty one are the same (EIP-161, in force at the `CANCUN` spec the executor sets), so
the view answers `AccountInfo.empty` for a missing one.
-/
import Callchain.Evm.State

namespace Callchain.Evm

structure EvmTransaction where
  caller : Address
  nonce : U64
  gasLimit : U64
  gasPrice : U128
  maxPriorityFee : Option U128
  txType : UInt8
  toAddr : Option Address
  value : U256
  data : Bytes
  chainId : U64
  deriving DecidableEq

/-! ### Signed envelopes -/

structure TxLegacy where
  chainId : Option U64
  nonce : U64
  gasPrice : U128
  gasLimit : U64
  toAddr : Option Address
  value : U256
  input : Bytes

structure TxEip1559 where
  chainId : U64
  nonce : U64
  gasLimit : U64
  maxFeePerGas : U128
  maxPriorityFeePerGas : U128
  toAddr : Option Address
  value : U256
  accessList : List (Address × List B256)
  input : Bytes

inductive Unsigned where
  | legacy (tx : TxLegacy)
  | eip1559 (tx : TxEip1559)

structure Signature where
  r : U256
  s : U256
  odd : Bool

structure Signed (T : Type) where
  tx : T
  signature : Signature

/-- The envelopes the node rejects unread have no payload. -/
inductive TxEnvelope where
  | legacy (signed : Signed TxLegacy)
  | eip2930
  | eip1559 (signed : Signed TxEip1559)
  | eip4844
  | eip7702

/-! ### What revm is given and returns -/

/-- `TxEnv`, as the executor's builder fills it. revm takes the type of the transaction
from the presence of a priority fee. -/
structure TxEnv where
  caller : Address
  gasLimit : U64
  gasPrice : U128
  gasPriorityFee : Option U128
  kind : Option Address
  value : U256
  data : Bytes
  nonce : U64
  chainId : U64

/-- `BlockEnv`, the fields the executor sets. -/
structure BlockEnv where
  number : U64
  timestamp : U64
  basefee : U64

/-- `revm::primitives::Log` and `call_protocol::LogEntry` -/
structure LogEntry where
  address : Address
  topics : List B256
  data : Bytes
  deriving DecidableEq

structure EvmExecutionResult where
  success : Bool
  gasUsed : U64
  output : Bytes
  logs : List LogEntry

inductive EvmError where
  | invalidTx (msg : String)
  | executionError (msg : String)
  deriving DecidableEq

/-- What the cache answers: the info of an account, its slots, and the
bytecode behind its code hash. -/
structure DbView where
  basic : Address → AccountInfo
  storage : Address → U256 → U256
  code : Address → Bytes

def CacheDB.codeRef (K : Bytes → B256) (c : CacheDB) (a : Address) : Bytes :=
  match c.basicRef K a with
  | some info => info.code.getD (c.db.getCode a)
  | none => []

def CacheDB.view (K : Bytes → B256) (c : CacheDB) : DbView where
  basic a := (c.basicRef K a).getD .empty
  storage := c.storageRef
  code := c.codeRef K

inductive DbRead where
  | basic (a : Address)
  | storage (a : Address) (key : U256)

/-- The cache after the questions `rs`: what they asked for is loaded. -/
def CacheDB.warm (K : Bytes → B256) : CacheDB → List DbRead → CacheDB
  | c, [] => c
  | c, .basic a :: rs => CacheDB.warm K (c.loadAccount K a) rs
  | c, .storage a key :: rs => CacheDB.warm K (c.storage K a key).1 rs

structure Host where
  keccak256 : Bytes → B256
  txEnvelopeDecode : Bytes → Option TxEnvelope
  /-- `serde_json::from_slice::<EvmTransaction>` -/
  jsonFromSlice : Bytes → Option EvmTransaction
  /-- the hash a signer signs -/
  signatureHash : Unsigned → B256
  /-- the address a signature over a hash recovers to -/
  recover : B256 → Signature → Option Address
  /-- whether `TxEnvBuilder::build` accepts -/
  txEnvBuilds : TxEnv → Bool
  /-- `Evm::transact` with the node's precompiles: its reads, its result and the delta
  -/
  transact : DbView → TxEnv → BlockEnv →
    List DbRead × Except String (EvmExecutionResult × EvmState)

variable (H : Host)

/-! ### Slots -/

def storageSlot (parts : List Bytes) : U256 := H.keccak256 parts.flatten

def slotBalance (assetId : U64) (a : Address) : U256 :=
  storageSlot H [beBytes 8 assetId.toNat, beBytes 20 a.toNat]

def slotCompliance (a : Address) : U256 := storageSlot H [beBytes 20 a.toNat]

def assetAddress : Address := 0x201#160

def complianceAddress : Address := 0x205#160

def callAssetId : U64 := 1#64

/-! ### Executing one transaction -/

def EvmTransaction.txEnv (tx : EvmTransaction) : TxEnv where
  caller := tx.caller
  gasLimit := tx.gasLimit
  gasPrice := tx.gasPrice
  gasPriorityFee := tx.maxPriorityFee
  kind := tx.toAddr
  value := tx.value
  data := tx.data
  nonce := tx.nonce
  chainId := tx.chainId

/-- The end of `execute_tx_cached`: the transaction is handed to revm. -/
def runRevm (tx : EvmTransaction) (c : CacheDB) (blk : BlockEnv) :
    CacheDB × Except EvmError (EvmExecutionResult × EvmState) :=
  if H.txEnvBuilds tx.txEnv then
    match H.transact (c.view H.keccak256) tx.txEnv blk with
    | (reads, .ok r) => (c.warm H.keccak256 reads, .ok r)
    | (reads, .error e) => (c.warm H.keccak256 reads, .error (.executionError e))
  else (c, .error (.invalidTx "tx build failed"))

/-- A blocklisted caller, or a blocklisted recipient of value, is refused; anything else
is run by revm. -/
def executeTxCached (tx : EvmTransaction) (c : CacheDB) (blk : BlockEnv) :
    CacheDB × Except EvmError (EvmExecutionResult × EvmState) :=
  let (c, status) := c.storage H.keccak256 complianceAddress (slotCompliance H tx.caller)
  if status ≠ 0 then (c, .error (.invalidTx "caller blocklisted"))
  else
    match tx.toAddr with
    | some recipient =>
      if tx.value = 0 then runRevm H tx c blk
      else
        let (c, status) := c.storage H.keccak256 complianceAddress (slotCompliance H recipient)
        if status ≠ 0 then (c, .error (.invalidTx "recipient blocklisted"))
        else runRevm H tx c blk
    | none => runRevm H tx c blk

/-! ### The block's gas -/

structure BlockGasTracker where
  gasUsed : U64
  gasLimit : U64
  deriving DecidableEq

/-- The sum wraps, as in a release build. -/
def BlockGasTracker.addGas (t : BlockGasTracker) (used : U64) : Option BlockGasTracker :=
  if t.gasLimit < t.gasUsed + used then none else some { t with gasUsed := t.gasUsed + used }

/-! ### The address of a created contract -/

def nonceBytes (nonce : U64) : Bytes :=
  if nonce = 0 then [] else (beBytes 8 nonce.toNat).dropWhile (· = 0)

def deriveCreateAddress (deployer : Address) (nonce : U64) : Address :=
  let nb := nonceBytes nonce
  let rlpNonce : Bytes :=
    match nb with
    | [] => [0x80]
    | [b] => [0x80 ||| b]
    | _ => (0x80 ||| UInt8.ofNat nb.length) :: nb
  let rlpBuf : Bytes := (0x80 ||| 20) :: beBytes 20 deployer.toNat ++ rlpNonce
  let list : Bytes :=
    if rlpBuf.length < 56 then (0xc0 ||| UInt8.ofNat rlpBuf.length) :: rlpBuf
    else
      let len := (beBytes 8 rlpBuf.length).dropWhile (· = 0)
      (0xf7 ||| UInt8.ofNat len.length) :: len ++ rlpBuf
  (H.keccak256 list).truncate 160

end Callchain.Evm

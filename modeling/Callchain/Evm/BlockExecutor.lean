/-
# Executing the transactions of a block

`crates/evm/src/block_executor.rs`. A block is a list of raw byte strings. Each is
decoded, checked against the nonces already used in the block, given native balance out
of the caller's protocol CALL balance where its own does not cover value and gas (the
pre-bridge), validated, run by revm over the block's cache, and, if it fits into the
block's gas, committed: to the cache and, separately, to the delta that the block
returns. What was bridged and not spent is refunded, again in both.
-/
import Callchain.Evm.Executor
import Callchain.Lib.Run

namespace Callchain.Evm

/-! ### Decoding -/

variable (H : Host)

/-- `recover_signer` -/
def Signed.recoverLegacy (s : Signed TxLegacy) : Option Address :=
  H.recover (H.signatureHash (.legacy s.tx)) s.signature

def Signed.recoverEip1559 (s : Signed TxEip1559) : Option Address :=
  H.recover (H.signatureHash (.eip1559 s.tx)) s.signature

def TxLegacy.toEvm (tx : TxLegacy) (caller : Address) : EvmTransaction where
  caller := caller
  nonce := tx.nonce
  gasLimit := tx.gasLimit
  gasPrice := tx.gasPrice
  maxPriorityFee := none
  txType := 0
  toAddr := tx.toAddr
  value := tx.value
  data := tx.input
  chainId := tx.chainId.getD 1

def TxEip1559.toEvm (tx : TxEip1559) (caller : Address) : EvmTransaction where
  caller := caller
  nonce := tx.nonce
  gasLimit := tx.gasLimit
  gasPrice := tx.maxFeePerGas
  maxPriorityFee := some tx.maxPriorityFeePerGas
  txType := 2
  toAddr := tx.toAddr
  value := tx.value
  data := tx.input
  chainId := tx.chainId

def decodeEvmTx (raw : Bytes) : Option EvmTransaction :=
  if raw.isEmpty then none
  else
    match H.txEnvelopeDecode raw with
    | some (.legacy signed) => (signed.recoverLegacy H).map signed.tx.toEvm
    | some (.eip1559 signed) => (signed.recoverEip1559 H).map signed.tx.toEvm
    | some _ => none
    | none => H.jsonFromSlice raw

/-! ### Prices and logs -/

structure BlockParams where
  blockNumber : U64
  blockTimestamp : U64
  baseFee : U128

/-- The environment revm gets; the base fee is cut to 64 bits. -/
def BlockParams.env (blk : BlockParams) : BlockEnv :=
  ⟨blk.blockNumber, blk.blockTimestamp, blk.baseFee.truncate 64⟩

def effectiveGasPrice (tx : EvmTransaction) (baseFee : U128) : U128 :=
  if tx.txType = 2 ∨ tx.txType = 3 then
    let cap := baseFee.saturatingAdd (tx.maxPriorityFee.getD 0)
    if tx.gasPrice ≤ cap then tx.gasPrice else cap
  else tx.gasPrice

/-- The value and the whole gas deposit. -/
def EvmTransaction.required (tx : EvmTransaction) : U256 :=
  tx.value + tx.gasLimit.setWidth 256 * tx.gasPrice.setWidth 256

def gasBridgeTopic0 : B256 :=
  0x8b2e6e8f9a1c4d7e3b5f2a0d6c1e8b4f9a3c5d7e2b0f6a1d8c4e9b3f5a2e0c6d#256

def gasBridgeSettledTopic0 : B256 :=
  0x9c3f6a1d8e4b5c7f2a0e6b1c9d4f7a3e5b0c8f6a1d9e4c7b2f0a6c1e8d5b3f7a#256

/-- The two logs of the bridge: the caller as a topic, three words of data. -/
def bridgeLog (topic0 : B256) (caller : Address) (x y z : ℕ) : LogEntry where
  address := assetAddress
  topics := [topic0, caller.setWidth 256]
  data := beBytes 32 x ++ beBytes 32 y ++ beBytes 32 z

def makeGasBridgeLog (caller : Address) (borrowed : U256) (gasLimit : U64) (gasPrice : U128) :
    LogEntry :=
  bridgeLog gasBridgeTopic0 caller borrowed.toNat gasLimit.toNat gasPrice.toNat

def makeGasBridgeSettledLog (caller : Address) (actualCost refund : U256) (gasUsed : U64) :
    LogEntry :=
  bridgeLog gasBridgeSettledTopic0 caller actualCost.toNat refund.toNat gasUsed.toNat

/-! ### The pre-bridge -/

def callSlot (a : Address) : U256 := slotBalance H callAssetId a

def DbAccount.insertSlot (acc : DbAccount) (slot v : U256) : DbAccount :=
  { acc with storage := Function.update acc.storage slot (some v) }

def DbAccount.addToSlot (acc : DbAccount) (slot amount : U256) : DbAccount :=
  acc.insertSlot slot ((acc.storage slot).getD 0 + amount)

def DbAccount.debit (acc : DbAccount) (amount : U256) : DbAccount :=
  { acc with info := { acc.info with balance := acc.info.balance - amount } }

/-- The native credit; an account that was not there comes into being. -/
def DbAccount.credit (acc : DbAccount) (amount : U256) : DbAccount :=
  { acc with
    info := { acc.info with balance := acc.info.balance + amount }
    accountState := if acc.accountState = .notExisting then .none else acc.accountState }

structure Bridge where
  cacheDb : CacheDB
  borrowed : U256
  bridgeLogs : List LogEntry

def CacheDB.nativeBalance (K : Bytes → B256) (c : CacheDB) (a : Address) : U256 :=
  ((c.basicRef K a).map (·.balance)).getD 0

/-- The pre-bridge: protocol CALL becomes native balance. `none` when the
protocol balance does not cover what is missing. -/
def preBridge (tx : EvmTransaction) (c : CacheDB) : Option Bridge :=
  let required := tx.required
  let nativeBalance := c.nativeBalance H.keccak256 tx.caller
  if nativeBalance < required then
    let needed := required - nativeBalance
    let slot := callSlot H tx.caller
    let protocolBalance := c.storageRef assetAddress slot
    if protocolBalance < needed then none
    else
      let c := c.modifyAccount H.keccak256 assetAddress
        (·.insertSlot slot (protocolBalance - needed))
      let c := c.modifyAccount H.keccak256 tx.caller (·.credit needed)
      some ⟨c, needed, [makeGasBridgeLog tx.caller needed tx.gasLimit tx.gasPrice]⟩
  else some ⟨c, 0, []⟩

def revertBridge (tx : EvmTransaction) (borrowed : U256) (c : CacheDB) : CacheDB :=
  if borrowed > 0 then
    let c := c.modifyAccount H.keccak256 assetAddress
      (·.addToSlot (callSlot H tx.caller) borrowed)
    c.modifyAccount H.keccak256 tx.caller (·.debit borrowed)
  else c

def validateEvmTxCached (tx : EvmTransaction) (c : CacheDB) : Except String Unit :=
  let expectedNonce := ((c.basicRef H.keccak256 tx.caller).map (·.nonce)).getD 0
  if tx.nonce ≠ expectedNonce then .error "invalid nonce"
  else if c.nativeBalance H.keccak256 tx.caller < tx.required then .error "insufficient balance"
  else .ok ()

/-! ### Committing one transaction -/

/-- What goes back to the protocol: the borrowed amount less value and cost. -/
def refundOf (borrowed value actualCost : U256) : U256 :=
  U256.saturatingSub (U256.saturatingSub borrowed value) actualCost

def refundCache (tx : EvmTransaction) (refund : U256) (c : CacheDB) : CacheDB :=
  if refund > 0 then
    let c := c.modifyAccount H.keccak256 tx.caller (·.debit refund)
    c.modifyAccount H.keccak256 assetAddress (·.addToSlot (callSlot H tx.caller) refund)
  else c

def accumulate (acc delta : EvmState) : EvmState := fun a =>
  match delta a, acc a with
  | none, existing => existing
  | some new, none => some new
  | some new, some existing =>
    some { info := new.info
           status := existing.status.union new.status
           storage := fun k => (new.storage k).or (existing.storage k) }

def Account.debit (acc : Account) (refund : U256) : Account :=
  { acc with info := { acc.info with balance := U256.saturatingSub acc.info.balance refund } }

def Account.insertSlot (acc : Account) (slot v : U256) : Account :=
  { acc with storage := Function.update acc.storage slot (some ⟨v⟩) }

def DbAccount.toAccount (acc : DbAccount) : Account :=
  { info := acc.info, status := { touched := true } }

def refundDelta (tx : EvmTransaction) (refund : U256) (c : CacheDB) (acc : EvmState) :
    CacheDB × EvmState :=
  if refund > 0 then
    let slot := callSlot H tx.caller
    let (c, acc) : CacheDB × EvmState :=
      match acc tx.caller with
      | some a => (c, Function.update acc tx.caller (some (a.debit refund)))
      | none =>
        (c.loadAccount H.keccak256 tx.caller, Function.update acc tx.caller
          (some ((c.entry H.keccak256 tx.caller).toAccount.debit refund)))
    match acc assetAddress with
    | some a =>
      let current := ((a.storage slot).map (·.presentValue)).getD 0
      (c, Function.update acc assetAddress (some (a.insertSlot slot (current + refund))))
    | none =>
      let account := c.entry H.keccak256 assetAddress
      let current := (account.storage slot).getD 0
      (c.loadAccount H.keccak256 assetAddress, Function.update acc assetAddress
        (some (account.toAccount.insertSlot slot (current + refund))))
  else (c, acc)

structure BlockTxEntry where
  txHash : B256
  gasUsed : U64
  status : Bool
  caller : Address
  toAddr : Option Address
  contractAddress : Option Address
  logs : List LogEntry
  gasPrice : U128
  deriving DecidableEq

structure BlockTxResult where
  evmTxCount : ℕ := 0
  evmGasUsed : U64 := 0
  evmTxResults : List BlockTxEntry := []
  deriving DecidableEq

structure BlockState where
  gasTracker : BlockGasTracker
  usedEvmNonces : List (Address × U64)
  cacheDb : CacheDB
  result : BlockTxResult
  accumulatedState : EvmState

def actualCost (tx : EvmTransaction) (baseFee : U128) (gasUsed : U64) : U256 :=
  gasUsed.setWidth 256 * (effectiveGasPrice tx baseFee).setWidth 256

def txRefund (tx : EvmTransaction) (baseFee : U128) (borrowed : U256) (gasUsed : U64) : U256 :=
  if borrowed > 0 then refundOf borrowed tx.value (actualCost tx baseFee gasUsed) else 0

def txEntry (blk : BlockParams) (raw : Bytes) (tx : EvmTransaction) (b : Bridge)
    (res : EvmExecutionResult) : BlockTxEntry where
  txHash := H.keccak256 raw
  gasUsed := res.gasUsed
  status := res.success
  caller := tx.caller
  toAddr := tx.toAddr
  contractAddress := if tx.toAddr.isNone then some (deriveCreateAddress H tx.caller tx.nonce) else none
  logs :=
    let settled :=
      if b.borrowed > 0 then
        [makeGasBridgeSettledLog tx.caller (actualCost tx blk.baseFee res.gasUsed)
          (txRefund tx blk.baseFee b.borrowed res.gasUsed) res.gasUsed]
      else []
    b.bridgeLogs ++ settled ++ res.logs
  gasPrice := tx.gasPrice

/-- A transaction that ran and fits into the block: commit, refund in the cache, merge,
refund in the delta, report. -/
def commitTx (blk : BlockParams) (raw : Bytes) (tx : EvmTransaction) (b : Bridge)
    (c : CacheDB) (res : EvmExecutionResult) (delta : EvmState) (gasTracker : BlockGasTracker)
    (s : BlockState) : BlockState :=
  let refund := txRefund tx blk.baseFee b.borrowed res.gasUsed
  let c := refundCache H tx refund (c.commit H.keccak256 delta)
  let (c, acc) := refundDelta H tx refund c (accumulate s.accumulatedState delta)
  { gasTracker := gasTracker
    usedEvmNonces := s.usedEvmNonces
    cacheDb := c
    result :=
      { evmTxCount := s.result.evmTxCount + 1
        evmGasUsed := s.result.evmGasUsed + res.gasUsed
        evmTxResults := s.result.evmTxResults ++ [txEntry H blk raw tx b res] }
    accumulatedState := acc }

/-! ### The loop -/

inductive Outcome where
  | undecodable
  | duplicateNonce
  | insufficientProtocol
  | invalid (msg : String)
  | failed (e : EvmError)
  | gasLimitExceeded
  | executed
  deriving DecidableEq

def BlockState.useNonce (s : BlockState) (tx : EvmTransaction) : BlockState :=
  { s with usedEvmNonces := (tx.caller, tx.nonce) :: s.usedEvmNonces }

def executeTx (blk : BlockParams) (s : BlockState) (raw : Bytes) : BlockState × Outcome :=
  match decodeEvmTx H raw with
  | none => (s, .undecodable)
  | some tx =>
    if (tx.caller, tx.nonce) ∈ s.usedEvmNonces then (s, .duplicateNonce)
    else
      let s := s.useNonce tx
      match preBridge H tx s.cacheDb with
      | none => (s, .insufficientProtocol)
      | some b =>
        match validateEvmTxCached H tx b.cacheDb with
        | .error e => ({ s with cacheDb := revertBridge H tx b.borrowed b.cacheDb }, .invalid e)
        | .ok () =>
          match executeTxCached H tx b.cacheDb blk.env with
          | (c, .error e) => ({ s with cacheDb := revertBridge H tx b.borrowed c }, .failed e)
          | (c, .ok (res, delta)) =>
            match s.gasTracker.addGas res.gasUsed with
            | none => ({ s with cacheDb := c }, .gasLimitExceeded)
            | some gasTracker => (commitTx H blk raw tx b c res delta gasTracker s, .executed)

/-! ### What one iteration can do -/

/-- The transaction `raw` decodes to `tx`, whose nonce is new to the block,
and the pre-bridge gives `b`. -/
structure Bridged (s : BlockState) (raw : Bytes) (tx : EvmTransaction) (b : Bridge) : Prop where
  decoded : decodeEvmTx H raw = some tx
  fresh : (tx.caller, tx.nonce) ∉ s.usedEvmNonces
  bridged : preBridge H tx s.cacheDb = some b

inductive TxStep (blk : BlockParams) (s : BlockState) (raw : Bytes) :
    BlockState × Outcome → Prop
  | undecodable : decodeEvmTx H raw = none → TxStep blk s raw (s, .undecodable)
  | duplicate {tx} : decodeEvmTx H raw = some tx → (tx.caller, tx.nonce) ∈ s.usedEvmNonces →
      TxStep blk s raw (s, .duplicateNonce)
  | unfunded {tx} : decodeEvmTx H raw = some tx → (tx.caller, tx.nonce) ∉ s.usedEvmNonces →
      preBridge H tx s.cacheDb = none → TxStep blk s raw (s.useNonce tx, .insufficientProtocol)
  | invalid {tx b e} : Bridged H s raw tx b → validateEvmTxCached H tx b.cacheDb = .error e →
      TxStep blk s raw
        ({ s.useNonce tx with cacheDb := revertBridge H tx b.borrowed b.cacheDb }, .invalid e)
  | failed {tx b c e} : Bridged H s raw tx b → validateEvmTxCached H tx b.cacheDb = .ok () →
      executeTxCached H tx b.cacheDb blk.env = (c, .error e) →
      TxStep blk s raw ({ s.useNonce tx with cacheDb := revertBridge H tx b.borrowed c }, .failed e)
  | dropped {tx b c res delta} : Bridged H s raw tx b →
      validateEvmTxCached H tx b.cacheDb = .ok () →
      executeTxCached H tx b.cacheDb blk.env = (c, .ok (res, delta)) →
      s.gasTracker.addGas res.gasUsed = none →
      TxStep blk s raw ({ s.useNonce tx with cacheDb := c }, .gasLimitExceeded)
  | executed {tx b c res delta gasTracker} : Bridged H s raw tx b →
      validateEvmTxCached H tx b.cacheDb = .ok () →
      executeTxCached H tx b.cacheDb blk.env = (c, .ok (res, delta)) →
      s.gasTracker.addGas res.gasUsed = some gasTracker →
      TxStep blk s raw
        (commitTx H blk raw tx b c res delta gasTracker (s.useNonce tx), .executed)

theorem executeTx_step (blk : BlockParams) (s : BlockState) (raw : Bytes) :
    TxStep H blk s raw (executeTx H blk s raw) := by
  unfold executeTx
  split
  · exact .undecodable ‹_›
  · rename_i tx htx
    split
    · exact .duplicate htx ‹_›
    · rename_i hfre
      dsimp only
      split
      · exact .unfunded htx hfre ‹_›
      · rename_i b hb
        have hB : Bridged H s raw tx b := ⟨htx, hfre, hb⟩
        split
        · exact .invalid hB ‹_›
        · split
          · exact .failed hB ‹_› ‹_›
          · split
            · exact .dropped hB ‹_› ‹_› ‹_›
            · exact .executed hB ‹_› ‹_› ‹_›

/-! ### The whole block -/

def BlockState.init (provider : InMemoryStateProvider) : BlockState where
  gasTracker := ⟨0, 30000000⟩
  usedEvmNonces := []
  cacheDb := .new provider
  result := {}
  accumulatedState := fun _ => none

def runTxs (blk : BlockParams) (s : BlockState) (txs : List Bytes) : BlockState :=
  Run.run (fun s raw => (executeTx H blk s raw).1) s txs

def executeLoop (txs : List Bytes) (provider : InMemoryStateProvider) (blk : BlockParams) :
    BlockState :=
  runTxs H blk (.init provider) txs

/-- The final merge: what the cache lists for `ASSET_ADDRESS` and the delta
does not goes into the delta. -/
def finalMerge (c : CacheDB) (acc : EvmState) : EvmState :=
  let account := c.entry H.keccak256 assetAddress
  let listed : U256 → Option EvmStorageSlot := fun k => (account.storage k).map (⟨·⟩)
  Function.update acc assetAddress <| some <|
    match acc assetAddress with
    | some existing => { existing with storage := fun k => (existing.storage k).or (listed k) }
    | none => { account.toAccount with storage := listed }

/-- Over a provider whose reads do not fail it always returns. -/
def executeBlockTransactions (txs : List Bytes) (provider : InMemoryStateProvider)
    (blk : BlockParams) : BlockTxResult × EvmState :=
  let s := executeLoop H txs provider blk
  (s.result, finalMerge H s.cacheDb s.accumulatedState)

end Callchain.Evm

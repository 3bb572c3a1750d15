/-
# State providers, revm deltas and the block's cache

* `InMemoryStateProvider` (`crates/evm/src/provider.rs`) is the state before the block.
  Its reads never fail, so the error arms of database reads are unreachable over it.
* `EvmState` is what revm returns for one transaction: for each account it loaded, the
  info, the storage slots it read or wrote and the status flags.
* `CacheDB` is revm's write-back cache over the provider. The transactions of a block
  share it, and it loads accounts and slots on first use.

Maps are functions to `Option`; a loop over the entries of a map, each with its own key,
is taken key by key. Left out, as nothing modelled reads them: revm's `original_info`,
transaction ids, `account_id` and the cold and loaded-as-missing flags, and the cache's
table of bytecodes by hash (an account whose info carries no bytecode has the one that
the provider gave it).
-/
import Callchain.Primitives

namespace Callchain.Evm

/-! ### The provider -/

structure EvmAccount where
  nonce : U64 := 0
  balance : U256 := 0
  code : Bytes := []
  storage : U256 → Option U256 := fun _ => none

/-- `KECCAK_EMPTY`, the hash of no code. -/
def keccakEmpty : B256 := 0xc5d2460186f7233c927e7db2dcc703c0e500b653ca82273b7bfad8045d85a470#256

def hashCode (K : Bytes → B256) (code : Bytes) : B256 :=
  if code.isEmpty then keccakEmpty else K code

structure AccountInfo where
  balance : U256
  nonce : U64
  codeHash : B256
  code : Option Bytes
  deriving DecidableEq

/-- `AccountInfo::default()` -/
def AccountInfo.empty : AccountInfo := ⟨0, 0, keccakEmpty, some []⟩

structure InMemoryStateProvider where
  accounts : Address → Option EvmAccount

namespace InMemoryStateProvider

variable (p : InMemoryStateProvider)

def getBalance (a : Address) : U256 := ((p.accounts a).map (·.balance)).getD 0

def getNonce (a : Address) : U64 := ((p.accounts a).map (·.nonce)).getD 0

def getCode (a : Address) : Bytes := ((p.accounts a).map (·.code)).getD []

def getStorage (a : Address) (key : U256) : U256 :=
  ((p.accounts a).bind (·.storage key)).getD 0

/-- `basic_account` through `to_reth_account`: the code is left behind its
hash. -/
def basicAccount (K : Bytes → B256) (a : Address) : Option AccountInfo :=
  (p.accounts a).map fun acc => ⟨acc.balance, acc.nonce, hashCode K acc.code, none⟩

theorem getStorage_of_none {p : InMemoryStateProvider} {a : Address} (h : p.accounts a = none)
    (k : U256) : p.getStorage a k = 0 := by
  simp [getStorage, h]

end InMemoryStateProvider

/-! ### revm deltas -/

/-- `EvmStorageSlot`, by the value it ends with. -/
structure EvmStorageSlot where
  presentValue : U256
  deriving DecidableEq

/-- The flags of `AccountStatus` that the commit reads. -/
structure AccountStatus where
  touched : Bool := false
  created : Bool := false
  selfdestructed : Bool := false
  deriving DecidableEq

def AccountStatus.union (s t : AccountStatus) : AccountStatus :=
  ⟨s.touched || t.touched, s.created || t.created, s.selfdestructed || t.selfdestructed⟩

structure Account where
  info : AccountInfo
  storage : U256 → Option EvmStorageSlot := fun _ => none
  status : AccountStatus := {}

abbrev EvmState := Address → Option Account

/-- One account of `apply_from_revm_state`: balance and nonce are taken over, the code
if the delta carries it, and a slot is removed when it ends at zero. Flags are not
looked at. -/
def EvmAccount.applyRevm (acc : EvmAccount) (r : Account) : EvmAccount where
  balance := r.info.balance
  nonce := r.info.nonce
  code := r.info.code.getD acc.code
  storage k :=
    match r.storage k with
    | none => acc.storage k
    | some s => if s.presentValue = 0 then none else some s.presentValue

def InMemoryStateProvider.applyFromRevmState (p : InMemoryStateProvider) (revmState : EvmState) :
    InMemoryStateProvider where
  accounts a :=
    match revmState a with
    | none => p.accounts a
    | some r => some (((p.accounts a).getD {}).applyRevm r)

/-! ### The cache -/

/-- `AccountState` of a cached account. -/
inductive AccountState where
  | notExisting
  | touched
  | storageCleared
  | none
  deriving DecidableEq

structure DbAccount where
  info : AccountInfo := .empty
  accountState : AccountState := .none
  storage : U256 → Option U256 := fun _ => Option.none

structure CacheDB where
  accounts : Address → Option DbAccount
  db : InMemoryStateProvider

namespace CacheDB

def new (db : InMemoryStateProvider) : CacheDB := ⟨fun _ => none, db⟩

variable (K : Bytes → B256) (c : CacheDB)

def entry (a : Address) : DbAccount :=
  (c.accounts a).getD <|
    match c.db.basicAccount K a with
    | some info => { info := info }
    | none => { accountState := .notExisting }

/-- `load_account`, followed by the changes made through the reference it
returns. -/
def modifyAccount (a : Address) (f : DbAccount → DbAccount) : CacheDB :=
  { c with accounts := Function.update c.accounts a (some (f (c.entry K a))) }

/-- `load_account`, the reference only read. -/
def loadAccount (a : Address) : CacheDB := c.modifyAccount K a id

def basicRef (a : Address) : Option AccountInfo :=
  match c.accounts a with
  | some acc => if acc.accountState = .notExisting then none else some acc.info
  | none => c.db.basicAccount K a

def storageRef (a : Address) (key : U256) : U256 :=
  match c.accounts a with
  | some acc =>
    match acc.storage key with
    | some v => v
    | none =>
      if acc.accountState = .storageCleared ∨ acc.accountState = .notExisting then 0
      else c.db.getStorage a key
  | none => c.db.getStorage a key

/-- The value read is kept, unless the account is missing or was cleared. -/
def storage (a : Address) (key : U256) : CacheDB × U256 :=
  let acc := c.entry K a
  match acc.storage key with
  | some v => (c.loadAccount K a, v)
  | none =>
    if acc.accountState = .storageCleared ∨ acc.accountState = .notExisting then
      (c.loadAccount K a, 0)
    else
      let v := c.db.getStorage a key
      (c.modifyAccount K a fun acc =>
        { acc with storage := Function.update acc.storage key (some v) }, v)

/-- `insert_contract`: the code hash of an info about to be committed. -/
def insertContract (info : AccountInfo) : AccountInfo :=
  let hash :=
    match info.code with
    | some code =>
      if code.isEmpty then info.codeHash
      else if info.codeHash = keccakEmpty then hashCode K code else info.codeHash
    | none => info.codeHash
  { info with codeHash := if hash = 0 then keccakEmpty else hash }

/-- One touched account of `commit`. -/
def commitAccount (old : DbAccount) (r : Account) : DbAccount :=
  if r.status.selfdestructed then { info := .empty, accountState := .notExisting }
  else
    let kept : U256 → Option U256 := if r.status.created then fun _ => none else old.storage
    { info := insertContract K r.info
      accountState :=
        if r.status.created ∨ old.accountState = .storageCleared then .storageCleared
        else .touched
      storage := fun k => ((r.storage k).map (·.presentValue)).or (kept k) }

/-- Untouched accounts of the delta are skipped. -/
def commit (changes : EvmState) : CacheDB where
  db := c.db
  accounts a :=
    match changes a with
    | none => c.accounts a
    | some r =>
      if r.status.touched then some (commitAccount K ((c.accounts a).getD {}) r)
      else c.accounts a

end CacheDB

end Callchain.Evm

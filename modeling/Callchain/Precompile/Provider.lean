/-
# The storage provider of the precompiles

A precompile reaches the chain through `EvmStorageProvider`: storage, balances, code and
the log list of revm's journal, each access with its gas. Every method returns the
provider and a result, since what it did before it ran out of gas stays done: a store is
in the journal before its gas is deducted.

A storage key, a pair of an address and a slot in the source, is of any type here, and
different keys are different slots. Of revm's journal the values of the slots, the
access list, the balances, the code and the logs are kept. Reading the database is taken
not to fail.
-/
import Mathlib.Logic.Function.Basic
import Callchain.Primitives

namespace Callchain.Precompile

/-- Without the fatal errors of the database. -/
inductive PrecompileError where
  | outOfGas
  | other (reason : String)
  deriving DecidableEq

structure Log where
  address : Address
  topics : List B256
  data : Bytes
  deriving DecidableEq

/-- What the journal holds beside the logs. `original` has the values at the
start of the transaction, `warm` the slots accessed since. -/
structure World (K : Type) where
  storage : K → U256 := fun _ => 0
  original : K → U256 := fun _ => 0
  warm : K → Bool := fun _ => false
  balance : Address → U256 := fun _ => 0
  code : Address → Bytes := fun _ => []

structure Journal (K : Type) where
  world : World K := {}
  logs : List Log := []

/-- `EvmStorageProvider` -/
structure Provider (K : Type) where
  journal : Journal K
  gasRemaining : ℕ
  gasRefunded : ℕ
  gasLimit : ℕ
  isStatic : Bool

def Provider.new {K : Type} (journal : Journal K) (gasLimit : ℕ) (isStatic : Bool) : Provider K where
  journal := journal
  gasRemaining := gasLimit
  gasRefunded := 0
  gasLimit := gasLimit
  isStatic := isStatic

/-! ### Gas -/

def coldSloadCost : ℕ := 2100

/-- `WARM_STORAGE_READ_COST`, also the cost of a balance or of code. -/
def warmStorageReadCost : ℕ := 100

def sstoreSetGas : ℕ := 20000

/-- `LOG`, `LOGTOPIC` for each topic and `LOGDATA` for each byte. -/
def Log.gas (log : Log) : ℕ := 375 + 375 * log.topics.length + 8 * log.data.length

/-! ### The nested EVM -/

/-- An account of the state a nested call returns: the slots with their present
and original value, and the balance before and after. -/
structure EvmAccount (K : Type) where
  address : Address
  touched : Bool
  storage : List (K × U256 × U256)
  originalBalance : U256
  balance : U256

inductive ExecutionResult where
  | success (output : Bytes)
  | revert (output : Bytes)
  | halt (reason : String)

structure EvmResult (K : Type) where
  result : ExecutionResult
  gasSpent : ℕ
  state : List (EvmAccount K)
  accessed : List K

/-- revm: a transaction of `caller` to `contract` with some data, run on the
storage, balances and code of the journal. -/
abbrev Evm (K : Type) := World K → Address → Address → Bytes → Except String (EvmResult K)

variable {K : Type} [DecidableEq K] {α : Type}

/-! ### The world -/

namespace World

def touch (w : World K) (k : K) : World K := { w with warm := Function.update w.warm k true }

def write (w : World K) (k : K) (v : U256) : World K :=
  { w with warm := Function.update w.warm k true, storage := Function.update w.storage k v }

def setBalance (w : World K) (a : Address) (v : U256) : World K :=
  { w with balance := Function.update w.balance a v }

def touchAll (w : World K) (ks : List K) : World K := ks.foldl touch w

def sloadGas (w : World K) (k : K) : ℕ :=
  if w.warm k then warmStorageReadCost else coldSloadCost

def sstoreGas (w : World K) (k : K) : ℕ :=
  sstoreSetGas + if w.warm k then 0 else coldSloadCost

omit [DecidableEq K] in
theorem sloadGas_le (w : World K) (k : K) : w.sloadGas k ≤ coldSloadCost := by
  unfold sloadGas
  split <;> decide

end World

/-! ### The methods -/

namespace Provider

def setWorld (p : Provider K) (w : World K) : Provider K :=
  { p with journal := { p.journal with world := w } }

/-- `deduct_gas`, also `charge_gas` -/
def deductGas (p : Provider K) (gas : ℕ) : Provider K × Except PrecompileError Unit :=
  if gas ≤ p.gasRemaining then ({ p with gasRemaining := p.gasRemaining - gas }, .ok ())
  else (p, .error .outOfGas)

def charge (p : Provider K) (gas : ℕ) (a : α) : Provider K × Except PrecompileError α :=
  match p.deductGas gas with
  | (q, .ok ()) => (q, .ok a)
  | (q, .error e) => (q, .error e)

def sload (p : Provider K) (k : K) : Provider K × Except PrecompileError U256 :=
  let w := p.journal.world
  (p.setWorld (w.touch k)).charge (w.sloadGas k) (w.storage k)

/-- The slot is written before the gas is deducted. -/
def sstore (p : Provider K) (k : K) (v : U256) : Provider K × Except PrecompileError Unit :=
  if p.isStatic then (p, .error (.other "static call cannot mutate state"))
  else
    let w := p.journal.world
    match (p.setWorld (w.write k v)).deductGas (w.sstoreGas k) with
    | (q, .error e) => (q, .error e)
    | (q, .ok ()) =>
      if (w.original k = v ∧ w.storage k ≠ v) ∨ (w.storage k ≠ 0 ∧ v = 0) then
        ({ q with gasRefunded := q.gasRefunded + 4800 }, .ok ())
      else (q, .ok ())

/-- No check for a static context. -/
def emitEvent (p : Provider K) (log : Log) : Provider K × Except PrecompileError Unit :=
  match p.deductGas log.gas with
  | (q, .error e) => (q, .error e)
  | (q, .ok ()) => ({ q with journal := { q.journal with logs := q.journal.logs ++ [log] } }, .ok ())

def balanceAdd (p : Provider K) (a : Address) (amount : U256) :
    Provider K × Except PrecompileError Unit :=
  if p.isStatic then (p, .error (.other "static call cannot mutate balance"))
  else
    let w := p.journal.world
    if 2 ^ 256 ≤ (w.balance a).toNat + amount.toNat then (p, .error (.other "balance overflow"))
    else (p.setWorld (w.setBalance a (w.balance a + amount))).charge warmStorageReadCost ()

def balanceSub (p : Provider K) (a : Address) (amount : U256) :
    Provider K × Except PrecompileError Unit :=
  if p.isStatic then (p, .error (.other "static call cannot mutate balance"))
  else
    let w := p.journal.world
    if (w.balance a).toNat < amount.toNat then
      (p, .error (.other "insufficient native balance"))
    else (p.setWorld (w.setBalance a (w.balance a - amount))).charge warmStorageReadCost ()

def codeGet (p : Provider K) (a : Address) : Provider K × Except PrecompileError Bytes :=
  p.charge warmStorageReadCost (p.journal.world.code a)

def rawSstore (p : Provider K) (k : K) (v : U256) : Provider K × Except PrecompileError Unit :=
  if p.isStatic then (p, .error (.other "static call cannot mutate state"))
  else (p.setWorld (p.journal.world.write k v), .ok ())

/-- The gas the nested transaction spent is deducted after it. -/
def executeEvmCall (evm : Evm K) (p : Provider K) (caller contract : Address) (data : Bytes) :
    Provider K × Except PrecompileError (EvmResult K) :=
  match evm p.journal.world caller contract data with
  | .error e => (p, .error (.other ("evm call: " ++ e)))
  | .ok r => (p.setWorld (p.journal.world.touchAll r.accessed)).charge r.gasSpent r

/-! ### `StorageRef` -/

/-- `load` and its like: an error reads as a default. -/
def load (p : Provider K) (k : K) (default : U256) : Provider K × U256 :=
  match p.sload k with
  | (q, .ok v) => (q, v)
  | (q, .error _) => (q, default)

/-- An error is dropped. -/
def store (p : Provider K) (k : K) (v : U256) : Provider K := (p.sstore k v).1

def tryEmitEvent (p : Provider K) (log : Log) : Provider K := (p.emitEvent log).1

end Provider

end Callchain.Precompile

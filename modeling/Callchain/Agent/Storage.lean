/-
# Agents and sessions

`AgentStorage` (`agent/src/lib.rs`) keeps agents and sessions. An agent has an owner,
who grants it balances and takes them back, and an address, from which it pays. A
session lets a delegate move its owner's balance within limits.

An operation may fail after a write: each returns the state beside its result. Sums that
the source does not check wrap, as in a release build. Permissions and limits, packed
into words in the source, are fields. Name, url and registration block of an agent,
which none of these functions reads, are left out.
-/
import Callchain.Asset.Storage

namespace Callchain.Agent

open Asset
open Function (update)

inductive AgentError where
  | notFound
  | notOwner
  | permissionsExpired
  | assetNotAllowed
  | amountExceedsLimit
  | insufficientBalance
  | balanceOverflow
  | arrayLengthMismatch
  | emptyBatch
  | sessionNotFound
  | invalidDelegate
  | agentAlreadyExists
  deriving DecidableEq

structure AgentPerms where
  perTxLimit : U128 := 0
  expiresAt : U64 := 0
  flags : U8 := 0

structure SessionPolicy where
  maxTotalSpend : U128 := 0
  minIntervalBlocks : U64 := 0
  effectiveAt : U64 := 0
  maxExecutions : U64 := 0
  allowedAssets : List U64 := []
  allowedRecipients : List Address := []

structure Session extends SessionPolicy where
  owner : Address := 0
  delegate : Address := 0
  perTxLimit : U128 := 0
  dailyLimit : U128 := 0
  expiresAt : U64 := 0
  spent : U128 := 0
  lastDay : U64 := 0
  executionCount : U64 := 0
  lastExecutionBlock : U64 := 0
  totalSpent : U128 := 0

structure AgentStorage where
  count : U64 := 0
  owner : U64 → Address := fun _ => 0
  agentAddress : U64 → Address := fun _ => 0
  byAddress : Address → U64 := fun _ => 0
  perms : U64 → AgentPerms := fun _ => {}
  balance : U64 → U64 → U128 := fun _ _ => 0
  sessionCount : U64 := 0
  session : U64 → Session := fun _ => {}

structure State where
  agents : AgentStorage := {}
  assets : AssetStorage := {}

def blocksPerDay : U64 := 17280

namespace AgentStorage

variable (s : AgentStorage)

def agentExists (agentId : U64) : Prop := s.owner agentId ≠ 0

instance (agentId : U64) : Decidable (s.agentExists agentId) :=
  inferInstanceAs (Decidable (_ ≠ _))

def writeAgentBalance (agentId assetId : U64) (amount : U128) : AgentStorage :=
  { s with
    balance := update s.balance agentId
      (update (s.balance agentId) assetId amount) }

def setSession (sessionId : U64) (session : Session) : AgentStorage :=
  { s with session := update s.session sessionId session }

/-- The limit of one payment. -/
def requirePerms (agentId assetId currentBlock : U64) : Except AgentError U128 :=
  let perms := s.perms agentId
  if perms.expiresAt ≠ 0 ∧ perms.expiresAt < currentBlock then .error .permissionsExpired
  else if assetId ≠ callAssetId ∧ perms.flags &&& 1 = 0 then .error .assetNotAllowed
  else .ok perms.perTxLimit

/-- The agent of an address, as `pay` and `batch_pay` find it. -/
def findAgent (caller : Address) : Option U64 :=
  let agentId := s.byAddress caller
  if ¬ s.agentExists agentId ∨ s.agentAddress agentId ≠ caller then none else some agentId

end AgentStorage

namespace State

variable (s : State)

def withAgents (agents : AgentStorage) : State := { s with agents }

def withAssets (assets : AssetStorage) : State := { s with assets }

def registerAgent (agentAddress caller : Address) : State × Except AgentError Unit :=
  let existing := s.agents.byAddress agentAddress
  if agentAddress = 0 then (s, .error .agentAlreadyExists)
  else if existing ≠ BitVec.allOnes 64 ∧ s.agents.agentAddress existing = agentAddress then
    (s, .error .agentAlreadyExists)
  else
    let agentId := s.agents.count
    (s.withAgents { s.agents with
        count := agentId + 1
        owner := update s.agents.owner agentId caller
        agentAddress := update s.agents.agentAddress agentId agentAddress
        byAddress := update s.agents.byAddress agentAddress agentId
        perms := update s.agents.perms agentId { perTxLimit := 1000, flags := 1 } },
      .ok ())

def grantBalance (agentId assetId : U64) (amount : U128) (caller : Address) :
    State × Except AgentError Unit :=
  if ¬ s.agents.agentExists agentId then (s, .error .notFound)
  else if s.agents.owner agentId ≠ caller then (s, .error .notOwner)
  else
    match s.assets.deductBalance assetId caller amount with
    | .error _ => (s, .error .insufficientBalance)
    | .ok assets =>
      let s := s.withAssets assets
      let agentBal := s.agents.balance agentId assetId
      if 2 ^ 128 ≤ agentBal.toNat + amount.toNat then (s, .error .balanceOverflow)
      else (s.withAgents (s.agents.writeAgentBalance agentId assetId (agentBal + amount)), .ok ())

def revokeBalance (agentId assetId : U64) (caller : Address) : State × Except AgentError Unit :=
  if ¬ s.agents.agentExists agentId then (s, .error .notFound)
  else if s.agents.owner agentId ≠ caller then (s, .error .notOwner)
  else
    let currentBal := s.agents.balance agentId assetId
    let s := s.withAgents (s.agents.writeAgentBalance agentId assetId 0)
    if 0 < currentBal then
      match s.assets.addBalance assetId caller currentBal with
      | .error _ => (s, .error .balanceOverflow)
      | .ok assets => (s.withAssets assets, .ok ())
    else (s, .ok ())

/-- The loop of `batch_pay`: the credits, up to the one that fails. -/
def creditAll (assetId : U64) : AssetStorage → List (Address × U128) →
    AssetStorage × Except AgentError Unit
  | assets, [] => (assets, .ok ())
  | assets, (recipient, amount) :: rest =>
    match assets.addBalance assetId recipient amount with
    | .error _ => (assets, .error .balanceOverflow)
    | .ok assets => creditAll assetId assets rest

/-- The end of `pay` and `batch_pay`: the total leaves the agent, and is credited. -/
def payOut (agentId assetId : U64) (total : U128) (credits : List (Address × U128)) :
    State × Except AgentError Unit :=
  let agentBal := s.agents.balance agentId assetId
  if agentBal < total then (s, .error .insufficientBalance)
  else
    let s := s.withAgents (s.agents.writeAgentBalance agentId assetId (agentBal - total))
    let r := creditAll assetId s.assets credits
    (s.withAssets r.1, r.2)

def pay (assetId : U64) (recipient : Address) (amount : U128) (caller : Address)
    (currentBlock : U64) : State × Except AgentError Unit :=
  match s.agents.findAgent caller with
  | none => (s, .error .notFound)
  | some agentId =>
    match s.agents.requirePerms agentId assetId currentBlock with
    | .error e => (s, .error e)
    | .ok perTxLimit =>
      if perTxLimit < amount then (s, .error .amountExceedsLimit)
      else s.payOut agentId assetId amount [(recipient, amount)]

/-- The total wraps. -/
def batchPay (assetId : U64) (recipients : List Address) (amounts : List U128) (caller : Address)
    (currentBlock : U64) : State × Except AgentError Unit :=
  if recipients.length ≠ amounts.length then (s, .error .arrayLengthMismatch)
  else if recipients.isEmpty then (s, .error .emptyBatch)
  else
    match s.agents.findAgent caller with
    | none => (s, .error .notFound)
    | some agentId =>
      match s.agents.requirePerms agentId assetId currentBlock with
      | .error e => (s, .error e)
      | .ok perTxLimit =>
        let totalAmount := amounts.sum
        if amounts.any (perTxLimit < ·) then (s, .error .amountExceedsLimit)
        else s.payOut agentId assetId totalAmount (recipients.zip amounts)

/-- The balances of the agent stay in their slots. -/
def revokeAgent (agentId : U64) (caller : Address) : State × Except AgentError Unit :=
  if ¬ s.agents.agentExists agentId then (s, .error .notFound)
  else if s.agents.owner agentId ≠ caller then (s, .error .notOwner)
  else
    let addr := s.agents.agentAddress agentId
    (s.withAgents { s.agents with
        owner := update s.agents.owner agentId 0
        agentAddress := update s.agents.agentAddress agentId 0
        perms := update s.agents.perms agentId {}
        byAddress := if addr ≠ 0 then update s.agents.byAddress addr 0
          else s.agents.byAddress },
      .ok ())

end State

/-! ### Sessions -/

def Session.new (owner delegate : Address) (perTxLimit dailyLimit : U128) (expiresAt : U64)
    (policy : SessionPolicy) : Session :=
  { toSessionPolicy := policy, owner, delegate, perTxLimit, dailyLimit, expiresAt }

/-- The checks of `execute_session_transfer` and the counters after it. The sums
wrap. -/
def Session.authorize (x : Session) (assetId : U64) (recipient : Address) (amount : U128)
    (caller : Address) (currentBlock : U64) : Except AgentError Session :=
  if x.owner = 0 then .error .sessionNotFound
  else if caller ≠ x.delegate then .error .invalidDelegate
  else if x.expiresAt ≠ 0 ∧ x.expiresAt < currentBlock then .error .sessionNotFound
  else if x.effectiveAt ≠ 0 ∧ currentBlock < x.effectiveAt then .error .sessionNotFound
  else if x.minIntervalBlocks ≠ 0 ∧ x.lastExecutionBlock ≠ 0 ∧
      currentBlock - x.lastExecutionBlock < x.minIntervalBlocks then .error .amountExceedsLimit
  else if x.maxExecutions ≠ 0 ∧ x.maxExecutions ≤ x.executionCount then .error .amountExceedsLimit
  else if x.perTxLimit < amount then .error .amountExceedsLimit
  else
    let currentDay := currentBlock / blocksPerDay
    let currentSpent := if x.lastDay < currentDay then 0 else x.spent
    let newLastDay := if x.lastDay < currentDay then currentDay else x.lastDay
    if x.dailyLimit < currentSpent + amount then .error .amountExceedsLimit
    else if x.maxTotalSpend ≠ 0 ∧ x.maxTotalSpend < x.totalSpent + amount then
      .error .amountExceedsLimit
    else if x.allowedAssets ≠ [] ∧ assetId ∉ x.allowedAssets then .error .assetNotAllowed
    else if x.allowedRecipients ≠ [] ∧ recipient ∉ x.allowedRecipients then
      .error .amountExceedsLimit
    else .ok { x with
      spent := currentSpent + amount
      lastDay := newLastDay
      executionCount := x.executionCount + 1
      lastExecutionBlock := currentBlock
      totalSpent := x.totalSpent + amount }

namespace State

variable (s : State)

def createSession (delegate : Address) (perTxLimit dailyLimit : U128) (expiresAt : U64)
    (policy : SessionPolicy) (caller : Address) : State × Except AgentError U64 :=
  let sessionId := s.agents.sessionCount
  (s.withAgents { s.agents.setSession sessionId
        (.new caller delegate perTxLimit dailyLimit expiresAt policy) with
      sessionCount := sessionId + 1 },
    .ok sessionId)

def revokeSession (sessionId : U64) (caller : Address) : State × Except AgentError Unit :=
  let owner := (s.agents.session sessionId).owner
  if owner = 0 then (s, .error .sessionNotFound)
  else if owner ≠ caller then (s, .error .notOwner)
  else (s.withAgents (s.agents.setSession sessionId {}), .ok ())

def executeSessionTransfer (sessionId assetId : U64) (recipient : Address) (amount : U128)
    (caller : Address) (currentBlock : U64) : State × Except AgentError Unit :=
  match (s.agents.session sessionId).authorize assetId recipient amount caller currentBlock with
  | .error e => (s, .error e)
  | .ok session =>
    let s := s.withAgents (s.agents.setSession sessionId session)
    match s.assets.deductBalance assetId session.owner amount with
    | .error _ => (s, .error .insufficientBalance)
    | .ok assets =>
      let s := s.withAssets assets
      match s.assets.addBalance assetId recipient amount with
      | .error _ => (s, .error .balanceOverflow)
      | .ok assets => (s.withAssets assets, .ok ())

end State

/-! ### Operations -/

inductive AgentOp where
  | registerAgent (agentAddress caller : Address)
  | grantBalance (agentId assetId : U64) (amount : U128) (caller : Address)
  | revokeBalance (agentId assetId : U64) (caller : Address)
  | pay (assetId : U64) (recipient : Address) (amount : U128) (caller : Address)
  | batchPay (assetId : U64) (recipients : List Address) (amounts : List U128) (caller : Address)
  | revokeAgent (agentId : U64) (caller : Address)
  | createSession (delegate : Address) (perTxLimit dailyLimit : U128) (expiresAt : U64)
      (policy : SessionPolicy) (caller : Address)
  | revokeSession (sessionId : U64) (caller : Address)
  | executeSessionTransfer (sessionId assetId : U64) (recipient : Address) (amount : U128)
      (caller : Address)

def AgentOp.exec (s : State) (block : U64) : AgentOp → State × Except AgentError Unit
  | .registerAgent agentAddress caller => s.registerAgent agentAddress caller
  | .grantBalance agentId assetId amount caller => s.grantBalance agentId assetId amount caller
  | .revokeBalance agentId assetId caller => s.revokeBalance agentId assetId caller
  | .pay assetId recipient amount caller => s.pay assetId recipient amount caller block
  | .batchPay assetId recipients amounts caller =>
    s.batchPay assetId recipients amounts caller block
  | .revokeAgent agentId caller => s.revokeAgent agentId caller
  | .createSession delegate perTxLimit dailyLimit expiresAt policy caller =>
    let r := s.createSession delegate perTxLimit dailyLimit expiresAt policy caller
    (r.1, r.2.map fun _ => ())
  | .revokeSession sessionId caller => s.revokeSession sessionId caller
  | .executeSessionTransfer sessionId assetId recipient amount caller =>
    s.executeSessionTransfer sessionId assetId recipient amount caller block

/-- An operation in a block; what a failed one wrote is undone or stays. -/
structure AgentCall where
  op : AgentOp
  block : U64
  reverts : Bool := true

def State.step (s : State) (c : AgentCall) : State :=
  match c.op.exec s c.block with
  | (s', .ok ()) => s'
  | (s', .error _) => if c.reverts then s else s'

end Callchain.Agent

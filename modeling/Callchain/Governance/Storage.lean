/-
# Proposals

`GovernanceStorage` keeps the proposals, the votes on them and the configuration in
slots of the governance precompile. A proposal is submitted with a deposit, opens for
votes when its review is over, is queued or defeated, and is executed when its timelock
has passed.

A call that fails part way has made its earlier writes, so the operations return the
storage beside their result. Of a slot only the bytes that its readers use are kept. The
execution data, which the source cuts into chunks of 32 bytes beside a length, is one
string here; the hashes of the title, the description and the data, which nothing reads,
are left out.
-/
import Callchain.Precompile.Provider
import Callchain.Validator.Storage

namespace Callchain.Governance

open Asset Validator Precompile
open Function (update update_eq_self update_idem update_of_ne update_self)

/-- The number that stands behind a type of proposal, from 0 to 10; the codes
above are `unsupported`. -/
inductive ProposalType where
  | parameterChange
  | protocolUpgrade
  | treasurySpend
  | validatorSlash
  | complianceUpdate
  | emergencyPause
  | feeCurrencyAdd
  | feeCurrencyRemove
  | feeCurrencyCap
  | validatorKeyRotation
  | proverKeyRotation
  | unsupported (code : U8)
  deriving DecidableEq

/-- The status bytes. Byte 5 is the advancer's `Expired`; `execute` writes 6
for it, which is `lapsed` here. -/
inductive Status where
  | pending
  | active
  | queued
  | executed
  | defeated
  | expired
  | lapsed
  deriving DecidableEq

structure Proposal where
  proposer : Address := 0
  executionData : Bytes := []
  status : Status := .pending
  votesFor : U128 := 0
  votesAgainst : U128 := 0
  votesAbstain : U128 := 0
  deposit : U128 := 0
  startBlock : U64 := 0
  endBlock : U64 := 0
  proposalType : ProposalType := .parameterChange
  reviewEnd : U64 := 0
  quorumRequired : U128 := 0
  queuedAt : U64 := 0
  executionBlock : U64 := 0
  deriving DecidableEq

/-! ### The configuration -/

/-- `ALLOWED_GOVERNANCE_PARAMS`: the keys of the configuration. -/
inductive Param where
  | reviewPeriod
  | votingPeriod
  | timelock
  | executionTimeout
  | proposalCooldown
  | validatorQuorumBps
  | supplyQuorumBps
  | treasuryQuorumBps
  | simpleMajorityBps
  | emergencyPauseBps
  deriving DecidableEq

namespace Param

def all : List Param :=
  [reviewPeriod, votingPeriod, timelock, executionTimeout, proposalCooldown, validatorQuorumBps,
    supplyQuorumBps, treasuryQuorumBps, simpleMajorityBps, emergencyPauseBps]

def name : Param → String
  | reviewPeriod => "review_period"
  | votingPeriod => "voting_period"
  | timelock => "timelock"
  | executionTimeout => "execution_timeout"
  | proposalCooldown => "proposal_cooldown"
  | validatorQuorumBps => "validator_quorum_bps"
  | supplyQuorumBps => "supply_quorum_bps"
  | treasuryQuorumBps => "treasury_quorum_bps"
  | simpleMajorityBps => "simple_majority_bps"
  | emergencyPauseBps => "emergency_pause_bps"

end Param

def asciiBytes (text : String) : Bytes := text.toList.map fun c => UInt8.ofNat c.toNat

def Param.suffix (param : Param) : Bytes := asciiBytes param.name

def totalSupply : ℕ := 1000000000000000000000000000

def proposalDeposit : U128 := 10000000000000000000000

/-- `div_ceil(10_000)` of a product. -/
def bpsCeil (n bps : ℕ) : ℕ := (n * bps + 9999) / 10000

structure GovernanceConfig where
  validatorQuorumBps : BitVec 32 := 6667
  supplyQuorumBps : BitVec 32 := 2000
  treasuryQuorumBps : BitVec 32 := 2000
  simpleMajorityBps : BitVec 32 := 5001
  emergencyPauseBps : BitVec 32 := 6667

namespace GovernanceConfig

variable (c : GovernanceConfig)

def validatorQuorum (totalValidators : U64) : U64 :=
  BitVec.ofNat 64 (bpsCeil totalValidators.toNat c.validatorQuorumBps.toNat)

def emergencyPauseThreshold (totalValidators : U64) : U64 :=
  BitVec.ofNat 64 (bpsCeil totalValidators.toNat c.emergencyPauseBps.toNat)

def supplyQuorum : U128 := BitVec.ofNat 128 (totalSupply * c.supplyQuorumBps.toNat / 10000)

def treasuryQuorum : U128 := BitVec.ofNat 128 (totalSupply * c.treasuryQuorumBps.toNat / 10000)

end GovernanceConfig

/-! ### The storage -/

structure Signatures where
  epoch : U64 := 0
  sigEpoch : Address → U64 := fun _ => 0
  sigCount : U64 := 0

/-- The slots under `prover_key_rotation`. -/
structure ProverKeyRotation where
  version : BitVec 32 := 0
  transferVkHash : B256 := 0
  depositVkHash : B256 := 0
  withdrawVkHash : B256 := 0
  sunsetTimestamp : U64 := 0
  pending : Bool := false
  registered : BitVec 32 := 0
  deriving DecidableEq

structure GovernanceStorage where
  proposalCount : U64 := 0
  proposal : U64 → Proposal := fun _ => {}
  voter : U64 → Address → U128 := fun _ _ => 0
  voterVote : U64 → Address → U8 := fun _ _ => 0
  paused : Bool := false
  pauseReason : B256 := 0
  configInitialized : Bool := false
  config : Bytes → U128 := fun _ => 0
  lastSubmission : Address → U64 := fun _ => 0
  pauseSigs : Signatures := {}
  resumeSigs : Signatures := {}
  feeCurrency : U64 → Bool := fun _ => false
  feeCurrencyCap : U64 → U128 := fun _ => 0
  protocolUpgrade : B256 := 0
  keyRotation : U64 → Bool := fun _ => false
  keyRotationOld : U64 → B256 := fun _ => 0
  keyRotationNew : U64 → B256 := fun _ => 0
  proverKeyRotation : ProverKeyRotation := {}

def GovernanceStorage.votes (g : GovernanceStorage) :
    (U64 → Address → U128) × (U64 → Address → U8) := (g.voter, g.voterVote)

theorem voter_of_votes {g g' : GovernanceStorage} (h : g'.votes = g.votes) : g'.voter = g.voter :=
  congrArg Prod.fst h

/-- The slots of the compliance precompile: those of an address, and those of
an address and a policy. -/
structure ComplianceStorage where
  status : Address → U8 := fun _ => 0
  policy : Address → U8 → U8 := fun _ _ => 0

structure State where
  gov : GovernanceStorage := {}
  assets : AssetStorage := {}
  validators : ValidatorStorage := {}
  compliance : ComplianceStorage := {}

namespace GovernanceStorage

variable (g : GovernanceStorage)

def readConfigU64 (param : Param) : U64 := (g.config param.suffix).setWidth 64

def readConfigU32 (param : Param) : BitVec 32 := (g.config param.suffix).setWidth 32

def periodOr (param : Param) (default : U64) : U64 :=
  if g.readConfigU64 param = 0 then default else g.readConfigU64 param

def bpsOr (param : Param) (default : BitVec 32) : BitVec 32 :=
  if g.readConfigU32 param = 0 then default else g.readConfigU32 param

/-- `GOV_TIMELOCK_BLOCKS`, unless it is configured. -/
def timelock : U64 := g.periodOr .timelock 100

/-- `GOV_EXEC_TIMEOUT`, unless it is configured. -/
def executionTimeout : U64 := g.periodOr .executionTimeout 1000

/-- `GOV_PROPOSAL_COOLDOWN`, unless it is configured. -/
def proposalCooldown : U64 := g.periodOr .proposalCooldown 345600

def writeConfigU128 (suffix : Bytes) (value : U128) : GovernanceStorage :=
  { g with config := update g.config suffix value }

def writeConfigU32 (param : Param) (value : BitVec 32) : GovernanceStorage :=
  g.writeConfigU128 param.suffix (value.setWidth 128)

def ensureConfigInitialized : GovernanceStorage :=
  if g.configInitialized then g
  else
    let cfg : GovernanceConfig := {}
    { ((((g.writeConfigU32 .validatorQuorumBps cfg.validatorQuorumBps).writeConfigU32
        .supplyQuorumBps cfg.supplyQuorumBps).writeConfigU32
        .treasuryQuorumBps cfg.treasuryQuorumBps).writeConfigU32
        .simpleMajorityBps cfg.simpleMajorityBps).writeConfigU32
        .emergencyPauseBps cfg.emergencyPauseBps with configInitialized := true }

/-- `governance_config`, once the defaults are written. -/
def governanceConfig : GovernanceConfig where
  validatorQuorumBps := g.readConfigU32 .validatorQuorumBps
  supplyQuorumBps := g.readConfigU32 .supplyQuorumBps
  treasuryQuorumBps := g.readConfigU32 .treasuryQuorumBps
  simpleMajorityBps := g.readConfigU32 .simpleMajorityBps
  emergencyPauseBps := g.readConfigU32 .emergencyPauseBps

def setProposal (proposalId : U64) (p : Proposal) : GovernanceStorage :=
  { g with proposal := update g.proposal proposalId p }

/-- `require_valid_proposal_id` -/
def ValidId (proposalId : U64) : Prop := proposalId ≠ 0 ∧ proposalId ≤ g.proposalCount

instance : DecidablePred g.ValidId := fun _ => inferInstanceAs (Decidable (_ ∧ _))

end GovernanceStorage

/-! ### Activation -/

/-- The threshold of `compute_and_set_quorum`: a share of the supply for the two types
weighted by balance, a number of validators for the others. -/
def GovernanceConfig.quorum (c : GovernanceConfig) (validatorCount : U64) : ProposalType → U128
  | .treasurySpend => c.treasuryQuorum
  | .complianceUpdate => c.supplyQuorum
  | .emergencyPause =>
    if validatorCount = 0 then 0 else (c.emergencyPauseThreshold validatorCount).setWidth 128
  | .parameterChange | .protocolUpgrade | .validatorSlash | .feeCurrencyAdd | .feeCurrencyRemove
  | .feeCurrencyCap | .validatorKeyRotation | .proverKeyRotation | .unsupported _ =>
    if validatorCount = 0 then 0 else (c.validatorQuorum validatorCount).setWidth 128

namespace State

variable (s : State)

def setProposal (proposalId : U64) (p : Proposal) : State :=
  { s with gov := s.gov.setProposal proposalId p }

def computeAndSetQuorum (proposalId : U64) : State :=
  let gov := s.gov.ensureConfigInitialized
  let p := gov.proposal proposalId
  { s with gov := gov.setProposal proposalId { p with
      quorumRequired :=
        gov.governanceConfig.quorum s.validators.validatorCount p.proposalType } }

/-- How `vote` and `queue` open a proposal whose review is over. -/
def autoAdvance (proposalId : U64) (currentBlock : U64) : State :=
  let p := s.gov.proposal proposalId
  if p.status = .pending ∧ p.startBlock ≤ currentBlock then
    (s.setProposal proposalId { p with status := .active }).computeAndSetQuorum proposalId
  else s

def markDefeated (proposalId : U64) : State :=
  let p := s.gov.proposal proposalId
  s.setProposal proposalId { p with
    deposit := if p.proposer ≠ 0 then 0 else p.deposit
    status := .defeated }

end State

/-! ### `submit_proposal` -/

/-- The bytes `from..to` of the execution data, as a number. -/
def field (data : Bytes) (start stop : ℕ) : ℕ := beValue ((data.drop start).take (stop - start))

/-- The check of the execution data at submission: only a slash has one. -/
def checkExecutionData (executionData : Bytes) : ProposalType → Except PrecompileError Unit
  | .validatorSlash =>
    if executionData.length < 64 then
      .error (.other "governance: ValidatorSlash execution data too short")
    else if field executionData 48 64 = 0 then
      .error (.other "governance: ValidatorSlash amount must be non-zero")
    else .ok ()
  | .parameterChange | .protocolUpgrade | .treasurySpend | .complianceUpdate | .emergencyPause
  | .feeCurrencyAdd | .feeCurrencyRemove | .feeCurrencyCap | .validatorKeyRotation
  | .proverKeyRotation | .unsupported _ => .ok ()

def ProposalType.supported : ProposalType → Bool
  | .unsupported _ => false
  | .parameterChange | .protocolUpgrade | .treasurySpend | .validatorSlash | .complianceUpdate
  | .emergencyPause | .feeCurrencyAdd | .feeCurrencyRemove | .feeCurrencyCap
  | .validatorKeyRotation | .proverKeyRotation => true

namespace State

/-- The proposal as `submit_proposal` writes it. The blocks of queueing and execution
are not written, so a slot keeps what it had. -/
def submitted (s : State) (proposalType : ProposalType) (executionData : Bytes)
    (proposer : Address) (currentBlock : U64) : Proposal :=
  let reviewPeriod := s.gov.readConfigU64 .reviewPeriod
  let startBlock := currentBlock + reviewPeriod
  { s.gov.proposal (s.gov.proposalCount + 1) with
    proposer := proposer
    executionData := executionData
    status := if reviewPeriod = 0 then .active else .pending
    votesFor := 0
    votesAgainst := 0
    votesAbstain := 0
    deposit := proposalDeposit
    startBlock := startBlock
    endBlock := startBlock + s.gov.readConfigU64 .votingPeriod
    proposalType := proposalType
    reviewEnd := startBlock
    quorumRequired := 0 }

/-- The writes of `submit_proposal`: the proposal, its quorum if there is no
review, and the block of the submission. -/
def recordProposal (s : State) (proposalType : ProposalType) (executionData : Bytes)
    (proposer : Address) (currentBlock : U64) : State :=
  let proposalId := s.gov.proposalCount + 1
  let s₁ : State := { s with gov := { s.gov.setProposal proposalId
    (s.submitted proposalType executionData proposer currentBlock) with
      proposalCount := proposalId } }
  let s₂ := if s.gov.readConfigU64 .reviewPeriod = 0
    then s₁.computeAndSetQuorum proposalId else s₁
  { s₂ with gov := { s₂.gov with
    lastSubmission := update s₂.gov.lastSubmission proposer currentBlock } }

def submitProposal (s : State) (proposalType : ProposalType) (executionData : Bytes)
    (proposer : Address) (currentBlock : U64) : State × Except PrecompileError U64 :=
  let s : State := { s with gov := s.gov.ensureConfigInitialized }
  let lastSubmit := s.gov.lastSubmission proposer
  let reviewPeriod := s.gov.readConfigU64 .reviewPeriod
  let votingPeriod := s.gov.readConfigU64 .votingPeriod
  if ¬ proposalType.supported then
    (s, .error (.other "governance: unsupported proposal type"))
  else if 0 < lastSubmit ∧
      currentBlock.toNat - lastSubmit.toNat < s.gov.proposalCooldown.toNat then
    (s, .error (.other "governance: proposal rate limited"))
  else match checkExecutionData executionData proposalType with
  | .error e => (s, .error e)
  | .ok () =>
    match s.assets.deductBalance callAssetId proposer proposalDeposit with
    | .error _ => (s, .error (.other "governance: insufficient balance for proposal deposit"))
    | .ok assets =>
      let s : State := { s with assets := assets }
      if 2 ^ 64 ≤ currentBlock.toNat + reviewPeriod.toNat then
        (s, .error (.other "governance: start_block overflow"))
      else if 2 ^ 64 ≤ currentBlock.toNat + reviewPeriod.toNat + votingPeriod.toNat then
        (s, .error (.other "governance: end_block overflow"))
      else
        (s.recordProposal proposalType executionData proposer currentBlock,
          .ok (s.gov.proposalCount + 1))

/-! ### `vote`, `queue`, `cancel_proposal` -/

end State

/-- The tally of a vote; the sums saturate. -/
def Proposal.tallied (p : Proposal) (voteVal : U8) (votingPower : U128) : Proposal :=
  if voteVal = 1 then { p with votesFor := U128.saturatingAdd p.votesFor votingPower }
  else if voteVal = 2 then
    { p with votesAgainst := U128.saturatingAdd p.votesAgainst votingPower }
  else { p with votesAbstain := U128.saturatingAdd p.votesAbstain votingPower }

section Tallied

variable (p : Proposal) (voteVal : U8) (votingPower : U128)

@[simp] theorem tallied_status : (p.tallied voteVal votingPower).status = p.status := by
  unfold Proposal.tallied
  split_ifs <;> rfl

@[simp] theorem tallied_endBlock : (p.tallied voteVal votingPower).endBlock = p.endBlock := by
  unfold Proposal.tallied
  split_ifs <;> rfl

@[simp] theorem tallied_proposalType :
    (p.tallied voteVal votingPower).proposalType = p.proposalType := by
  unfold Proposal.tallied
  split_ifs <;> rfl

@[simp] theorem tallied_deposit : (p.tallied voteVal votingPower).deposit = p.deposit := by
  unfold Proposal.tallied
  split_ifs <;> rfl

end Tallied

def GovernanceStorage.recordVote (g : GovernanceStorage) (proposalId : U64) (voteVal : U8)
    (voter : Address) (votingPower : U128) : GovernanceStorage :=
  { g.setProposal proposalId ((g.proposal proposalId).tallied voteVal votingPower) with
    voter := update g.voter proposalId
      (update (g.voter proposalId) voter votingPower)
    voterVote := update g.voterVote proposalId
      (update (g.voterVote proposalId) voter voteVal) }

namespace State

variable (s : State)

def vote (proposalId : U64) (voteVal : U8) (voter : Address) (votingPower : U128)
    (currentBlock : U64) : State × Except PrecompileError Unit :=
  if voteVal < 1 ∨ 3 < voteVal then (s, .error (.other "governance: invalid vote value"))
  else if s.gov.paused then (s, .error (.other "governance: chain is paused"))
  else if ¬ s.gov.ValidId proposalId then
    (s, .error (.other "governance: invalid proposal id"))
  else
    let s := s.autoAdvance proposalId currentBlock
    let p := s.gov.proposal proposalId
    if p.status ≠ .active then (s, .error (.other "governance: proposal not active"))
    else if currentBlock < p.startBlock then
      (s, .error (.other "governance: voting not started"))
    else if p.endBlock ≤ currentBlock then
      (s, .error (.other "governance: voting period closed"))
    else if s.gov.voter proposalId voter ≠ 0 then
      (s, .error (.other "governance: already voted"))
    else if votingPower = 0 then (s, .error (.other "governance: no voting power"))
    else ({ s with gov := s.gov.recordVote proposalId voteVal voter votingPower }, .ok ())

end State

def saturatingMul (a b : U128) : U128 :=
  if a.toNat * b.toNat < 2 ^ 128 then a * b else BitVec.allOnes 128

theorem saturatingAdd_toNat (a b : U128) :
    (U128.saturatingAdd a b).toNat = min (a.toNat + b.toNat) (2 ^ 128 - 1) := by
  unfold U128.saturatingAdd
  split_ifs with h
  · rw [BitVec.toNat_add, Nat.mod_eq_of_lt h]
    omega
  · rw [BitVec.toNat_allOnes]
    omega

theorem saturatingMul_toNat (a b : U128) :
    (saturatingMul a b).toNat = min (a.toNat * b.toNat) (2 ^ 128 - 1) := by
  unfold saturatingMul
  split_ifs with h
  · rw [BitVec.toNat_mul]
    omega
  · rw [BitVec.toNat_allOnes]
    omega

/-- The quorum check of `queue`; without a stored quorum every validator
counts, or one vote if there is none. -/
def Proposal.hasQuorum (p : Proposal) (validatorCount : U64) : Bool :=
  let totalVotes := U128.saturatingAdd (U128.saturatingAdd p.votesFor p.votesAgainst)
    p.votesAbstain
  if 0 < p.quorumRequired then p.quorumRequired ≤ totalVotes
  else
    let fallbackThreshold : U128 := if 0 < validatorCount then validatorCount.setWidth 128 else 1
    fallbackThreshold ≤ totalVotes ∧ p.votesAgainst < p.votesFor

/-- The majority check of `queue`. -/
def Proposal.hasMajority (p : Proposal) (simpleMajorityBps : BitVec 32) : Bool :=
  let participation := U128.saturatingAdd p.votesFor p.votesAgainst
  participation ≠ 0 ∧ saturatingMul participation (simpleMajorityBps.setWidth 128) <
    saturatingMul p.votesFor 10000

/-- The proposal as it is queued; a pause skips the timelock. -/
def Proposal.enqueued (p : Proposal) (currentBlock timelock : U64) : Proposal :=
  { p with
    status := .queued
    queuedAt := currentBlock
    executionBlock :=
      if p.proposalType = .emergencyPause then currentBlock else currentBlock + timelock }

namespace State

variable (s : State)

def queue (proposalId : U64) (currentBlock : U64) : State × Except PrecompileError Unit :=
  if s.gov.paused then (s, .error (.other "governance: chain is paused"))
  else if ¬ s.gov.ValidId proposalId then
    (s, .error (.other "governance: invalid proposal id"))
  else
    let s := s.autoAdvance proposalId currentBlock
    let p := s.gov.proposal proposalId
    if p.status ≠ .active then (s, .error (.other "governance: proposal not active"))
    else if ¬ p.hasQuorum s.validators.validatorCount then
      (s.markDefeated proposalId, .error (.other "governance: quorum not reached"))
    else if ¬ p.hasMajority (s.gov.bpsOr .simpleMajorityBps 5001) then
      (s.markDefeated proposalId, .error (.other "governance: not enough for votes"))
    else if p.proposalType ≠ .emergencyPause ∧
        2 ^ 64 ≤ currentBlock.toNat + s.gov.timelock.toNat then
      (s, .error (.other "governance: timelock block overflow"))
    else (s.setProposal proposalId (p.enqueued currentBlock s.gov.timelock), .ok ())

def refund (proposalId : U64) (reason : String) : State × Except PrecompileError Unit :=
  let p := s.gov.proposal proposalId
  if 0 < p.deposit ∧ p.proposer ≠ 0 then
    match s.assets.addBalance callAssetId p.proposer p.deposit with
    | .error _ => (s, .error (.other reason))
    | .ok assets =>
      ({ s with assets := assets }.setProposal proposalId { p with deposit := 0 }, .ok ())
  else (s, .ok ())

def setStatus (proposalId : U64) (status : Status) : State :=
  s.setProposal proposalId { s.gov.proposal proposalId with status := status }

def cancelProposal (proposalId : U64) (caller : Address) :
    State × Except PrecompileError Unit :=
  let p := s.gov.proposal proposalId
  if s.gov.paused then (s, .error (.other "governance: chain is paused"))
  else if ¬ s.gov.ValidId proposalId then
    (s, .error (.other "governance: invalid proposal id"))
  else if caller ≠ p.proposer then
    (s, .error (.other "governance: only proposer can cancel"))
  else if p.status ≠ .pending then
    (s, .error (.other "governance: can only cancel during review period"))
  else match s.refund proposalId "governance: refund failed" with
  | (s, .error e) => (s, .error e)
  | (s, .ok ()) => (s.setStatus proposalId .defeated, .ok ())

end State

/-! ### What the operations do -/

namespace GovernanceStorage

variable (g : GovernanceStorage) (pid : U64)

theorem ensureConfigInitialized_eq : ∃ config initialized,
    g.ensureConfigInitialized = { g with config := config, configInitialized := initialized } := by
  refine ⟨g.ensureConfigInitialized.config, g.ensureConfigInitialized.configInitialized, ?_⟩
  unfold ensureConfigInitialized
  split_ifs
  · rfl
  · simp only [writeConfigU32, writeConfigU128]

@[simp] theorem ensureConfigInitialized_proposal :
    g.ensureConfigInitialized.proposal = g.proposal := by
  obtain ⟨config, initialized, h⟩ := g.ensureConfigInitialized_eq
  rw [h]

@[simp] theorem ensureConfigInitialized_proposalCount :
    g.ensureConfigInitialized.proposalCount = g.proposalCount := by
  obtain ⟨config, initialized, h⟩ := g.ensureConfigInitialized_eq
  rw [h]

theorem ensureConfigInitialized_idem :
    g.ensureConfigInitialized.ensureConfigInitialized = g.ensureConfigInitialized := by
  have hi : g.ensureConfigInitialized.configInitialized = true := by
    unfold ensureConfigInitialized
    split_ifs with h
    · exact h
    · rfl
  rw [ensureConfigInitialized, if_pos hi]

variable (p : Proposal)

theorem ensureConfigInitialized_setProposal : (g.setProposal pid p).ensureConfigInitialized =
      g.ensureConfigInitialized.setProposal pid p := by
  unfold ensureConfigInitialized
  by_cases hi : g.configInitialized
  · rw [if_pos hi, if_pos (show (g.setProposal pid p).configInitialized from hi)]
  · rw [if_neg hi, if_neg (show ¬ (g.setProposal pid p).configInitialized from hi)]
    rfl

@[simp] theorem setProposal_self : (g.setProposal pid p).proposal pid = p := update_self ..

theorem setProposal_of_ne {i : U64} (hi : i ≠ pid) :
    (g.setProposal pid p).proposal i = g.proposal i := update_of_ne hi ..

theorem ensureConfigInitialized_config {suffix : Bytes}
    (h : ∀ param ∈ [Param.validatorQuorumBps, .supplyQuorumBps, .treasuryQuorumBps,
      .simpleMajorityBps, .emergencyPauseBps], suffix ≠ param.suffix) :
    g.ensureConfigInitialized.config suffix = g.config suffix := by
  simp only [List.forall_mem_cons] at h
  obtain ⟨h₁, h₂, h₃, h₄, h₅, -⟩ := h
  unfold ensureConfigInitialized
  split_ifs
  · rfl
  · simp only [writeConfigU32, writeConfigU128]
    rw [update_of_ne h₅, update_of_ne h₄, update_of_ne h₃, update_of_ne h₂, update_of_ne h₁]

theorem ensureConfigInitialized_timelock : g.ensureConfigInitialized.timelock = g.timelock := by
  have h : g.ensureConfigInitialized.config Param.timelock.suffix =
      g.config Param.timelock.suffix := g.ensureConfigInitialized_config (by decide)
  unfold timelock periodOr readConfigU64
  rw [h]

end GovernanceStorage

namespace State

variable {s t : State} {pid : U64} {now : U64}

def opened (s : State) (proposalId : U64) : Proposal :=
  { s.gov.proposal proposalId with
    status := .active
    quorumRequired := s.gov.ensureConfigInitialized.governanceConfig.quorum
      s.validators.validatorCount (s.gov.proposal proposalId).proposalType }

theorem autoAdvance_cases (s : State) (pid now : U64) :
    s.autoAdvance pid now = s ∨ (s.gov.proposal pid).status = .pending ∧
        (s.gov.proposal pid).startBlock ≤ now ∧ s.autoAdvance pid now = { s with
            gov := s.gov.ensureConfigInitialized.setProposal pid (s.opened pid) } := by
  unfold autoAdvance
  dsimp only
  split_ifs with h
  · refine .inr ⟨h.1, h.2, ?_⟩
    unfold computeAndSetQuorum
    dsimp only [setProposal]
    rw [GovernanceStorage.ensureConfigInitialized_setProposal, GovernanceStorage.setProposal_self]
    simp only [GovernanceStorage.setProposal, update_idem]
    rfl
  · exact .inl rfl

theorem autoAdvance_gov (s : State) (pid now : U64) :
    ∃ p config initialized, s.autoAdvance pid now = { s with
        gov := { s.gov.setProposal pid p with
          config := config, configInitialized := initialized } } := by
  rcases s.autoAdvance_cases pid now with h | ⟨-, -, h⟩
  · refine ⟨s.gov.proposal pid, s.gov.config, s.gov.configInitialized, ?_⟩
    rw [h, GovernanceStorage.setProposal, update_eq_self]
  · obtain ⟨config, initialized, hg⟩ := s.gov.ensureConfigInitialized_eq
    exact ⟨_, config, initialized, by rw [h, hg]; rfl⟩

theorem vote_eq_ok {voteVal : U8} {voter : Address} {votingPower : U128} {u : Unit}
    (h : s.vote pid voteVal voter votingPower now = (t, .ok u)) : let o := s.autoAdvance pid now
    s.gov.paused = false ∧ s.gov.ValidId pid ∧ (o.gov.proposal pid).status = .active ∧
      now < (o.gov.proposal pid).endBlock ∧
      o.gov.voter pid voter = 0 ∧ votingPower ≠ 0 ∧
      t = { o with gov := o.gov.recordVote pid voteVal voter votingPower } := by
  unfold vote at h
  rw [ite_failed_eq_ok, ite_failed_eq_ok, ite_failed_eq_ok] at h
  obtain ⟨-, hp, hid, h⟩ := h
  rw [ite_failed_eq_ok, ite_failed_eq_ok, ite_failed_eq_ok, ite_failed_eq_ok, ite_failed_eq_ok] at h
  obtain ⟨hact, -, hend, hvot, hpow, h⟩ := h
  exact ⟨eq_false_of_ne_true hp, not_not.1 hid, not_not.1 hact, BitVec.not_le.1 hend,
    not_not.1 hvot, hpow, (congrArg Prod.fst h).symm⟩

theorem queue_eq_ok {u : Unit} (h : s.queue pid now = (t, .ok u)) :
    let o := s.autoAdvance pid now
    let p := o.gov.proposal pid
    s.gov.paused = false ∧ s.gov.ValidId pid ∧ p.status = .active ∧
      p.hasQuorum s.validators.validatorCount = true ∧
      p.hasMajority (o.gov.bpsOr .simpleMajorityBps 5001) = true ∧
      (p.proposalType ≠ .emergencyPause → now.toNat + s.gov.timelock.toNat < 2 ^ 64) ∧
      t = o.setProposal pid (p.enqueued now s.gov.timelock) := by
  have htim : (s.autoAdvance pid now).gov.timelock = s.gov.timelock := by
    rcases s.autoAdvance_cases pid now with h | ⟨-, -, h⟩
    · rw [h]
    · rw [h]
      exact s.gov.ensureConfigInitialized_timelock
  have hval : (s.autoAdvance pid now).validators = s.validators := by
    obtain ⟨p, config, initialized, h⟩ := s.autoAdvance_gov pid now
    rw [h]
  unfold queue at h
  rw [ite_failed_eq_ok, ite_failed_eq_ok] at h
  obtain ⟨hp, hid, h⟩ := h
  rw [ite_failed_eq_ok, ite_failed_eq_ok, ite_failed_eq_ok, ite_failed_eq_ok, htim, hval] at h
  obtain ⟨hact, hquo, hmaj, hlt, h⟩ := h
  refine ⟨eq_false_of_ne_true hp, not_not.1 hid, not_not.1 hact, not_not.1 hquo,
    not_not.1 hmaj, ?_, (congrArg Prod.fst h).symm⟩
  intro htype
  by_contra hge
  exact hlt ⟨htype, not_lt.1 hge⟩

/-- The quorum that `submit_proposal` stores: none before the review. -/
def submittedQuorum (s : State) (proposalType : ProposalType) : U128 :=
  if s.gov.readConfigU64 .reviewPeriod = 0
  then s.gov.ensureConfigInitialized.governanceConfig.quorum s.validators.validatorCount
    proposalType
  else 0

theorem recordProposal_gov (s : State) (kind : ProposalType) (data : Bytes)
    (proposer : Address) (now : U64) : ∃ config initialized lastSubmission,
      (config = s.gov.config ∨ config = s.gov.ensureConfigInitialized.config) ∧
      s.recordProposal kind data proposer now = { s with
          gov := { s.gov.setProposal (s.gov.proposalCount + 1)
              { s.submitted kind data proposer now with
                quorumRequired := s.submittedQuorum kind } with
            proposalCount := s.gov.proposalCount + 1
            config := config
            configInitialized := initialized
            lastSubmission := lastSubmission } } := by
  unfold recordProposal submittedQuorum
  dsimp only
  split_ifs with hrev
  · unfold computeAndSetQuorum
    set g := s.gov.setProposal (s.gov.proposalCount + 1)
      (s.submitted kind data proposer now) with hg
    have hcomm : ({ g with proposalCount := s.gov.proposalCount + 1 } :
        GovernanceStorage).ensureConfigInitialized =
          { s.gov.ensureConfigInitialized.setProposal (s.gov.proposalCount + 1)
              (s.submitted kind data proposer now) with
            proposalCount := s.gov.proposalCount + 1 } := by
      rw [← GovernanceStorage.ensureConfigInitialized_setProposal, ← hg]
      unfold GovernanceStorage.ensureConfigInitialized
      by_cases hi : g.configInitialized
      · rw [if_pos hi, if_pos hi]
      · rw [if_neg hi, if_neg hi]
        rfl
    obtain ⟨config, initialized, he⟩ := s.gov.ensureConfigInitialized_eq
    rw [hcomm, he]
    refine ⟨config, initialized, update s.gov.lastSubmission proposer now, .inr rfl, ?_⟩
    simp only [GovernanceStorage.setProposal, update_self, update_idem]
    rfl
  · exact ⟨s.gov.config, s.gov.configInitialized, _, .inl rfl, rfl⟩

theorem submitProposal_eq_ok {kind : ProposalType} {data : Bytes} {proposer : Address} {id : U64}
    (h : s.submitProposal kind data proposer now = (t, .ok id)) :
    ∃ assets, s.assets.deductBalance callAssetId proposer proposalDeposit = .ok assets ∧
      now.toNat + (s.gov.readConfigU64 .reviewPeriod).toNat +
        (s.gov.readConfigU64 .votingPeriod).toNat < 2 ^ 64 ∧
      t = ({ s with gov := s.gov.ensureConfigInitialized, assets := assets } :
        State).recordProposal kind data proposer now := by
  have hrev : s.gov.ensureConfigInitialized.readConfigU64 .reviewPeriod =
      s.gov.readConfigU64 .reviewPeriod := by
    unfold GovernanceStorage.readConfigU64
    rw [s.gov.ensureConfigInitialized_config (by decide)]
  have hvot : s.gov.ensureConfigInitialized.readConfigU64 .votingPeriod =
      s.gov.readConfigU64 .votingPeriod := by
    unfold GovernanceStorage.readConfigU64
    rw [s.gov.ensureConfigInitialized_config (by decide)]
  unfold submitProposal at h
  rw [ite_failed_eq_ok, ite_failed_eq_ok] at h
  obtain ⟨-, -, h⟩ := h
  split at h
  · cases h
  · split at h
    · cases h
    · rename_i assets hass
      rw [ite_failed_eq_ok, ite_failed_eq_ok, hrev, hvot] at h
      obtain ⟨-, hlt, h⟩ := h
      exact ⟨assets, hass, not_le.1 hlt, (congrArg Prod.fst h).symm⟩

theorem refund_cases (s : State) (pid : U64) (reason : String) :
    (¬ (0 < (s.gov.proposal pid).deposit ∧ (s.gov.proposal pid).proposer ≠ 0) ∧
      s.refund pid reason = (s, .ok ())) ∨
    ((0 < (s.gov.proposal pid).deposit ∧ (s.gov.proposal pid).proposer ≠ 0) ∧
      ((∃ assets, s.assets.addBalance callAssetId (s.gov.proposal pid).proposer
          (s.gov.proposal pid).deposit = .ok assets ∧
          s.refund pid reason = (({ s with assets := assets } : State).setProposal
            pid { s.gov.proposal pid with deposit := 0 }, .ok ())) ∨
        (∃ e, s.assets.addBalance callAssetId (s.gov.proposal pid).proposer
          (s.gov.proposal pid).deposit = .error e) ∧
          s.refund pid reason = (s, .error (.other reason)))) := by
  unfold refund
  dsimp only
  split_ifs with hdue
  · refine .inr ⟨hdue, ?_⟩
    cases hadd : s.assets.addBalance callAssetId (s.gov.proposal pid).proposer
        (s.gov.proposal pid).deposit with
    | error e => exact .inr ⟨⟨e, rfl⟩, rfl⟩
    | ok assets => exact .inl ⟨assets, rfl, rfl⟩
  · exact .inl ⟨hdue, rfl⟩

theorem cancelProposal_eq_ok {caller : Address} {u : Unit}
    (h : s.cancelProposal pid caller = (t, .ok u)) :
    s.gov.paused = false ∧ caller = (s.gov.proposal pid).proposer ∧
      (s.gov.proposal pid).status = .pending ∧
      ∃ r, s.refund pid "governance: refund failed" = (r, .ok ()) ∧
        t = r.setStatus pid .defeated := by
  unfold cancelProposal at h
  rw [ite_failed_eq_ok, ite_failed_eq_ok, ite_failed_eq_ok, ite_failed_eq_ok] at h
  obtain ⟨hp, -, hcal, hpen, h⟩ := h
  refine ⟨eq_false_of_ne_true hp, not_not.1 hcal, not_not.1 hpen, ?_⟩
  split at h
  · cases h
  · rename_i r hr
    exact ⟨r, hr, (congrArg Prod.fst h).symm⟩

end State

end Callchain.Governance

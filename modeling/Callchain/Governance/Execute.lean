/-
# Execution

`execute` reads the data of a queued proposal, whose layout its type fixes, applies the
change it asks for, refunds the deposit and marks the proposal as executed. One that is
past its timeout is marked as lapsed instead, and the call fails.
-/
import Callchain.Governance.Storage

namespace Callchain.Governance

open Asset Validator Precompile
open Function (update update_eq_self update_idem update_of_ne update_self)

def maxExecutionDataLen : ℕ := 1024 * 1024

/-- `read_proposal_execution_data`: data above the limit is not read. -/
def Proposal.readExecutionData (p : Proposal) : Bytes :=
  if maxExecutionDataLen < p.executionData.length then [] else p.executionData

theorem Proposal.readExecutionData_eq {p : Proposal} (h : 0 < p.readExecutionData.length) :
    p.readExecutionData = p.executionData := by
  unfold readExecutionData at h ⊢
  split_ifs at h ⊢
  · exact absurd h (Nat.lt_irrefl 0)
  · rfl

def treasuryAddress : Address := 0xAAAAAAAAAAAAAAAAAAAAAAAAAAAAAAAAAAAAAAAA

/-! ### The fields of the execution data -/

section Fields

variable (data : Bytes)

def addressField : Address := BitVec.ofNat 160 (field data 12 32)

def idField : U64 := BitVec.ofNat 64 (field data 24 32)

def amountField : U128 := BitVec.ofNat 128 (field data 48 64)

def wordField (i : ℕ) : B256 := BitVec.ofNat 256 (field data (32 * i) (32 * i + 32))

def byteField (offset : ℕ) : U8 := BitVec.ofNat 8 (field data offset (offset + 1))

def versionField : BitVec 32 := BitVec.ofNat 32 (field data 28 32)

end Fields

/-! ### `validate_config_param` -/

def checkRange (value : U128) (least : ℕ) (low : String) (most : ℕ) (high : String) :
    Option String :=
  if value.toNat < least then some low else if most < value.toNat then some high else none

def validateConfigParam (param : Param) (value : U128) : Option String :=
  match param with
  | .validatorQuorumBps | .supplyQuorumBps | .treasuryQuorumBps | .emergencyPauseBps =>
    checkRange value 1 "governance: bps below minimum safe threshold"
      10000 "governance: bps exceeds 100%"
  | .simpleMajorityBps =>
    checkRange value 5001 "governance: simple majority must exceed 50%"
      10000 "governance: bps exceeds 100%"
  | .reviewPeriod | .votingPeriod | .timelock | .executionTimeout =>
    checkRange value 0 "" 9223372036854775807 "governance: period exceeds safe maximum"
  | .proposalCooldown =>
    checkRange value 0 "" 10368000 "governance: cooldown exceeds safe maximum"

/-! ### The effects -/

namespace State

variable (s : State) (data : Bytes)

/-- An effect whose data has a least length. -/
def sized (kind : String) (length : ℕ) (effect : State × Except PrecompileError Unit) :
    State × Except PrecompileError Unit :=
  if data.length < length then
    (s, .error (.other ("governance: malformed " ++ kind ++ " execution data")))
  else effect

/-- The key of a `ParameterChange`: a string at the offset in the first word,
whose length stands before it. -/
def parameterKey : Option Bytes :=
  let stringOffset := field data 0 32 % 2 ^ 64
  let stringEnd := min (2 ^ 64 - 1) (stringOffset + 32)
  if data.length < stringEnd then none
  else
    let stringLen := field data stringOffset stringEnd % 2 ^ 64
    if data.length < min (2 ^ 64 - 1) (stringEnd + stringLen) then none
    else some ((data.drop (stringOffset + 32)).take stringLen)

/-- `ParameterChange`: ABI-encoded `(string configKey, uint128 newValue)` -/
def parameterChange : State × Except PrecompileError Unit :=
  s.sized data "ParameterChange" 128 <|
    match parameterKey data with
    | none => (s, .error (.other "governance: malformed ParameterChange execution data"))
    | some key =>
      if ¬ validUtf8 key then
        (s, .error (.other "governance: invalid UTF-8 in parameter key"))
      else match Param.all.find? (fun param => param.suffix = key) with
      | none => (s, .error (.other ("governance: disallowed parameter key: " ++
          (String.fromUTF8? ⟨key.toArray⟩).getD "")))
      | some param =>
        match validateConfigParam param (amountField data) with
        | some err => (s, .error (.other err))
        | none =>
          ({ s with gov := s.gov.writeConfigU128 param.suffix (amountField data) }, .ok ())

/-- `ProtocolUpgrade`: `(bytes32 newVersionHash)` -/
def protocolUpgrade : State × Except PrecompileError Unit :=
  s.sized data "ProtocolUpgrade" 32
    ({ s with gov := { s.gov with protocolUpgrade := wordField data 0 } }, .ok ())

/-- The asset of a `TreasurySpend`, CALL where the data does not name one. -/
def spendAssetId : U64 :=
  if 96 ≤ data.length then BitVec.ofNat 64 (field data 88 96) else callAssetId

/-- `TreasurySpend`: `(address recipient, uint128 amount, uint64 assetId)` -/
def treasurySpend : State × Except PrecompileError Unit :=
  let recipient := addressField data
  let amount := amountField data
  let assetId := spendAssetId data
  s.sized data "TreasurySpend" 64 <|
    if recipient = 0 then
      (s, .error (.other "governance: treasury spend recipient cannot be zero address"))
    else if amount = 0 then
      (s, .error (.other "governance: treasury spend amount must be non-zero"))
    else match s.assets.deductBalance assetId treasuryAddress amount with
    | .error _ => (s, .error (.other "governance: treasury insufficient balance"))
    | .ok assets =>
      match assets.addBalance assetId recipient amount with
      | .error _ =>
        ({ s with assets := assets }, .error (.other "governance: treasury spend credit failed"))
      | .ok assets => ({ s with assets := assets }, .ok ())

/-- `ValidatorSlash`: `(address validator, uint128 amount)` -/
def validatorSlash : State × Except PrecompileError Unit :=
  let validator := addressField data
  let current := s.validators.stake validator
  let newStake := if current < amountField data then 0 else current - amountField data
  s.sized data "ValidatorSlash" 64
    ({ s with validators := { s.validators with
      stake := update s.validators.stake validator newStake
      status := if newStake = 0 then update s.validators.status validator 0
        else s.validators.status } }, .ok ())

/-- `ComplianceUpdate`: `(address target, uint8 status)` -/
def complianceUpdate : State × Except PrecompileError Unit :=
  s.sized data "ComplianceUpdate" 64 <|
    if 1 < byteField data 63 then
      (s, .error (.other "governance: invalid compliance status (must be 0 or 1)"))
    else
      ({ s with compliance := { s.compliance with
        status := update s.compliance.status (addressField data)
          (byteField data 63) } }, .ok ())

def emergencyPauseEffect : State × Except PrecompileError Unit :=
  ({ s with gov := { s.gov with paused := true } }, .ok ())

def setFeeCurrency (accepted : Bool) : State :=
  { s with gov := { s.gov with
    feeCurrency := update s.gov.feeCurrency (idField data) accepted } }

/-- `FeeCurrencyAdd`: `(uint64 assetId)` -/
def feeCurrencyAdd : State × Except PrecompileError Unit :=
  s.sized data "FeeCurrencyAdd" 32 (s.setFeeCurrency data true, .ok ())

/-- `FeeCurrencyRemove`: `(uint64 assetId)` -/
def feeCurrencyRemove : State × Except PrecompileError Unit :=
  s.sized data "FeeCurrencyRemove" 32 (s.setFeeCurrency data false, .ok ())

/-- `FeeCurrencyCap`: `(uint64 assetId, uint128 cap)` -/
def feeCurrencyCap : State × Except PrecompileError Unit :=
  s.sized data "FeeCurrencyCap" 64
    ({ s with gov := { s.gov with
      feeCurrencyCap := update s.gov.feeCurrencyCap (idField data)
        (amountField data) } }, .ok ())

/-- `ValidatorKeyRotation`: `(uint64 validatorId, bytes32 oldPubkey, bytes32 newPubkey)` -/
def validatorKeyRotation : State × Except PrecompileError Unit :=
  s.sized data "ValidatorKeyRotation" 96 <|
    if wordField data 1 = 0 then (s, .error (.other "governance: old pubkey must be non-zero"))
    else if wordField data 2 = 0 then
      (s, .error (.other "governance: new pubkey must be non-zero"))
    else
      ({ s with gov := { s.gov with
        keyRotationOld := update s.gov.keyRotationOld (idField data) (wordField data 1)
        keyRotationNew := update s.gov.keyRotationNew (idField data)
          (wordField data 2) } }, .ok ())

/-- `ProverKeyRotation`: `(uint32 keyVersion, bytes32 transferVkHash, bytes32 depositVkHash,
bytes32 withdrawVkHash, uint64 sunsetTimestamp)` -/
def proverKeyRotation : State × Except PrecompileError Unit :=
  s.sized data "ProverKeyRotation" 160 <|
    if field data 152 160 = 0 then
      (s, .error (.other "governance: sunset timestamp must be non-zero"))
    else
      ({ s with gov := { s.gov with
        proverKeyRotation := { s.gov.proverKeyRotation with
          version := versionField data
          transferVkHash := wordField data 1
          depositVkHash := wordField data 2
          withdrawVkHash := wordField data 3
          sunsetTimestamp := BitVec.ofNat 64 (field data 152 160)
          pending := true } } }, .ok ())

def applyEffect : ProposalType → State × Except PrecompileError Unit
  | .parameterChange => s.parameterChange data
  | .protocolUpgrade => s.protocolUpgrade data
  | .treasurySpend => s.treasurySpend data
  | .validatorSlash => s.validatorSlash data
  | .complianceUpdate => s.complianceUpdate data
  | .emergencyPause => s.emergencyPauseEffect
  | .feeCurrencyAdd => s.feeCurrencyAdd data
  | .feeCurrencyRemove => s.feeCurrencyRemove data
  | .feeCurrencyCap => s.feeCurrencyCap data
  | .validatorKeyRotation => s.validatorKeyRotation data
  | .proverKeyRotation => s.proverKeyRotation data
  | .unsupported code =>
    (s, .error (.other ("governance: unsupported proposal type " ++ toString code.toNat)))

end State

/-- The block is past `execution_block.saturating_add(execution_timeout)`. -/
def Proposal.TimedOut (p : Proposal) (executionTimeout currentBlock : U64) : Prop :=
  min (2 ^ 64 - 1) (p.executionBlock.toNat + executionTimeout.toNat) < currentBlock.toNat

instance (p : Proposal) (executionTimeout currentBlock : U64) :
    Decidable (p.TimedOut executionTimeout currentBlock) :=
  inferInstanceAs (Decidable (_ < _))

namespace State

variable (s : State)

/-- What `execute` does with a proposal whose timelock is over: its effect, the
refund and the status. -/
def carryOut (proposalId : U64) : State × Except PrecompileError Unit :=
  let p := s.gov.proposal proposalId
  match s.applyEffect p.readExecutionData p.proposalType with
  | (s, .error e) => (s, .error e)
  | (s, .ok ()) =>
    match s.refund proposalId "governance: refund failed" with
    | (s, .error e) => (s, .error e)
    | (s, .ok ()) => (s.setStatus proposalId .executed, .ok ())

def lapse (proposalId : U64) : State × Except PrecompileError Unit :=
  match (s.setStatus proposalId .lapsed).refund proposalId "governance: deposit refund failed" with
  | (s, .error e) => (s, .error e)
  | (s, .ok ()) => (s, .error (.other "governance: execution timeout reached"))

def execute (proposalId : U64) (currentBlock : U64) : State × Except PrecompileError Unit :=
  let p := s.gov.proposal proposalId
  if ¬ s.gov.ValidId proposalId then
    (s, .error (.other "governance: invalid proposal id"))
  else if s.gov.paused ∧ p.proposalType ≠ .emergencyPause then
    (s, .error (.other "governance: chain is paused"))
  else if p.status ≠ .queued then (s, .error (.other "governance: proposal not queued"))
  else if currentBlock < p.executionBlock then
    (s, .error (.other "governance: timelock not elapsed"))
  else if p.TimedOut s.gov.executionTimeout currentBlock then s.lapse proposalId
  else s.carryOut proposalId

/-! ### What an execution leaves alone -/

variable {s} {t : State} {pid now : U64} {data : Bytes}

structure SameTables (s t : State) : Prop where
  proposal : t.gov.proposal = s.gov.proposal
  votes : t.gov.votes = s.gov.votes
  proposalCount : t.gov.proposalCount = s.gov.proposalCount

theorem SameTables.rfl : SameTables s s := ⟨Eq.refl _, Eq.refl _, Eq.refl _⟩

/-- What an effect leaves of governance: the tables, the signatures and, but for
a pause, the flag. -/
structure Kept (proposalType : ProposalType) (g g' : GovernanceStorage) : Prop where
  proposal : g'.proposal = g.proposal
  votes : g'.votes = g.votes
  proposalCount : g'.proposalCount = g.proposalCount
  pauseSigs : g'.pauseSigs = g.pauseSigs
  resumeSigs : g'.resumeSigs = g.resumeSigs
  paused : g'.paused = g.paused ∨ proposalType = .emergencyPause ∧ g'.paused = true

variable {proposalType : ProposalType} {u : Unit} {p : Proposal}

theorem Kept.rfl {g : GovernanceStorage} : Kept proposalType g g :=
  ⟨Eq.refl _, Eq.refl _, Eq.refl _, Eq.refl _, Eq.refl _, .inl (Eq.refl _)⟩

/-- An effect may have written balances where it is a spend, the storage of other
precompiles, and what it may write of governance. -/
structure Effected (proposalType : ProposalType) (s t : State) : Prop where
  gov : Kept proposalType s.gov t.gov
  assets : proposalType ≠ .treasurySpend → t.assets = s.assets

theorem Effected.rfl : Effected proposalType s s := ⟨.rfl, fun _ => Eq.refl _⟩

theorem Effected.of_gov (h : Kept proposalType s.gov t.gov)
    (ha : t.assets = s.assets) : Effected proposalType s t :=
  ⟨h, fun _ => ha⟩

theorem effected_sized {kind : String} {length : ℕ}
    {effect : State × Except PrecompileError Unit} (h : Effected proposalType s effect.1) :
    Effected proposalType s (s.sized data kind length effect).1 := by
  unfold sized
  split_ifs
  · exact .rfl
  · exact h

theorem effected_parameterChange : Effected .parameterChange s (s.parameterChange data).1 := by
  refine effected_sized ?_
  split
  · exact .rfl
  · split_ifs
    · split
      · exact .rfl
      · split
        · exact .rfl
        · exact .of_gov ⟨Eq.refl _, Eq.refl _, Eq.refl _, Eq.refl _, Eq.refl _, .inl (Eq.refl _)⟩
            (Eq.refl _)
    · exact .rfl

theorem effected_treasurySpend : Effected .treasurySpend s (s.treasurySpend data).1 := by
  refine effected_sized ?_
  split_ifs
  · exact .rfl
  · exact .rfl
  · split
    · exact .rfl
    · split <;> exact ⟨.rfl, fun h => absurd (Eq.refl _) h⟩

theorem effected_applyEffect (s : State) (data : Bytes) (kind : ProposalType) :
    Effected kind s (s.applyEffect data kind).1 := by
  cases kind with
  | parameterChange => exact effected_parameterChange
  | treasurySpend => exact effected_treasurySpend
  | validatorSlash => exact effected_sized (.of_gov .rfl rfl)
  | complianceUpdate =>
    refine effected_sized ?_
    split_ifs <;> exact .of_gov .rfl rfl
  | emergencyPause => exact .of_gov ⟨rfl, rfl, rfl, rfl, rfl, .inr ⟨rfl, rfl⟩⟩ rfl
  | validatorKeyRotation | proverKeyRotation =>
    refine effected_sized ?_
    split_ifs <;> exact .of_gov ⟨rfl, rfl, rfl, rfl, rfl, .inl rfl⟩ rfl
  | unsupported => exact .rfl
  | _ => exact effected_sized (.of_gov ⟨rfl, rfl, rfl, rfl, rfl, .inl rfl⟩ rfl)

theorem Effected.sameTables (h : Effected proposalType s t) : SameTables s t :=
  ⟨h.gov.proposal, h.gov.votes, h.gov.proposalCount⟩

theorem sameTables_applyEffect (s : State) (data : Bytes) (kind : ProposalType) :
    SameTables s (s.applyEffect data kind).1 :=
  (s.effected_applyEffect data kind).sameTables

theorem treasurySpend_eq_ok : s.treasurySpend data = (t, .ok u) ↔
    64 ≤ data.length ∧ addressField data ≠ 0 ∧ amountField data ≠ 0 ∧
      ∃ a, s.assets.deductBalance (spendAssetId data) treasuryAddress (amountField data) = .ok a ∧
        a.addBalance (spendAssetId data) (addressField data) (amountField data) = .ok t.assets ∧
        t = { s with assets := t.assets } := by
  unfold treasurySpend
  unfold sized
  rw [ite_failed_eq_ok, ite_failed_eq_ok, ite_failed_eq_ok, not_lt]
  refine and_congr_right' (and_congr_right' (and_congr_right' ?_))
  constructor
  · intro h
    split at h
    · cases h
    · rename_i a ha
      split at h
      · cases h
      · rename_i a' ha'
        obtain ⟨rfl, -⟩ := Prod.mk.inj h
        exact ⟨a, ha, ha', rfl⟩
  · rintro ⟨a, ha, ha', ht⟩
    rw [ha]
    dsimp only
    rw [ha', ht]

theorem applyEffect_assets (s : State) (data : Bytes) (h : proposalType ≠ .treasurySpend) :
    (s.applyEffect data proposalType).1.assets = s.assets :=
  (s.effected_applyEffect data proposalType).assets h

structure Wrote (s t : State) (proposalId : U64) (p : Proposal) : Prop where
  proposal : t.gov.proposal = update s.gov.proposal proposalId p
  votes : t.gov.votes = s.gov.votes
  proposalCount : t.gov.proposalCount = s.gov.proposalCount

theorem wrote_setProposal (s : State) (pid : U64) (p : Proposal) :
    Wrote s (s.setProposal pid p) pid p := ⟨rfl, rfl, rfl⟩

theorem Wrote.voter (h : Wrote s t pid p) : t.gov.voter = s.gov.voter := voter_of_votes h.votes

theorem Wrote.self (h : Wrote s t pid p) : t.gov.proposal pid = p := by
  rw [h.proposal, update_self]

theorem Wrote.of_ne {i : U64} (h : Wrote s t pid p) (hi : i ≠ pid) :
    t.gov.proposal i = s.gov.proposal i := by
  rw [h.proposal, update_of_ne hi]

theorem Wrote.trans {r : State} {q : Proposal} (h : Wrote s t pid p)
    (h' : Wrote t r pid q) : Wrote s r pid q where
  proposal := by rw [h'.proposal, h.proposal, update_idem]
  votes := h'.votes.trans h.votes
  proposalCount := h'.proposalCount.trans h.proposalCount

theorem Wrote.setStatus (h : Wrote s t pid p) (status : Status) :
    Wrote s (t.setStatus pid status) pid { p with status := status } := by
  have hset := wrote_setProposal t pid { p with status := status }
  unfold State.setStatus
  rw [h.self]
  exact h.trans hset

theorem SameTables.wrote {r : State} (h : SameTables s t)
    (h' : Wrote t r pid p) : Wrote s r pid p where
  proposal := by rw [h'.proposal, h.proposal]
  votes := h'.votes.trans h.votes
  proposalCount := h'.proposalCount.trans h.proposalCount

theorem SameTables.toWrote (h : SameTables s t) (pid : U64) :
    Wrote s t pid (s.gov.proposal pid) where
  proposal := by rw [h.proposal, update_eq_self]
  votes := h.votes
  proposalCount := h.proposalCount

theorem refund_wrote (s : State) (pid : U64) (reason : String) :
    ∃ deposit, Wrote s (s.refund pid reason).1 pid
      { s.gov.proposal pid with deposit := deposit } := by
  rcases s.refund_cases pid reason with ⟨-, h⟩ | ⟨-, ⟨assets, -, h⟩ | ⟨-, h⟩⟩
  · rw [h]
    exact ⟨_, SameTables.rfl.toWrote pid⟩
  · rw [h]
    exact ⟨0, ⟨rfl, rfl, rfl⟩⟩
  · rw [h]
    exact ⟨_, SameTables.rfl.toWrote pid⟩

theorem cancelProposal_wrote {caller : Address} (h : s.cancelProposal pid caller = (t, .ok u)) :
    ∃ deposit, Wrote s t pid
      { s.gov.proposal pid with deposit := deposit, status := .defeated } := by
  obtain ⟨-, -, -, r, hr, rfl⟩ := cancelProposal_eq_ok h
  obtain ⟨deposit, hwro⟩ := s.refund_wrote pid "governance: refund failed"
  rw [hr] at hwro
  exact ⟨deposit, hwro.setStatus .defeated⟩

theorem carryOut_eq_ok (h : s.carryOut pid = (t, .ok u)) :
    ∃ e r, s.applyEffect (s.gov.proposal pid).readExecutionData
        (s.gov.proposal pid).proposalType = (e, .ok ()) ∧
      e.refund pid "governance: refund failed" = (r, .ok ()) ∧ t = r.setStatus pid .executed := by
  unfold carryOut at h
  dsimp only at h
  split at h
  · cases h
  · rename_i e he
    split at h
    · cases h
    · rename_i r hr
      exact ⟨e, r, he, hr, (congrArg Prod.fst h).symm⟩

theorem carryOut_wrote (h : s.carryOut pid = (t, .ok u)) : ∃ deposit, Wrote s t pid
      { s.gov.proposal pid with deposit := deposit, status := .executed } := by
  obtain ⟨e, r, he, hr, rfl⟩ := carryOut_eq_ok h
  have hsame := s.sameTables_applyEffect (s.gov.proposal pid).readExecutionData
    (s.gov.proposal pid).proposalType
  rw [he] at hsame
  obtain ⟨deposit, hwro⟩ := e.refund_wrote pid "governance: refund failed"
  rw [hr, hsame.proposal] at hwro
  exact ⟨deposit, hsame.wrote (hwro.setStatus .executed)⟩

theorem execute_eq_ok (h : s.execute pid now = (t, .ok u)) :
    (s.gov.paused = true → (s.gov.proposal pid).proposalType = .emergencyPause) ∧
      (s.gov.proposal pid).status = .queued ∧ (s.gov.proposal pid).executionBlock ≤ now ∧
      ¬ (s.gov.proposal pid).TimedOut s.gov.executionTimeout now ∧ s.carryOut pid = (t, .ok u) := by
  unfold execute at h
  rw [ite_failed_eq_ok, ite_failed_eq_ok, ite_failed_eq_ok, ite_failed_eq_ok] at h
  obtain ⟨-, hpau, hque, hblo, h⟩ := h
  have hunp : s.gov.paused = true → (s.gov.proposal pid).proposalType = .emergencyPause := by
    intro hp
    by_contra htype
    exact hpau ⟨hp, htype⟩
  split_ifs at h with hlate
  · unfold lapse at h
    split at h <;> cases h
  · exact ⟨hunp, not_not.1 hque, BitVec.not_lt.1 hblo, hlate, h⟩

end State

end Callchain.Governance

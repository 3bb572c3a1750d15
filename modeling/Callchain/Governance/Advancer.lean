/-
# The advancer

The node runs `GovernanceAdvancer::advance` for every block. It moves each proposal one
step on: it opens one whose review is over, queues or defeats one whose vote is over,
executes one whose timelock is over, and expires one that waited too long. It works on
the slots of the precompile with accessors and rules of its own.

The slice `execution_data[48..64]` of a `TreasurySpend` is taken after a check for 48
bytes only. Where it is out of bounds the node panics, and there is no state after it.
-/
import Callchain.Consensus.Writers
import Callchain.Governance.Execute
import Callchain.Lib.Sweep

namespace Callchain.Governance

open Asset Validator Consensus

/-! ### The shares as numbers -/

theorem bpsCeil_zero (bps : ℕ) : bpsCeil 0 bps = 0 := by
  unfold bpsCeil
  omega

theorem validators_toNat (n : U64) (bps : ℕ) :
    (if n = 0 then 0 else (BitVec.ofNat 64 (bpsCeil n.toNat bps)).setWidth 128 : U128).toNat =
      bpsCeil n.toNat bps % 2 ^ 64 := by
  split_ifs with hn
  · rw [hn]
    exact (congrArg (· % 2 ^ 64) (bpsCeil_zero bps)).symm
  · rw [BitVec.toNat_setWidth, BitVec.toNat_ofNat, Nat.mod_eq_of_lt (by omega)]

theorem supply_toNat (bps : BitVec 32) :
    (BitVec.ofNat 128 (totalSupply * bps.toNat / 10000)).toNat =
      totalSupply * bps.toNat / 10000 := by
  rw [BitVec.toNat_ofNat]
  unfold totalSupply
  omega

/-! ### The configuration of the advancer -/

/-- What `advance` reads before its loop. -/
structure AdvanceConfig where
  timelock : U64
  execTimeout : U64
  validatorQuorumBps : BitVec 32
  supplyQuorumBps : BitVec 32
  treasuryQuorumBps : BitVec 32
  simpleMajorityBps : BitVec 32
  emergencyPauseBps : BitVec 32
  totalValidators : U64

/-- The reads; the share for a pause is the validator quorum, without its
default. -/
def State.advanceConfig (s : State) : AdvanceConfig where
  timelock := s.gov.timelock
  execTimeout := s.gov.executionTimeout
  validatorQuorumBps := s.gov.bpsOr .validatorQuorumBps 6667
  supplyQuorumBps := s.gov.bpsOr .supplyQuorumBps 2000
  treasuryQuorumBps := s.gov.bpsOr .treasuryQuorumBps 2000
  simpleMajorityBps := s.gov.bpsOr .simpleMajorityBps 5001
  emergencyPauseBps := s.gov.readConfigU32 .validatorQuorumBps
  totalValidators := s.validators.validatorCount

namespace AdvanceConfig

variable (c : AdvanceConfig)

def validatorShare (bps : BitVec 32) : U128 :=
  if c.totalValidators = 0 then 0
  else BitVec.ofNat 128 (bpsCeil c.totalValidators.toNat bps.toNat)

def supplyShare (bps : BitVec 32) : U128 := BitVec.ofNat 128 (totalSupply * bps.toNat / 10000)

def computeQuorum : ProposalType → U128
  | .parameterChange => c.validatorShare c.validatorQuorumBps
  | .protocolUpgrade =>
    let validatorQuorum := c.validatorShare c.validatorQuorumBps
    let supplyQuorum := supplyShare c.supplyQuorumBps
    if supplyQuorum ≤ validatorQuorum then validatorQuorum else supplyQuorum
  | .treasurySpend => supplyShare c.treasuryQuorumBps
  | .validatorSlash => c.validatorShare c.validatorQuorumBps
  | .complianceUpdate => c.validatorShare c.simpleMajorityBps
  | .emergencyPause => c.validatorShare c.emergencyPauseBps
  | .feeCurrencyAdd | .feeCurrencyRemove | .feeCurrencyCap | .validatorKeyRotation
  | .proverKeyRotation | .unsupported _ => c.validatorShare c.simpleMajorityBps

theorem validatorShare_toNat (bps : BitVec 32) :
    (c.validatorShare bps).toNat = bpsCeil c.totalValidators.toNat bps.toNat := by
  unfold validatorShare
  split_ifs with hn
  · rw [hn]
    exact (bpsCeil_zero bps.toNat).symm
  · have hmul : c.totalValidators.toNat * bps.toNat ≤ 2 ^ 64 * 2 ^ 32 :=
      Nat.mul_le_mul (by omega) (by omega)
    rw [BitVec.toNat_ofNat]
    unfold bpsCeil
    omega

theorem max_toNat (a b : U128) : (if b ≤ a then a else b).toNat = max a.toNat b.toNat := by
  split_ifs with h
  · exact (max_eq_left (BitVec.le_def.1 h)).symm
  · exact (max_eq_right (le_of_lt (BitVec.lt_def.1 (BitVec.not_le.1 h)))).symm

end AdvanceConfig

/-- A failure is ignored. -/
def addBalanceEvm (assets : AssetStorage) (assetId : U64) (addr : Address) (amount : U128) :
    AssetStorage :=
  match assets.addBalance assetId addr amount with
  | .ok assets => assets
  | .error _ => assets

def rotateValidatorKeyEvm (v : ValidatorStorage) (addr : Address) (newPubkey : Bytes32) :
    ValidatorStorage :=
  { v with pubkey := Function.update v.pubkey addr newPubkey }

namespace State

variable (s : State)

/-- The key that the advancer writes a parameter under: the second word of the
data, or a fixed one. -/
def advancerKey (data : Bytes) : Bytes :=
  if 64 < data.length then (data.drop 32).take 32 else asciiBytes "param_change"

/-- The writes of `ValidatorKeyRotation` by the advancer. -/
def rotateKey (data : Bytes) : State :=
  let validatorAddr := s.validators.validatorAddr (idField data)
  { s with
    validators := if validatorAddr ≠ 0
      then rotateValidatorKeyEvm s.validators validatorAddr (wordField data 1) else s.validators
    gov := { s.gov with
      keyRotation := Function.update s.gov.keyRotation (idField data) true } }

/-- Data that is too short is skipped. -/
def applySideEffects (data : Bytes) : ProposalType → Option State
  | .parameterChange =>
    if 48 ≤ data.length then
      let newValue : U128 := BitVec.ofNat 128 (field data (data.length - 16) data.length)
      some { s with gov := s.gov.writeConfigU128 (advancerKey data) newValue }
    else some s
  | .protocolUpgrade =>
    if 32 ≤ data.length then
      some { s with gov := { s.gov with protocolUpgrade := wordField data 0 } }
    else some s
  | .treasurySpend =>
    if 48 ≤ data.length then
      if 64 ≤ data.length then
        some { s with assets :=
          addBalanceEvm s.assets callAssetId (addressField data) (amountField data) }
      else none
    else some s
  | .validatorSlash =>
    if 64 ≤ data.length then
      some { s with validators :=
        (slashValidatorEvm s.validators (addressField data) (amountField data)).1 }
    else some s
  | .complianceUpdate =>
    if 96 ≤ data.length then
      some { s with compliance := { s.compliance with
        policy := Function.update s.compliance.policy (addressField data)
          (Function.update (s.compliance.policy (addressField data)) (byteField data 63)
            (byteField data 95)) } }
    else some s
  | .emergencyPause => some { s with gov := { s.gov with paused := true } }
  | .feeCurrencyAdd => if 32 ≤ data.length then some (s.setFeeCurrency data true) else some s
  | .feeCurrencyRemove => if 32 ≤ data.length then some (s.setFeeCurrency data false) else some s
  | .feeCurrencyCap =>
    if 64 ≤ data.length then
      some { s with gov := { s.gov with
        feeCurrencyCap := Function.update s.gov.feeCurrencyCap (idField data)
          (amountField data) } }
    else some s
  | .validatorKeyRotation => if 64 ≤ data.length then some (s.rotateKey data) else some s
  | .proverKeyRotation =>
    if 160 ≤ data.length then
      some { s with gov := { s.gov with
        proverKeyRotation := { s.gov.proverKeyRotation with registered := versionField data } } }
    else some s
  | .unsupported _ => some s

/-- The refund of the advancer: the deposit is gone even if nobody is paid. -/
def refundEvm (proposalId : U64) : State :=
  let p := s.gov.proposal proposalId
  if 0 < p.deposit ∧ p.proposer ≠ 0 then
    { s with assets := addBalanceEvm s.assets callAssetId p.proposer p.deposit }.setProposal
      proposalId { p with deposit := 0 }
  else s

def confiscate (proposalId : U64) (status : Status) : State :=
  let p := s.gov.proposal proposalId
  s.setProposal proposalId { p with
    deposit := if p.proposer ≠ 0 then 0 else p.deposit
    status := status }

end State

def Proposal.ReviewDone (p : Proposal) (currentBlock : U64) : Prop :=
  if 0 < p.reviewEnd then p.reviewEnd ≤ currentBlock else p.startBlock ≤ currentBlock

instance (p : Proposal) (currentBlock : U64) : Decidable (p.ReviewDone currentBlock) := by
  unfold Proposal.ReviewDone
  infer_instance

/-- The decision of the advancer on a vote that is over; the sum wraps. -/
def Proposal.passes (p : Proposal) : Bool :=
  let totalVotes := p.votesFor + p.votesAgainst
  let hasQuorum : Bool :=
    if 0 < p.quorumRequired then p.quorumRequired ≤ totalVotes
    else 0 < totalVotes ∧ p.votesAgainst < p.votesFor
  hasQuorum ∧ p.votesAgainst < p.votesFor

namespace State

def advanceProposal (c : AdvanceConfig) (currentBlock : U64) (s : State) (proposalId : U64) :
    Option State :=
  let p := s.gov.proposal proposalId
  match p.status with
  | .pending =>
    if p.ReviewDone currentBlock then
      some (s.setProposal proposalId { p with
        status := .active
        quorumRequired := c.computeQuorum p.proposalType })
    else some s
  | .active =>
    if p.endBlock < currentBlock then
      if p.passes then
        -- the sum of the block and the timelock wraps
        some (s.setProposal proposalId (p.enqueued currentBlock c.timelock))
      else some (s.confiscate proposalId .defeated)
    else some s
  | .queued =>
    if p.TimedOut c.execTimeout currentBlock then some (s.confiscate proposalId .expired)
    else if p.executionBlock ≤ currentBlock then
      (s.applySideEffects p.executionData p.proposalType).map fun s =>
        (s.refundEvm proposalId).setStatus proposalId .executed
    else some s
  | .executed | .defeated | .expired | .lapsed => some s

def proposalIds (s : State) : List U64 :=
  (List.range s.gov.proposalCount.toNat).map fun i => BitVec.ofNat 64 (i + 1)

/-- `GovernanceAdvancer::advance`, without the events it returns -/
def advance (s : State) (currentBlock : U64) : Option State :=
  Sweep.sweep (advanceProposal s.advanceConfig currentBlock) s.proposalIds s

/-! ### What the advancer does -/

variable {c : AdvanceConfig} {s t : State} {pid now : U64}

variable {data : Bytes} {kind : ProposalType}

theorem effected_applySideEffects
    (h : s.applySideEffects data kind = some t) : Effected kind s t := by
  have hskip : ∀ {p : Prop} [Decidable p] {r : State},
      (if p then some r else some s) = some t → Effected kind s r → Effected kind s t := by
    intro p _ r hite hr
    split_ifs at hite
    · exact Option.some.inj hite ▸ hr
    · exact Option.some.inj hite ▸ .rfl
  cases kind with
  | treasurySpend =>
    dsimp only [applySideEffects] at h
    split_ifs at h
    · exact Option.some.inj h ▸ ⟨.rfl, fun hne => absurd rfl hne⟩
    · exact Option.some.inj h ▸ .rfl
  | emergencyPause =>
    exact Option.some.inj h ▸ .of_gov ⟨rfl, rfl, rfl, rfl, rfl, .inr ⟨rfl, rfl⟩⟩ rfl
  | unsupported => exact Option.some.inj h ▸ .rfl
  | validatorSlash | complianceUpdate => exact hskip h (.of_gov .rfl rfl)
  | _ => exact hskip h (.of_gov ⟨rfl, rfl, rfl, rfl, rfl, .inl rfl⟩ rfl)

theorem sameTables_applySideEffects (h : s.applySideEffects data kind = some t) : SameTables s t :=
  (effected_applySideEffects h).sameTables

theorem applySideEffects_assets (h : s.applySideEffects data kind = some t)
    (htype : kind ≠ .treasurySpend) : t.assets = s.assets :=
  (effected_applySideEffects h).assets htype

theorem refundEvm_wrote (s : State) (pid : U64) : ∃ deposit, Wrote s (s.refundEvm pid) pid
      { s.gov.proposal pid with deposit := deposit } := by
  unfold refundEvm
  dsimp only
  split_ifs
  · exact ⟨0, ⟨rfl, rfl, rfl⟩⟩
  · exact ⟨_, SameTables.rfl.toWrote pid⟩

theorem settle_wrote (pid : U64) {e : State} (h : s.applySideEffects data kind = some e) :
    ∃ deposit, Wrote s ((e.refundEvm pid).setStatus pid .executed) pid
      { s.gov.proposal pid with deposit := deposit, status := .executed } := by
  have hsame := sameTables_applySideEffects h
  obtain ⟨deposit, hwro⟩ := e.refundEvm_wrote pid
  rw [hsame.proposal] at hwro
  exact ⟨deposit, hsame.wrote (hwro.setStatus .executed)⟩

inductive Advanced (c : AdvanceConfig) (currentBlock : U64) (s : State) (proposalId : U64) :
    State → Prop where
  | stay : Advanced c currentBlock s proposalId s
  | opens (pending : (s.gov.proposal proposalId).status = .pending)
      (done : (s.gov.proposal proposalId).ReviewDone currentBlock) :
      Advanced c currentBlock s proposalId (s.setProposal proposalId
        { s.gov.proposal proposalId with
          status := .active
          quorumRequired := c.computeQuorum (s.gov.proposal proposalId).proposalType })
  | queues (active : (s.gov.proposal proposalId).status = .active)
      (ended : (s.gov.proposal proposalId).endBlock < currentBlock)
      (passes : (s.gov.proposal proposalId).passes = true) :
      Advanced c currentBlock s proposalId (s.setProposal proposalId
        ((s.gov.proposal proposalId).enqueued currentBlock c.timelock))
  | defeats (active : (s.gov.proposal proposalId).status = .active)
      (ended : (s.gov.proposal proposalId).endBlock < currentBlock)
      (fails : (s.gov.proposal proposalId).passes = false) :
      Advanced c currentBlock s proposalId (s.confiscate proposalId .defeated)
  | expires (queued : (s.gov.proposal proposalId).status = .queued)
      (late : (s.gov.proposal proposalId).TimedOut c.execTimeout currentBlock) :
      Advanced c currentBlock s proposalId (s.confiscate proposalId .expired)
  | executes {e : State} (queued : (s.gov.proposal proposalId).status = .queued)
      (due : (s.gov.proposal proposalId).executionBlock ≤ currentBlock)
      (early : ¬ (s.gov.proposal proposalId).TimedOut c.execTimeout currentBlock)
      (effect : s.applySideEffects (s.gov.proposal proposalId).executionData
        (s.gov.proposal proposalId).proposalType = some e) :
      Advanced c currentBlock s proposalId
        ((e.refundEvm proposalId).setStatus proposalId .executed)

theorem advanceProposal_advanced (h : advanceProposal c now s pid = some t) :
    Advanced c now s pid t := by
  unfold advanceProposal at h
  dsimp only at h
  cases hsta : (s.gov.proposal pid).status with
  | pending =>
    rw [hsta] at h
    dsimp only at h
    split_ifs at h with hdone
    · exact Option.some.inj h ▸ .opens hsta hdone
    · exact Option.some.inj h ▸ .stay
  | active =>
    rw [hsta] at h
    dsimp only at h
    split_ifs at h with hend hpas
    · exact Option.some.inj h ▸ .queues hsta hend hpas
    · exact Option.some.inj h ▸ .defeats hsta hend (eq_false_of_ne_true hpas)
    · exact Option.some.inj h ▸ .stay
  | queued =>
    rw [hsta] at h
    dsimp only at h
    split_ifs at h with hlate hdue
    · exact Option.some.inj h ▸ .expires hsta hlate
    · obtain ⟨e, he, rfl⟩ := Option.map_eq_some_iff.1 h
      exact .executes hsta hdue hlate he
    · exact Option.some.inj h ▸ .stay
  | _ => rw [hsta] at h; exact Option.some.inj h ▸ .stay

theorem Advanced.wrote (h : Advanced c now s pid t) : ∃ p, Wrote s t pid p := by
  cases h with
  | stay => exact ⟨_, SameTables.rfl.toWrote pid⟩
  | executes queued due early effect =>
    obtain ⟨deposit, hwro⟩ := settle_wrote pid effect
    exact ⟨_, hwro⟩
  | _ => exact ⟨_, wrote_setProposal s pid _⟩

theorem nodup_proposalIds (s : State) : s.proposalIds.Nodup := by
  refine (List.nodup_map_iff_inj_on List.nodup_range).2 ?_
  intro i hi j hj hij
  rw [List.mem_range] at hi hj
  have hval : i + 1 = j + 1 := by
    have h := congrArg BitVec.toNat hij
    rwa [BitVec.toNat_ofNat, BitVec.toNat_ofNat, Nat.mod_eq_of_lt (by omega),
      Nat.mod_eq_of_lt (by omega)] at h
  omega

theorem advanceProposal_frame (c : AdvanceConfig) (now : U64) (u : State) (i : U64)
    (v : State) (h : advanceProposal c now u i = some v) (j : U64) (hj : j ≠ i) :
    v.gov.proposal j = u.gov.proposal j := by
  obtain ⟨p, hp⟩ := (advanceProposal_advanced h).wrote
  exact hp.of_ne hj

/-- What the loop body preserves a block preserves; the body finds a proposal as it was
before the block. -/
theorem advance_induction {P : State → Prop} (h : s.advance now = some t) (hs : P s)
    (hvis : ∀ u i v, P u → u.gov.proposal i = s.gov.proposal i →
      Advanced s.advanceConfig now u i v → P v) : P t :=
  Sweep.sweep_induction_entry (fun u i => u.gov.proposal i)
    (advanceProposal_frame s.advanceConfig now) s.nodup_proposalIds
    (fun u i v hu hi hv => hvis u i v hu hi (advanceProposal_advanced hv)) hs h

/-- A block leaves a proposal as it was, or the loop body wrote it in a state in which
it was as before. -/
theorem advance_proposal (h : s.advance now = some t) (pid : U64) :
    t.gov.proposal pid = s.gov.proposal pid ∨ ∃ u v, u.gov.proposal pid = s.gov.proposal pid ∧
        Advanced s.advanceConfig now u pid v ∧ t.gov.proposal pid = v.gov.proposal pid := by
  have hfra := advanceProposal_frame s.advanceConfig now
  by_cases hid : pid ∈ s.proposalIds
  · obtain ⟨u, v, hu, hv, ht⟩ :=
      Sweep.sweep_entry (fun u i => u.gov.proposal i) hfra s.nodup_proposalIds h hid
    exact .inr ⟨u, v, hu, advanceProposal_advanced hv, ht⟩
  · exact .inl (Sweep.sweep_of_not_mem (fun u i => u.gov.proposal i) hfra h hid)

end State

end Callchain.Governance

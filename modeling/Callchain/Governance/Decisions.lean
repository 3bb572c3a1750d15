/-
# The two decisions on a vote

A vote that is over is decided by whoever comes first: the advancer, or a call of
`queue`. Both compare the votes with the quorum they stored when they opened the
proposal, each in its own way.

The advancer adds the votes for and against, and asks that there are more for than
against. `queue` counts abstentions towards the quorum, asks for a configured share of
votes for, and without a stored quorum for as many votes as there are validators.
-/
import Callchain.Governance.Calls

namespace Callchain.Governance

open Asset Precompile GovernanceStorage

def State.advancerDecision (s : State) (proposalId currentBlock : U64) : Option Status :=
  (s.advanceProposal s.advanceConfig currentBlock proposalId).map fun t =>
    (t.gov.proposal proposalId).status

/-- The status in which `GovernanceStorage::queue` leaves a proposal. -/
def State.queueDecision (s : State) (proposalId currentBlock : U64) : Status :=
  ((s.queue proposalId currentBlock).1.gov.proposal proposalId).status

/-! ### The votes as numbers -/

namespace Proposal

variable (p : Proposal)

def decided : ℕ := (p.votesFor.toNat + p.votesAgainst.toNat) % 2 ^ 128

/-- All votes, as `queue` adds them. -/
def cast : ℕ :=
  min (p.votesFor.toNat + p.votesAgainst.toNat + p.votesAbstain.toNat) (2 ^ 128 - 1)

def Majority (bps : ℕ) : Prop :=
  0 < p.votesFor.toNat + p.votesAgainst.toNat ∧
    min (min (p.votesFor.toNat + p.votesAgainst.toNat) (2 ^ 128 - 1) * bps) (2 ^ 128 - 1) <
      min (p.votesFor.toNat * 10000) (2 ^ 128 - 1)

variable {p}

theorem passes_iff : p.passes = true ↔
    p.votesAgainst.toNat < p.votesFor.toNat ∧ p.quorumRequired.toNat ≤ p.decided ∧
      (p.quorumRequired.toNat = 0 → 0 < p.decided) := by
  have hdec : (p.votesFor + p.votesAgainst).toNat = p.decided := BitVec.toNat_add ..
  unfold passes
  rw [decide_eq_true_eq]
  by_cases hq : 0 < p.quorumRequired
  · rw [if_pos hq, decide_eq_true_eq]
    have hpos : 0 < p.quorumRequired.toNat := BitVec.lt_def.1 hq
    constructor
    · rintro ⟨hle, hlt⟩
      exact ⟨hlt, hle, fun h0 => by omega⟩
    · rintro ⟨hlt, hle, -⟩
      exact ⟨hle, hlt⟩
  · rw [if_neg hq, decide_eq_true_eq]
    have hzero : p.quorumRequired.toNat = 0 := by
      rw [BitVec.lt_def, not_lt] at hq
      exact Nat.le_zero.1 hq
    rw [hzero]
    constructor
    · rintro ⟨⟨hpos, hlt⟩, -⟩
      exact ⟨hlt, Nat.zero_le _, fun _ => hpos⟩
    · rintro ⟨hlt, -, hpos⟩
      exact ⟨⟨hpos rfl, hlt⟩, hlt⟩

theorem decided_le_cast (p : Proposal) : p.decided ≤ p.cast := by
  unfold decided cast
  omega

theorem totalVotes_toNat :
    (U128.saturatingAdd (U128.saturatingAdd p.votesFor p.votesAgainst) p.votesAbstain).toNat =
      p.cast := by
  rw [saturatingAdd_toNat, saturatingAdd_toNat]
  unfold cast
  omega

theorem hasQuorum_iff {validatorCount : U64} : p.hasQuorum validatorCount = true ↔
    p.quorumRequired.toNat ≤ p.cast ∧ (p.quorumRequired.toNat = 0 →
        validatorCount.toNat ≤ p.cast ∧ 0 < p.cast ∧ p.votesAgainst.toNat < p.votesFor.toNat) := by
  unfold hasQuorum
  by_cases hq : 0 < p.quorumRequired
  · have hpos : 0 < p.quorumRequired.toNat := BitVec.lt_def.1 hq
    rw [if_pos hq, decide_eq_true_eq, BitVec.le_def, totalVotes_toNat]
    exact ⟨fun hle => ⟨hle, fun h0 => by omega⟩, fun h => h.1⟩
  · have hzero : p.quorumRequired.toNat = 0 := by
      rw [BitVec.lt_def, not_lt] at hq
      exact Nat.le_zero.1 hq
    have hthr : (if 0 < validatorCount then validatorCount.setWidth 128 else 1 : U128).toNat =
        max validatorCount.toNat 1 := by
      split_ifs with hn
      · have hn : 0 < validatorCount.toNat := BitVec.lt_def.1 hn
        rw [BitVec.toNat_setWidth]
        omega
      · rw [BitVec.lt_def, not_lt] at hn
        have hn : validatorCount.toNat = 0 := Nat.le_zero.1 hn
        rw [hn]
        rfl
    rw [if_neg hq, decide_eq_true_eq, BitVec.le_def, hthr, totalVotes_toNat, hzero, max_le_iff]
    constructor
    · rintro ⟨⟨hn, hone⟩, hlt⟩
      exact ⟨Nat.zero_le _, fun _ => ⟨hn, hone, hlt⟩⟩
    · rintro ⟨-, h⟩
      obtain ⟨hn, hone, hlt⟩ := h rfl
      exact ⟨⟨hn, hone⟩, hlt⟩

theorem hasMajority_iff {bps : BitVec 32} : p.hasMajority bps = true ↔ p.Majority bps.toNat := by
  have hbps : (bps.setWidth 128).toNat = bps.toNat := by
    rw [BitVec.toNat_setWidth, Nat.mod_eq_of_lt (by omega)]
  have hten : BitVec.toNat (10000 : U128) = 10000 := rfl
  have hnon : U128.saturatingAdd p.votesFor p.votesAgainst ≠ 0 ↔
      0 < p.votesFor.toNat + p.votesAgainst.toNat := by
    rw [ne_eq, ← BitVec.toNat_inj, saturatingAdd_toNat, show BitVec.toNat (0 : U128) = 0 from rfl]
    omega
  unfold hasMajority Majority
  rw [decide_eq_true_eq, hnon, BitVec.lt_def, saturatingMul_toNat, saturatingMul_toNat,
    saturatingAdd_toNat, hbps, hten]

end Proposal

/-! ### The decisions -/

/-- The two decisions meet: whoever wins for the advancer has the majority, the number
of votes and the block that `queue` asks for, and whoever loses there lacks one of them.
-/
structure State.DecisionAgrees (s : State) (proposalId currentBlock : U64) : Prop where
  unpaused : s.gov.paused = false
  won : let p := s.gov.proposal proposalId
    p.votesAgainst.toNat < p.votesFor.toNat → p.quorumRequired.toNat ≤ p.decided →
    (p.quorumRequired.toNat = 0 → 0 < p.decided) →
      p.Majority (s.gov.bpsOr .simpleMajorityBps 5001).toNat ∧
      (p.quorumRequired.toNat = 0 → s.validators.validatorCount.toNat ≤ p.cast) ∧
      (p.proposalType ≠ .emergencyPause → currentBlock.toNat + s.gov.timelock.toNat < 2 ^ 64)
  lost : let p := s.gov.proposal proposalId
    p.votesFor.toNat ≤ p.votesAgainst.toNat ∨ p.decided < p.quorumRequired.toNat ∨
      (p.quorumRequired.toNat = 0 ∧ p.decided = 0) →
    p.Majority (s.gov.bpsOr .simpleMajorityBps 5001).toNat → p.quorumRequired.toNat ≤ p.cast →
      p.quorumRequired.toNat = 0 ∧
        (p.votesFor.toNat ≤ p.votesAgainst.toNat ∨
          p.cast < max s.validators.validatorCount.toNat 1)

section Decisions

variable {s : State} {pid now : U64}

section

variable (hactive : (s.gov.proposal pid).status = .active)
include hactive

theorem advanceProposal_status (c : AdvanceConfig) (hend : (s.gov.proposal pid).endBlock < now) :
    ((s.advanceProposal c now pid).map fun t => (t.gov.proposal pid).status) =
      some (if (s.gov.proposal pid).passes = true then .queued else .defeated) := by
  unfold State.advanceProposal
  dsimp only
  rw [hactive]
  dsimp only
  split_ifs
  · rw [Option.map_some, (State.wrote_setProposal s pid _).self]
    rfl
  · unfold State.confiscate
    rw [Option.map_some, (State.wrote_setProposal s pid _).self]

/-- **The decision of a whole advance**: it leaves the proposal in the status that the body of
its loop gives it in the state before, whatever the proposals before it do. -/
theorem advance_decision (hid : pid ∈ s.proposalIds) (hend : (s.gov.proposal pid).endBlock < now)
    {t : State} (h : s.advance now = some t) :
    s.advancerDecision pid now = some (t.gov.proposal pid).status := by
  obtain ⟨u, v, hu, hv, ht⟩ := Sweep.sweep_entry (fun u i => u.gov.proposal i)
    (State.advanceProposal_frame s.advanceConfig now) s.nodup_proposalIds h hid
  have hvis := advanceProposal_status (s := u) (hu ▸ hactive) s.advanceConfig (hu ▸ hend)
  rw [hv, hu] at hvis
  rw [State.advancerDecision, advanceProposal_status hactive _ hend, ht]
  exact hvis.symm

theorem queueDecision_eq (hid : s.gov.ValidId pid) (hpau : s.gov.paused = false) :
    s.queueDecision pid now = if (s.gov.proposal pid).hasQuorum s.validators.validatorCount = true ∧
          (s.gov.proposal pid).hasMajority (s.gov.bpsOr .simpleMajorityBps 5001) = true then
        if (s.gov.proposal pid).proposalType ≠ .emergencyPause ∧
          2 ^ 64 ≤ now.toNat + s.gov.timelock.toNat then .active else .queued else .defeated := by
  have hopen : s.autoAdvance pid now = s := by
    rcases s.autoAdvance_cases pid now with h | ⟨hpen, -⟩
    · exact h
    · rw [hactive] at hpen
      cases hpen
  have hdef : ((s.markDefeated pid).gov.proposal pid).status = .defeated := by
    unfold State.markDefeated
    rw [(State.wrote_setProposal s pid _).self]
  unfold State.queueDecision State.queue
  rw [hopen, if_neg (by rw [hpau]; exact Bool.false_ne_true), if_neg (not_not.2 hid),
    if_neg (not_not.2 hactive)]
  by_cases hquo : (s.gov.proposal pid).hasQuorum s.validators.validatorCount = true
  · rw [if_neg (not_not.2 hquo)]
    by_cases hmaj :
        (s.gov.proposal pid).hasMajority (s.gov.bpsOr .simpleMajorityBps 5001) = true
    · have hboth := And.intro hquo hmaj
      split_ifs
      · exact hactive
      · rw [(State.wrote_setProposal s pid _).self]
        rfl
    · rw [if_pos hmaj, if_neg fun h => hmaj h.2]
      exact hdef
  · rw [if_pos hquo, if_neg fun h => hquo h.1]
    exact hdef

theorem queueDecision_paused (hpau : s.gov.paused = true) : s.queueDecision pid now = .active := by
  unfold State.queueDecision State.queue
  rw [if_pos hpau]
  exact hactive

end

theorem decision_eq_iff {P C O : Prop} [Decidable P] [Decidable C] [Decidable O] :
    ((if P then Status.queued else .defeated) =
      if C then if O then .active else .queued else .defeated) ↔ (P → C ∧ ¬ O) ∧ (¬ P → ¬ C) := by
  by_cases hP : P <;> by_cases hC : C <;> by_cases hO : O <;> simp [hP, hC, hO]

theorem decision_agrees_iff (hid : s.gov.ValidId pid)
    (hactive : (s.gov.proposal pid).status = .active) (hend : (s.gov.proposal pid).endBlock < now) :
    s.advancerDecision pid now = some (s.queueDecision pid now) ↔ s.DecisionAgrees pid now := by
  have hadv := advanceProposal_status hactive s.advanceConfig hend
  unfold State.advancerDecision
  rw [hadv, Option.some_inj]
  by_cases hpau : s.gov.paused = true
  · rw [queueDecision_paused hactive hpau]
    constructor
    · intro h
      split_ifs at h
    · intro h
      rw [h.unpaused] at hpau
      cases hpau
  have hpau : s.gov.paused = false := eq_false_of_ne_true hpau
  rw [queueDecision_eq hactive hid hpau, decision_eq_iff, Proposal.passes_iff,
    Proposal.hasQuorum_iff, Proposal.hasMajority_iff]
  constructor
  · rintro ⟨hwon, hlost⟩
    refine ⟨hpau, ?_, ?_⟩
    · intro p hlt hle hpos
      obtain ⟨hboth, hover⟩ := hwon ⟨hlt, hle, hpos⟩
      refine ⟨hboth.2, fun h0 => (hboth.1.2 h0).1, fun htype => ?_⟩
      by_contra hge
      exact hover ⟨htype, not_lt.1 hge⟩
    · intro p hlos hmaj hcast
      by_contra hnot
      rw [not_and, not_or, not_le, not_lt, max_le_iff] at hnot
      refine hlost ?_ ⟨⟨hcast, fun h0 => ⟨(hnot h0).2.1, (hnot h0).2.2, (hnot h0).1⟩⟩, hmaj⟩
      rintro ⟨hlt, hle, hpos⟩
      rcases hlos with hlos | hlos | ⟨h0, hlos⟩
      · exact absurd hlt (not_lt.2 hlos)
      · exact absurd hle (not_le.2 hlos)
      · exact absurd hlos (hpos h0).ne'
  · rintro ⟨-, hwon, hlost⟩
    constructor
    · rintro ⟨hlt, hle, hpos⟩
      obtain ⟨hmaj, hcou, hfits⟩ := hwon hlt hle hpos
      have hcast := (s.gov.proposal pid).decided_le_cast
      exact ⟨⟨⟨le_trans hle hcast, fun h0 => ⟨hcou h0, lt_of_lt_of_le (hpos h0) hcast, hlt⟩⟩,
        hmaj⟩, fun hover => absurd (hfits hover.1) (not_lt.2 hover.2)⟩
    · rintro hfai ⟨⟨hcast, hzero⟩, hmaj⟩
      rw [not_and_or, not_and_or, not_lt, not_le, Classical.not_imp, not_lt, Nat.le_zero] at hfai
      obtain ⟨h0, hlos⟩ := hlost hfai hmaj hcast
      obtain ⟨hn, hpos, hlt⟩ := hzero h0
      rcases hlos with hlos | hlos
      · exact absurd hlt (not_lt.2 hlos)
      · exact absurd (max_le hn hpos) (not_le.2 hlos)

end Decisions

/-! ### The quorums -/

/-- A share as the precompile reads it: the slot, or the default before the first
initialisation. The advancer takes the default for a zero, `bpsOr`. -/
def GovernanceStorage.initializedBps (g : GovernanceStorage) (param : Param)
    (default : BitVec 32) : ℕ :=
  if g.configInitialized then (g.readConfigU32 param).toNat else default.toNat

def State.QuorumAgrees (s : State) : ProposalType → Prop :=
  let validatorCount := s.validators.validatorCount.toNat
  let validatorQuorum := bpsCeil validatorCount (s.gov.initializedBps .validatorQuorumBps 6667)
  let advancerQuorum := bpsCeil validatorCount (s.gov.bpsOr .validatorQuorumBps 6667).toNat
  let simpleMajority := bpsCeil validatorCount (s.gov.bpsOr .simpleMajorityBps 5001).toNat
  fun
  | .parameterChange | .validatorSlash => validatorQuorum % 2 ^ 64 = advancerQuorum
  | .protocolUpgrade => validatorQuorum % 2 ^ 64 =
      max advancerQuorum (totalSupply * (s.gov.bpsOr .supplyQuorumBps 2000).toNat / 10000)
  | .treasurySpend => totalSupply * s.gov.initializedBps .treasuryQuorumBps 2000 / 10000 =
      totalSupply * (s.gov.bpsOr .treasuryQuorumBps 2000).toNat / 10000
  | .complianceUpdate =>
      totalSupply * s.gov.initializedBps .supplyQuorumBps 2000 / 10000 = simpleMajority
  | .emergencyPause =>
      bpsCeil validatorCount (s.gov.initializedBps .emergencyPauseBps 6667) % 2 ^ 64 =
        bpsCeil validatorCount (s.gov.readConfigU32 .validatorQuorumBps).toNat
  | .feeCurrencyAdd | .feeCurrencyRemove | .feeCurrencyCap | .validatorKeyRotation
  | .proverKeyRotation | .unsupported _ => validatorQuorum % 2 ^ 64 = simpleMajority

section Quorums

variable (s : State)

theorem initialized_share (param : Param) (default : BitVec 32)
    (h : s.gov.configInitialized = false →
      s.gov.ensureConfigInitialized.readConfigU32 param = default) :
    (s.gov.ensureConfigInitialized.readConfigU32 param).toNat =
      s.gov.initializedBps param default := by
  unfold initializedBps
  split_ifs with hinit
  · rw [ensureConfigInitialized, if_pos hinit]
  · rw [h (eq_false_of_ne_true hinit)]

theorem initialized_defaults (hinit : s.gov.configInitialized = false) :
    s.gov.ensureConfigInitialized.governanceConfig = {} := by
  unfold ensureConfigInitialized governanceConfig
  rw [if_neg (by rw [hinit]; exact Bool.false_ne_true)]
  rfl

theorem quorum_agrees_iff (kind : ProposalType) :
    s.gov.ensureConfigInitialized.governanceConfig.quorum s.validators.validatorCount
        kind = s.advanceConfig.computeQuorum kind ↔ s.QuorumAgrees kind := by
  set c := s.gov.ensureConfigInitialized.governanceConfig with hc
  set n := s.validators.validatorCount with hn
  -- the entries of the precompile
  have hval : (if n = 0 then 0 else (c.validatorQuorum n).setWidth 128 : U128).toNat =
      bpsCeil n.toNat (s.gov.initializedBps .validatorQuorumBps 6667) % 2 ^ 64 := by
    rw [← initialized_share s .validatorQuorumBps 6667
      fun hinit => congrArg GovernanceConfig.validatorQuorumBps (initialized_defaults s hinit)]
    exact validators_toNat n _
  have hpau : (if n = 0 then 0 else (c.emergencyPauseThreshold n).setWidth 128 : U128).toNat =
      bpsCeil n.toNat (s.gov.initializedBps .emergencyPauseBps 6667) % 2 ^ 64 := by
    rw [← initialized_share s .emergencyPauseBps 6667
      fun hinit => congrArg GovernanceConfig.emergencyPauseBps (initialized_defaults s hinit)]
    exact validators_toNat n _
  have hsup : c.supplyQuorum.toNat =
      totalSupply * s.gov.initializedBps .supplyQuorumBps 2000 / 10000 := by
    rw [← initialized_share s .supplyQuorumBps 2000
      fun hinit => congrArg GovernanceConfig.supplyQuorumBps (initialized_defaults s hinit)]
    exact supply_toNat _
  have htre : c.treasuryQuorum.toNat =
      totalSupply * s.gov.initializedBps .treasuryQuorumBps 2000 / 10000 := by
    rw [← initialized_share s .treasuryQuorumBps 2000
      fun hinit => congrArg GovernanceConfig.treasuryQuorumBps (initialized_defaults s hinit)]
    exact supply_toNat _
  -- those of the advancer
  have hsha := s.advanceConfig.validatorShare_toNat
  have hupg : (s.advanceConfig.computeQuorum .protocolUpgrade).toNat =
      max (bpsCeil n.toNat (s.gov.bpsOr .validatorQuorumBps 6667).toNat)
        (totalSupply * (s.gov.bpsOr .supplyQuorumBps 2000).toNat / 10000) := by
    refine (AdvanceConfig.max_toNat _ _).trans ?_
    rw [hsha]
    exact congrArg (max _) (supply_toNat _)
  rw [← BitVec.toNat_inj]
  cases kind with
  | protocolUpgrade => exact Eq.congr hval hupg
  | treasurySpend => exact Eq.congr htre (supply_toNat _)
  | complianceUpdate => exact Eq.congr hsup (hsha _)
  | emergencyPause => exact Eq.congr hpau (hsha _)
  | _ => exact Eq.congr hval (hsha _)

end Quorums

def State.advancerQuorum (s : State) (proposalId currentBlock : U64) : Option U128 :=
  (s.advanceProposal s.advanceConfig currentBlock proposalId).map fun t =>
    (t.gov.proposal proposalId).quorumRequired

/-- The quorum that `vote` and `queue` store when they open a proposal. -/
def State.precompileQuorum (s : State) (proposalId currentBlock : U64) : U128 :=
  ((s.autoAdvance proposalId currentBlock).gov.proposal proposalId).quorumRequired

section Quorums

variable {s : State} {pid now : U64}

theorem advancerQuorum_eq (hpen : (s.gov.proposal pid).status = .pending)
    (hdone : (s.gov.proposal pid).ReviewDone now) : s.advancerQuorum pid now =
      some (s.advanceConfig.computeQuorum (s.gov.proposal pid).proposalType) := by
  unfold State.advancerQuorum State.advanceProposal
  dsimp only
  rw [hpen]
  rw [if_pos hdone, Option.map_some, (State.wrote_setProposal s pid _).self]

theorem precompileQuorum_eq (hpen : (s.gov.proposal pid).status = .pending)
    (hstar : (s.gov.proposal pid).startBlock ≤ now) : s.precompileQuorum pid now =
      s.gov.ensureConfigInitialized.governanceConfig.quorum s.validators.validatorCount
        (s.gov.proposal pid).proposalType := by
  unfold State.precompileQuorum
  rcases s.autoAdvance_cases pid now with h | ⟨-, -, h⟩
  · -- the review is over, so the proposal is opened
    unfold State.autoAdvance at h
    rw [if_pos ⟨hpen, hstar⟩] at h
    have hsta := congrArg (fun t : State => (t.gov.proposal pid).status) h
    unfold State.computeAndSetQuorum at hsta
    rw [setProposal_self, ensureConfigInitialized_proposal, hpen] at hsta
    unfold State.setProposal at hsta
    rw [setProposal_self] at hsta
    cases hsta
  · rw [h]
    rw [setProposal_self]
    rfl

end Quorums

/-- **The two decisions.** A vote that is over is decided the same way by the advancer and by
`queue` exactly where `DecisionAgrees` says so, and a proposal is opened with the same quorum
exactly where the tables agree. -/
theorem decisions_agree_iff (s : State) (proposalId currentBlock : U64)
    (hid : s.gov.ValidId proposalId) :
    let p := s.gov.proposal proposalId
    (p.status = .active → p.endBlock < currentBlock → (s.advancerDecision proposalId currentBlock =
          some (s.queueDecision proposalId currentBlock) ↔
        s.DecisionAgrees proposalId currentBlock)) ∧
    (p.status = .pending → p.ReviewDone currentBlock → p.startBlock ≤ currentBlock →
      (s.advancerQuorum proposalId currentBlock =
          some (s.precompileQuorum proposalId currentBlock) ↔
        s.QuorumAgrees p.proposalType)) := by
  intro p
  refine ⟨decision_agrees_iff hid, ?_⟩
  intro hpen hdone hsta
  rw [advancerQuorum_eq hpen hdone, precompileQuorum_eq hpen hsta, Option.some_inj, eq_comm]
  exact quorum_agrees_iff s p.proposalType

/-! ### Three validators and a fee currency -/

/-- The validators vote, the last one with `lastVote`. -/
def feeVotes (lastVote : U8) : List (U64 × Event) :=
  [feeProposal, (1, .call (.method 7 (.vote 1 1))), (1, .call (.method 8 (.vote 1 1))),
    (1, .call (.method 9 (.vote 1 lastVote)))]

def reviewingValidators : State :=
  { threeValidators with
    gov := { config := fun suffix =>
      if suffix = Param.votingPeriod.suffix then 100
      else if suffix = Param.reviewPeriod.suffix then 10 else 0 } }

/-- Two of three validators vote for the proposal and one abstains. The advancer defeats
it, `queue` queues it; and they open it with different quorums. -/
theorem decisions_differ : (let s := Run.run Event.step threeValidators (feeVotes 3)
     (s.gov.proposal 1).status = .active ∧ (s.gov.proposal 1).endBlock < 102 ∧
      s.advancerDecision 1 102 = some .defeated ∧ s.queueDecision 1 102 = .queued) ∧
    (let s := Event.step reviewingValidators feeProposal
     (s.gov.proposal 1).status = .pending ∧ s.advancerQuorum 1 11 = some 2 ∧
      s.precompileQuorum 1 11 = 3) := by
  decide

theorem decisions_agree_iff_at_votes :
    (let s := Run.run Event.step threeValidators (feeVotes 1)
     s.gov.ValidId 1 ∧ s.advancerDecision 1 102 = some .queued ∧ s.queueDecision 1 102 = .queued ∧
      s.DecisionAgrees 1 102) ∧
    (let s := Event.step reviewingValidators feeProposal
     (s.gov.proposal 1).status = .pending ∧ ¬ s.QuorumAgrees (s.gov.proposal 1).proposalType) := by
  refine ⟨⟨by decide, by decide, by decide, ?_⟩, by decide, fun hagr => ?_⟩
  · exact ((decisions_agree_iff _ 1 102 (by decide)).1 (by decide) (by decide)).1 (by decide)
  · have hsame := ((decisions_agree_iff _ 1 11 (by decide)).2 (by decide) (by decide)
      (by decide)).2 hagr
    exact absurd hsame (by decide)

end Callchain.Governance

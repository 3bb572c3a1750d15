/-
# Votes of validators

Most proposals are decided by validators: the quorum is a share of their number, and it
is compared with the sum of the voting powers. A validator's power is one vote, or its
CALL balance where that is more, and anybody else votes with their balance. So the sum
counts validators only if every vote has power one.
-/
import Callchain.Governance.Calls

namespace Callchain.Governance

open Asset Precompile
open Function (update update_of_ne update_self)

/-- The types whose quorum is a share of the validators. For a `ProtocolUpgrade` the
advancer may ask for a share of the supply. -/
def ProposalType.byValidators : ProposalType → Bool
  | .parameterChange | .validatorSlash | .emergencyPause | .feeCurrencyAdd | .feeCurrencyRemove
  | .feeCurrencyCap | .validatorKeyRotation | .proverKeyRotation => true
  | .protocolUpgrade | .treasurySpend | .complianceUpdate | .unsupported _ => false

def GovernanceConfig.share (c : GovernanceConfig) (proposalType : ProposalType) : ℕ :=
  if proposalType = .emergencyPause then c.emergencyPauseBps.toNat else c.validatorQuorumBps.toNat

def AdvanceConfig.share (c : AdvanceConfig) : ProposalType → ℕ
  | .parameterChange | .validatorSlash | .protocolUpgrade => c.validatorQuorumBps.toNat
  | .emergencyPause => c.emergencyPauseBps.toNat
  | .feeCurrencyAdd | .feeCurrencyRemove | .feeCurrencyCap | .validatorKeyRotation
  | .proverKeyRotation | .treasurySpend | .complianceUpdate | .unsupported _ =>
    c.simpleMajorityBps.toNat

/-! ### The quorum as a number of validators -/

theorem bpsCeil_mono {n bps bps' : ℕ} (h : bps ≤ bps') : bpsCeil n bps ≤ bpsCeil n bps' := by
  unfold bpsCeil
  have hmul : n * bps ≤ n * bps' := Nat.mul_le_mul_left n h
  omega

theorem quorum_toNat (c : GovernanceConfig) (n : U64) {kind : ProposalType}
    (ht : kind.byValidators = true) (hfits : bpsCeil n.toNat (c.share kind) < 2 ^ 64) :
    (c.quorum n kind).toNat = bpsCeil n.toNat (c.share kind) := by
  cases kind with
  | protocolUpgrade | treasurySpend | complianceUpdate | unsupported => cases ht
  | _ => exact (validators_toNat _ _).trans (Nat.mod_eq_of_lt hfits)

theorem computeQuorum_toNat (c : AdvanceConfig) {kind : ProposalType}
    (ht : kind.byValidators = true) :
    (c.computeQuorum kind).toNat = bpsCeil c.totalValidators.toNat (c.share kind) := by
  cases kind with
  | protocolUpgrade | treasurySpend | complianceUpdate | unsupported => cases ht
  | _ => exact c.validatorShare_toNat _

/-! ### The tallies -/

def Proposal.votes (p : Proposal) : ℕ :=
  p.votesFor.toNat + p.votesAgainst.toNat + p.votesAbstain.toNat

theorem saturatingAdd_le (a b : U128) : (U128.saturatingAdd a b).toNat ≤ a.toNat + b.toNat := by
  rw [saturatingAdd_toNat]
  exact min_le_left _ _

theorem tallied_votes_le (p : Proposal) (voteVal : U8) (votingPower : U128) :
    (p.tallied voteVal votingPower).votes ≤ p.votes + votingPower.toNat := by
  unfold Proposal.tallied Proposal.votes
  have hfor := saturatingAdd_le p.votesFor votingPower
  have haga := saturatingAdd_le p.votesAgainst votingPower
  have habs := saturatingAdd_le p.votesAbstain votingPower
  split_ifs <;> dsimp only <;> omega

theorem quorum_le_votes {p : Proposal} {n : U64} (h : p.hasQuorum n = true) :
    p.quorumRequired.toNat ≤ p.votes := by
  unfold Proposal.hasQuorum at h
  split_ifs at h with hpos
  · have hle := BitVec.le_def.1 (of_decide_eq_true h)
    have h₁ := saturatingAdd_le (U128.saturatingAdd p.votesFor p.votesAgainst) p.votesAbstain
    have h₂ := saturatingAdd_le p.votesFor p.votesAgainst
    unfold Proposal.votes
    omega
  all_goals
    rw [BitVec.lt_def, not_lt] at hpos
    exact le_trans hpos (Nat.zero_le _)

theorem quorum_le_votes_of_passes {p : Proposal} (h : p.passes = true) :
    p.quorumRequired.toNat ≤ p.votes := by
  have h := (of_decide_eq_true h).1
  split_ifs at h with hpos
  · have hle := BitVec.le_def.1 (of_decide_eq_true h)
    rw [BitVec.toNat_add] at hle
    unfold Proposal.votes
    omega
  · rw [BitVec.lt_def, not_lt] at hpos
    exact le_trans hpos (Nat.zero_le _)

/-! ### The rolls -/

structure Roll where
  required : ℕ := 0
  voters : List Address := []

def State.validatorsRequired (s : State) (proposalType : ProposalType) : ℕ :=
  bpsCeil s.validators.validatorCount.toNat
    (s.gov.ensureConfigInitialized.governanceConfig.share proposalType)

def Event.voter : Event → Option Address
  | .call (.method caller (.vote _ _)) => some caller
  | _ => none

/-- The voters of a proposal after a call by `voter`: a registered validator is
added when its vote is recorded. -/
def Roll.signed (r : Roll) (s t : State) (proposalId : U64) : Option Address → List Address
  | some caller =>
    if s.isValidator caller ∧ s.gov.voter proposalId caller = 0 ∧
        t.gov.voter proposalId caller ≠ 0 then caller :: r.voters
    else r.voters
  | none => r.voters

theorem Roll.signed_some (r : Roll) (s t : State) (pid : U64) (caller : Address) :
    r.signed s t pid (some caller) = if s.isValidator caller ∧ s.gov.voter pid caller = 0 ∧
        t.gov.voter pid caller ≠ 0 then caller :: r.voters else r.voters := rfl

def Roll.next (r : Roll) (s : State) (e : U64 × Event) (proposalId : U64) : Roll :=
  let t := Event.step s e
  let before := s.gov.proposal proposalId
  let after := t.gov.proposal proposalId
  if t.gov.proposalCount ≠ s.gov.proposalCount ∧ proposalId = s.gov.proposalCount + 1 then
    { required := s.validatorsRequired after.proposalType }
  else
    { required := if before.status = .pending ∧ after.status ≠ .pending
        then s.validatorsRequired before.proposalType else r.required
      voters := r.signed s t proposalId e.2.voter }

def rolls (s : State) (e : U64 × Event) (r : U64 → Roll) (proposalId : U64) : Roll :=
  (r proposalId).next s e proposalId

/-- A vote on a proposal of the validators is by a validator with at most one unit of
CALL, unless its power comes from no balance; the advancer opens none with a lower share
than the configured one; and the share of the validators fits its word. -/
structure Event.OneVote (s : State) (e : U64 × Event) : Prop where
  vote : ∀ caller proposalId voteVal, e.2 = .call (.method caller (.vote proposalId voteVal)) →
    (s.gov.proposal proposalId).proposalType.byValidators = true →
    (s.gov.proposal proposalId).proposalType ≠ .emergencyPause →
      s.isValidator caller = true ∧ s.callBalance caller ≤ 1
  share : e.2 = .call .advance → ∀ proposalId,
    (s.gov.proposal proposalId).status = .pending →
    (s.gov.proposal proposalId).proposalType.byValidators = true →
      s.gov.ensureConfigInitialized.governanceConfig.share
          (s.gov.proposal proposalId).proposalType ≤
        s.advanceConfig.share (s.gov.proposal proposalId).proposalType
  fits : ∀ proposalType : ProposalType, proposalType.byValidators = true →
    s.validatorsRequired proposalType < 2 ^ 64

/-- A proposal of the validators has no more votes than voters, and it is queued with
enough of them. -/
structure Tally (p : Proposal) (voted : Address → U128) (r : Roll) : Prop where
  distinct : r.voters.Nodup
  recorded : ∀ a ∈ r.voters, voted a ≠ 0
  counted : p.proposalType.byValidators = true → p.votes ≤ r.voters.length
  fixed : p.proposalType.byValidators = true → p.status = .active →
    r.required ≤ p.quorumRequired.toNat
  quorate : p.proposalType.byValidators = true → p.status = .queued →
    r.required ≤ r.voters.length

/-! ### One vote each -/

section Power

variable {s : State} {caller : Address}

theorem validatorOrBalance_one (hv : s.isValidator caller = true) (hb : s.callBalance caller ≤ 1) :
    s.validatorOrBalance caller = 1 := by
  unfold State.validatorOrBalance
  dsimp only
  split_ifs with hone
  · exact BitVec.le_antisymm hb hone
  · rfl

theorem votingPower_one {kind : ProposalType} (ht : kind.byValidators = true)
    (h : kind ≠ .emergencyPause → s.isValidator caller = true ∧ s.callBalance caller ≤ 1)
    (hpow : s.votingPower caller kind ≠ 0) :
    s.isValidator caller = true ∧ s.votingPower caller kind = 1 := by
  by_cases hpau : kind = .emergencyPause
  · subst hpau
    have hv : s.isValidator caller = true := by
      by_contra hv
      exact hpow (if_neg hv)
    exact ⟨hv, if_pos hv⟩
  · obtain ⟨hv, hb⟩ := h hpau
    refine ⟨hv, ?_⟩
    have hone := validatorOrBalance_one hv hb
    cases kind with
    | protocolUpgrade | treasurySpend | complianceUpdate | unsupported => cases ht
    | emergencyPause => exact absurd rfl hpau
    | _ => exact hone

end Power

/-! ### The rolls count the votes -/

section Counting

variable {s : State} {now pid : U64} {voted : Address → U128} {r : Roll}

theorem Tally.of_closed {p q : Proposal} (h : Tally p voted r) (required : ℕ)
    (htype : q.proposalType = p.proposalType) (hvot : q.votes = p.votes)
    (hact : q.status ≠ .active) (hque : q.status ≠ .queued) :
    Tally q voted { r with required := required } where
  distinct := h.distinct
  recorded := h.recorded
  counted := by
    rw [htype, hvot]
    exact h.counted
  fixed := fun _ hq => absurd hq hact
  quorate := fun _ hq => absurd hq hque

variable {p : Proposal}

theorem Tally.of_opened (h : Tally (s.gov.proposal pid) voted r)
    (hope : Opened s now pid p) (hact : p.status = .active)
    (hfits : p.proposalType.byValidators = true → s.validatorsRequired p.proposalType < 2 ^ 64) :
    Tally p voted
      { r with required := if (s.gov.proposal pid).status = .pending
          then s.validatorsRequired (s.gov.proposal pid).proposalType else r.required } := by
  rcases hope with rfl | ⟨hpen, -, rfl⟩
  · rw [if_neg (by rw [hact]; decide)]
    exact h
  · rw [if_pos hpen]
    refine ⟨h.distinct, h.recorded, h.counted, ?_, ?_⟩
    · intro ht _
      exact le_of_eq (quorum_toNat _ _ ht (hfits ht)).symm
    · intro _ hq
      cases hq

variable {caller : Address}

theorem Tally.vote (h : Tally p voted r) (hact : p.status = .active)
    (voteVal : U8) {votingPower : U128} {isValidator : Bool}
    (hvot : voted caller = 0) (hpow : votingPower ≠ 0)
    (hone : p.proposalType.byValidators = true → isValidator = true ∧ votingPower = 1) :
    Tally (p.tallied voteVal votingPower) (update voted caller votingPower)
      { r with voters := if isValidator = true then caller :: r.voters else r.voters } where
  distinct := by
    split_ifs
    · exact List.nodup_cons.2 ⟨fun hmem => h.recorded caller hmem hvot, h.distinct⟩
    · exact h.distinct
  recorded := by
    have hrest : ∀ a ∈ r.voters, update voted caller votingPower a ≠ 0 := by
      intro a ha
      rw [update_of_ne fun heq => h.recorded a ha (by rw [heq, hvot])]
      exact h.recorded a ha
    split_ifs
    · intro a ha
      rcases List.mem_cons.1 ha with rfl | ha
      · rwa [update_self]
      · exact hrest a ha
    · exact hrest
  counted := by
    intro ht
    rw [tallied_proposalType] at ht
    obtain ⟨hv, hone⟩ := hone ht
    have hle := tallied_votes_le p voteVal votingPower
    have hp := h.counted ht
    rw [hone] at hle ⊢
    rw [if_pos hv]
    exact le_trans hle (Nat.add_le_add_right hp 1)
  fixed := by
    intro ht _
    rw [tallied_proposalType] at ht
    have hquo : (p.tallied voteVal votingPower).quorumRequired = p.quorumRequired := by
      unfold Proposal.tallied
      split_ifs <;> rfl
    rw [hquo]
    exact h.fixed ht hact
  quorate := by
    intro _ hq
    rw [tallied_status, hact] at hq
    cases hq

theorem Tally.enqueued (h : Tally p voted r) (hact : p.status = .active)
    (hquo : p.quorumRequired.toNat ≤ p.votes) (timelock : U64) :
    Tally (p.enqueued now timelock) voted r where
  distinct := h.distinct
  recorded := h.recorded
  counted := h.counted
  fixed := fun _ hq => by cases hq
  quorate := fun ht _ => le_trans (h.fixed ht hact) (le_trans hquo (h.counted ht))

theorem Tally.of_move {c : Call} (hr : Tally (s.gov.proposal pid) voted r)
    (he : Event.OneVote s (now, .call c))
    (hcou : (step s (now, c)).gov.proposalCount = s.gov.proposalCount)
    (hvote : ∀ caller voteVal, c ≠ .method caller (.vote pid voteVal)) (h : Move s now c pid p) :
    Tally p voted
      { r with required := if (s.gov.proposal pid).status = .pending ∧ p.status ≠ .pending
          then s.validatorsRequired (s.gov.proposal pid).proposalType else r.required } := by
  cases h with
  | same =>
    rw [if_neg fun hp => hp.2 hp.1]
    exact hr
  | submits call fresh grows =>
    exact absurd grows (by bv_omega)
  | votes call => exact absurd call (hvote _ _)
  | @queues caller q bps call unpaused opened active quorum majority fits =>
    have hsta : (q.enqueued now s.gov.timelock).status ≠ .pending := by
      show Status.queued ≠ .pending
      decide
    simp only [and_iff_left hsta]
    exact (hr.of_opened opened active (he.fits _)).enqueued active (quorum_le_votes quorum) _
  | opens call pending =>
    rw [if_pos ⟨pending, by show Status.active ≠ .pending; decide⟩]
    refine ⟨hr.distinct, hr.recorded, hr.counted, ?_, fun _ hq => by cases hq⟩
    intro ht _
    rw [computeQuorum_toNat s.advanceConfig ht]
    exact bpsCeil_mono (he.share (by rw [call]) pid pending ht)
  | passes call active ended passed =>
    rw [if_neg (by rw [active]; exact fun hp => by cases hp.1)]
    exact hr.enqueued active (quorum_le_votes_of_passes passed) _
  | executes call queued =>
    exact hr.of_closed _ rfl rfl (by show Status.executed ≠ .active; decide)
      (by show Status.executed ≠ .queued; decide)
  | @closes deposit status closed =>
    refine hr.of_closed _ rfl rfl ?_ ?_
    · show status ≠ .active
      rcases closed with rfl | rfl <;> decide
    · show status ≠ .queued
      rcases closed with rfl | rfl <;> decide

theorem Tally.of_submit {kind : ProposalType} {data : Bytes} {t : State}
    (he : Event.OneVote s (now, .call (.method caller (.submitProposal kind data))))
    (h : s.exec caller now (.submitProposal kind data) = (t, .ok ())) :
    Tally (t.gov.proposal (s.gov.proposalCount + 1)) voted
      { required := s.validatorsRequired
          (t.gov.proposal (s.gov.proposalCount + 1)).proposalType } := by
  obtain ⟨id, hsub⟩ := exec_submit h
  obtain ⟨quorum, hquo, -, hpro, -, -⟩ := submitProposal_wrote hsub
  rw [hpro, update_self]
  have hsta : (s.submitted kind data caller now).status =
    if s.gov.readConfigU64 .reviewPeriod = 0 then .active else .pending := rfl
  refine ⟨List.nodup_nil, fun a ha => absurd ha List.not_mem_nil, fun _ => le_refl 0, ?_, ?_⟩
  · intro ht hact
    have ht : kind.byValidators = true := ht
    rw [show Proposal.status _ = _ from hsta] at hact
    rcases hquo with ⟨-, hrev⟩ | ⟨hquo, -⟩
    · rw [if_neg hrev] at hact
      cases hact
    · rw [hquo, quorum_toNat _ _ ht (he.fits _ ht)]
      exact le_refl _
  · intro _ hq
    rw [show Proposal.status _ = _ from hsta] at hq
    split_ifs at hq

theorem Tally.of_vote {id : U64} {voteVal : U8}
    (hr : Tally (s.gov.proposal pid) (s.gov.voter pid) r)
    (he : Event.OneVote s (now, .call (.method caller (.vote id voteVal)))) :
    let t := step s (now, .method caller (.vote id voteVal))
    Tally (t.gov.proposal pid) (t.gov.voter pid)
      { required := if (s.gov.proposal pid).status = .pending ∧
            (t.gov.proposal pid).status ≠ .pending
          then s.validatorsRequired (s.gov.proposal pid).proposalType else r.required
        voters := r.signed s t pid (some caller) } := by
  intro t
  by_cases hsame : t.gov.proposal pid = s.gov.proposal pid ∧ t.gov.voter pid = s.gov.voter pid
  · rw [Roll.signed_some, hsame.1, hsame.2, if_neg fun h => h.2 h.1, if_neg fun h => h.2.2 h.2.1]
    exact hr
  rcases step_vote s now caller id voteVal with
    h | ⟨p, hope, hact, hvot, hpow, hpro, hvote, -⟩
  · have h : t = s := h
    exact absurd ⟨by rw [h], by rw [h]⟩ hsame
  by_cases hid : pid = id
  · subst hid
    have htype := hope.proposalType
    have hself : t.gov.voter pid = update (s.gov.voter pid) caller
        (s.votingPower caller (s.gov.proposal pid).proposalType) := by
      rw [hvote, update_self]
    have hsta : (p.tallied voteVal
        (s.votingPower caller (s.gov.proposal pid).proposalType)).status ≠ .pending := by
      rw [tallied_status, hact]
      decide
    have hone : p.proposalType.byValidators = true → s.isValidator caller = true ∧
        s.votingPower caller (s.gov.proposal pid).proposalType = 1 := by
      intro ht
      rw [htype] at ht
      exact votingPower_one ht (he.vote _ _ _ rfl ht) hpow
    have hsig : r.signed s t pid (some caller) =
        if s.isValidator caller = true then caller :: r.voters else r.voters := by
      rw [Roll.signed_some, hself, update_self]
      simp only [hvot, hpow, ne_eq, not_false_eq_true, and_self, and_true]
    rw [hsig, hself, hpro, update_self]
    simp only [and_iff_left hsta]
    exact (hr.of_opened hope hact (he.fits _)).vote hact voteVal hvot hpow hone
  · exact absurd ⟨by rw [hpro, update_of_ne hid], by rw [hvote, update_of_ne hid]⟩ hsame

end Counting

def AllTallied (s : State) (r : U64 → Roll) : Prop :=
  ∀ proposalId, Tally (s.gov.proposal proposalId) (s.gov.voter proposalId) (r proposalId)

theorem Event.voter_of_not_vote {c : Call}
    (h : ¬ ∃ caller id voteVal, c = .method caller (.vote id voteVal)) :
    (Event.call c).voter = none := by
  unfold Event.voter
  split
  · rename_i caller id voteVal heq
    cases heq
    exact absurd ⟨caller, id, voteVal, rfl⟩ h
  · rfl

theorem AllTallied.step {s : State} {r : U64 → Roll} (h : AllTallied s r) {e : U64 × Event}
    (he : Event.OneVote s e) : AllTallied (Event.step s e) (rolls s e r) := by
  intro proposalId
  have hr := h proposalId
  show Tally _ _ (Roll.next _ _ _ _)
  unfold Roll.next
  obtain ⟨currentBlock, c | ⟨assets, validators, compliance⟩⟩ := e
  · rcases step_proposalCount s currentBlock c with
      hcou | ⟨caller, proposalType, executionData, t, rfl, hexec, hstep⟩
    · rw [if_neg fun hn => hn.1 hcou]
      by_cases hvote : ∃ caller id voteVal, c = .method caller (.vote id voteVal)
      · obtain ⟨caller, id, voteVal, rfl⟩ := hvote
        exact hr.of_vote he
      · have hvot : (Governance.step s (currentBlock, c)).gov.voter = s.gov.voter := by
          have hrec := step_recorded s currentBlock c
          generalize (Governance.step s (currentBlock, c)).gov.voter = voter at hrec
          cases hrec with
          | none => rfl
          | vote call => exact absurd ⟨_, _, _, call⟩ hvote
        rw [Event.voter_of_not_vote hvote]
        show Tally _ ((Governance.step s (currentBlock, c)).gov.voter proposalId) _
        rw [hvot]
        exact hr.of_move he hcou (fun caller voteVal hc => hvote ⟨caller, proposalId, voteVal, hc⟩)
          (step_move s currentBlock c proposalId)
    · obtain ⟨id, hsub⟩ := exec_submit hexec
      obtain ⟨quorum, -, -, hpro, hvos, hgro⟩ := submitProposal_wrote hsub
      have heve : Event.step s (currentBlock, .call
          (.method caller (.submitProposal proposalType executionData))) = t := hstep
      rw [heve]
      by_cases hid : proposalId = s.gov.proposalCount + 1
      · rw [if_pos ⟨by rw [hgro]; bv_omega, hid⟩, hid]
        exact .of_submit he hexec
      · rw [if_neg fun hn => hid hn.2, hpro, update_of_ne hid, voter_of_votes hvos,
          if_neg fun hp => hp.2 hp.1]
        exact hr
  · -- the storage of governance is not written
    rw [if_neg fun hn => hn.1 rfl]
    rw [if_neg fun hp => hp.2 hp.1]
    exact hr

/-- **Validators decide.** In a run from a chain without proposals in which every vote on a
proposal of the validators has power one, a queued one has at least the required number of
distinct registered validators among its voters. -/
theorem queued_by_validators (s : State) (hs : s.gov.proposal = fun _ => {})
    (events : List (U64 × Event)) (h : Run.Along Event.step Event.OneVote s events)
    (proposalId : U64) :
    let p := (Run.run Event.step s events).gov.proposal proposalId
    let roll := (Run.run (Run.watched Event.step rolls) (s, fun _ => {}) events).2 proposalId
    p.proposalType.byValidators = true → p.status = .queued →
      roll.voters.Nodup ∧ roll.required ≤ roll.voters.length := by
  have hsta : AllTallied s fun _ => {} := by
    intro i
    rw [hs]
    exact ⟨List.nodup_nil, fun a ha => absurd ha List.not_mem_nil, fun _ => le_refl 0,
      fun _ _ => le_refl 0, fun _ hq => by cases hq⟩
  have hrun := Run.watched_invariant (I := AllTallied) (fun _ _ _ hi hc => hi.step hc) h hsta
    proposalId
  intro p roll ht hque
  exact ⟨hrun.distinct, hrun.quorate ht hque⟩

/-! ### A whale and three validators -/

/-- Address 5 is no validator, votes alone for its proposal and queues it, where three
validators are required. -/
theorem queued_by_balance :
    let events : List (U64 × Event) :=
      [feeProposal, (1, .call (.method 5 (.vote 1 1))), (2, .call (.method 5 (.queue 1)))]
    let p := (Run.run Event.step threeValidators events).gov.proposal 1
    let roll := (Run.run (Run.watched Event.step rolls) (threeValidators, fun _ => {}) events).2 1
    p.proposalType.byValidators = true ∧ p.status = .queued ∧
      roll.required = 3 ∧ roll.voters = [] := by
  decide

theorem validatorsRequired_lt {s : State} (h : s.validators.validatorCount.toNat ≤ 2 ^ 32)
    (kind : ProposalType) : s.validatorsRequired kind < 2 ^ 64 := by
  have hsha : s.gov.ensureConfigInitialized.governanceConfig.share kind < 2 ^ 32 := by
    unfold GovernanceConfig.share
    split_ifs <;> exact BitVec.isLt _
  have hmul := Nat.mul_le_mul h hsha.le
  unfold State.validatorsRequired bpsCeil
  omega

theorem Event.oneVote_method {s : State} {now : U64} {caller : Address} {m : Method}
    (hn : s.validators.validatorCount.toNat ≤ 2 ^ 32)
    (h : ∀ proposalId voteVal, m = .vote proposalId voteVal →
      s.isValidator caller = true ∧ s.callBalance caller ≤ 1) :
    Event.OneVote s (now, .call (.method caller m)) where
  vote := by
    intro caller' proposalId voteVal he _ _
    cases he
    exact h proposalId voteVal rfl
  share := fun he => by cases he
  fits := fun proposalType _ => validatorsRequired_lt hn proposalType

def feeEvents : List (U64 × Event) :=
  [feeProposal, (1, .call (.method 7 (.vote 1 2))), (1, .call (.method 8 (.vote 1 1))),
    (1, .call (.method 9 (.vote 1 1))), (2, .call (.method 5 (.queue 1)))]

theorem queued_by_validators_at_fee :
    let p := (Run.run Event.step threeValidators feeEvents).gov.proposal 1
    let roll :=
      (Run.run (Run.watched Event.step rolls) (threeValidators, fun _ => {}) feeEvents).2 1
    p.status = .queued ∧ roll.required = 3 ∧ roll.voters = [9, 8, 7] ∧
      roll.required ≤ roll.voters.length := by
  intro p roll
  have hone : Run.Along Event.step Event.OneVote threeValidators feeEvents := by
    refine ⟨Event.oneVote_method (by decide) ?_, Event.oneVote_method (by decide) ?_,
      Event.oneVote_method (by decide) ?_, Event.oneVote_method (by decide) ?_,
      Event.oneVote_method (by decide) ?_, trivial⟩
    · intro proposalId voteVal h
      cases h
    · intro proposalId voteVal h
      decide
    · intro proposalId voteVal h
      decide
    · intro proposalId voteVal h
      decide
    · intro proposalId voteVal h
      cases h
  refine ⟨by decide, by decide, by decide, ?_⟩
  exact (queued_by_validators threeValidators rfl feeEvents hone 1 (by decide) (by decide)).2

end Callchain.Governance

/-
# Governance as the chain runs it

The precompile hands a call on to `GovernanceStorage` with the sender's voting power or
authority, and takes back all writes of a call that fails. Between calls the node runs
the advancer, and other parts of it write to the balances, the validators and the
compliance slots. This module has the calls, the run they make, and all that one step
can do to a proposal.
-/
import Callchain.Governance.Advancer
import Callchain.Lib.Run

namespace Callchain.Governance

open Asset Validator Precompile GovernanceStorage
open Function (update update_idem update_of_ne update_self)

namespace State

variable (s : State)

/-- The CALL balance that a vote counts; one that cannot be read counts as
none. -/
def callBalance (caller : Address) : U128 :=
  match s.assets.readBalance callAssetId caller with
  | .ok balance => balance
  | .error _ => 0

def isValidator (caller : Address) : Bool := s.validators.validatorByAddr caller ≠ 0

def validatorOrBalance (caller : Address) : U128 :=
  let one : U128 := if s.isValidator caller then 1 else 0
  if one ≤ s.callBalance caller then s.callBalance caller else one

def votingPower (caller : Address) : ProposalType → U128
  | .parameterChange | .protocolUpgrade | .validatorSlash => s.validatorOrBalance caller
  | .treasurySpend => s.callBalance caller
  | .complianceUpdate =>
    U128.saturatingAdd (if s.isValidator caller then 1 else 0) (s.callBalance caller)
  | .emergencyPause => if s.isValidator caller then 1 else 0
  | .feeCurrencyAdd | .feeCurrencyRemove | .feeCurrencyCap | .validatorKeyRotation
  | .proverKeyRotation => s.validatorOrBalance caller
  | .unsupported _ => s.callBalance caller

end State

/-- A signature for this round, unless the caller gave one; rounds start at 1. -/
def Signatures.sign (sigs : Signatures) (caller : Address) (already : String) :
    Signatures × Except PrecompileError Unit :=
  let epoch := if sigs.epoch = 0 then 1 else sigs.epoch
  if epoch ≤ sigs.sigEpoch caller then ({ sigs with epoch := epoch }, .error (.other already))
  else
    ({ epoch := epoch
       sigEpoch := update sigs.sigEpoch caller epoch
       sigCount := sigs.sigCount + 1 }, .ok ())

def Signatures.nextRound (sigs : Signatures) : Signatures :=
  { sigs with epoch := sigs.epoch + 1, sigCount := 0 }

namespace GovernanceStorage

def emergencyPause (g : GovernanceStorage) (reason : B256) :
    GovernanceStorage × Except PrecompileError Unit :=
  if g.paused then (g, .error (.other "governance: already paused"))
  else ({ g with paused := true, pauseReason := reason }, .ok ())

def emergencyResume (g : GovernanceStorage) : GovernanceStorage × Except PrecompileError Unit :=
  if ¬ g.paused then (g, .error (.other "governance: not paused"))
  else ({ g with paused := false, pauseReason := 0 }, .ok ())

end GovernanceStorage

/-- The methods of `IProtocolGovernance` that write. -/
inductive Method where
  | submitProposal (proposalType : ProposalType) (executionData : Bytes)
  | vote (proposalId : U64) (vote : U8)
  | queue (proposalId : U64)
  | execute (proposalId : U64)
  | cancelProposal (proposalId : U64)
  | emergencyPause (reason : B256)
  | emergencyResume
  deriving DecidableEq

namespace State

variable (s : State)

/-- `GovernancePrecompile::emergency_pause` -/
def signPause (reason : B256) (caller : Address) : State × Except PrecompileError Unit :=
  if s.gov.paused then (s, .error (.other "governance: already paused"))
  else if ¬ s.isValidator caller then
    (s, .error (.other "sender not a registered validator"))
  else match s.gov.pauseSigs.sign caller "governance: already signed emergency pause" with
  | (sigs, .error e) => ({ s with gov := { s.gov with pauseSigs := sigs } }, .error e)
  | (sigs, .ok ()) =>
    let gov := { s.gov with pauseSigs := sigs }.ensureConfigInitialized
    if sigs.sigCount <
        gov.governanceConfig.emergencyPauseThreshold s.validators.validatorCount then
      ({ s with gov := gov }, .ok ())
    else match gov.emergencyPause reason with
    | (gov, .error e) => ({ s with gov := gov }, .error e)
    | (gov, .ok ()) => ({ s with gov := { gov with pauseSigs := sigs.nextRound } }, .ok ())

/-- `GovernancePrecompile::emergency_resume` -/
def signResume (caller : Address) : State × Except PrecompileError Unit :=
  if ¬ s.gov.paused then (s, .error (.other "governance: not paused"))
  else if ¬ s.isValidator caller then
    (s, .error (.other "sender not a registered validator"))
  else match s.gov.resumeSigs.sign caller "governance: already signed emergency resume" with
  | (sigs, .error e) => ({ s with gov := { s.gov with resumeSigs := sigs } }, .error e)
  | (sigs, .ok ()) =>
    let gov := { s.gov with resumeSigs := sigs }.ensureConfigInitialized
    if sigs.sigCount <
        gov.governanceConfig.emergencyPauseThreshold s.validators.validatorCount then
      ({ s with gov := gov }, .ok ())
    else match gov.emergencyResume with
    | (gov, .error e) => ({ s with gov := gov }, .error e)
    | (gov, .ok ()) => ({ s with gov := { gov with resumeSigs := sigs.nextRound } }, .ok ())

/-- `GovernancePrecompile`, after `require_caller` -/
def execMethod (caller : Address) (currentBlock : U64) :
    Method → State × Except PrecompileError Unit
  | .submitProposal proposalType executionData =>
    if s.compliance.status caller ≠ 0 then (s, .error (.other "compliance check failed"))
    else
      let r := s.submitProposal proposalType executionData caller currentBlock
      (r.1, r.2.map fun _ => ())
  | .vote proposalId vote =>
    s.vote proposalId vote caller
      (s.votingPower caller (s.gov.proposal proposalId).proposalType) currentBlock
  | .queue proposalId =>
    if caller ≠ (s.gov.proposal proposalId).proposer ∧ ¬ s.isValidator caller then
      (s, .error (.other "governance: unauthorized to queue"))
    else s.queue proposalId currentBlock
  | .execute proposalId => s.execute proposalId currentBlock
  | .cancelProposal proposalId => s.cancelProposal proposalId caller
  | .emergencyPause reason => s.signPause reason caller
  | .emergencyResume => s.signResume caller

def exec (caller : Address) (currentBlock : U64) (m : Method) :
    State × Except PrecompileError Unit :=
  if caller = 0 then (s, .error (.other "caller not available"))
  else s.execMethod caller currentBlock m

/-- `mutate_void`: a call that fails leaves nothing behind. -/
def settle (r : State × Except PrecompileError Unit) : State :=
  match r with
  | (t, .ok ()) => t
  | (_, .error _) => s

end State

inductive Call where
  | method (caller : Address) (m : Method)
  | advance
  deriving DecidableEq

/-- A call in a block. Where the advancer panics the run stays. -/
def step (s : State) : U64 × Call → State
  | (currentBlock, .method caller m) => s.settle (s.exec caller currentBlock m)
  | (currentBlock, .advance) => (s.advance currentBlock).getD s

/-- What happens on the chain: a call, or writes of other parts of the node to the
storage that governance reads. -/
inductive Event where
  | call (c : Call)
  | elsewhere (assets : AssetStorage) (validators : ValidatorStorage)
      (compliance : ComplianceStorage)

def Event.step (s : State) : U64 × Event → State
  | (currentBlock, .call c) => Governance.step s (currentBlock, c)
  | (_, .elsewhere assets validators compliance) =>
    { s with assets := assets, validators := validators, compliance := compliance }

/-! ### What a step does to a proposal -/

/-- The proposal as a vote or a queue call finds it: as it is stored, or just
opened. -/
def Opened (s : State) (currentBlock proposalId : U64) (p : Proposal) : Prop :=
  p = s.gov.proposal proposalId ∨
    (s.gov.proposal proposalId).status = .pending ∧
      (s.gov.proposal proposalId).startBlock ≤ currentBlock ∧ p = s.opened proposalId

/-- All the ways in which a call or the advancer changes the proposal with an id. -/
inductive Move (s : State) (currentBlock : U64) (c : Call) (proposalId : U64) : Proposal → Prop where
  | same : Move s currentBlock c proposalId (s.gov.proposal proposalId)
  | submits {caller proposalType executionData quorum}
      (call : c = .method caller (.submitProposal proposalType executionData))
      (fresh : proposalId = s.gov.proposalCount + 1)
      (grows : (step s (currentBlock, c)).gov.proposalCount = s.gov.proposalCount + 1)
      (fits : currentBlock.toNat + (s.gov.readConfigU64 .reviewPeriod).toNat +
        (s.gov.readConfigU64 .votingPeriod).toNat < 2 ^ 64)
      (fixed : quorum = 0 ∨ quorum = s.gov.ensureConfigInitialized.governanceConfig.quorum
        s.validators.validatorCount proposalType ∧ s.gov.readConfigU64 .reviewPeriod = 0) :
      Move s currentBlock c proposalId
        { s.submitted proposalType executionData caller currentBlock with
          quorumRequired := quorum }
  | votes {caller voteVal p} (call : c = .method caller (.vote proposalId voteVal))
      (opened : Opened s currentBlock proposalId p) (active : p.status = .active)
      (open' : currentBlock < p.endBlock) (unvoted : s.gov.voter proposalId caller = 0) :
      Move s currentBlock c proposalId (p.tallied voteVal
        (s.votingPower caller (s.gov.proposal proposalId).proposalType))
  | queues {caller p bps} (call : c = .method caller (.queue proposalId))
      (unpaused : s.gov.paused = false) (opened : Opened s currentBlock proposalId p)
      (active : p.status = .active)
      (quorum : p.hasQuorum s.validators.validatorCount = true)
      (majority : p.hasMajority bps = true)
      (fits : p.proposalType ≠ .emergencyPause →
        currentBlock.toNat + s.gov.timelock.toNat < 2 ^ 64) :
      Move s currentBlock c proposalId (p.enqueued currentBlock s.gov.timelock)
  | opens (call : c = .advance) (pending : (s.gov.proposal proposalId).status = .pending) :
      Move s currentBlock c proposalId
        { s.gov.proposal proposalId with
          status := .active
          quorumRequired :=
            s.advanceConfig.computeQuorum (s.gov.proposal proposalId).proposalType }
  | passes (call : c = .advance) (active : (s.gov.proposal proposalId).status = .active)
      (ended : (s.gov.proposal proposalId).endBlock < currentBlock)
      (passed : (s.gov.proposal proposalId).passes = true) :
      Move s currentBlock c proposalId
        ((s.gov.proposal proposalId).enqueued currentBlock s.gov.timelock)
  | executes {deposit}
      (call : c = .advance ∨ (∃ caller, c = .method caller (.execute proposalId)) ∧
        (s.gov.paused = true → (s.gov.proposal proposalId).proposalType = .emergencyPause))
      (queued : (s.gov.proposal proposalId).status = .queued)
      (due : (s.gov.proposal proposalId).executionBlock ≤ currentBlock)
      (early : ¬ (s.gov.proposal proposalId).TimedOut s.gov.executionTimeout currentBlock) :
      Move s currentBlock c proposalId
        { s.gov.proposal proposalId with deposit := deposit, status := .executed }
  | closes {deposit status} (closed : status = .defeated ∨ status = .expired) :
      Move s currentBlock c proposalId
        { s.gov.proposal proposalId with deposit := deposit, status := status }

theorem Move.of_executed {s : State} {now pid : U64} {c : Call} {p : Proposal}
    (h : Move s now c pid p)
    (hbef : (s.gov.proposal pid).status ≠ .executed) (haft : p.status = .executed) :
    (c = .advance ∨ ∃ caller, c = .method caller (.execute pid)) ∧
      (s.gov.proposal pid).status = .queued ∧ (s.gov.proposal pid).executionBlock ≤ now ∧
      ¬ (s.gov.proposal pid).TimedOut s.gov.executionTimeout now ∧
      p.proposalType = (s.gov.proposal pid).proposalType := by
  cases h with
  | same => exact absurd haft hbef
  | submits =>
    have haft : (if s.gov.readConfigU64 .reviewPeriod = 0 then Status.active else .pending) =
      .executed := haft
    split_ifs at haft
  | votes call opened active =>
    rw [tallied_status, active] at haft
    cases haft
  | executes call queued due early =>
    exact ⟨call.imp_right And.left, queued, due, early, rfl⟩
  | @closes deposit status closed =>
    rcases closed with rfl | rfl <;> cases haft
  | _ => cases haft

section Moves

variable {s t : State} {caller : Address} {now proposalId : U64}

theorem State.settle_cases (s : State) (r : State × Except PrecompileError Unit) :
    s.settle r = s ∨ r = (s.settle r, .ok ()) := by
  rcases r with ⟨t, e | ⟨⟩⟩
  · exact .inl rfl
  · exact .inr rfl

theorem autoAdvance_opened (s : State) (now pid : U64) : Opened s now pid
      ((s.autoAdvance pid now).gov.proposal pid) := by
  rcases s.autoAdvance_cases pid now with h | ⟨hpen, hsta, h⟩
  · rw [h]
    exact .inl rfl
  · rw [h]
    exact .inr ⟨hpen, hsta, setProposal_self ..⟩

theorem autoAdvance_wrote (s : State) (now pid : U64) :
    ∃ p, State.Wrote s (s.autoAdvance pid now) pid p := by
  obtain ⟨p, config, initialized, h⟩ := s.autoAdvance_gov pid now
  rw [h]
  exact ⟨p, rfl, rfl, rfl⟩

variable {p : Proposal} {data : Bytes} {u : Unit} {i : U64}

theorem Opened.endBlock (h : Opened s now proposalId p) :
    p.endBlock = (s.gov.proposal proposalId).endBlock := by
  rcases h with rfl | ⟨-, -, rfl⟩ <;> rfl

theorem Opened.proposalType (h : Opened s now proposalId p) :
    p.proposalType = (s.gov.proposal proposalId).proposalType := by
  rcases h with rfl | ⟨-, -, rfl⟩ <;> rfl

theorem Opened.status_ne (h : Opened s now proposalId p) (active : p.status = .active) :
    (s.gov.proposal proposalId).status ≠ .queued := by
  rcases h with rfl | ⟨pending, -, -⟩
  · rw [active]
    decide
  · rw [pending]
    decide

variable {kind : ProposalType}

theorem submitProposal_wrote {id : U64} (h : s.submitProposal kind data caller now = (t, .ok id)) :
    ∃ quorum, (quorum = 0 ∧ s.gov.readConfigU64 .reviewPeriod ≠ 0 ∨
        quorum = s.gov.ensureConfigInitialized.governanceConfig.quorum
          s.validators.validatorCount kind ∧ s.gov.readConfigU64 .reviewPeriod = 0) ∧
      now.toNat + (s.gov.readConfigU64 .reviewPeriod).toNat +
        (s.gov.readConfigU64 .votingPeriod).toNat < 2 ^ 64 ∧
      t.gov.proposal = update s.gov.proposal (s.gov.proposalCount + 1)
        { s.submitted kind data caller now with
          quorumRequired := quorum } ∧
      t.gov.votes = s.gov.votes ∧ t.gov.proposalCount = s.gov.proposalCount + 1 := by
  obtain ⟨assets, -, hlt, rfl⟩ := State.submitProposal_eq_ok h
  set s' : State := { s with gov := s.gov.ensureConfigInitialized, assets := assets } with hs'
  obtain ⟨config, initialized, lastSubmission, -, hrec⟩ :=
    s'.recordProposal_gov kind data caller now
  have hcou : s'.gov.proposalCount = s.gov.proposalCount :=
    s.gov.ensureConfigInitialized_proposalCount
  have hrev : s'.gov.readConfigU64 .reviewPeriod = s.gov.readConfigU64 .reviewPeriod := by
    unfold readConfigU64
    rw [s.gov.ensureConfigInitialized_config (by decide)]
  have hvot : s'.gov.readConfigU64 .votingPeriod = s.gov.readConfigU64 .votingPeriod := by
    unfold readConfigU64
    rw [s.gov.ensureConfigInitialized_config (by decide)]
  have hsub : s'.submitted kind data caller now = s.submitted kind data caller now := by
    unfold State.submitted
    rw [hcou, hrev, hvot, show s'.gov.proposal = s.gov.proposal from
      s.gov.ensureConfigInitialized_proposal]
  have hvote : s'.gov.votes = s.gov.votes := by
    obtain ⟨config', initialized', hinit⟩ := s.gov.ensureConfigInitialized_eq
    rw [hs', hinit]
    rfl
  refine ⟨s'.submittedQuorum kind, ?_, hlt, ?_, ?_, ?_⟩
  · unfold State.submittedQuorum
    rw [hrev]
    split_ifs with h0
    · exact .inr ⟨by rw [s.gov.ensureConfigInitialized_idem], h0⟩
    · exact .inl ⟨rfl, h0⟩
  · rw [hrec, hcou, hsub, ← s.gov.ensureConfigInitialized_proposal]
    rfl
  · rw [hrec]
    exact hvote
  · rw [hrec, hcou]

theorem exec_ok {m : Method} (h : s.exec caller now m = (t, .ok u)) :
    s.execMethod caller now m = (t, .ok u) :=
  (ite_failed_eq_ok.1 h).2

theorem exec_queue (h : s.exec caller now (.queue proposalId) = (t, .ok u)) :
    s.queue proposalId now = (t, .ok u) :=
  (ite_failed_eq_ok.1 (exec_ok h)).2

theorem exec_submit (h : s.exec caller now (.submitProposal kind data) = (t, .ok u)) :
    ∃ id, s.submitProposal kind data caller now = (t, .ok id) := by
  have h := (ite_failed_eq_ok.1 (exec_ok h)).2
  rcases hr : s.submitProposal kind data caller now with ⟨t', e | id⟩
  · rw [hr] at h
    cases h
  · rw [hr] at h
    obtain ⟨rfl, -⟩ := Prod.mk.inj h
    exact ⟨id, rfl⟩

theorem move_submit (h : s.exec caller now (.submitProposal kind data) = (t, .ok u)) :
    Move s now (.method caller (.submitProposal kind data)) i (t.gov.proposal i) := by
  obtain ⟨id, hsub⟩ := exec_submit h
  obtain ⟨quorum, hquo, hlt, hpro, -, hcou⟩ := submitProposal_wrote hsub
  have hgro : (step s (now, .method caller (.submitProposal kind data))).gov.proposalCount =
        s.gov.proposalCount + 1 := by
    dsimp only [step]
    rw [h]
    exact hcou
  rw [hpro]
  by_cases hi : i = s.gov.proposalCount + 1
  · rw [hi, update_self]
    exact .submits rfl rfl hgro hlt (hquo.imp_left And.left)
  · rw [update_of_ne hi]
    exact .same

theorem move_vote {voteVal : U8} (h : s.vote proposalId voteVal caller
      (s.votingPower caller (s.gov.proposal proposalId).proposalType) now = (t, .ok u)) :
    Move s now (.method caller (.vote proposalId voteVal)) i (t.gov.proposal i) := by
  obtain ⟨-, -, hact, hend, hvot, -, rfl⟩ := State.vote_eq_ok h
  obtain ⟨p, hwro⟩ := autoAdvance_wrote s now proposalId
  rw [hwro.voter] at hvot
  by_cases hi : i = proposalId
  · subst hi
    have hself := (s.autoAdvance i now).gov.setProposal_self i
      (((s.autoAdvance i now).gov.proposal i).tallied voteVal
        (s.votingPower caller (s.gov.proposal i).proposalType))
    show Move s now _ i (((s.autoAdvance i now).gov.setProposal i _).proposal i)
    rw [hself]
    exact .votes rfl (autoAdvance_opened s now i) hact hend hvot
  · show Move s now _ i
      (((s.autoAdvance proposalId now).gov.setProposal proposalId _).proposal i)
    rw [setProposal_of_ne _ _ _ hi, hwro.of_ne hi]
    exact .same

theorem move_queue (h : s.queue proposalId now = (t, .ok u)) :
    Move s now (.method caller (.queue proposalId)) i (t.gov.proposal i) := by
  obtain ⟨hpau, -, hact, hquo, hmaj, hfits, rfl⟩ := State.queue_eq_ok h
  have hset := State.wrote_setProposal (s.autoAdvance proposalId now) proposalId
    (((s.autoAdvance proposalId now).gov.proposal proposalId).enqueued now
      s.gov.timelock)
  by_cases hi : i = proposalId
  · subst hi
    rw [hset.self]
    exact .queues rfl hpau (autoAdvance_opened s now i) hact hquo hmaj hfits
  · obtain ⟨p, hwro⟩ := autoAdvance_wrote s now proposalId
    rw [hset.of_ne hi, hwro.of_ne hi]
    exact .same

theorem move_execute (h : s.execute proposalId now = (t, .ok u)) :
    Move s now (.method caller (.execute proposalId)) i (t.gov.proposal i) := by
  obtain ⟨hpau, hque, hdue, hear, hcar⟩ := State.execute_eq_ok h
  obtain ⟨deposit, hwro⟩ := State.carryOut_wrote hcar
  by_cases hi : i = proposalId
  · subst hi
    rw [hwro.self]
    exact .executes (.inr ⟨⟨caller, rfl⟩, hpau⟩) hque hdue hear
  · rw [hwro.of_ne hi]
    exact .same

theorem move_cancel {c : Call} (h : s.cancelProposal proposalId caller = (t, .ok u)) :
    Move s now c i (t.gov.proposal i) := by
  obtain ⟨deposit, hwro⟩ := State.cancelProposal_wrote h
  by_cases hi : i = proposalId
  · subst hi
    rw [hwro.self]
    exact .closes (.inl rfl)
  · rw [hwro.of_ne hi]
    exact .same

theorem ensureConfigInitialized_pauseSigs (g : GovernanceStorage) (sigs : Signatures) :
    { g with pauseSigs := sigs }.ensureConfigInitialized =
      { g.ensureConfigInitialized with pauseSigs := sigs } := by
  unfold ensureConfigInitialized
  split_ifs
  · rfl
  · simp only [writeConfigU32, writeConfigU128]

theorem ensureConfigInitialized_resumeSigs (g : GovernanceStorage) (sigs : Signatures) :
    { g with resumeSigs := sigs }.ensureConfigInitialized =
      { g.ensureConfigInitialized with resumeSigs := sigs } := by
  unfold ensureConfigInitialized
  split_ifs
  · rfl
  · simp only [writeConfigU32, writeConfigU128]

theorem signPause_eq_ok {reason : B256} (h : s.signPause reason caller = (t, .ok u)) :
    s.gov.paused = false ∧ s.isValidator caller = true ∧ ∃ sigs already,
      s.gov.pauseSigs.sign caller already = (sigs, .ok ()) ∧
      let gov := s.gov.ensureConfigInitialized
      let few := sigs.sigCount <
        gov.governanceConfig.emergencyPauseThreshold s.validators.validatorCount
      (few ∧ t = { s with gov := { gov with pauseSigs := sigs } } ∨
        ¬ few ∧ t = { s with gov := { gov with
          paused := true, pauseReason := reason, pauseSigs := sigs.nextRound } }) := by
  unfold State.signPause at h
  rw [ite_failed_eq_ok, ite_failed_eq_ok] at h
  obtain ⟨hpau, hval, h⟩ := h
  split at h
  · cases h
  · rename_i sigs hsign
    rw [ensureConfigInitialized_pauseSigs] at h
    dsimp only [emergencyPause] at h
    refine ⟨eq_false_of_ne_true hpau, not_not.1 hval, sigs, _, hsign, ?_⟩
    split_ifs at h with hfew
    · exact .inl ⟨hfew, (Prod.mk.inj h).1.symm⟩
    · cases h
    · exact .inr ⟨hfew, (Prod.mk.inj h).1.symm⟩

theorem signResume_eq_ok (h : s.signResume caller = (t, .ok u)) :
    s.gov.paused = true ∧ s.isValidator caller = true ∧ ∃ sigs already,
      s.gov.resumeSigs.sign caller already = (sigs, .ok ()) ∧
      let gov := s.gov.ensureConfigInitialized
      let few := sigs.sigCount <
        gov.governanceConfig.emergencyPauseThreshold s.validators.validatorCount
      (few ∧ t = { s with gov := { gov with resumeSigs := sigs } } ∨
        ¬ few ∧ t = { s with gov := { gov with
          paused := false, pauseReason := 0, resumeSigs := sigs.nextRound } }) := by
  unfold State.signResume at h
  rw [ite_failed_eq_ok, ite_failed_eq_ok] at h
  obtain ⟨hpau, hval, h⟩ := h
  split at h
  · cases h
  · rename_i sigs hsign
    rw [ensureConfigInitialized_resumeSigs] at h
    dsimp only [emergencyResume] at h
    refine ⟨not_not.1 hpau, not_not.1 hval, sigs, _, hsign, ?_⟩
    split_ifs at h with hfew
    · exact .inl ⟨hfew, (Prod.mk.inj h).1.symm⟩
    · exact .inr ⟨hfew, (Prod.mk.inj h).1.symm⟩
    · cases h

theorem sameTables_signPause {reason : B256} (h : s.signPause reason caller = (t, .ok u)) :
    s.SameTables t ∧ t.assets = s.assets := by
  obtain ⟨config, initialized, hgov⟩ := s.gov.ensureConfigInitialized_eq
  obtain ⟨-, -, sigs, -, -, ⟨-, rfl⟩ | ⟨-, rfl⟩⟩ := signPause_eq_ok h <;>
  · rw [hgov]
    exact ⟨⟨rfl, rfl, rfl⟩, rfl⟩

theorem sameTables_signResume (h : s.signResume caller = (t, .ok u)) :
    s.SameTables t ∧ t.assets = s.assets := by
  obtain ⟨config, initialized, hgov⟩ := s.gov.ensureConfigInitialized_eq
  obtain ⟨-, -, sigs, -, -, ⟨-, rfl⟩ | ⟨-, rfl⟩⟩ := signResume_eq_ok h <;>
  · rw [hgov]
    exact ⟨⟨rfl, rfl, rfl⟩, rfl⟩

theorem move_exec {m : Method} (h : s.exec caller now m = (t, .ok u))
    (i : U64) : Move s now (.method caller m) i (t.gov.proposal i) := by
  cases m with
  | submitProposal => exact move_submit h
  | vote => exact move_vote (exec_ok h)
  | queue => exact move_queue (exec_queue h)
  | execute => exact move_execute (exec_ok h)
  | cancelProposal => exact move_cancel (exec_ok h)
  | emergencyPause =>
    rw [(sameTables_signPause (exec_ok h)).1.proposal]
    exact .same
  | emergencyResume =>
    rw [(sameTables_signResume (exec_ok h)).1.proposal]
    exact .same

theorem Move.of_advanced {u v : State} (hu : u.gov.proposal proposalId = s.gov.proposal proposalId)
    (h : State.Advanced s.advanceConfig now u proposalId v) :
    Move s now .advance proposalId (v.gov.proposal proposalId) := by
  cases h with
  | stay => rw [hu]; exact .same
  | opens pending =>
    rw [hu] at pending ⊢
    rw [(State.wrote_setProposal u proposalId _).self]
    exact .opens rfl pending
  | queues active ended passes =>
    rw [hu] at active ended passes ⊢
    rw [(State.wrote_setProposal u proposalId _).self]
    exact .passes rfl active ended passes
  | defeats =>
    unfold State.confiscate
    rw [(State.wrote_setProposal u proposalId _).self, hu]
    exact .closes (.inl rfl)
  | expires =>
    unfold State.confiscate
    rw [(State.wrote_setProposal u proposalId _).self, hu]
    exact .closes (.inr rfl)
  | executes queued due early effect =>
    obtain ⟨deposit, hwro⟩ := State.settle_wrote proposalId effect
    rw [hwro.self, hu]
    rw [hu] at queued due early
    exact .executes (.inl rfl) queued due early

theorem step_move (s : State) (now : U64) (c : Call) (i : U64) :
    Move s now c i ((step s (now, c)).gov.proposal i) := by
  cases c with dsimp only [step]
  | method caller m =>
    rcases s.settle_cases (s.exec caller now m) with h | h
    · rw [h]
      exact .same
    · exact move_exec h i
  | advance =>
    cases hadv : s.advance now with
    | none => exact .same
    | some =>
      rcases State.advance_proposal hadv i with h | ⟨u, v, hu, hv, ht⟩
      · rw [Option.getD_some, h]
        exact .same
      · rw [Option.getD_some, ht]
        exact .of_advanced hu hv

structure State.SameRolls (s t : State) : Prop where
  votes : t.gov.votes = s.gov.votes
  proposalCount : t.gov.proposalCount = s.gov.proposalCount

inductive Recorded (s : State) (c : Call) : (U64 → Address → U128) → Prop where
  | none : Recorded s c s.gov.voter
  | vote {caller proposalId voteVal} (call : c = .method caller (.vote proposalId voteVal))
      (unvoted : s.gov.voter proposalId caller = 0)
      (power : s.votingPower caller (s.gov.proposal proposalId).proposalType ≠ 0) :
      Recorded s c (update s.gov.voter proposalId
        (update (s.gov.voter proposalId) caller
          (s.votingPower caller (s.gov.proposal proposalId).proposalType)))

theorem step_rolls (s : State) (now : U64) (c : Call) :
    s.SameRolls (step s (now, c)) ∨ ∃ caller m, c = .method caller m ∧
      s.exec caller now m = (step s (now, c), .ok ()) ∧
      ((∃ kind data, m = .submitProposal kind data) ∨ ∃ pid voteVal, m = .vote pid voteVal) := by
  cases c with
  | advance =>
    left
    dsimp only [step]
    cases hadv : s.advance now with
    | none => exact ⟨rfl, rfl⟩
    | some =>
      refine State.advance_induction (P := s.SameRolls) hadv ⟨rfl, rfl⟩ ?_
      intro u i v hu _ hv
      obtain ⟨p, hwro⟩ := hv.wrote
      exact ⟨hwro.votes.trans hu.votes, hwro.proposalCount.trans hu.proposalCount⟩
  | method caller m =>
    dsimp only [step]
    rcases s.settle_cases (s.exec caller now m) with h | h
    · exact .inl (by rw [h]; exact ⟨rfl, rfl⟩)
    cases m with
    | submitProposal kind data => exact .inr ⟨caller, _, rfl, h, .inl ⟨kind, data, rfl⟩⟩
    | vote pid voteVal => exact .inr ⟨caller, _, rfl, h, .inr ⟨pid, voteVal, rfl⟩⟩
    | queue pid =>
      obtain ⟨-, -, -, -, -, -, ht⟩ := State.queue_eq_ok (exec_queue h)
      obtain ⟨p, hwro⟩ := autoAdvance_wrote s now pid
      rw [ht]
      exact .inl ⟨hwro.votes, hwro.proposalCount⟩
    | execute =>
      obtain ⟨deposit, hwro⟩ := State.carryOut_wrote (State.execute_eq_ok (exec_ok h)).2.2.2.2
      exact .inl ⟨hwro.votes, hwro.proposalCount⟩
    | cancelProposal =>
      obtain ⟨deposit, hwro⟩ := State.cancelProposal_wrote (exec_ok h)
      exact .inl ⟨hwro.votes, hwro.proposalCount⟩
    | emergencyPause =>
      have hsame := (sameTables_signPause (exec_ok h)).1
      exact .inl ⟨hsame.votes, hsame.proposalCount⟩
    | emergencyResume =>
      have hsame := (sameTables_signResume (exec_ok h)).1
      exact .inl ⟨hsame.votes, hsame.proposalCount⟩

theorem step_recorded (s : State) (now : U64) (c : Call) :
    Recorded s c (step s (now, c)).gov.voter := by
  rcases step_rolls s now c with h | ⟨caller, m, rfl, h, ⟨kind, data, rfl⟩ | ⟨pid, voteVal, rfl⟩⟩
  · rw [voter_of_votes h.votes]
    exact .none
  · obtain ⟨id, hsub⟩ := exec_submit h
    obtain ⟨quorum, -, -, -, hvote, -⟩ := submitProposal_wrote hsub
    rw [voter_of_votes hvote]
    exact .none
  · obtain ⟨-, -, -, -, hvot, hpow, ht⟩ := State.vote_eq_ok (exec_ok h)
    obtain ⟨p, hwro⟩ := autoAdvance_wrote s now pid
    rw [hwro.voter] at hvot
    have hrec := Recorded.vote rfl hvot hpow (c := .method caller (.vote pid voteVal))
    rw [← hwro.voter] at hrec
    rw [ht]
    exact hrec

theorem step_vote (s : State) (now : U64) (caller : Address) (pid : U64) (voteVal : U8) :
    let t := step s (now, .method caller (.vote pid voteVal))
    let votingPower := s.votingPower caller (s.gov.proposal pid).proposalType
    t = s ∨ ∃ p, Opened s now pid p ∧ p.status = .active ∧
      s.gov.voter pid caller = 0 ∧ votingPower ≠ 0 ∧
      t.gov.proposal = update s.gov.proposal pid (p.tallied voteVal votingPower) ∧
      t.gov.voter = update s.gov.voter pid
        (update (s.gov.voter pid) caller votingPower) ∧
      t.assets = s.assets := by
  intro t votingPower
  rcases s.settle_cases (s.exec caller now (.vote pid voteVal)) with h | h
  · exact .inl h
  right
  obtain ⟨-, -, hact, -, hvot, hpow, ht⟩ := State.vote_eq_ok (exec_ok h)
  have ht : t = _ := ht
  obtain ⟨q, hwro⟩ := autoAdvance_wrote s now pid
  rw [hwro.voter] at hvot
  refine ⟨(s.autoAdvance pid now).gov.proposal pid,
    autoAdvance_opened s now pid, hact, hvot, hpow, ?_, ?_, ?_⟩
  · rw [ht]
    show update (s.autoAdvance pid now).gov.proposal pid _ = _
    rw [hwro.proposal, update_idem]
  · rw [ht, ← hwro.voter]
    rfl
  · obtain ⟨p, config, initialized, hgov⟩ := s.autoAdvance_gov pid now
    rw [ht, hgov]

theorem step_proposalCount (s : State) (now : U64) (c : Call) :
    (step s (now, c)).gov.proposalCount = s.gov.proposalCount ∨ ∃ caller proposalType data t,
        c = .method caller (.submitProposal proposalType data) ∧
        s.exec caller now (.submitProposal proposalType data) = (t, .ok ()) ∧
        step s (now, c) = t := by
  rcases step_rolls s now c with h | ⟨caller, m, rfl, h, ⟨kind, data, rfl⟩ | ⟨pid, voteVal, rfl⟩⟩
  · exact .inl h.proposalCount
  · exact .inr ⟨caller, kind, data, _, rfl, h, rfl⟩
  · obtain ⟨-, -, -, -, -, -, ht⟩ := State.vote_eq_ok (exec_ok h)
    obtain ⟨p, hwro⟩ := autoAdvance_wrote s now pid
    exact .inl (by rw [ht]; exact hwro.proposalCount)

end Moves

/-! ### A chain with one validator -/

def soleValidator : State where
  gov := { config := fun suffix => if suffix = Param.votingPeriod.suffix then 100 else 0 }
  assets := { balance := fun _ addr => if addr = 7 then 10000000000000000000000 else 0 }
  validators := { validatorByAddr := fun addr => if addr = 7 then 1 else 0, validatorCount := 1 }

def upgradeVote : List (U64 × Event) :=
  [(1, .call (.method 7 (.submitProposal .protocolUpgrade (List.replicate 32 1)))),
    (1, .call (.method 7 (.vote 1 1)))]

def upgradeQueued : List (U64 × Event) := upgradeVote ++ [(101, .call (.method 7 (.queue 1)))]

/-! ### A chain with three validators -/

/-- Address 5 can pay for a proposal and has three units of CALL left; there are three
other validators. -/
def threeValidators : State where
  gov := { config := fun suffix => if suffix = Param.votingPeriod.suffix then 100 else 0 }
  assets := { balance := fun _ addr => if addr = 5 then 10000000000000000000003 else 0 }
  validators :=
    { validatorByAddr := fun addr =>
        if addr = 7 then 1 else if addr = 8 then 2 else if addr = 9 then 3 else 0
      validatorCount := 3 }

def feeProposal : U64 × Event :=
  (1, .call (.method 5 (.submitProposal .feeCurrencyAdd (List.replicate 32 1))))

end Callchain.Governance

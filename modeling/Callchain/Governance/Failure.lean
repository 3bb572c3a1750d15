/-
# Calls that fail and blocks that stop

`queue` and `execute` end a proposal that lost its vote or waited too long, and then
report an error. `mutate_void` takes back every write of a call that reports one, so the
proposal is not defeated, and the deposit not refunded.

The advancer has no errors to report. A slice out of range stops the node, and so does a
sum that does not fit where the build checks for it.
-/
import Callchain.Governance.Calls

namespace Callchain.Governance

open Asset

/-! ### Ends that do not last -/

/-- What a `queue` call finds where it defeats the proposal. -/
structure State.FallsShort (s : State) (caller : Address) (currentBlock proposalId : U64) :
    Prop where
  known : caller ≠ 0
  authorized : caller = (s.gov.proposal proposalId).proposer ∨ s.isValidator caller
  unpaused : s.gov.paused = false
  valid : s.gov.ValidId proposalId
  active : ((s.autoAdvance proposalId currentBlock).gov.proposal proposalId).status = .active
  short : let o := s.autoAdvance proposalId currentBlock
    (o.gov.proposal proposalId).hasQuorum o.validators.validatorCount = false ∨
      (o.gov.proposal proposalId).hasMajority (o.gov.bpsOr .simpleMajorityBps 5001) = false

structure State.Overdue (s : State) (caller : Address) (currentBlock proposalId : U64) :
    Prop where
  known : caller ≠ 0
  valid : s.gov.ValidId proposalId
  unpaused : s.gov.paused = true → (s.gov.proposal proposalId).proposalType = .emergencyPause
  queued : (s.gov.proposal proposalId).status = .queued
  late : (s.gov.proposal proposalId).TimedOut s.gov.executionTimeout currentBlock

/-- The deposit, where there is one, has gone to the proposer once. -/
def Refunded (s t : State) (proposalId : U64) : Prop :=
  let p := s.gov.proposal proposalId
  0 < p.deposit ∧ p.proposer ≠ 0 →
    s.assets.addBalance callAssetId p.proposer p.deposit = .ok t.assets ∧
      (t.gov.proposal proposalId).deposit = 0

section Ends

variable {s : State} {caller : Address} {now pid : U64}

theorem State.FallsShort.step_eq (h : s.FallsShort caller now pid) :
    step s (now, .method caller (.queue pid)) = s := by
  have hauth : ¬ (caller ≠ (s.gov.proposal pid).proposer ∧ ¬ s.isValidator caller) := fun hn =>
    h.authorized.elim hn.1 hn.2
  have hexec : s.exec caller now (.queue pid) = s.queue pid now :=
    (if_neg h.known).trans (if_neg hauth)
  dsimp only [step]
  rw [hexec]
  rcases hr : s.queue pid now with ⟨t, e | u⟩
  · rfl
  · obtain ⟨-, -, -, hquo, hmaj, -⟩ := State.queue_eq_ok hr
    obtain ⟨p, config, initialized, ho⟩ := s.autoAdvance_gov pid now
    have hval : (s.autoAdvance pid now).validators = s.validators := by rw [ho]
    have hsho := h.short
    dsimp only at hsho
    rw [hval, hquo, hmaj] at hsho
    simp at hsho

theorem State.Overdue.step_eq (h : s.Overdue caller now pid) :
    step s (now, .method caller (.execute pid)) = s := by
  have hexec : s.exec caller now (.execute pid) = s.execute pid now := if_neg h.known
  dsimp only [step]
  rw [hexec]
  rcases hr : s.execute pid now with ⟨t, e | u⟩
  · rfl
  · exact absurd h.late (State.execute_eq_ok hr).2.2.2.1

/-- **Failed calls end proposals.** A `queue` call defeats a proposal that falls short, and an
`execute` call expires and refunds an overdue one, exactly where they find none. -/
theorem failed_call_ends_iff (s : State) (caller : Address) (now pid : U64) :
    (let queued := step s (now, .method caller (.queue pid))
      let executed := step s (now, .method caller (.execute pid))
      (s.FallsShort caller now pid → (queued.gov.proposal pid).status = .defeated) ∧
        (s.Overdue caller now pid → (executed.gov.proposal pid).status = .lapsed ∧
          Refunded s executed pid)) ↔
      ¬ s.FallsShort caller now pid ∧ ¬ s.Overdue caller now pid := by
  constructor
  · rintro ⟨hque, hexecute⟩
    refine ⟨fun hsho => ?_, fun hover => ?_⟩
    · have hsta := hque hsho
      rw [hsho.step_eq] at hsta
      -- the call opened the proposal or found it active, and left it so
      have hact := hsho.active
      rcases s.autoAdvance_cases pid now with h | ⟨hpen, -⟩
      · rw [h, hsta] at hact
        cases hact
      · rw [hsta] at hpen
        cases hpen
    · have hsta := (hexecute hover).1
      rw [hover.step_eq, hover.queued] at hsta
      cases hsta
  · rintro ⟨hsho, hover⟩
    exact ⟨fun h => absurd h hsho, fun h => absurd h hover⟩

/-- Nobody votes, and the proposal stays active; nobody executes, and it stays queued
with its deposit. -/
theorem failed_calls_forgotten :
    let unvoted := Run.run Event.step soleValidator (upgradeVote.take 1)
    let waiting := Run.run Event.step soleValidator upgradeQueued
    unvoted.FallsShort 7 101 1 ∧
      ((step unvoted (101, .method 7 (.queue 1))).gov.proposal 1).status = .active ∧
      waiting.Overdue 7 1000000000 1 ∧
      (let p := (step waiting (1000000000, .method 7 (.execute 1))).gov.proposal 1
      p.status = .queued ∧ 0 < p.deposit ∧ p.proposer = 7) := by
  refine ⟨⟨?_, ?_, ?_, ?_, ?_, ?_⟩, ?_, ⟨?_, ?_, ?_, ?_, ?_⟩, ?_⟩ <;> decide +kernel

end Ends

/-! ### Blocks that stop -/

/-- The sums of a visit that their types do not hold: of the votes, and of the block and
the timelock. -/
def Proposal.Overflows (p : Proposal) (c : AdvanceConfig) (currentBlock : U64) : Prop :=
  p.status = .active ∧ p.endBlock < currentBlock ∧
    (2 ^ 128 ≤ p.votesFor.toNat + p.votesAgainst.toNat ∨
      p.passes = true ∧ p.proposalType ≠ .emergencyPause ∧
        2 ^ 64 ≤ currentBlock.toNat + c.timelock.toNat)

instance (p : Proposal) (c : AdvanceConfig) (currentBlock : U64) :
    Decidable (p.Overflows c currentBlock) :=
  inferInstanceAs (Decidable (_ ∧ _))

/-- A spend whose data passes the check for 48 bytes and ends before byte 64. -/
def Proposal.CutShort (p : Proposal) (c : AdvanceConfig) (currentBlock : U64) : Prop :=
  p.status = .queued ∧ ¬ p.TimedOut c.execTimeout currentBlock ∧
    p.executionBlock ≤ currentBlock ∧ p.proposalType = .treasurySpend ∧
    48 ≤ p.executionData.length ∧ p.executionData.length < 64

namespace State

/-- The loop body where a sum that does not fit stops it too: only an open vote has sums. -/
def advanceChecked (c : AdvanceConfig) (currentBlock : U64) (s : State) (proposalId : U64) :
    Option State :=
  let p := s.gov.proposal proposalId
  match p.status with
  | .active =>
    if p.endBlock < currentBlock then
      if 2 ^ 128 ≤ p.votesFor.toNat + p.votesAgainst.toNat then none
      else if p.passes then
        if p.proposalType ≠ .emergencyPause ∧ 2 ^ 64 ≤ currentBlock.toNat + c.timelock.toNat then
          none
        else some (s.setProposal proposalId (p.enqueued currentBlock c.timelock))
      else some (s.confiscate proposalId .defeated)
    else some s
  | _ => advanceProposal c currentBlock s proposalId

/-- `advance` with every sum checked. -/
def checkedAdvance (s : State) (currentBlock : U64) : Option State :=
  Sweep.sweep (advanceChecked s.advanceConfig currentBlock) s.proposalIds s

variable {c : AdvanceConfig} {s : State} {now pid : U64}

theorem applySideEffects_eq_none {data : Bytes} {kind : ProposalType} :
    s.applySideEffects data kind = none ↔
      kind = .treasurySpend ∧ 48 ≤ data.length ∧ data.length < 64 := by
  cases kind with dsimp only [applySideEffects]
  | treasurySpend => split_ifs with h48 h64 <;> simp <;> omega
  | _ =>
    try split_ifs
    all_goals simp

theorem advanceProposal_eq_none :
    advanceProposal c now s pid = none ↔ (s.gov.proposal pid).CutShort c now := by
  unfold advanceProposal Proposal.CutShort
  dsimp only
  cases hsta : (s.gov.proposal pid).status with dsimp only
  | queued =>
    split_ifs with hlate hdue
    · simp [hlate]
    · simp [hlate, hdue, applySideEffects_eq_none]
    · simp [hdue]
  | _ =>
    try split_ifs
    all_goals simp

theorem advanceChecked_eq : advanceChecked c now s pid =
    if (s.gov.proposal pid).Overflows c now then none else advanceProposal c now s pid := by
  unfold advanceChecked advanceProposal
  split_ifs with h
  · obtain ⟨hsta, hend, hsum⟩ := h
    simp only [hsta, hend, if_true]
    rcases hsum with hvotes | ⟨hpas, hlate⟩
    · exact if_pos hvotes
    · rw [if_pos hpas, if_pos hlate, ite_self]
  · unfold Proposal.Overflows at h
    cases hsta : (s.gov.proposal pid).status with simp only [hsta]
    | active =>
      by_cases hend : (s.gov.proposal pid).endBlock < now
      · have hsum := not_or.1 fun hsum => h ⟨hsta, hend, hsum⟩
        rw [if_pos hend, if_pos hend, if_neg hsum.1]
        by_cases hpas : (s.gov.proposal pid).passes = true
        · rw [if_pos hpas, if_pos hpas, if_neg fun hlate => hsum.2 ⟨hpas, hlate⟩]
        · rw [if_neg hpas, if_neg hpas]
      · rw [if_neg hend, if_neg hend]

theorem advanceChecked_eq_none : advanceChecked c now s pid = none ↔
      (s.gov.proposal pid).Overflows c now ∨ (s.gov.proposal pid).CutShort c now := by
  rw [advanceChecked_eq]
  split_ifs with h
  · simp [h]
  · simp [h, advanceProposal_eq_none]

/-- **The advancer does not panic.** The advancer gets to the end of a block without a slice out
of range or a sum that does not fit exactly if no proposal is cut short or overflows. -/
theorem checkedAdvance_isSome_iff (s : State) (now : U64) :
    (s.checkedAdvance now).isSome ↔ ∀ pid ∈ s.proposalIds,
      ¬ ((s.gov.proposal pid).Overflows s.advanceConfig now ∨
        (s.gov.proposal pid).CutShort s.advanceConfig now) := by
  refine Sweep.sweep_isSome_iff (fun (u : State) i => u.gov.proposal i) ?_
    (fun p => p.Overflows s.advanceConfig now ∨ p.CutShort s.advanceConfig now)
    (fun u i => advanceChecked_eq_none) s.nodup_proposalIds
  intro u i v hv j hj
  rw [advanceChecked_eq] at hv
  split_ifs at hv
  exact advanceProposal_frame s.advanceConfig now u i v hv j hj

end State

def richProposer : State :=
  { threeValidators with assets := { balance := fun _ addr => if addr = 5 then 2 ^ 120 else 0 } }

/-- A spend with 48 bytes of data is voted for and queued; when it is due the advancer
stops. -/
theorem short_spend_stops :
    let spend : List (U64 × Event) :=
      [(1, .call (.method 5 (.submitProposal .treasurySpend (List.replicate 48 1)))),
        (1, .call (.method 5 (.vote 1 1))), (102, .call .advance)]
    let s := Run.run Event.step richProposer spend
    (s.gov.proposal 1).status = .queued ∧ s.checkedAdvance 202 = none ∧ s.advance 202 = none := by
  refine ⟨?_, ?_, ?_⟩ <;> decide +kernel

end Callchain.Governance

/-
# When a proposal takes effect

A proposal has a review, a vote and a timelock before it, each a number of blocks that
the configuration gives at the time. A run is watched by clocks: that of a proposal
notes the block of its submission with the two periods in force, and the timelock in
force when it is queued.

`queue` does not look at the end of the vote: a proposal with enough votes is queued
while others may still vote.
-/
import Callchain.Governance.Calls

namespace Callchain.Governance

structure Clock where
  submitted : ℕ := 0
  review : ℕ := 0
  voting : ℕ := 0
  timelock : ℕ := 0

def Clock.earliest (c : Clock) : ℕ := c.submitted + c.review + c.voting + c.timelock

structure Watch where
  state : State := {}
  clock : U64 → Clock := fun _ => {}

def Clock.next (c : Clock) (s : State) (e : U64 × Event) (proposalId : U64) : Clock :=
  if (Event.step s e).gov.proposalCount ≠ s.gov.proposalCount ∧
      proposalId = s.gov.proposalCount + 1 then
    { submitted := e.1.toNat
      review := (s.gov.readConfigU64 .reviewPeriod).toNat
      voting := (s.gov.readConfigU64 .votingPeriod).toNat }
  else if (s.gov.proposal proposalId).status ≠ .queued ∧
      ((Event.step s e).gov.proposal proposalId).status = .queued then
    { c with timelock := s.gov.timelock.toNat }
  else c

def Watch.step (w : Watch) (e : U64 × Event) : Watch where
  state := Event.step w.state e
  clock := fun proposalId => (w.clock proposalId).next w.state e proposalId

/-- No proposal but a pause is queued by a call before its vote is over, and the
advancer's sums do not wrap. -/
def Event.Punctual (s : State) (e : U64 × Event) : Prop :=
  (∀ caller proposalId, e.2 = .call (.method caller (.queue proposalId)) →
    (s.gov.proposal proposalId).proposalType ≠ .emergencyPause →
      (s.gov.proposal proposalId).endBlock ≤ e.1) ∧
  (e.2 = .call .advance → e.1.toNat + s.gov.timelock.toNat < 2 ^ 64)

theorem Event.punctual_method {s : State} {now : U64} {caller : Address} {m : Method}
    (h : ∀ proposalId, m = .queue proposalId →
      (s.gov.proposal proposalId).proposalType ≠ .emergencyPause →
        (s.gov.proposal proposalId).endBlock ≤ now) :
    Event.Punctual s (now, .call (.method caller m)) := by
  refine ⟨?_, fun he => by cases he⟩
  intro caller' proposalId he
  cases he
  exact h proposalId rfl

/-- The clock of a proposal is kept: it gives the end of the vote, and a queued
proposal waits for it. -/
structure Kept (p : Proposal) (c : Clock) : Prop where
  ends : p.endBlock.toNat = c.submitted + c.review + c.voting
  waits : p.status = .queued → p.proposalType ≠ .emergencyPause →
    c.earliest ≤ p.executionBlock.toNat

/-! ### The fields that a move keeps -/

section Fields

variable {s : State} {now proposalId : U64} {p : Proposal}

theorem submitted_endBlock (kind : ProposalType) (data : Bytes) (caller : Address)
    (h : now.toNat + (s.gov.readConfigU64 .reviewPeriod).toNat +
      (s.gov.readConfigU64 .votingPeriod).toNat < 2 ^ 64) :
    (s.submitted kind data caller now).endBlock.toNat =
      now.toNat + (s.gov.readConfigU64 .reviewPeriod).toNat +
        (s.gov.readConfigU64 .votingPeriod).toNat := by
  show (now + s.gov.readConfigU64 .reviewPeriod + s.gov.readConfigU64 .votingPeriod).toNat = _
  have hsta : (now + s.gov.readConfigU64 .reviewPeriod).toNat =
      now.toNat + (s.gov.readConfigU64 .reviewPeriod).toNat := by
    rw [BitVec.toNat_add, Nat.mod_eq_of_lt (by omega)]
  rw [BitVec.toNat_add, hsta, Nat.mod_eq_of_lt h]

theorem submitted_status_ne (s : State) (kind : ProposalType) (data : Bytes) (caller : Address)
    (now : U64) : (s.submitted kind data caller now).status ≠ .queued := by
  show (if s.gov.readConfigU64 .reviewPeriod = 0 then Status.active else .pending) ≠ .queued
  split_ifs <;> decide

theorem enqueued_executionBlock {timelock : U64} (htype : p.proposalType ≠ .emergencyPause)
    (h : now.toNat + timelock.toNat < 2 ^ 64) :
    (p.enqueued now timelock).executionBlock.toNat = now.toNat + timelock.toNat := by
  show (if p.proposalType = .emergencyPause then now
    else now + timelock).toNat = _
  rw [if_neg htype, BitVec.toNat_add, Nat.mod_eq_of_lt h]

end Fields

/-! ### The clocks are kept -/

section Keeping

variable {s : State} {now pid : U64} {c : Clock}

theorem Kept.of_move {call : Call} {p : Proposal} (hk : Kept (s.gov.proposal pid) c)
    (hp : Event.Punctual s (now, .call call))
    (hcou : (Governance.step s (now, call)).gov.proposalCount = s.gov.proposalCount)
    (h : Move s now call pid p) :
    Kept p (if (s.gov.proposal pid).status ≠ .queued ∧ p.status = .queued
      then { c with timelock := s.gov.timelock.toNat } else c) := by
  -- a queued proposal has just been queued, at a block after the vote
  have hque : ∀ q : Proposal, q.endBlock = (s.gov.proposal pid).endBlock →
      (s.gov.proposal pid).status ≠ .queued →
      (q.proposalType ≠ .emergencyPause → q.endBlock ≤ now ∧
        now.toNat + s.gov.timelock.toNat < 2 ^ 64) →
      Kept (q.enqueued now s.gov.timelock)
        (if (s.gov.proposal pid).status ≠ .queued ∧ (q.enqueued now s.gov.timelock).status = .queued
          then { c with timelock := s.gov.timelock.toNat } else c) := by
    intro q hend hsta hlate
    rw [if_pos ⟨hsta, rfl⟩]
    constructor
    · show q.endBlock.toNat = _
      rw [hend]
      exact hk.ends
    · intro _ htype
      have htype : q.proposalType ≠ .emergencyPause := htype
      obtain ⟨hle, hfits⟩ := hlate htype
      rw [enqueued_executionBlock htype hfits]
      rw [hend, BitVec.le_def, hk.ends] at hle
      exact Nat.add_le_add_right hle _
  -- in the other moves that change the status, it is not to `queued`
  have hoth : ∀ q : Proposal, q.endBlock = (s.gov.proposal pid).endBlock → q.status ≠ .queued →
      Kept q (if (s.gov.proposal pid).status ≠ .queued ∧ q.status = .queued
        then { c with timelock := s.gov.timelock.toNat } else c) := by
    intro q hend hsta
    rw [if_neg fun hq => hsta hq.2]
    exact ⟨by rw [hend]; exact hk.ends, fun hq => absurd hq hsta⟩
  cases h with
  | same =>
    rw [if_neg fun hq => hq.1 hq.2]
    exact hk
  | submits call fresh grows =>
    exact absurd grows (by bv_omega)
  | votes call opened active =>
    refine hoth _ ?_ ?_
    · rw [tallied_endBlock, opened.endBlock]
    · rw [tallied_status, active]
      decide
  | queues call unpaused opened active quorum majority fits =>
    refine hque _ opened.endBlock (opened.status_ne active) ?_
    intro htype
    refine ⟨?_, fits htype⟩
    rw [opened.proposalType] at htype
    rw [opened.endBlock]
    exact hp.1 _ _ (by rw [call]) htype
  | opens => exact hoth _ rfl (by show Status.active ≠ .queued; decide)
  | passes call active ended =>
    refine hque _ rfl (by rw [active]; decide) ?_
    intro _
    exact ⟨BitVec.le_of_lt ended, hp.2 (by rw [call])⟩
  | executes call queued => exact hoth _ rfl (by show Status.executed ≠ .queued; decide)
  | @closes deposit status closed =>
    refine hoth _ rfl ?_
    show status ≠ .queued
    rcases closed with rfl | rfl <;> decide

theorem Kept.of_submit {caller : Address} {kind : ProposalType} {data : Bytes} {t : State}
    (h : s.exec caller now (.submitProposal kind data) = (t, .ok ())) :
    Kept (t.gov.proposal (s.gov.proposalCount + 1))
      { submitted := now.toNat
        review := (s.gov.readConfigU64 .reviewPeriod).toNat
        voting := (s.gov.readConfigU64 .votingPeriod).toNat } := by
  obtain ⟨id, hsub⟩ := exec_submit h
  obtain ⟨quorum, -, hlt, hpro, -, -⟩ := submitProposal_wrote hsub
  rw [hpro, Function.update_self]
  exact ⟨submitted_endBlock kind data caller hlt,
    fun hq => absurd hq (submitted_status_ne s kind data caller now)⟩

theorem Move.queued_late {call : Call} {p : Proposal} (h : Move s now call pid p)
    (hp : Event.Punctual s (now, .call call)) (hbef : (s.gov.proposal pid).status ≠ .queued)
    (haft : p.status = .queued) (htype : p.proposalType ≠ .emergencyPause) :
    (s.gov.proposal pid).endBlock ≤ now := by
  cases h with
  | same => exact absurd haft hbef
  | @submits caller proposalType executionData =>
    exact absurd haft (submitted_status_ne s proposalType executionData caller now)
  | votes call opened active =>
    rw [tallied_status, active] at haft
    cases haft
  | queues call unpaused opened =>
    exact hp.1 _ _ (by rw [call]) (by rw [← opened.proposalType]; exact htype)
  | opens | executes => cases haft
  | passes call active ended => exact BitVec.le_of_lt ended
  | @closes deposit status closed =>
    rcases closed with rfl | rfl <;> cases haft

end Keeping

def Watch.AllKept (w : Watch) : Prop := ∀ proposalId, Kept (w.state.gov.proposal proposalId)
  (w.clock proposalId)

theorem Watch.AllKept.step {w : Watch} (hw : w.AllKept) {e : U64 × Event}
    (he : Event.Punctual w.state e) : (w.step e).AllKept := by
  intro proposalId
  have hk := hw proposalId
  obtain ⟨currentBlock, call | ⟨assets, validators, compliance⟩⟩ := e
  · show Kept _ (Clock.next _ _ _ _)
    unfold Clock.next
    rcases step_proposalCount w.state currentBlock call with
      hcou | ⟨caller, proposalType, executionData, t, rfl, hexec, hstep⟩
    · rw [if_neg fun hn => hn.1 hcou]
      exact hk.of_move he hcou (step_move w.state currentBlock call proposalId)
    · obtain ⟨id, hsub⟩ := exec_submit hexec
      obtain ⟨quorum, -, -, hpro, -, hgro⟩ := submitProposal_wrote hsub
      have heve : Event.step w.state (currentBlock, .call
          (.method caller (.submitProposal proposalType executionData))) = t := hstep
      show Kept ((Event.step w.state _).gov.proposal proposalId) _
      rw [heve]
      by_cases hid : proposalId = w.state.gov.proposalCount + 1
      · rw [if_pos ⟨by rw [hgro]; bv_omega, hid⟩, hid]
        exact .of_submit hexec
      · rw [if_neg fun hn => hid hn.2, hpro, Function.update_of_ne hid, if_neg fun hq => hq.1 hq.2]
        exact hk
  · -- the storage of governance is not written
    show Kept (w.state.gov.proposal proposalId) (Clock.next _ _ _ _)
    unfold Clock.next
    rw [if_neg fun hn => hn.1 rfl, if_neg fun hq => hq.1 hq.2]
    exact hk

theorem allKept_run : ∀ {events : List (U64 × Event)} {w : Watch}, w.AllKept →
    Run.Along Event.step Event.Punctual w.state events → (Run.run Watch.step w events).AllKept ∧
        (Run.run Watch.step w events).state = Run.run Event.step w.state events
  | [], _, hw, _ => ⟨hw, rfl⟩
  | _ :: _, _, hw, ⟨he, hes⟩ => by
    rw [Run.run_cons]
    exact allKept_run (hw.step he) hes

/-- **No effect before its time.** In a run from a chain without proposals in which every step is
punctual, a proposal that is no pause is queued when its vote is over, and executed after the
review, the vote and the timelock that were in force for it. -/
theorem effect_not_before_clock (s : State) (hs : s.gov.proposal = fun _ => {})
    (events : List (U64 × Event)) (e : U64 × Event)
    (h : Run.Along Event.step Event.Punctual s (events ++ [e])) (proposalId : U64) :
    let w := Run.run Watch.step { state := s } events
    let before := (Run.run Event.step s events).gov.proposal proposalId
    let after := (Run.run Event.step s (events ++ [e])).gov.proposal proposalId
    after.proposalType ≠ .emergencyPause →
      (before.status ≠ .queued → after.status = .queued → before.endBlock ≤ e.1) ∧
      (before.status ≠ .executed → after.status = .executed →
        (w.clock proposalId).earliest ≤ e.1.toNat) := by
  obtain ⟨heve, he, -⟩ := Run.along_append.1 h
  have hsta : Watch.AllKept { state := s } := by
    intro i
    rw [hs]
    exact ⟨rfl, fun hq => by cases hq⟩
  obtain ⟨hkept, hstat⟩ := allKept_run hsta heve
  have hk := hkept proposalId
  rw [hstat] at hk
  intro w before after
  obtain ⟨currentBlock, call | ⟨assets, validators, compliance⟩⟩ := e
  · have haft : after = (Governance.step (Run.run Event.step s events)
        (currentBlock, call)).gov.proposal proposalId := by
      show (Run.run Event.step s (events ++ [_])).gov.proposal proposalId = _
      rw [Run.run_append]
      rfl
    have hmove := step_move (Run.run Event.step s events) currentBlock call proposalId
    rw [← haft] at hmove
    intro htype
    constructor
    · intro hbef hque
      exact hmove.queued_late he hbef hque htype
    · intro hbef hexecuted
      obtain ⟨-, hq, hdue, -, hsame⟩ := hmove.of_executed hbef hexecuted
      rw [hsame] at htype
      exact le_trans (hk.waits hq htype) (BitVec.le_def.1 hdue)
  · have haft : after = before := by
      show (Run.run Event.step s (events ++ [_])).gov.proposal proposalId = _
      rw [Run.run_append]
      rfl
    intro _
    rw [haft]
    exact ⟨fun hne heq => absurd heq hne, fun hne heq => absurd heq hne⟩

/-- The vote lasts until block 101, the proposal is queued at block 2, and takes effect
at block 102 instead of 201. -/
theorem queued_before_vote_ended :
    let s := Run.run Event.step soleValidator upgradeVote
    let s' := Event.step s (2, .call (.method 7 (.queue 1)))
    let s'' := Event.step s' (102, .call (.method 7 (.execute 1)))
    (s.gov.proposal 1).status = .active ∧ (s.gov.proposal 1).endBlock = 101 ∧
      (s'.gov.proposal 1).status = .queued ∧
      (s''.gov.proposal 1).status = .executed ∧
      s'.gov.protocolUpgrade = 0 ∧ s''.gov.protocolUpgrade ≠ 0 := by
  decide

theorem effect_not_before_clock_at_upgrade :
    let execution : U64 × Event := (201, .call (.method 7 (.execute 1)))
    let w := Run.run Watch.step { state := soleValidator } upgradeQueued
    ((Run.run Event.step soleValidator (upgradeQueued ++ [execution])).gov.proposal 1).status =
        .executed ∧
      (w.clock 1).earliest = 201 ∧ (w.clock 1).earliest ≤ execution.1.toNat := by
  intro execution w
  have hpun : Run.Along Event.step Event.Punctual soleValidator
      (upgradeQueued ++ [execution]) := by
    refine ⟨Event.punctual_method ?_, Event.punctual_method ?_, Event.punctual_method ?_,
      Event.punctual_method ?_, trivial⟩
    · intro proposalId h
      cases h
    · intro proposalId h
      cases h
    · intro proposalId h _
      cases h
      decide
    · intro proposalId h
      cases h
  refine ⟨by decide, by decide, ?_⟩
  exact (effect_not_before_clock soleValidator rfl upgradeQueued execution hpun 1
    (by decide)).2 (by decide) (by decide)

end Callchain.Governance

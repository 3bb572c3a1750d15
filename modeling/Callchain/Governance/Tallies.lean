/-
# The tallies and the votes behind them

A vote adds its power to one of the three tallies of the proposal, and records the power
and the choice of the voter. A tally is the sum of the powers that are recorded with its
choice: every address has one power and one choice, never written again, and the tallies
change in the voting period only. The sums saturate, as the additions of `vote` do.
-/
import Callchain.Governance.Calls
import Callchain.Lib.Ledger

namespace Callchain.Governance

open Precompile GovernanceStorage
open Function (update update_of_ne update_self)

inductive Choice where
  | inFavor
  | against
  | abstain
  deriving DecidableEq

def Choice.code : Choice → U8
  | .inFavor => 1
  | .against => 2
  | .abstain => 3

def Proposal.tally (p : Proposal) : Choice → U128
  | .inFavor => p.votesFor
  | .against => p.votesAgainst
  | .abstain => p.votesAbstain

/-- The power that an address has recorded with a choice. -/
def GovernanceStorage.powerFor (g : GovernanceStorage) (proposalId : U64) (choice : Choice)
    (addr : Address) : ℕ :=
  if g.voterVote proposalId addr = choice.code then (g.voter proposalId addr).toNat else 0

/-- The next submission gets an id that was not given before. -/
def Event.Numbered (s : State) (_ : U64 × Event) : Prop := s.gov.proposalCount.toNat + 1 < 2 ^ 64

/-! ### What an event writes -/

section Steps

variable {s t : State} {now pid : U64} {caller : Address} {p : Proposal}

theorem Opened.tally (h : Opened s now pid p) : p.tally = (s.gov.proposal pid).tally := by
  rcases h with rfl | ⟨-, -, rfl⟩ <;> rfl

theorem Move.tally {c : Call} (h : Move s now c pid p)
    (hvote : ∀ caller voteVal, c ≠ .method caller (.vote pid voteVal)) :
    p.tally = (s.gov.proposal pid).tally ∨
      pid = s.gov.proposalCount + 1 ∧ p.tally = fun _ => 0 := by
  cases h with
  | votes call => exact absurd call (hvote _ _)
  | submits call fresh => exact .inr ⟨fresh, funext fun c => by cases c <;> rfl⟩
  | queues call unpaused opened => exact .inl opened.tally
  | _ => exact .inl rfl

theorem vote_window {voteVal : U8} {power : U128} {u : Unit}
    (h : s.vote pid voteVal caller power now = (t, .ok u)) :
    (∃ c : Choice, voteVal = c.code) ∧ (s.gov.proposal pid).startBlock ≤ now := by
  unfold State.vote at h
  simp only [ite_failed_eq_ok] at h
  obtain ⟨hval, -, -, -, hsta, -⟩ := h
  constructor
  · have hcod : voteVal = 1 ∨ voteVal = 2 ∨ voteVal = 3 := by bv_omega
    rcases hcod with rfl | rfl | rfl
    exacts [⟨.inFavor, rfl⟩, ⟨.against, rfl⟩, ⟨.abstain, rfl⟩]
  · rcases s.autoAdvance_cases pid now with ho | ⟨-, hopen, -⟩
    · exact BitVec.not_lt.1 (ho ▸ hsta)
    · exact hopen

/-- The writes of a vote in its period. -/
structure Counted (s t : State) (now pid : U64) (caller : Address) (c : Choice) (power : U128) :
    Prop where
  valid : s.gov.ValidId pid
  unvoted : s.gov.voter pid caller = 0
  period : (s.gov.proposal pid).startBlock ≤ now ∧ now < (s.gov.proposal pid).endBlock
  proposalCount : t.gov.proposalCount = s.gov.proposalCount
  voter : t.gov.voter = update s.gov.voter pid (update (s.gov.voter pid) caller power)
  voterVote : t.gov.voterVote =
    update s.gov.voterVote pid (update (s.gov.voterVote pid) caller c.code)
  tally : ∀ i choice, (t.gov.proposal i).tally choice = if i = pid ∧ c = choice
    then U128.saturatingAdd ((s.gov.proposal i).tally choice) power
    else (s.gov.proposal i).tally choice

theorem counted_vote {voteVal : U8} {power : U128} {u : Unit}
    (h : s.vote pid voteVal caller power now = (t, .ok u)) :
    ∃ c, Counted s t now pid caller c power := by
  obtain ⟨-, hid, -, hend, hvot, -, rfl⟩ := State.vote_eq_ok h
  obtain ⟨⟨c, rfl⟩, hsta⟩ := vote_window h
  have ho := autoAdvance_opened s now pid
  obtain ⟨p, config, initialized, hgov⟩ := s.autoAdvance_gov pid now
  rw [ho.endBlock] at hend
  refine ⟨c, hid, by rw [← hvot, hgov]; rfl, ⟨hsta, hend⟩, by rw [hgov]; rfl,
    by rw [hgov]; rfl, by rw [hgov]; rfl, fun i choice => ?_⟩
  show (proposal (setProposal (s.autoAdvance pid now).gov pid _) i).tally choice = _
  by_cases hi : i = pid
  · subst hi
    rw [← ho.tally]
    cases c <;> cases choice <;> simp [Proposal.tallied, Proposal.tally, Choice.code]
  · obtain ⟨q, hwro⟩ := autoAdvance_wrote s now pid
    rw [setProposal_of_ne _ _ _ hi, hwro.of_ne hi, if_neg fun h => hi h.1]

theorem Event.step_counted {e : U64 × Event} (he : Event.Numbered s e) :
    let t := Event.step s e
    (t.gov.votes = s.gov.votes ∧ s.gov.proposalCount ≤ t.gov.proposalCount ∧
      ∀ i, (t.gov.proposal i).tally = (s.gov.proposal i).tally ∨
        s.gov.proposalCount < i ∧ (t.gov.proposal i).tally = fun _ => 0) ∨
    ∃ pid caller c power, Counted s t e.1 pid caller c power := by
  obtain ⟨now, c | ⟨assets, validators, compliance⟩⟩ := e
  · intro t
    have hgro : s.gov.proposalCount < s.gov.proposalCount + 1 := by
      unfold Event.Numbered at he
      bv_omega
    by_cases hvote : ∃ caller pid voteVal, c = .method caller (.vote pid voteVal)
    · obtain ⟨caller, pid, voteVal, rfl⟩ := hvote
      rcases s.settle_cases (s.exec caller now (.vote pid voteVal)) with h | h
      · have h : t = s := h
        rw [h]
        exact .inl ⟨rfl, BitVec.le_refl _, fun i => .inl rfl⟩
      · obtain ⟨c, hc⟩ := counted_vote (exec_ok h)
        exact .inr ⟨pid, caller, c, _, hc⟩
    · have htal : ∀ i, (t.gov.proposal i).tally = (s.gov.proposal i).tally ∨
          s.gov.proposalCount < i ∧ (t.gov.proposal i).tally = fun _ => 0 := by
        intro i
        refine ((step_move s now c i).tally fun caller voteVal hc => hvote ⟨_, _, _, hc⟩).imp_right ?_
        exact And.imp_left fun hi => hi ▸ hgro
      left
      rcases step_rolls s now c with
        h | ⟨caller, m, rfl, h, ⟨kind, data, rfl⟩ | ⟨pid, voteVal, rfl⟩⟩
      · exact ⟨h.votes, BitVec.le_of_eq h.proposalCount.symm, htal⟩
      · obtain ⟨id, hsub⟩ := exec_submit h
        obtain ⟨quorum, -, -, -, hvot, hcou⟩ := submitProposal_wrote hsub
        exact ⟨hvot, hcou ▸ BitVec.le_of_lt hgro, htal⟩
      · exact absurd ⟨caller, pid, voteVal, rfl⟩ hvote
  · exact .inl ⟨rfl, BitVec.le_refl _, fun i => .inl rfl⟩

end Steps

/-! ### Every tally is a sum -/

structure Tallied (g : GovernanceStorage) : Prop where
  sums : ∀ pid choice, ((g.proposal pid).tally choice).toNat =
    min (Ledger.total (g.powerFor pid choice)) (2 ^ 128 - 1)
  fresh : ∀ pid, g.proposalCount < pid → g.voter pid = fun _ => 0

section Runs

variable {s t : State} {pid : U64} {g : GovernanceStorage}

theorem powerFor_congr {g' : GovernanceStorage} (h : g'.votes = g.votes) :
    g'.powerFor = g.powerFor := by
  obtain ⟨hvot, hvote⟩ := Prod.mk.inj h
  unfold powerFor
  rw [hvot, hvote]

theorem Counted.total {now : U64} {caller : Address} {c : Choice} {power : U128}
    (h : Counted s t now pid caller c power) (i : U64) (choice : Choice) :
    Ledger.total (t.gov.powerFor i choice) = Ledger.total (s.gov.powerFor i choice) +
      if i = pid ∧ c = choice then power.toNat else 0 := by
  have hcode : c.code = choice.code ↔ c = choice := by cases c <;> cases choice <;> decide
  by_cases hi : i = pid
  · subst hi
    have hbef : s.gov.powerFor i choice caller = 0 := by simp [powerFor, h.unvoted]
    have haft : t.gov.powerFor i choice = update (s.gov.powerFor i choice) caller
        (if c = choice then power.toNat else 0) := by
      funext addr
      by_cases haddr : addr = caller <;> simp [powerFor, h.voter, h.voterVote, hcode, haddr]
    have hsum := Ledger.total_update (s.gov.powerFor i choice) caller
      (if c = choice then power.toNat else 0)
    rw [haft]
    simp only [true_and]
    omega
  · have hsame : t.gov.powerFor i choice = s.gov.powerFor i choice := by
      funext addr
      simp [powerFor, h.voter, h.voterVote, hi]
    rw [hsame, if_neg fun h => hi h.1, Nat.add_zero]

theorem Tallied.tally_fresh (h : Tallied g) (hpid : g.proposalCount < pid) :
    (g.proposal pid).tally = fun _ => 0 := by
  funext choice
  have hzero : Ledger.total (g.powerFor pid choice) = 0 :=
    Ledger.total_eq_zero fun addr => by simp [powerFor, h.fresh pid hpid]
  have hsum := h.sums pid choice
  rw [hzero] at hsum
  exact BitVec.eq_of_toNat_eq hsum

theorem Tallied.step (h : Tallied s.gov) {e : U64 × Event} (he : Event.Numbered s e) :
    Tallied (Event.step s e).gov := by
  rcases Event.step_counted he with ⟨hvot, hcou, htal⟩ | ⟨pid, caller, c, power, hc⟩
  · refine ⟨fun i choice => ?_, fun i hi => ?_⟩
    · have hsame := (htal i).elim id fun hi => hi.2.trans (h.tally_fresh hi.1).symm
      rw [hsame, powerFor_congr hvot]
      exact h.sums i choice
    · rw [voter_of_votes hvot]
      exact h.fresh i (by bv_omega)
  · refine ⟨fun i choice => ?_, fun i hi => ?_⟩
    · have hsum := h.sums i choice
      rw [hc.tally, hc.total]
      split_ifs
      · rw [saturatingAdd_toNat]
        omega
      · rw [Nat.add_zero]
        exact hsum
    · rw [hc.proposalCount] at hi
      have hne : i ≠ pid := fun heq => absurd hc.valid.2 (BitVec.not_le.2 (heq ▸ hi))
      rw [hc.voter, update_of_ne hne]
      exact h.fresh i hi

theorem Event.step_voted {e : U64 × Event} (he : Event.Numbered s e) {addr : Address}
    (h : s.gov.voter pid addr ≠ 0) : (Event.step s e).gov.voter pid addr = s.gov.voter pid addr ∧
      (Event.step s e).gov.voterVote pid addr = s.gov.voterVote pid addr := by
  rcases Event.step_counted he with ⟨hvos, -⟩ | ⟨i, caller, c, power, hc⟩
  · obtain ⟨hvot, hvote⟩ := Prod.mk.inj hvos
    exact ⟨by rw [hvot], by rw [hvote]⟩
  · rw [hc.voter, hc.voterVote]
    by_cases hi : pid = i
    · subst hi
      have hne : addr ≠ caller := fun heq => h (heq ▸ hc.unvoted)
      simp [hne]
    · simp [hi]

/-- **Tallies are sums.** The tallies are the sums of the recorded powers in every run from a
storage without proposals, as long as the ids do not run out; a vote is recorded for good, and a
tally changes in the voting period only. -/
theorem tallies_are_sums (s : State) (hs : s.gov.proposal = fun _ => {})
    (hvotes : s.gov.voter = fun _ _ => 0) (events : List (U64 × Event))
    (hrun : Run.Along Event.step Event.Numbered s events) (pid : U64) :
    let t := Run.run Event.step s events
    (∀ choice, Ledger.total (t.gov.powerFor pid choice) < 2 ^ 128 →
      ((t.gov.proposal pid).tally choice).toNat = Ledger.total (t.gov.powerFor pid choice)) ∧
    ∀ before e after, events = before ++ e :: after →
      let u := Run.run Event.step s before
      (∀ addr, u.gov.voter pid addr ≠ 0 → t.gov.voter pid addr = u.gov.voter pid addr ∧
        t.gov.voterVote pid addr = u.gov.voterVote pid addr) ∧
      (((Event.step u e).gov.proposal pid).tally ≠ (u.gov.proposal pid).tally →
        (u.gov.proposal pid).startBlock ≤ e.1 ∧ e.1 < (u.gov.proposal pid).endBlock) := by
  have hsta : Tallied s.gov := by
    refine ⟨fun i choice => ?_, fun i _ => by rw [hvotes]⟩
    rw [Ledger.total_eq_zero fun addr => by simp [powerFor, hvotes], hs]
    cases choice <;> rfl
  have hinv : ∀ xs, Run.Along Event.step Event.Numbered s xs →
      Tallied (Run.run Event.step s xs).gov := fun xs h =>
    Run.invariant (I := fun u => Tallied u.gov) (fun _ _ hi he => hi.step he) h hsta
  intro t
  refine ⟨fun choice hlt => ?_, ?_⟩
  · exact ((hinv events hrun).sums pid choice).trans (min_eq_left (Nat.le_sub_one_of_lt hlt))
  rintro before e after rfl u
  obtain ⟨hbef, haft⟩ := Run.along_append.1 hrun
  refine ⟨fun addr hne => ?_, fun hne => ?_⟩
  · have hkept := Run.invariant (I := fun v => v.gov.voter pid addr = u.gov.voter pid addr ∧
      v.gov.voterVote pid addr = u.gov.voterVote pid addr) ?_ haft ⟨rfl, rfl⟩
    · rwa [← Run.run_append] at hkept
    · rintro v x ⟨hvot, hvote⟩ hx
      have hv := Event.step_voted hx (hvot ▸ hne)
      exact ⟨hv.1.trans hvot, hv.2.trans hvote⟩
  · rcases Event.step_counted haft.1 with ⟨-, -, htal⟩ | ⟨i, caller, c, power, hc⟩
    · rcases htal pid with hsame | ⟨hfre, hzero⟩
      · exact absurd hsame hne
      · exact absurd (hzero.trans ((hinv before hbef).tally_fresh hfre).symm) hne
    · by_cases hi : pid = i
      · exact hi ▸ hc.period
      · exact absurd (funext fun choice => by rw [hc.tally, if_neg fun h => hi h.1]) hne

end Runs

/-- Two of three validators vote for the proposal, the third against it. -/
def splitVotes : List (U64 × Event) :=
  [feeProposal, (1, .call (.method 7 (.vote 1 1))), (1, .call (.method 8 (.vote 1 1))),
    (1, .call (.method 9 (.vote 1 2)))]

theorem tallies_are_sums_at_splitVotes :
    let t := Run.run Event.step threeValidators splitVotes
    Ledger.total (t.gov.powerFor 1 .inFavor) = 2 ∧
      ((t.gov.proposal 1).tally .inFavor).toNat = Ledger.total (t.gov.powerFor 1 .inFavor) ∧
      t.gov.voterVote 1 7 = 1 := by
  intro t
  have hrun : Run.Along Event.step Event.Numbered threeValidators splitVotes := by
    refine ⟨?_, ?_, ?_, ?_, trivial⟩ <;> (unfold Event.Numbered; decide)
  obtain ⟨hsums, hkept⟩ := tallies_are_sums threeValidators rfl rfl _ hrun 1
  have hvoter : t.gov.voter 1 = update (update (update (fun _ => 0) 7 1) 8 1) 9 1 := rfl
  have hnone : ∀ addr ∈ Finset.univ, addr ∉ ({7, 8, 9} : Finset Address) →
      t.gov.powerFor 1 .inFavor addr = 0 := by
    intro addr _ hnot
    simp only [Finset.mem_insert, Finset.mem_singleton, not_or] at hnot
    rw [powerFor, hvoter, update_of_ne hnot.2.2, update_of_ne hnot.2.1, update_of_ne hnot.1]
    split_ifs <;> rfl
  have htotal : Ledger.total (t.gov.powerFor 1 .inFavor) = 2 := by
    rw [Ledger.total, ← Finset.sum_subset (Finset.subset_univ _) hnone]
    decide
  refine ⟨htotal, hsums .inFavor (by rw [htotal]; decide), ?_⟩
  have hfirst := ((hkept (splitVotes.take 2) _ _ rfl).1 7 (by decide)).2
  exact hfirst.trans (by decide)

end Callchain.Governance

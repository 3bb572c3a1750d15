/-
# The life of a proposal

A proposal is opened, queued, and executed or given up; before it is opened its proposer
can cancel it. Nothing else happens to its status, whichever calls are made and whenever
the advancer has its turn, and from an end there is no way back. A journal beside the
run records when its effect is applied and when its deposit is paid back.
-/
import Callchain.Governance.Calls

namespace Callchain.Governance

open Asset Precompile
open Function (update update_of_ne update_self)

/-! ### The journal -/

inductive Act where
  | effect
  | refund (payee : Address) (amount : U128)
  deriving DecidableEq

def Act.isRefund : Act → Bool
  | .effect => false
  | .refund _ _ => true

/-- The refund, where there is a deposit and someone to pay it to: the guard of
`refund` and of the advancer. -/
def Proposal.refunds (p : Proposal) : List Act :=
  if 0 < p.deposit ∧ p.proposer ≠ 0 then [.refund p.proposer p.deposit] else []

/-- What was done for each proposal since its submission. -/
abbrev Journal := U64 → List Act

namespace Journal

def add (j : Journal) (proposalId : U64) (acts : List Act) : Journal :=
  update j proposalId (j proposalId ++ acts)

def method (j : Journal) (s : State) : Method → Journal
  | .submitProposal _ _ => update j (s.gov.proposalCount + 1) []
  | .execute proposalId => j.add proposalId (.effect :: (s.gov.proposal proposalId).refunds)
  | .cancelProposal proposalId => j.add proposalId (s.gov.proposal proposalId).refunds
  | .vote _ _ | .queue _ | .emergencyPause _ | .emergencyResume => j

end Journal

namespace State

def loopActs (c : AdvanceConfig) (currentBlock : U64) (s : State) (proposalId : U64) : List Act :=
  let p := s.gov.proposal proposalId
  match p.status with
  | .queued =>
    if p.TimedOut c.execTimeout currentBlock then []
    else if p.executionBlock ≤ currentBlock then .effect :: p.refunds
    else []
  | .pending | .active | .executed | .defeated | .expired | .lapsed => []

def advanceJournaled (c : AdvanceConfig) (currentBlock : U64) (w : State × Journal)
    (proposalId : U64) : Option (State × Journal) :=
  (advanceProposal c currentBlock w.1 proposalId).map fun t =>
    (t, w.2.add proposalId (w.1.loopActs c currentBlock proposalId))

/-- `advance`, with the journal. -/
def advanceWithJournal (s : State) (j : Journal) (currentBlock : U64) : Option (State × Journal) :=
  Sweep.sweep (advanceJournaled s.advanceConfig currentBlock) s.proposalIds (s, j)

theorem advanceWithJournal_fst (s : State) (j : Journal) (now : U64) :
    (s.advanceWithJournal j now).map Prod.fst = s.advance now := by
  refine Sweep.sweep_map Prod.fst ?_ s.proposalIds (s, j)
  intro w i
  unfold advanceJournaled
  cases advanceProposal s.advanceConfig now w.1 i <;> rfl

end State

/-- The journal after an event: what a successful call has done is added to it. -/
def Journal.next (s : State) : U64 × Event → Journal → Journal
  | (currentBlock, .call (.method caller m)), j =>
    match s.exec caller currentBlock m with
    | (_, .ok ()) => j.method s m
    | (_, .error _) => j
  | (currentBlock, .call .advance), j =>
    ((s.advanceWithJournal j currentBlock).map Prod.snd).getD j
  | (_, .elsewhere _ _ _), j => j

/-! ### The ways of a status -/

def Status.Final (status : Status) : Prop :=
  status = .executed ∨ status = .defeated ∨ status = .expired

inductive Moved (proposer : Address) (proposalId : U64) (c : Call) : Status → Status → Prop where
  | opens : Moved proposer proposalId c .pending .active
  | queues : Moved proposer proposalId c .active .queued
  | defeats : Moved proposer proposalId c .active .defeated
  | executes : Moved proposer proposalId c .queued .executed
  | expires : Moved proposer proposalId c .queued .expired
  | cancels (call : c = .method proposer (.cancelProposal proposalId)) :
      Moved proposer proposalId c .pending .defeated

def Event.Submits (s : State) (e : U64 × Event) (proposalId : U64) : Prop :=
  (∃ caller proposalType executionData,
    e.2 = .call (.method caller (.submitProposal proposalType executionData))) ∧
  proposalId = s.gov.proposalCount + 1 ∧ (Event.step s e).gov.proposalCount = proposalId

inductive Turn (s : State) (currentBlock : U64) (c : Call) (proposalId : U64) (acts : List Act) :
    Proposal → List Act → Prop where
  | submits {p : Proposal} (new : Event.Submits s (currentBlock, .call c) proposalId)
      (early : p.status = .pending ∨ p.status = .active)
      (unvoted : p.votesFor = 0 ∧ p.votesAgainst = 0) :
      Turn s currentBlock c proposalId acts p []
  | keeps {p : Proposal} (proposer : p.proposer = (s.gov.proposal proposalId).proposer)
      (status : p.status = (s.gov.proposal proposalId).status)
      (unopened : p.status = .pending → p = s.gov.proposal proposalId) :
      Turn s currentBlock c proposalId acts p acts
  | moves {p : Proposal} (proposer : p.proposer = (s.gov.proposal proposalId).proposer)
      (move : Moved (s.gov.proposal proposalId).proposer proposalId c
        (s.gov.proposal proposalId).status p.status) :
      Turn s currentBlock c proposalId acts p acts
  | ends {p : Proposal} {done : List Act}
      (proposer : p.proposer = (s.gov.proposal proposalId).proposer)
      (move : Moved (s.gov.proposal proposalId).proposer proposalId c
        (s.gov.proposal proposalId).status p.status)
      (final : p.status.Final)
      (done_eq : done = (s.gov.proposal proposalId).refunds ∨
        done = .effect :: (s.gov.proposal proposalId).refunds) :
      Turn s currentBlock c proposalId acts p (acts ++ done)

section Turns

variable {s t : State} {caller : Address} {now pid i : U64} {c : Call}
  {acts : List Act}

theorem Turn.same : Turn s now c i acts (s.gov.proposal i) acts := .keeps rfl rfl fun _ => rfl

variable {p : Proposal} {u : Unit}

theorem Opened.moved (h : Opened s now pid p) (active : p.status = .active) :
    (s.gov.proposal pid).status = .active ∨ (s.gov.proposal pid).status = .pending := by
  rcases h with rfl | ⟨pending, -, -⟩
  · exact .inl active
  · exact .inr pending

theorem Opened.proposer (h : Opened s now pid p) : p.proposer = (s.gov.proposal pid).proposer := by
  rcases h with rfl | ⟨-, -, rfl⟩ <;> rfl

theorem tallied_proposer (p : Proposal) (voteVal : U8) (power : U128) :
    (p.tallied voteVal power).proposer = p.proposer := by
  unfold Proposal.tallied
  split_ifs <;> rfl

theorem turn_submit {kind : ProposalType} {data : Bytes} (j : Journal)
    (h : s.exec caller now (.submitProposal kind data) = (t, .ok u)) :
    Turn s now (.method caller (.submitProposal kind data)) i (j i)
      (t.gov.proposal i) (j.method s (.submitProposal kind data) i) := by
  obtain ⟨id, hsub⟩ := exec_submit h
  obtain ⟨quorum, -, -, hpro, -, hcou⟩ := submitProposal_wrote hsub
  rw [hpro]
  by_cases hi : i = s.gov.proposalCount + 1
  · subst hi
    have hgro : (step s (now, .method caller (.submitProposal kind data))).gov.proposalCount =
          s.gov.proposalCount + 1 := by
      dsimp only [step]
      rw [h]
      exact hcou
    dsimp only [Journal.method]
    rw [update_self, update_self]
    refine .submits ⟨⟨caller, kind, data, rfl⟩, rfl, hgro⟩ ?_ ⟨rfl, rfl⟩
    show (if s.gov.readConfigU64 .reviewPeriod = 0 then Status.active else .pending) = .pending ∨
      (if s.gov.readConfigU64 .reviewPeriod = 0 then Status.active else .pending) = .active
    split_ifs
    · exact .inr rfl
    · exact .inl rfl
  · dsimp only [Journal.method]
    rw [update_of_ne hi, update_of_ne hi]
    exact .same

theorem turn_vote (s : State) (now : U64) (caller : Address) (pid : U64)
    (voteVal : U8) (i : U64) (acts : List Act) :
    Turn s now (.method caller (.vote pid voteVal)) i acts
      ((step s (now, .method caller (.vote pid voteVal))).gov.proposal i) acts := by
  rcases step_vote s now caller pid voteVal with
    h | ⟨p, opened, active, -, -, hprop, -, -⟩
  · rw [h]
    exact .same
  rw [hprop]
  by_cases hi : i = pid
  · subst hi
    rw [update_self]
    have hpro := (tallied_proposer p voteVal
      (s.votingPower caller (s.gov.proposal i).proposalType)).trans opened.proposer
    have hsta := (tallied_status p voteVal
      (s.votingPower caller (s.gov.proposal i).proposalType)).trans active
    rcases opened.moved active with hact | hpen
    · refine .keeps hpro (hsta.trans hact.symm) ?_
      intro hpen
      rw [hsta] at hpen
      cases hpen
    · refine .moves hpro ?_
      rw [hsta, hpen]
      exact .opens
  · rw [update_of_ne hi]
    exact .same

theorem hasMajority_of_unvoted {bps : BitVec 32}
    (h : p.votesFor = 0 ∧ p.votesAgainst = 0) : p.hasMajority bps = false := by
  unfold Proposal.hasMajority
  rw [h.1, h.2]
  rfl

theorem turn_queue (hunv : (s.gov.proposal pid).status = .pending →
      (s.gov.proposal pid).votesFor = 0 ∧ (s.gov.proposal pid).votesAgainst = 0)
    (h : s.queue pid now = (t, .ok u)) :
    Turn s now (.method caller (.queue pid)) i acts (t.gov.proposal i) acts := by
  obtain ⟨-, -, hact, -, hmaj, -, rfl⟩ := State.queue_eq_ok h
  have hope := autoAdvance_opened s now pid
  have hset := State.wrote_setProposal (s.autoAdvance pid now) pid
    (((s.autoAdvance pid now).gov.proposal pid).enqueued now
      s.gov.timelock)
  by_cases hi : i = pid
  · subst hi
    rw [hset.self]
    rcases hope.moved hact with hopen | hpen
    · refine .moves hope.proposer ?_
      rw [hopen]
      exact .queues
    · have hnone : ((s.autoAdvance i now).gov.proposal i).votesFor = 0 ∧
          ((s.autoAdvance i now).gov.proposal i).votesAgainst = 0 := by
        rcases hope with hsame | ⟨-, -, hsame⟩
        · rw [hsame]
          exact hunv hpen
        · rw [hsame]
          exact hunv hpen
      rw [hasMajority_of_unvoted hnone] at hmaj
      cases hmaj
  · obtain ⟨p, hwro⟩ := autoAdvance_wrote s now pid
    rw [hset.of_ne hi, hwro.of_ne hi]
    exact .same

theorem turn_execute (j : Journal) (h : s.execute pid now = (t, .ok u)) :
    Turn s now (.method caller (.execute pid)) i (j i) (t.gov.proposal i)
      (j.method s (.execute pid) i) := by
  obtain ⟨-, hque, -, -, hcar⟩ := State.execute_eq_ok h
  obtain ⟨deposit, hwro⟩ := State.carryOut_wrote hcar
  dsimp only [Journal.method, Journal.add]
  by_cases hi : i = pid
  · subst hi
    rw [hwro.self, update_self]
    refine .ends rfl ?_ (.inl rfl) (.inr rfl)
    rw [hque]
    exact .executes
  · rw [hwro.of_ne hi, update_of_ne hi]
    exact .same

theorem turn_cancel (j : Journal) (h : s.cancelProposal pid caller = (t, .ok u)) :
    Turn s now (.method caller (.cancelProposal pid)) i (j i) (t.gov.proposal i)
      (j.method s (.cancelProposal pid) i) := by
  obtain ⟨-, hcal, hpen, -⟩ := State.cancelProposal_eq_ok h
  obtain ⟨deposit, hwro⟩ := State.cancelProposal_wrote h
  dsimp only [Journal.method, Journal.add]
  by_cases hi : i = pid
  · subst hi
    rw [hwro.self, update_self]
    refine .ends rfl ?_ (.inr (.inl rfl)) (.inl rfl)
    rw [hpen, hcal]
    exact .cancels rfl
  · rw [hwro.of_ne hi, update_of_ne hi]
    exact .same

theorem loopActs_of_status (a : AdvanceConfig)
    (h : (s.gov.proposal i).status ≠ .queued) : s.loopActs a now i = [] := by
  unfold State.loopActs
  dsimp only
  split
  · rename_i hque
    exact absurd hque h
  all_goals rfl

theorem turn_advanced {u v : State} {a : AdvanceConfig} (hu : u.gov.proposal i = s.gov.proposal i)
    (hque : (u.gov.proposal i).status ≠ .queued) (h : State.Advanced a now u i v) :
    Turn s now .advance i acts (v.gov.proposal i) acts := by
  cases h with
  | stay =>
    rw [hu]
    exact .same
  | opens pending =>
    rw [(State.wrote_setProposal u i _).self, hu]
    rw [hu] at pending
    refine .moves rfl ?_
    rw [pending]
    exact .opens
  | queues active =>
    rw [(State.wrote_setProposal u i _).self, hu]
    rw [hu] at active
    refine .moves rfl ?_
    rw [active]
    exact .queues
  | defeats active =>
    unfold State.confiscate
    rw [(State.wrote_setProposal u i _).self, hu]
    rw [hu] at active
    refine .moves rfl ?_
    rw [active]
    exact .defeats
  | expires queued => exact absurd queued hque
  | executes queued => exact absurd queued hque

theorem turn_advanceProposal {u v : State} {a : AdvanceConfig}
    (hu : u.gov.proposal i = s.gov.proposal i) (h : State.advanceProposal a now u i = some v) :
    Turn s now .advance i acts (v.gov.proposal i) (acts ++ u.loopActs a now i) := by
  by_cases hque : (u.gov.proposal i).status = .queued
  · have hbef := hque
    rw [hu] at hbef
    unfold State.advanceProposal at h
    unfold State.loopActs
    dsimp only at h ⊢
    rw [hque] at h ⊢
    dsimp only at h ⊢
    split_ifs at h ⊢ with hlate hdue
    · cases h
      unfold State.confiscate
      rw [List.append_nil, (State.wrote_setProposal u i _).self, hu]
      refine .moves rfl ?_
      rw [hbef]
      exact .expires
    · obtain ⟨e, he, rfl⟩ := Option.map_eq_some_iff.1 h
      obtain ⟨deposit, hwro⟩ := State.settle_wrote i he
      rw [hwro.self, hu]
      refine .ends rfl ?_ (.inl rfl) (.inr rfl)
      rw [hbef]
      exact .executes
    · cases h
      rw [List.append_nil, hu]
      exact .same
  · rw [loopActs_of_status a hque, List.append_nil]
    exact turn_advanced hu hque (State.advanceProposal_advanced h)

theorem advanceJournaled_frame (a : AdvanceConfig) (now : U64) (w : State × Journal) (k : U64)
    (v : State × Journal) (h : State.advanceJournaled a now w k = some v) (l : U64) (hl : l ≠ k) :
    (v.1.gov.proposal l, v.2 l) = (w.1.gov.proposal l, w.2 l) := by
  obtain ⟨t, ht, rfl⟩ := Option.map_eq_some_iff.1 h
  have hpro := State.advanceProposal_frame a now w.1 k t ht l hl
  have hpage : (w.2.add k (w.1.loopActs a now k)) l = w.2 l := update_of_ne hl _ _
  exact Prod.ext hpro hpage

theorem turn_advance (j : Journal) {w : State × Journal} (h : s.advanceWithJournal j now = some w) :
    Turn s now .advance i (j i) (w.1.gov.proposal i) (w.2 i) := by
  have hfra := advanceJournaled_frame s.advanceConfig now
  by_cases hid : i ∈ s.proposalIds
  · obtain ⟨u, v, hu, hv, hw⟩ := Sweep.sweep_entry
      (fun (w : State × Journal) k => (w.1.gov.proposal k, w.2 k)) hfra s.nodup_proposalIds h hid
    obtain ⟨hpro, hpage⟩ := Prod.mk.inj hu
    obtain ⟨hpro', hpage'⟩ := Prod.mk.inj hw
    obtain ⟨t, ht, rfl⟩ := Option.map_eq_some_iff.1 hv
    have hadd : (u.2.add i (u.1.loopActs s.advanceConfig now i)) i =
        j i ++ u.1.loopActs s.advanceConfig now i := by
      unfold Journal.add
      rw [update_self, hpage]
    rw [hpro', hpage'.trans hadd]
    exact turn_advanceProposal hpro ht
  · have hsame := Sweep.sweep_of_not_mem
      (fun (w : State × Journal) k => (w.1.gov.proposal k, w.2 k)) hfra h hid
    obtain ⟨hpro, hpage⟩ := Prod.mk.inj hsame
    rw [hpro, hpage]
    exact .same

theorem turn_step (s : State) (now : U64) (c : Call) (j : Journal) (i : U64)
    (hunv : ∀ k, (s.gov.proposal k).status = .pending →
      (s.gov.proposal k).votesFor = 0 ∧ (s.gov.proposal k).votesAgainst = 0) :
    Turn s now c i (j i) ((step s (now, c)).gov.proposal i)
      (Journal.next s (now, .call c) j i) := by
  cases c with
  | advance =>
    have hfst := s.advanceWithJournal_fst j now
    dsimp only [step, Journal.next]
    rw [← hfst]
    cases hadv : s.advanceWithJournal j now with
    | none => exact .same
    | some => exact turn_advance j hadv
  | method caller m =>
    have hvote := fun pid voteVal =>
      turn_vote s now caller pid voteVal i (j i)
    dsimp only [step, Journal.next] at hvote ⊢
    rcases hexec : s.exec caller now m with ⟨t, e | ⟨⟩⟩
    · exact .same
    have h := exec_ok hexec
    cases m with
    | submitProposal => exact turn_submit j hexec
    | vote pid voteVal =>
      have hturn := hvote pid voteVal
      rw [hexec] at hturn
      exact hturn
    | queue pid => exact turn_queue (hunv pid) (exec_queue hexec)
    | execute => exact turn_execute j h
    | cancelProposal => exact turn_cancel j h
    | emergencyPause =>
      have htab := (sameTables_signPause h).1.proposal
      show Turn _ _ _ _ _ (t.gov.proposal i) (j i)
      rw [htab]
      exact .same
    | emergencyResume =>
      have htab := (sameTables_signResume h).1.proposal
      show Turn _ _ _ _ _ (t.gov.proposal i) (j i)
      rw [htab]
      exact .same

end Turns

/-! ### What a proposal is owed -/

/-- The page of a proposal: nothing is done before the end, and then the effect and the
refund once at most, the refund to the proposer. -/
structure Account (p : Proposal) (acts : List Act) : Prop where
  unvoted : p.status = .pending → p.votesFor = 0 ∧ p.votesAgainst = 0
  idle : ¬ p.status.Final → acts = []
  effects : acts.count .effect ≤ 1
  refunds : acts.countP Act.isRefund ≤ 1
  payee : ∀ payee amount, .refund payee amount ∈ acts → payee = p.proposer

def Accounts (s : State) (j : Journal) : Prop := ∀ i, Account (s.gov.proposal i) (j i)

variable {pid : U64} {c : Call}

theorem Moved.not_final {proposer : Address} {a b : Status}
    (h : Moved proposer pid c a b) : ¬ a.Final := by
  unfold Status.Final
  cases h <;> decide

theorem Moved.ne_pending {proposer : Address} {a b : Status}
    (h : Moved proposer pid c a b) : b ≠ .pending := by
  cases h <;> decide

variable {p : Proposal} {j : Journal}

theorem mem_done {done : List Act} {a : Act}
    (h : done = p.refunds ∨ done = .effect :: p.refunds) (ha : a ∈ done) :
    a = .effect ∨ a = .refund p.proposer p.deposit := by
  have href : a ∈ p.refunds → a = .refund p.proposer p.deposit := by
    intro hmem
    unfold Proposal.refunds at hmem
    split_ifs at hmem
    · exact List.mem_singleton.1 hmem
    · exact absurd hmem List.not_mem_nil
  rcases h with rfl | rfl
  · exact .inr (href ha)
  · exact (List.mem_cons.1 ha).imp_right href

theorem count_done {done : List Act} (h : done = p.refunds ∨ done = .effect :: p.refunds) :
    done.count .effect ≤ 1 ∧ done.countP Act.isRefund ≤ 1 := by
  unfold Proposal.refunds at h
  rcases h with rfl | rfl
  · split_ifs
    · exact ⟨Nat.zero_le 1, le_refl 1⟩
    · exact ⟨Nat.zero_le 1, Nat.zero_le 1⟩
  · split_ifs
    · exact ⟨le_refl 1, le_refl 1⟩
    · exact ⟨le_refl 1, Nat.zero_le 1⟩

variable {s : State}

theorem Account.turn {now pid : U64} {acts acts' : List Act} (h : Account (s.gov.proposal pid) acts)
    (hturn : Turn s now c pid acts p acts') : Account p acts' := by
  cases hturn with
  | submits new early unvoted =>
    exact ⟨fun _ => unvoted, fun _ => rfl, Nat.zero_le 1, Nat.zero_le 1,
      fun _ _ hmem => absurd hmem List.not_mem_nil⟩
  | keeps proposer status unopened =>
    refine ⟨?_, ?_, h.effects, h.refunds, ?_⟩
    · intro hpen
      rw [unopened hpen]
      exact h.unvoted (status ▸ hpen)
    · rw [status]
      exact h.idle
    · rw [proposer]
      exact h.payee
  | moves proposer move =>
    have hidle := h.idle move.not_final
    refine ⟨fun hpen => absurd hpen move.ne_pending, fun _ => hidle, h.effects, h.refunds, ?_⟩
    rw [proposer]
    exact h.payee
  | ends proposer move final done_eq =>
    have hidle := h.idle move.not_final
    obtain ⟨heff, href⟩ := count_done done_eq
    rw [hidle]
    refine ⟨fun hpen => absurd hpen move.ne_pending, fun hopen => absurd final hopen,
      heff, href, ?_⟩
    intro payee amount hmem
    rcases mem_done done_eq hmem with heq | heq
    · cases heq
    · rw [proposer]
      exact (Act.refund.inj heq).1

theorem Accounts.step (h : Accounts s j) (e : U64 × Event) :
    Accounts (Event.step s e) (Journal.next s e j) := by
  obtain ⟨currentBlock, c | ⟨assets, validators, compliance⟩⟩ := e
  · intro i
    exact (h i).turn (turn_step s currentBlock c j i fun k => (h k).unvoted)
  · exact h

theorem Accounts.start (hs : s.gov.proposal = fun _ => {}) : Accounts s fun _ => [] := by
  intro i
  rw [hs]
  exact ⟨fun _ => ⟨rfl, rfl⟩, fun _ => rfl, Nat.zero_le 1, Nat.zero_le 1,
    fun _ _ hmem => absurd hmem List.not_mem_nil⟩

theorem Accounts.run (hs : s.gov.proposal = fun _ => {}) (events : List (U64 × Event)) :
    Accounts (Run.run Event.step s events)
      (Run.run (Run.watched Event.step Journal.next) (s, fun _ => []) events).2 :=
  Run.watched_invariant (C := fun _ _ => True) (fun _ _ e h _ => h.step e)
    (Run.along_of_invariant (I := fun _ => True) (fun _ _ h => h) trivial) (Accounts.start hs)

/-- The event leaves the status, or moves it as its call may. -/
def Proceeds (s : State) (e : U64 × Event) (proposalId : U64) : Prop :=
  let before := s.gov.proposal proposalId
  let after := (Event.step s e).gov.proposal proposalId
  after.status = before.status ∨
    ∃ c, e.2 = .call c ∧ Moved before.proposer proposalId c before.status after.status

theorem Turn.status {now pid : U64} {acts acts' : List Act} (h : Turn s now c pid acts p acts') :
    Event.Submits s (now, .call c) pid ∨ p.status = (s.gov.proposal pid).status ∨
      Moved (s.gov.proposal pid).proposer pid c (s.gov.proposal pid).status p.status := by
  cases h with
  | submits new => exact .inl new
  | keeps proposer status => exact .inr (.inl status)
  | moves proposer move => exact .inr (.inr move)
  | ends proposer move => exact .inr (.inr move)

theorem Accounts.proceeds (h : Accounts s j) (e : U64 × Event)
    (pid : U64) : Event.Submits s e pid ∨ Proceeds s e pid := by
  obtain ⟨currentBlock, c | ⟨assets, validators, compliance⟩⟩ := e
  · have hturn := turn_step s currentBlock c j pid fun k => (h k).unvoted
    rcases hturn.status with hnew | hsame | hmove
    · exact .inl hnew
    · exact .inr (.inl hsame)
    · exact .inr (.inr ⟨c, rfl, hmove⟩)
  · exact .inr (.inl rfl)

theorem Proceeds.final {e : U64 × Event}
    (h : Proceeds s e pid) (hfin : (s.gov.proposal pid).status.Final) :
    ((Event.step s e).gov.proposal pid).status = (s.gov.proposal pid).status := by
  rcases h with hsame | ⟨c, -, hmove⟩
  · exact hsame
  · exact absurd hfin hmove.not_final

variable {events : List (U64 × Event)}

theorem Accounts.final_run (h : Accounts s j) (hfin : (s.gov.proposal pid).status.Final)
    (honce : Run.Along Event.step (fun s e => ¬ Event.Submits s e pid) s events) :
    ((Run.run Event.step s events).gov.proposal pid).status = (s.gov.proposal pid).status := by
  induction events generalizing s j with
  | nil => rfl
  | cons e events ih =>
    have hpro := (h.proceeds e pid).resolve_left honce.1
    have hsta := hpro.final hfin
    rw [Run.run_cons, ih (h.step e) (by rw [hsta]; exact hfin) honce.2, hsta]

theorem Event.step_proposalCount (s : State) (e : U64 × Event) :
    (Event.step s e).gov.proposalCount = s.gov.proposalCount ∨
      (Event.step s e).gov.proposalCount = s.gov.proposalCount + 1 := by
  obtain ⟨currentBlock, c | ⟨assets, validators, compliance⟩⟩ := e
  · rcases Governance.step_proposalCount s currentBlock c with
      h | ⟨caller, proposalType, executionData, t, -, hexec, ht⟩
    · exact .inl h
    · obtain ⟨id, hsub⟩ := exec_submit hexec
      obtain ⟨quorum, -, -, -, -, hcou⟩ := submitProposal_wrote hsub
      exact .inr ((congrArg (fun u => u.gov.proposalCount) ht).trans hcou)
  · exact .inl rfl

theorem not_submitted_again {n : ℕ}
    (hcou : s.gov.proposalCount = pid + BitVec.ofNat 64 n) (hfew : n + events.length < 2 ^ 64) :
    Run.Along Event.step (fun s e => ¬ Event.Submits s e pid) s events := by
  induction events generalizing s n with
  | nil => trivial
  | cons e events ih =>
    rw [List.length_cons] at hfew
    refine ⟨?_, ?_⟩
    · rintro ⟨-, hid, -⟩
      bv_omega
    · rcases Event.step_proposalCount s e with h | h
      · exact ih (n := n) (h.trans hcou) (by omega)
      · refine ih (n := n + 1) ?_ (by omega)
        bv_omega

end Callchain.Governance

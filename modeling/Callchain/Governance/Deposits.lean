/-
# CALL and deposits

Governance moves CALL in three ways: a deposit leaves a balance when a proposal is
submitted, it returns or is lost when the proposal ends, and a `TreasurySpend` moves
CALL out of the treasury. So the CALL in balances and deposits together should never
grow. The precompile keeps to this. The advancer credits the recipient of a
`TreasurySpend` and takes nothing from the treasury.
-/
import Callchain.Governance.Calls

namespace Callchain.Governance

open Asset Precompile Ledger AssetStorage

namespace State

def deposits (s : State) : ℕ := total fun proposalId => (s.gov.proposal proposalId).deposit.toNat

def wealth (s : State) : ℕ := s.assets.balances callAssetId + s.deposits

variable {s t : State} {pid now : U64} {data : Bytes}

variable {p : Proposal} {kind : ProposalType} {u : Unit}

theorem deposits_of_update (h : t.gov.proposal = Function.update s.gov.proposal pid p) :
    t.deposits + (s.gov.proposal pid).deposit.toNat = s.deposits + p.deposit.toNat := by
  have htot := total_of_agree (f := fun i => (s.gov.proposal i).deposit.toNat)
    (g := fun i => (t.gov.proposal i).deposit.toNat) pid fun i hi => by
      rw [h, Function.update_of_ne hi]
  rw [show t.gov.proposal pid = p by rw [h, Function.update_self]] at htot
  exact htot

theorem Wrote.wealth_le (h : Wrote s t pid p)
    (ha : t.assets.balances callAssetId + p.deposit.toNat ≤
      s.assets.balances callAssetId + (s.gov.proposal pid).deposit.toNat) :
    t.wealth ≤ s.wealth := by
  have hdep := deposits_of_update h.proposal
  unfold wealth
  omega

theorem SameTables.deposits (h : SameTables s t) : t.deposits = s.deposits := by
  unfold State.deposits
  rw [h.proposal]

theorem wealth_refund_le (s : State) (pid : U64) (reason : String) :
    (s.refund pid reason).1.wealth ≤ s.wealth := by
  rcases s.refund_cases pid reason with ⟨-, h⟩ | ⟨-, ⟨assets, hadd, h⟩ | ⟨-, h⟩⟩
  · rw [h]
  · rw [h]
    have hwro : Wrote s (({ s with assets := assets } : State).setProposal pid
      { s.gov.proposal pid with deposit := 0 }) pid
        { s.gov.proposal pid with deposit := 0 } := ⟨rfl, rfl, rfl⟩
    refine hwro.wealth_le ?_
    have hbal := balances_add hadd callAssetId
    rw [if_pos rfl] at hbal
    show assets.balances callAssetId + BitVec.toNat (0 : U128) ≤ _
    rw [hbal, show BitVec.toNat (0 : U128) = 0 from rfl, Nat.add_zero]
  · rw [h]

theorem wealth_setProposal_le (s : State) (pid : U64)
    (h : p.deposit.toNat ≤ (s.gov.proposal pid).deposit.toNat) :
    (s.setProposal pid p).wealth ≤ s.wealth :=
  (wrote_setProposal s pid p).wealth_le (Nat.add_le_add_left h _)

theorem wealth_applyEffect (h : s.applyEffect data kind = (t, .ok u)) : t.wealth = s.wealth := by
  have hsame := s.sameTables_applyEffect data kind
  rw [h] at hsame
  have hdep : t.deposits = s.deposits := hsame.deposits
  unfold wealth
  rw [hdep]
  by_cases htype : kind = .treasurySpend
  · subst htype
    obtain ⟨-, -, -, a, hded, hadd, -⟩ := treasurySpend_eq_ok.1 h
    have h₁ := balances_deduct hded callAssetId
    have h₂ := balances_add hadd callAssetId
    omega
  · have hass := s.applyEffect_assets data htype
    rw [h] at hass
    rw [show t.assets = s.assets from hass]

theorem wealth_carryOut_le (h : s.carryOut pid = (t, .ok u)) : t.wealth ≤ s.wealth := by
  obtain ⟨e, r, he, hr, rfl⟩ := carryOut_eq_ok h
  have href := e.wealth_refund_le pid "governance: refund failed"
  rw [hr] at href
  calc (r.setStatus pid .executed).wealth ≤ r.wealth := r.wealth_setProposal_le _ le_rfl
    _ ≤ e.wealth := href
    _ = s.wealth := wealth_applyEffect he

/-! ### The advancer -/

theorem balances_addBalanceEvm_le (a : AssetStorage) (addr : Address) (amount : U128) :
    (addBalanceEvm a callAssetId addr amount).balances callAssetId ≤
      a.balances callAssetId + amount.toNat := by
  unfold addBalanceEvm
  cases h : a.addBalance callAssetId addr amount with
  | error => exact Nat.le_add_right _ _
  | ok =>
    have hbal := balances_add h callAssetId
    exact le_of_eq hbal

theorem wealth_refundEvm_le (s : State) (pid : U64) : (s.refundEvm pid).wealth ≤ s.wealth := by
  unfold refundEvm
  dsimp only
  split_ifs
  · set a := addBalanceEvm s.assets callAssetId (s.gov.proposal pid).proposer
      (s.gov.proposal pid).deposit
    have hwro : Wrote s (({ s with assets := a } : State).setProposal pid
      { s.gov.proposal pid with deposit := 0 }) pid
        { s.gov.proposal pid with deposit := 0 } := ⟨rfl, rfl, rfl⟩
    refine hwro.wealth_le ?_
    show a.balances callAssetId + BitVec.toNat (0 : U128) ≤ _
    rw [show BitVec.toNat (0 : U128) = 0 from rfl, Nat.add_zero]
    exact balances_addBalanceEvm_le s.assets _ _
  · exact le_rfl

theorem wealth_confiscate_le (s : State) (pid : U64) (status : Status) :
    (s.confiscate pid status).wealth ≤ s.wealth := by
  refine s.wealth_setProposal_le pid ?_
  show (if (s.gov.proposal pid).proposer ≠ 0 then (0 : U128)
    else (s.gov.proposal pid).deposit).toNat ≤ _
  split_ifs
  · exact Nat.zero_le _
  · exact le_rfl

theorem wealth_applySideEffects_le (h : s.applySideEffects data kind = some t)
    (hspe : kind = .treasurySpend → data.length < 64 ∨ amountField data = 0) :
    t.wealth ≤ s.wealth := by
  have hdep : t.deposits = s.deposits := (sameTables_applySideEffects h).deposits
  unfold wealth
  rw [hdep]
  refine Nat.add_le_add_right ?_ _
  by_cases htype : kind = .treasurySpend
  · subst htype
    dsimp only [applySideEffects] at h
    split_ifs at h with h48 h64
    · cases h
      have hamo := (hspe rfl).resolve_left (not_lt.2 h64)
      have hle := balances_addBalanceEvm_le s.assets (addressField data) (amountField data)
      rw [hamo, show BitVec.toNat (0 : U128) = 0 from rfl, Nat.add_zero] at hle
      rw [hamo]
      exact hle
    · exact Option.some.inj h ▸ le_rfl
  · rw [applySideEffects_assets h htype]

/-! ### A step -/

theorem wealth_advanced_le {c : AdvanceConfig} (h : Advanced c now s pid t)
    (hspe : (s.gov.proposal pid).status = .queued → (s.gov.proposal pid).executionBlock ≤ now →
      ¬ (s.gov.proposal pid).TimedOut c.execTimeout now →
      (s.gov.proposal pid).proposalType = .treasurySpend →
        (s.gov.proposal pid).executionData.length < 64 ∨
          amountField (s.gov.proposal pid).executionData = 0) : t.wealth ≤ s.wealth := by
  cases h with
  | stay => exact le_rfl
  | opens | queues => exact s.wealth_setProposal_le pid le_rfl
  | defeats | expires => exact s.wealth_confiscate_le pid _
  | @executes e queued due early effect =>
    calc ((e.refundEvm pid).setStatus pid .executed).wealth
        ≤ (e.refundEvm pid).wealth := (e.refundEvm pid).wealth_setProposal_le _ le_rfl
      _ ≤ e.wealth := e.wealth_refundEvm_le pid
      _ ≤ s.wealth := wealth_applySideEffects_le effect (hspe queued due early)

theorem wealth_submit_le {data : Bytes} {caller : Address} {id : U64}
    (h : s.submitProposal kind data caller now = (t, .ok id)) : t.wealth ≤ s.wealth := by
  obtain ⟨quorum, -, -, hpro, -, -⟩ := submitProposal_wrote h
  obtain ⟨assets, hded, -, rfl⟩ := submitProposal_eq_ok h
  set s' : State := { s with gov := s.gov.ensureConfigInitialized, assets := assets }
  obtain ⟨config, initialized, lastSubmission, -, hrec⟩ :=
    s'.recordProposal_gov kind data caller now
  have hass : (s'.recordProposal kind data caller now).assets = assets := by rw [hrec]
  have hbal := balances_deduct hded callAssetId
  rw [if_pos rfl] at hbal
  have hdep : (s'.recordProposal kind data caller now).deposits +
      (s.gov.proposal (s.gov.proposalCount + 1)).deposit.toNat =
        s.deposits + proposalDeposit.toNat := deposits_of_update hpro
  unfold wealth
  rw [hass]
  omega

theorem wealth_autoAdvance_le (s : State) (pid now : U64) :
    (s.autoAdvance pid now).wealth ≤ s.wealth := by
  obtain ⟨p, config, initialized, h⟩ := s.autoAdvance_gov pid now
  have hwro : Wrote s (s.autoAdvance pid now) pid p := by
    rw [h]
    exact ⟨rfl, rfl, rfl⟩
  have hass : (s.autoAdvance pid now).assets = s.assets := by rw [h]
  have hdep : p.deposit = (s.gov.proposal pid).deposit := by
    have hope := autoAdvance_opened s now pid
    rw [hwro.self] at hope
    rcases hope with rfl | ⟨-, -, rfl⟩ <;> rfl
  refine hwro.wealth_le ?_
  rw [hass, hdep]

theorem wealth_recordVote_le (s : State) (pid : U64) (voteVal : U8) (voter : Address)
    (votingPower : U128) :
    ({ s with gov := s.gov.recordVote pid voteVal voter votingPower } : State).wealth ≤
      s.wealth := by
  set t : State := { s with gov := s.gov.recordVote pid voteVal voter votingPower }
  have hpro : t.gov.proposal = Function.update s.gov.proposal pid
    ((s.gov.proposal pid).tallied voteVal votingPower) := rfl
  have hdep := deposits_of_update hpro
  rw [tallied_deposit] at hdep
  have hass : t.assets = s.assets := rfl
  unfold wealth
  rw [hass, Nat.add_right_cancel hdep]

theorem wealth_exec_le {caller : Address} {m : Method}
    (h : s.exec caller now m = (t, .ok u)) : t.wealth ≤ s.wealth := by
  have hcall := h
  unfold exec at h
  rw [ite_failed_eq_ok] at h
  obtain ⟨-, h⟩ := h
  have hsame : s.SameTables t ∧ t.assets = s.assets → t.wealth ≤ s.wealth := by
    rintro ⟨htab, hass⟩
    unfold wealth
    rw [hass, htab.deposits]
  cases m with
  | submitProposal =>
    obtain ⟨id, hsub⟩ := exec_submit hcall
    exact wealth_submit_le hsub
  | vote pid voteVal =>
    obtain ⟨-, -, -, -, -, -, rfl⟩ := vote_eq_ok h
    exact le_trans (wealth_recordVote_le _ pid voteVal caller _)
      (s.wealth_autoAdvance_le pid now)
  | queue pid =>
    dsimp only [execMethod] at h
    rw [ite_failed_eq_ok] at h
    obtain ⟨-, -, -, -, -, -, rfl⟩ := queue_eq_ok h.2
    exact le_trans (wealth_setProposal_le _ pid le_rfl)
      (s.wealth_autoAdvance_le pid now)
  | execute => exact wealth_carryOut_le (execute_eq_ok h).2.2.2.2
  | cancelProposal pid =>
    obtain ⟨-, -, -, r, hr, rfl⟩ := cancelProposal_eq_ok h
    have href := s.wealth_refund_le pid "governance: refund failed"
    rw [hr] at href
    exact le_trans (r.wealth_setProposal_le pid le_rfl) href
  | emergencyPause => exact hsame (sameTables_signPause h)
  | emergencyResume => exact hsame (sameTables_signResume h)

end State

/-- The advancer finds no `TreasurySpend` to execute that names an amount. -/
def Unminted (s : State) (e : U64 × Call) : Prop :=
  e.2 = .advance → ∀ proposalId, (s.gov.proposal proposalId).status = .queued →
    (s.gov.proposal proposalId).executionBlock ≤ e.1 →
    ¬ (s.gov.proposal proposalId).TimedOut s.gov.executionTimeout e.1 →
    (s.gov.proposal proposalId).proposalType = .treasurySpend →
      (s.gov.proposal proposalId).executionData.length < 64 ∨
        amountField (s.gov.proposal proposalId).executionData = 0

theorem wealth_step_le {s : State} {e : U64 × Call} (h : Unminted s e) :
    (step s e).wealth ≤ s.wealth := by
  obtain ⟨currentBlock, ⟨caller, m⟩ | _⟩ := e
  · dsimp only [step]
    rcases s.settle_cases (s.exec caller currentBlock m) with hset | hset
    · rw [hset]
    · exact State.wealth_exec_le hset
  · dsimp only [step]
    cases hadv : s.advance currentBlock with
    | none => exact le_rfl
    | some =>
      refine State.advance_induction (P := fun u => u.wealth ≤ s.wealth) hadv le_rfl ?_
      intro u i v hu hi hv
      refine le_trans (State.wealth_advanced_le hv ?_) hu
      rw [hi]
      exact h rfl i

theorem spend_covered {s t : State} {pid now : U64} {u : Unit} (h : s.execute pid now = (t, .ok u))
    (htype : (s.gov.proposal pid).proposalType = .treasurySpend) :
    (amountField (s.gov.proposal pid).executionData).toNat ≤
      (s.assets.balance (State.spendAssetId (s.gov.proposal pid).executionData)
        treasuryAddress).toNat := by
  obtain ⟨e, r, he, -, -⟩ := State.carryOut_eq_ok (State.execute_eq_ok h).2.2.2.2
  rw [htype] at he
  obtain ⟨hlen, -, -, a, hded, -⟩ := State.treasurySpend_eq_ok.1 he
  rw [Proposal.readExecutionData_eq (by omega)] at hded
  exact (deductBalance_eq_ok.1 hded).1

/-- **Governance mints nothing.** In a run in which the advancer finds no spend to execute, no
step increases balances and deposits together, and a spend that is executed was in the treasury,
or was of nothing. -/
theorem wealth_never_grows (s : State) (calls : List (U64 × Call)) (e : U64 × Call)
    (h : Run.Along step Unminted s (calls ++ [e])) :
    let before := Run.run step s calls
    let after := Run.run step s (calls ++ [e])
    after.wealth ≤ before.wealth ∧
      ∀ proposalId, (before.gov.proposal proposalId).proposalType = .treasurySpend →
        (before.gov.proposal proposalId).status ≠ .executed →
        (after.gov.proposal proposalId).status = .executed →
        let data := (before.gov.proposal proposalId).executionData
        (data.length < 64 ∨ amountField data = 0) ∨ (amountField data).toNat ≤
            (before.assets.balance (State.spendAssetId data) treasuryAddress).toNat := by
  obtain ⟨-, he, -⟩ := Run.along_append.1 h
  intro before after
  have haft : after = step before e := by
    show Run.run step s (calls ++ [e]) = _
    rw [Run.run_append]
    rfl
  rw [haft]
  refine ⟨wealth_step_le he, ?_⟩
  intro proposalId htype hbef hexecuted
  obtain ⟨currentBlock, c⟩ := e
  obtain ⟨hcall, hque, hdue, hear, -⟩ :=
    (step_move before currentBlock c proposalId).of_executed hbef hexecuted
  rcases hcall with rfl | ⟨caller, rfl⟩
  · exact .inl (he rfl proposalId hque hdue hear htype)
  · right
    dsimp only [step] at hexecuted
    rcases before.settle_cases (before.exec caller currentBlock (.execute proposalId)) with hs | hs
    · rw [hs] at hexecuted
      exact absurd hexecuted hbef
    · exact spend_covered (exec_ok hs) htype

/-! ### A spend -/

def whale (treasury : U256) : State where
  gov := { config := fun suffix => if suffix = Param.votingPeriod.suffix then 100 else 0 }
  assets := { balance := fun _ addr =>
    if addr = 7 then 300000000000000000000000000
    else if addr = treasuryAddress then treasury else 0 }

def spendData : Bytes := beBytes 32 9 ++ beBytes 32 5

def spendQueued : List (U64 × Call) :=
  [(1, .advance), (1, .method 7 (.submitProposal .treasurySpend spendData)),
    (1, .method 7 (.vote 1 1)), (101, .method 7 (.queue 1))]

theorem wealth_never_grows_at_spend :
    let before := Run.run step (whale 5) spendQueued
    let after := Run.run step (whale 5) (spendQueued ++ [(201, .method 7 (.execute 1))])
    (after.gov.proposal 1).status = .executed ∧ after.wealth ≤ before.wealth ∧
      after.assets.balance callAssetId treasuryAddress = 0 ∧
      after.assets.balance callAssetId 9 = 5 := by
  intro before after
  have hunm : Run.Along step Unminted (whale 5)
      (spendQueued ++ [(201, .method 7 (.execute 1))]) := by
    refine ⟨?_, ?_, ?_, ?_, ?_, trivial⟩
    · intro _ proposalId hque
      cases hque
    all_goals
      intro hadv
      cases hadv
  exact ⟨by decide, (wealth_never_grows (whale 5) spendQueued _ hunm).1, by decide, by decide⟩

theorem wealth_of_spend {c : AdvanceConfig} {s t : State} {pid now : U64}
    {paid refunded : AssetStorage} (h : State.advanceProposal c now s pid = some t)
    (hsta : (s.gov.proposal pid).status = .queued)
    (htype : (s.gov.proposal pid).proposalType = .treasurySpend)
    (hdue : (s.gov.proposal pid).executionBlock ≤ now)
    (hear : ¬ (s.gov.proposal pid).TimedOut c.execTimeout now)
    (hlen : 64 ≤ (s.gov.proposal pid).executionData.length)
    (hdep : 0 < (s.gov.proposal pid).deposit ∧ (s.gov.proposal pid).proposer ≠ 0)
    (hpaid : s.assets.addBalance callAssetId (addressField (s.gov.proposal pid).executionData)
      (amountField (s.gov.proposal pid).executionData) = .ok paid)
    (href : paid.addBalance callAssetId (s.gov.proposal pid).proposer
      (s.gov.proposal pid).deposit = .ok refunded) :
    t.wealth = s.wealth + (amountField (s.gov.proposal pid).executionData).toNat := by
  set p := s.gov.proposal pid with hp
  have heff : s.applySideEffects p.executionData p.proposalType =
      some { s with assets := paid } := by
    rw [htype]
    dsimp only [State.applySideEffects]
    rw [if_pos (by omega), if_pos hlen, addBalanceEvm, hpaid]
  have hrefu : ({ s with assets := paid } : State).refundEvm pid =
      ({ s with assets := refunded } : State).setProposal pid { p with deposit := 0 } := by
    unfold State.refundEvm
    dsimp only
    rw [← hp, if_pos hdep, addBalanceEvm, href]
  have ht : t = (({ s with assets := refunded } : State).setProposal pid
      { p with deposit := 0 }).setStatus pid .executed := by
    unfold State.advanceProposal at h
    dsimp only at h
    rw [← hp, hsta] at h
    dsimp only at h
    rw [if_neg hear, if_pos hdue, heff, Option.map_some, hrefu] at h
    exact (Option.some.inj h).symm
  have hpro : t.gov.proposal = Function.update s.gov.proposal pid
      { p with deposit := 0, status := .executed } := by
    have hwro : State.Wrote s (({ s with assets := refunded } : State).setProposal pid
      { p with deposit := 0 }) pid { p with deposit := 0 } := ⟨rfl, rfl, rfl⟩
    rw [ht]
    exact (hwro.setStatus .executed).proposal
  have hass : t.assets = refunded := by rw [ht]; rfl
  have hdepo := State.deposits_of_update hpro
  have h₁ := balances_add hpaid callAssetId
  have h₂ := balances_add href callAssetId
  rw [if_pos rfl] at h₁ h₂
  rw [← hp, show BitVec.toNat (0 : U128) = 0 from rfl] at hdepo
  unfold State.wealth
  rw [hass]
  omega

/-- The treasury is empty, and the recipient is paid. -/
theorem advancer_mints_spend :
    let before := Run.run step (whale 0) spendQueued
    let after := step before (201, .advance)
    after.wealth = before.wealth + 5 ∧ before.assets.balance callAssetId treasuryAddress = 0 ∧
      after.assets.balance callAssetId 9 = 5 := by
  intro before after
  refine ⟨?_, by decide, by decide⟩
  have hids : before.proposalIds = [1] := by decide
  have hadv : State.advanceProposal before.advanceConfig 201 before 1 = some after := by
    obtain ⟨t, ht⟩ := Option.isSome_iff_exists.1
      (show (before.advance 201).isSome = true by decide)
    have haft : after = t := by
      show (before.advance 201).getD before = t
      rw [ht]
      rfl
    unfold State.advance at ht
    rw [hids] at ht
    obtain ⟨u, hu, hrest⟩ := Sweep.sweep_cons_eq_some.1 ht
    rw [hu, Option.some.inj hrest, haft]
  have hamo : (amountField (before.gov.proposal 1).executionData).toNat = 5 := by decide
  obtain ⟨paid, hpaid⟩ : ∃ paid, before.assets.addBalance callAssetId
      (addressField (before.gov.proposal 1).executionData)
      (amountField (before.gov.proposal 1).executionData) = .ok paid :=
    ⟨_, addBalance_eq_ok.2 ⟨by decide, rfl⟩⟩
  obtain ⟨refunded, href⟩ : ∃ refunded, paid.addBalance callAssetId
      (before.gov.proposal 1).proposer (before.gov.proposal 1).deposit = .ok refunded := by
    refine ⟨_, addBalance_eq_ok.2 ⟨?_, rfl⟩⟩
    rw [addBalance_toNat hpaid]
    decide
  have hmint := wealth_of_spend hadv (by decide) (by decide) (by decide) (by decide) (by decide)
    (by decide) hpaid href
  rw [hamo] at hmint
  exact hmint

end Callchain.Governance

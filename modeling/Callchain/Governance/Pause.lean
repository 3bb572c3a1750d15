/-
# A paused chain

While the chain is paused, `vote`, `queue`, `cancel_proposal` and, but for a pause
itself, `execute` refuse to work. The advancer does not read the flag: it queues and
executes as ever. Where it has nothing of the kind to do, the pause holds: no proposal
but a pause is queued or executed, and none has an effect.
-/
import Callchain.Governance.Calls

namespace Callchain.Governance

open Asset Precompile
open Function (update update_of_ne)

/-- While the chain is paused, the advancer finds no proposal but a pause that
it would queue or execute. -/
def Event.Still (s : State) (e : U64 × Event) : Prop :=
  s.gov.paused = true → e.2 = .call .advance → ∀ proposalId,
    (s.gov.proposal proposalId).proposalType ≠ .emergencyPause →
      ¬ ((s.gov.proposal proposalId).status = .active ∧
        (s.gov.proposal proposalId).endBlock < e.1 ∧
        (s.gov.proposal proposalId).passes = true) ∧
      ¬ ((s.gov.proposal proposalId).status = .queued ∧
        (s.gov.proposal proposalId).executionBlock ≤ e.1 ∧
        ¬ (s.gov.proposal proposalId).TimedOut s.gov.executionTimeout e.1)

inductive DepositMove (s : State) (a a' : AssetStorage) : Prop where
  | taken {caller : Address} (h : a.deductBalance callAssetId caller proposalDeposit = .ok a')
  | returned {proposalId : U64}
      (pause : (s.gov.proposal proposalId).proposalType = .emergencyPause)
      (h : a.addBalance callAssetId (s.gov.proposal proposalId).proposer
        (s.gov.proposal proposalId).deposit = .ok a')

/-- No effect of a proposal but a pause was applied between two states: what effects
write is as it was, but for the defaults of the configuration and deposits. -/
structure Quiet (s t : State) : Prop where
  config : t.gov.config = s.gov.config ∨ t.gov.config = s.gov.ensureConfigInitialized.config
  protocolUpgrade : t.gov.protocolUpgrade = s.gov.protocolUpgrade
  feeCurrency : t.gov.feeCurrency = s.gov.feeCurrency
  feeCurrencyCap : t.gov.feeCurrencyCap = s.gov.feeCurrencyCap
  keyRotation : t.gov.keyRotation = s.gov.keyRotation
  keyRotationOld : t.gov.keyRotationOld = s.gov.keyRotationOld
  keyRotationNew : t.gov.keyRotationNew = s.gov.keyRotationNew
  proverKeyRotation : t.gov.proverKeyRotation = s.gov.proverKeyRotation
  validators : t.validators = s.validators
  compliance : t.compliance = s.compliance
  assets : Relation.ReflTransGen (DepositMove s) s.assets t.assets

section Quiet

variable {s t u v : State} {caller : Address} {now pid : U64}

theorem Quiet.refl (s : State) : Quiet s s :=
  ⟨.inl rfl, rfl, rfl, rfl, rfl, rfl, rfl, rfl, rfl, rfl, .refl⟩

section

variable (h : Quiet s u)
include h

theorem Quiet.setProposal (p : Proposal) : Quiet s (u.setProposal pid p) := { h with }

theorem Quiet.setStatus (status : Status) : Quiet s (u.setStatus pid status) := h.setProposal _

theorem Quiet.pause : Quiet s { u with gov := { u.gov with paused := true } } := { h with }

theorem Quiet.deposit {assets : AssetStorage} (hmove : DepositMove s u.assets assets) :
    Quiet s { u with assets := assets } := { h with assets := h.assets.tail hmove }

section

variable (hp : u.gov.proposal pid = s.gov.proposal pid)
  (htype : (s.gov.proposal pid).proposalType = .emergencyPause)
include hp htype

theorem Quiet.refund (reason : String) : Quiet s (u.refund pid reason).1 := by
  rcases u.refund_cases pid reason with ⟨-, hr⟩ | ⟨-, ⟨assets, hadd, hr⟩ | ⟨-, hr⟩⟩
  · rw [hr]
    exact h
  · rw [hr]
    rw [hp] at hadd
    exact (h.deposit (.returned htype hadd)).setProposal _
  · rw [hr]
    exact h

theorem Quiet.refundEvm : Quiet s (u.refundEvm pid) := by
  unfold State.refundEvm
  dsimp only
  split_ifs
  · refine Quiet.setProposal ?_ _
    unfold addBalanceEvm
    rw [hp]
    cases hadd : u.assets.addBalance callAssetId (s.gov.proposal pid).proposer
        (s.gov.proposal pid).deposit with
    | error e => exact h
    | ok assets => exact h.deposit (.returned htype hadd)
  · exact h

end

theorem Quiet.advanced (hp : u.gov.proposal pid = s.gov.proposal pid)
    (hsti : (s.gov.proposal pid).proposalType ≠ .emergencyPause →
      ¬ ((s.gov.proposal pid).status = .queued ∧ (s.gov.proposal pid).executionBlock ≤ now ∧
        ¬ (s.gov.proposal pid).TimedOut s.gov.executionTimeout now))
    (hadv : State.Advanced s.advanceConfig now u pid v) : Quiet s v := by
  cases hadv with
  | stay => exact h
  | @executes e queued due early effect =>
    rw [hp] at queued due early effect
    by_cases htype : (s.gov.proposal pid).proposalType = .emergencyPause
    · rw [htype] at effect
      cases effect
      have hp' : ({ u with gov := { u.gov with paused := true } } : State).gov.proposal pid =
        s.gov.proposal pid := hp
      exact (h.pause.refundEvm hp' htype).setStatus .executed
    · exact absurd ⟨queued, due, early⟩ (hsti htype)
  | _ => exact h.setProposal _

end

theorem quiet_submit {kind : ProposalType} {data : Bytes} {id : U64}
    (h : s.submitProposal kind data caller now = (t, .ok id)) : Quiet s t := by
  obtain ⟨assets, hded, -, rfl⟩ := State.submitProposal_eq_ok h
  set s' : State := { s with gov := s.gov.ensureConfigInitialized, assets := assets } with hs'
  obtain ⟨config, initialized, lastSubmission, hcon, hrec⟩ :=
    s'.recordProposal_gov kind data caller now
  have hcon : config = s.gov.ensureConfigInitialized.config := by
    rcases hcon with h | h
    · exact h
    · rw [h, s.gov.ensureConfigInitialized_idem]
  obtain ⟨config', initialized', hinit⟩ := s.gov.ensureConfigInitialized_eq
  rw [hrec, hs', hinit]
  exact ⟨.inr hcon, rfl, rfl, rfl, rfl, rfl, rfl, rfl, rfl, rfl, .single (.taken hded)⟩

theorem quiet_execute {w : Unit} (hpau : s.gov.paused = true)
    (h : s.execute pid now = (t, .ok w)) : Quiet s t := by
  obtain ⟨htype, -, -, -, hcar⟩ := State.execute_eq_ok h
  have htype := htype hpau
  obtain ⟨e, r, he, hr, rfl⟩ := State.carryOut_eq_ok hcar
  rw [htype] at he
  obtain ⟨rfl, -⟩ := Prod.mk.inj he
  have href := (Quiet.refl s).pause.refund rfl htype "governance: refund failed"
  have hr' : State.refund { s with gov := { s.gov with paused := true } } pid
    "governance: refund failed" = (r, .ok ()) := hr
  rw [hr'] at href
  exact href.setStatus .executed

theorem quiet_signResume {w : Unit} (h : s.signResume caller = (t, .ok w)) : Quiet s t := by
  obtain ⟨config, initialized, hinit⟩ := s.gov.ensureConfigInitialized_eq
  have hcon : config = s.gov.ensureConfigInitialized.config := by rw [hinit]
  obtain ⟨-, -, sigs, -, -, ⟨-, rfl⟩ | ⟨-, rfl⟩⟩ := signResume_eq_ok h <;>
  · rw [hinit]
    exact ⟨.inr hcon, rfl, rfl, rfl, rfl, rfl, rfl, rfl, rfl, rfl, .refl⟩

theorem quiet_exec {m : Method} {w : Unit} (hpau : s.gov.paused = true)
    (h : s.exec caller now m = (t, .ok w)) : Quiet s t := by
  have href : s.gov.paused ≠ false := by rw [hpau]; decide
  cases m with
  | submitProposal =>
    obtain ⟨id, hsub⟩ := exec_submit h
    exact quiet_submit hsub
  | vote => exact absurd (State.vote_eq_ok (exec_ok h)).1 href
  | queue => exact absurd (State.queue_eq_ok (exec_queue h)).1 href
  | execute => exact quiet_execute hpau (exec_ok h)
  | cancelProposal => exact absurd (State.cancelProposal_eq_ok (exec_ok h)).1 href
  | emergencyPause => exact absurd (signPause_eq_ok (exec_ok h)).1 href
  | emergencyResume => exact quiet_signResume (exec_ok h)

theorem quiet_step (hpau : s.gov.paused = true) {c : Call}
    (hsti : Event.Still s (now, .call c)) : Quiet s (Governance.step s (now, c)) := by
  cases c with dsimp only [Governance.step]
  | method caller m =>
    rcases s.settle_cases (s.exec caller now m) with h | h
    · rw [h]
      exact .refl s
    · exact quiet_exec hpau h
  | advance =>
    cases hadv : s.advance now with
    | none => exact .refl s
    | some =>
      refine State.advance_induction hadv (Quiet.refl s) ?_
      intro u i v hu hi hv
      exact hu.advanced hi (fun htype => (hsti hpau rfl i htype).2) hv

end Quiet

theorem Move.status_of_still {s : State} {now pid : U64} {c : Call} {p : Proposal}
    (h : Move s now c pid p) (hpau : s.gov.paused = true) (hsti : Event.Still s (now, .call c))
    (htype : p.proposalType ≠ .emergencyPause) (hcha : p.status ≠ (s.gov.proposal pid).status) :
    p.status ≠ .queued ∧ p.status ≠ .executed := by
  cases h with
  | same => exact absurd rfl hcha
  | submits =>
    show (if s.gov.readConfigU64 .reviewPeriod = 0 then Status.active else .pending) ≠ .queued ∧
      (if s.gov.readConfigU64 .reviewPeriod = 0 then Status.active else .pending) ≠ .executed
    split_ifs <;> decide
  | @votes caller voteVal p call opened active =>
    rw [show (p.tallied voteVal _).status = p.status from tallied_status .., active]
    decide
  | queues call unpaused =>
    rw [hpau] at unpaused
    cases unpaused
  | opens =>
    show Status.active ≠ .queued ∧ Status.active ≠ .executed
    decide
  | passes call active ended passed =>
    exact absurd ⟨active, ended, passed⟩ (hsti hpau (by rw [call]) pid htype).1
  | executes call queued due early =>
    rcases call with call | ⟨-, honly⟩
    · exact absurd ⟨queued, due, early⟩ (hsti hpau (by rw [call]) pid htype).2
    · exact absurd (honly hpau) htype
  | @closes deposit status closed =>
    show status ≠ .queued ∧ status ≠ .executed
    rcases closed with rfl | rfl <;> decide

def pausedVote : List (U64 × Event) :=
  upgradeVote ++ [(1, .call .advance), (2, .call (.method 7 (.emergencyPause 5)))]

end Callchain.Governance

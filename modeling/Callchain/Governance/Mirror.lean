/-
# The two executions of a proposal

`apply_side_effects` of the advancer says of itself that it mirrors `execute`. It reads
the same execution data with other layouts and writes other slots, it takes nothing from
the treasury, it skips what `execute` refuses, and past the timeout it takes the deposit
that `execute` refunds.

The state after both is the same where the two effects are, which a type either gives or
asks of the storage: where the slots already hold what each of the two writes.
-/
import Callchain.Governance.Calls

namespace Callchain.Governance

open Asset Validator Consensus Precompile AssetStorage
open Function (update update_eq_self update_eq_self_iff update_of_ne update_self)

/-! ### Where the effects agree -/

namespace State

variable (s : State)

def Refundable (p : Proposal) : Prop :=
  0 < p.deposit → p.proposer ≠ 0 →
    (s.assets.balance callAssetId p.proposer).toNat + p.deposit.toNat < 2 ^ 128

def EffectAgrees (data : Bytes) : ProposalType → Prop
  | .protocolUpgrade | .feeCurrencyAdd | .feeCurrencyRemove => 32 ≤ data.length
  | .validatorSlash | .feeCurrencyCap => 64 ≤ data.length
  | .emergencyPause => True
  -- the two write under different keys
  | .parameterChange => 128 ≤ data.length ∧ ∃ param : Param,
      parameterKey data = some param.suffix ∧
      validateConfigParam param (amountField data) = none ∧
      s.gov.config param.suffix = amountField data ∧
      s.gov.config (advancerKey data) =
        BitVec.ofNat 128 (field data (data.length - 16) data.length)
  -- the status of the address, and that of a policy
  | .complianceUpdate => 64 ≤ data.length ∧ byteField data 63 ≤ 1 ∧
      s.compliance.status (addressField data) = byteField data 63 ∧
      (96 ≤ data.length →
        s.compliance.policy (addressField data) (byteField data 63) = byteField data 95)
  -- a record of the two keys, and the key of the validator
  | .validatorKeyRotation => 96 ≤ data.length ∧ wordField data 1 ≠ 0 ∧ wordField data 2 ≠ 0 ∧
      s.gov.keyRotationOld (idField data) = wordField data 1 ∧
      s.gov.keyRotationNew (idField data) = wordField data 2 ∧
      s.gov.keyRotation (idField data) = true ∧
      (s.validators.validatorAddr (idField data) ≠ 0 →
        s.validators.pubkey (s.validators.validatorAddr (idField data)) = wordField data 1)
  -- the rotation that is pending, and the version that is registered
  | .proverKeyRotation => 160 ≤ data.length ∧ field data 152 160 ≠ 0 ∧
      s.gov.proverKeyRotation =
        { version := versionField data
          transferVkHash := wordField data 1
          depositVkHash := wordField data 2
          withdrawVkHash := wordField data 3
          sunsetTimestamp := BitVec.ofNat 64 (field data 152 160)
          pending := true
          registered := versionField data }
  | .treasurySpend | .unsupported _ => False

/-- The spends that leave the same balances. The advancer does not debit the treasury,
so a sum has to exceed a word: a credit to the treasury itself, which is then dropped,
or the deposit refunded to it. -/
def SpendAgrees (p : Proposal) : Prop :=
  let data := p.executionData
  let recipient := addressField data
  let amount := amountField data
  let assetId := spendAssetId data
  let call : Address → ℕ := fun addr => (s.assets.balance callAssetId addr).toNat
  64 ≤ data.length ∧ recipient ≠ 0 ∧ amount ≠ 0 ∧
    amount.toNat ≤ (s.assets.balance assetId treasuryAddress).toNat ∧
    (s.assets.balance assetId treasuryAddress).toNat < 2 ^ 128 ∧
    ((recipient = treasuryAddress ∧ 2 ^ 128 ≤ call treasuryAddress + amount.toNat ∧
        s.Refundable p) ∨
      (recipient = treasuryAddress ∧ p.proposer = treasuryAddress ∧ p.deposit = amount ∧
        call treasuryAddress + amount.toNat < 2 ^ 128 ∧
        2 ^ 128 ≤ call treasuryAddress + amount.toNat + amount.toNat) ∨
      (recipient ≠ treasuryAddress ∧ assetId = callAssetId ∧ p.proposer = treasuryAddress ∧
        p.deposit = amount ∧ call recipient + amount.toNat < 2 ^ 128 ∧
        2 ^ 128 ≤ call treasuryAddress + amount.toNat))

structure MirrorAgrees (proposalId currentBlock : U64) : Prop where
  early : ¬ (s.gov.proposal proposalId).TimedOut s.gov.executionTimeout currentBlock
  unpaused : s.gov.paused = true → (s.gov.proposal proposalId).proposalType = .emergencyPause
  read : (s.gov.proposal proposalId).proposalType ≠ .emergencyPause →
    (s.gov.proposal proposalId).executionData.length ≤ maxExecutionDataLen
  effect : if (s.gov.proposal proposalId).proposalType = .treasurySpend
    then s.SpendAgrees (s.gov.proposal proposalId)
    else s.Refundable (s.gov.proposal proposalId) ∧
      s.EffectAgrees (s.gov.proposal proposalId).executionData
        (s.gov.proposal proposalId).proposalType

/-- What is compared: the storage after an execution, and past the timeout the status,
the deposit and the balances. -/
def Mirrors (proposalId currentBlock : U64) : Prop :=
  let executed := (s.execute proposalId currentBlock).1
  ∃ advanced, s.advanceProposal s.advanceConfig currentBlock proposalId = some advanced ∧
    if (s.gov.proposal proposalId).TimedOut s.gov.executionTimeout currentBlock then
      (advanced.gov.proposal proposalId).status = (executed.gov.proposal proposalId).status ∧
      (advanced.gov.proposal proposalId).deposit = (executed.gov.proposal proposalId).deposit ∧
      advanced.assets = executed.assets
    else advanced = executed

end State

/-! ### Comparing states -/

namespace State

variable {s t e r : State} {pid now : U64}

def rest (s : State) : GovernanceStorage × ValidatorStorage × ComplianceStorage :=
  ({ s.gov with proposal := fun _ => {} }, s.validators, s.compliance)

theorem eq_of_rest (hrest : s.rest = t.rest) (hpro : s.gov.proposal = t.gov.proposal)
    (hass : s.assets = t.assets) : s = t := by
  obtain ⟨g, a, v, c⟩ := s
  obtain ⟨g', a', v', c'⟩ := t
  obtain ⟨hgov, hoth⟩ := Prod.mk.inj hrest
  obtain ⟨hval, hcom⟩ := Prod.mk.inj hoth
  have hgov : g = { g' with proposal := g.proposal } :=
    congrArg (fun h : GovernanceStorage => { h with proposal := g.proposal }) hgov
  rw [hpro] at hgov
  have hass : a = a' := hass
  have hval : v = v' := hval
  have hcom : c = c' := hcom
  rw [hgov, hass, hval, hcom]

theorem rest_refund {reason : String} {u : Unit} (h : s.refund pid reason = (t, .ok u)) :
    t.rest = s.rest := by
  rcases s.refund_cases pid reason with ⟨-, hr⟩ | ⟨-, ⟨assets, -, hr⟩ | ⟨-, hr⟩⟩
  · rw [hr] at h
    obtain ⟨rfl, -⟩ := Prod.mk.inj h
    rfl
  · rw [hr] at h
    obtain ⟨rfl, -⟩ := Prod.mk.inj h
    rfl
  · rw [hr] at h
    cases h

theorem rest_refundEvm (s : State) (pid : U64) : (s.refundEvm pid).rest = s.rest := by
  unfold refundEvm
  dsimp only
  split_ifs <;> rfl

theorem refund_proposal {reason : String} {u : Unit} (h : s.refund pid reason = (r, .ok u))
    (ht : t.gov.proposal = s.gov.proposal) : (t.refundEvm pid).gov.proposal = r.gov.proposal := by
  unfold refundEvm
  rw [ht]
  rcases s.refund_cases pid reason with ⟨hdue, hr⟩ | ⟨hdue, ⟨assets, -, hr⟩ | ⟨-, hr⟩⟩
  · rw [hr] at h
    obtain ⟨rfl, -⟩ := Prod.mk.inj h
    rw [if_neg hdue, ht]
  · rw [hr] at h
    obtain ⟨rfl, -⟩ := Prod.mk.inj h
    rw [if_pos hdue]
    show update t.gov.proposal pid _ = _
    rw [ht]
    rfl
  · rw [hr] at h
    cases h

/-! ### The execution of a proposal that is due -/

structure Due (s : State) (proposalId currentBlock : U64) : Prop where
  id : s.gov.ValidId proposalId
  queued : (s.gov.proposal proposalId).status = .queued
  block : (s.gov.proposal proposalId).executionBlock ≤ currentBlock

theorem execute_due (h : s.Due pid now)
    (hunp : s.gov.paused = true → (s.gov.proposal pid).proposalType = .emergencyPause) :
    s.execute pid now = if (s.gov.proposal pid).TimedOut s.gov.executionTimeout now
      then s.lapse pid else s.carryOut pid := by
  unfold execute
  rw [if_neg (not_not.2 h.id), if_neg fun hp => hp.2 (hunp hp.1),
    if_neg (not_not.2 h.queued), if_neg (BitVec.not_lt.2 h.block)]

theorem execute_paused (hid : s.gov.ValidId pid) (hpau : s.gov.paused = true)
    (htype : (s.gov.proposal pid).proposalType ≠ .emergencyPause) : (s.execute pid now).1 = s := by
  unfold execute
  rw [if_neg (not_not.2 hid), if_pos ⟨hpau, htype⟩]

theorem advanceProposal_due (h : s.Due pid now) (c : AdvanceConfig) :
    s.advanceProposal c now pid = if (s.gov.proposal pid).TimedOut c.execTimeout now
      then some (s.confiscate pid .expired)
      else (s.applySideEffects (s.gov.proposal pid).executionData
        (s.gov.proposal pid).proposalType).map fun e =>
          (e.refundEvm pid).setStatus pid .executed := by
  unfold advanceProposal
  dsimp only
  rw [h.queued]
  rw [if_pos h.block]

theorem carryOut_status (hque : (s.gov.proposal pid).status = .queued)
    {error : PrecompileError} (h : (s.carryOut pid).2 = .error error) :
    ((s.carryOut pid).1.gov.proposal pid).status = .queued := by
  have hsame := s.sameTables_applyEffect (s.gov.proposal pid).readExecutionData
    (s.gov.proposal pid).proposalType
  unfold carryOut at h ⊢
  dsimp only at h ⊢
  rcases he : s.applyEffect (s.gov.proposal pid).readExecutionData
    (s.gov.proposal pid).proposalType with ⟨e, err | u⟩
  · rw [he] at hsame
    rw [hsame.proposal]
    exact hque
  · rw [he] at hsame h
    dsimp only at h ⊢
    obtain ⟨deposit, hwro⟩ := e.refund_wrote pid "governance: refund failed"
    rcases hr : e.refund pid "governance: refund failed" with ⟨r, err | u⟩
    · rw [hr] at hwro
      rw [hwro.self, hsame.proposal]
      exact hque
    · rw [hr] at h
      cases h

/-- Both executions lead to the same storage exactly if both effects succeed and agree
outside of the balances, and the balances agree after the refund. -/
theorem mirror_iff (h : s.Due pid now)
    (hunp : s.gov.paused = true → (s.gov.proposal pid).proposalType = .emergencyPause)
    (hear : ¬ (s.gov.proposal pid).TimedOut s.gov.executionTimeout now) :
    s.advanceProposal s.advanceConfig now pid = some (s.execute pid now).1 ↔
      ∃ e r e', s.applyEffect (s.gov.proposal pid).readExecutionData
          (s.gov.proposal pid).proposalType = (e, .ok ()) ∧
        e.refund pid "governance: refund failed" = (r, .ok ()) ∧
        s.applySideEffects (s.gov.proposal pid).executionData
          (s.gov.proposal pid).proposalType = some e' ∧
        e'.rest = e.rest ∧ (e'.refundEvm pid).assets = r.assets := by
  rw [execute_due h hunp, if_neg hear, advanceProposal_due h,
    if_neg (show ¬ Proposal.TimedOut _ s.advanceConfig.execTimeout _ from hear),
    Option.map_eq_some_iff]
  constructor
  · rintro ⟨e', he', heq⟩
    rcases hcar : s.carryOut pid with ⟨t, err | ⟨⟩⟩
    · -- the advancer marks the proposal as executed, the failed call does not
      have hfai : (s.carryOut pid).2 = .error err := by rw [hcar]
      have hsta := carryOut_status h.queued hfai
      obtain ⟨deposit, hwro⟩ := settle_wrote pid he'
      rw [← heq, hwro.self] at hsta
      cases hsta
    · obtain ⟨e, r, he, hr, rfl⟩ := carryOut_eq_ok hcar
      rw [hcar] at heq
      have hrest := congrArg State.rest heq
      have hass := congrArg State.assets heq
      refine ⟨e, r, e', he, hr, he', ?_, hass⟩
      rw [← rest_refund hr, ← rest_refundEvm e' pid]
      exact hrest
  · rintro ⟨e, r, e', he, hr, he', hrest, hass⟩
    refine ⟨e', he', ?_⟩
    have hcar : s.carryOut pid = (r.setStatus pid .executed, .ok ()) := by
      unfold carryOut
      dsimp only
      rw [he]
      dsimp only
      rw [hr]
    rw [hcar]
    have hsame := s.sameTables_applyEffect (s.gov.proposal pid).readExecutionData
      (s.gov.proposal pid).proposalType
    rw [he] at hsame
    have hpro : (e'.refundEvm pid).gov.proposal = r.gov.proposal := by
      refine refund_proposal hr ?_
      rw [(sameTables_applySideEffects he').proposal, hsame.proposal]
    have hset : e'.refundEvm pid = r := by
      refine eq_of_rest ?_ hpro hass
      rw [rest_refundEvm, rest_refund hr, hrest]
    rw [hset]

/-! ### The effects, type by type -/

variable {data : Bytes}

def SameEffect (s : State) (data : Bytes) (proposalType : ProposalType) : Prop :=
  ∃ e e', s.applyEffect data proposalType = (e, .ok ()) ∧
    s.applySideEffects data proposalType = some e' ∧ e'.rest = e.rest

theorem sized_agrees_iff {kind : String} {length : ℕ} (hrest : t.rest = r.rest) :
    (∃ e e', s.sized data kind length (r, .ok ()) = (e, .ok ()) ∧
      (if length ≤ data.length then some t else some s) = some e' ∧ e'.rest = e.rest) ↔
      length ≤ data.length := by
  constructor
  · rintro ⟨e, e', he, -, -⟩
    exact not_lt.1 (ite_failed_eq_ok.1 he).1
  · intro hle
    exact ⟨r, t, ite_failed_eq_ok.2 ⟨not_lt.2 hle, rfl⟩, if_pos hle, hrest⟩

theorem slash_rest (s : State) (addr : Address) (amount : U128) :
    let current := s.validators.stake addr
    let newStake := if current < amount then 0 else current - amount
    (slashValidatorEvm s.validators addr amount).1 = { s.validators with
      stake := update s.validators.stake addr newStake
      status := if newStake = 0 then update s.validators.status addr 0
        else s.validators.status } := by
  intro current newStake
  have hsta : current - (if current ≤ amount then current else amount) = newStake := by
    show _ = if current < amount then 0 else current - amount
    by_cases hlt : current < amount
    · rw [if_pos (BitVec.le_of_lt hlt), if_pos hlt, BitVec.sub_self]
      rfl
    · rw [if_neg hlt]
      by_cases hle : current ≤ amount
      · rw [if_pos hle, BitVec.le_antisymm hle (BitVec.not_lt.1 hlt)]
      · rw [if_neg hle]
  unfold slashValidatorEvm
  dsimp only
  rw [hsta]

theorem parameterChange_eq_ok {u : Unit} : s.parameterChange data = (e, .ok u) ↔
    128 ≤ data.length ∧ ∃ param : Param, parameterKey data = some param.suffix ∧
      validateConfigParam param (amountField data) = none ∧
      e = { s with gov := s.gov.writeConfigU128 param.suffix (amountField data) } := by
  unfold parameterChange sized
  rw [ite_failed_eq_ok, not_lt]
  refine and_congr_right' ?_
  constructor
  · intro h
    split at h
    · cases h
    · rename_i key hkey
      rw [ite_failed_eq_ok] at h
      obtain ⟨-, h⟩ := h
      split at h
      · cases h
      · rename_i param hpar
        have hsuf := List.find?_some (p := fun q : Param => decide (q.suffix = key)) hpar
        split at h
        · cases h
        · rename_i hval
          obtain ⟨rfl, -⟩ := Prod.mk.inj h
          exact ⟨param, by rw [hkey, of_decide_eq_true hsuf], hval, rfl⟩
  · rintro ⟨param, hkey, hval, rfl⟩
    have hasc : (param.suffix.all fun b => b < 0x80) = true := by cases param <;> rfl
    have hutf8 : validUtf8 param.suffix = true :=
      validUtf8_of_ascii fun b hb => of_decide_eq_true (List.all_eq_true.1 hasc b hb)
    have hfind : Param.all.find? (fun q => q.suffix = param.suffix) = some param := by
      cases param <;> rfl
    rw [hkey]
    dsimp only
    rw [if_neg (not_not.2 hutf8), hfind]
    dsimp only
    rw [hval]

theorem advancerKey_ne (h : 128 ≤ data.length) (param : Param) :
    advancerKey data ≠ param.suffix := by
  have hlen : (advancerKey data).length = 32 := by
    unfold advancerKey
    rw [if_pos (by omega), List.length_take, List.length_drop]
    omega
  have hsho : param.suffix.length < 32 := by cases param <;> decide
  intro heq
  rw [← heq, hlen] at hsho
  exact absurd hsho (Nat.lt_irrefl 32)

theorem parameterChange_agrees_iff : s.SameEffect data .parameterChange ↔
    s.EffectAgrees data .parameterChange := by
  constructor
  · rintro ⟨e, e', he, he', hrest⟩
    obtain ⟨hlen, param, hkey, hval, rfl⟩ := parameterChange_eq_ok.1 he
    have he' : (if 48 ≤ data.length then _ else _) = some e' := he'
    rw [if_pos (by omega)] at he'
    obtain rfl := Option.some.inj he'
    have hne := advancerKey_ne hlen param
    have hcon : update s.gov.config (advancerKey data) _ =
        update s.gov.config param.suffix (amountField data) :=
      congrArg (fun r => r.1.config) hrest
    have hpar := congrFun hcon param.suffix
    have hadv := congrFun hcon (advancerKey data)
    rw [update_self, update_of_ne hne.symm] at hpar
    rw [update_self, update_of_ne hne] at hadv
    exact ⟨hlen, param, hkey, hval, hpar, hadv.symm⟩
  · rintro ⟨hlen, param, hkey, hval, hpar, hadv⟩
    refine ⟨_, _, parameterChange_eq_ok.2 ⟨hlen, param, hkey, hval, rfl⟩, if_pos (by omega), ?_⟩
    unfold GovernanceStorage.writeConfigU128
    rw [← hpar, ← hadv, update_eq_self, update_eq_self]

theorem complianceUpdate_agrees_iff : s.SameEffect data .complianceUpdate ↔
    s.EffectAgrees data .complianceUpdate := by
  set target := addressField data with htar
  set byte := byteField data 63 with hbyte
  have hpol : ∀ v : U8, update s.compliance.policy target
      (update (s.compliance.policy target) byte v) = s.compliance.policy ↔
        s.compliance.policy target byte = v := by
    intro v
    rw [update_eq_self_iff, update_eq_self_iff, eq_comm]
  have hok : ∀ e, s.complianceUpdate data = (e, .ok ()) ↔ 64 ≤ data.length ∧ byte ≤ 1 ∧
      ({ s with compliance := { s.compliance with
        status := update s.compliance.status target byte } } : State) = e := by
    intro e
    unfold complianceUpdate sized
    rw [ite_failed_eq_ok, ite_failed_eq_ok, not_lt, BitVec.not_lt, Prod.mk.injEq]
    simp only [and_true]
    exact Iff.rfl
  constructor
  · rintro ⟨e, e', he, he', hrest⟩
    obtain ⟨hlen, hle, rfl⟩ := (hok e).1 he
    have he' : (if 96 ≤ data.length then _ else _) = some e' := he'
    by_cases hlong : 96 ≤ data.length
    · rw [if_pos hlong] at he'
      obtain rfl := Option.some.inj he'
      have hsta : s.compliance.status = update s.compliance.status target byte :=
        congrArg (fun r => r.2.2.status) hrest
      have hpoli : update s.compliance.policy target
          (update (s.compliance.policy target) byte (byteField data 95)) =
            s.compliance.policy := congrArg (fun r => r.2.2.policy) hrest
      exact ⟨hlen, hle, (Function.update_eq_self_iff.1 hsta.symm).symm, fun _ => (hpol _).1 hpoli⟩
    · rw [if_neg hlong] at he'
      obtain rfl := Option.some.inj he'
      have hsta : s.compliance.status = update s.compliance.status target byte :=
        congrArg (fun r => r.2.2.status) hrest
      exact ⟨hlen, hle, (Function.update_eq_self_iff.1 hsta.symm).symm, fun h => absurd h hlong⟩
  · rintro ⟨hlen, hle, hsta, hlong⟩
    have hsta : update s.compliance.status target byte = s.compliance.status :=
      Function.update_eq_self_iff.2 hsta.symm
    refine ⟨_, s, (hok _).2 ⟨hlen, hle, rfl⟩, ?_, ?_⟩
    · show (if 96 ≤ data.length then _ else _) = some s
      split_ifs with h
      · rw [(hpol _).2 (hlong h)]
      · rfl
    · rw [hsta]

theorem validatorKeyRotation_agrees_iff : s.SameEffect data .validatorKeyRotation ↔
    s.EffectAgrees data .validatorKeyRotation := by
  have hok : ∀ e, s.validatorKeyRotation data = (e, .ok ()) ↔
      96 ≤ data.length ∧ wordField data 1 ≠ 0 ∧ wordField data 2 ≠ 0 ∧
      ({ s with gov := { s.gov with
        keyRotationOld := update s.gov.keyRotationOld (idField data) (wordField data 1)
        keyRotationNew := update s.gov.keyRotationNew (idField data)
          (wordField data 2) } } : State) = e := by
    intro e
    unfold validatorKeyRotation sized
    rw [ite_failed_eq_ok, ite_failed_eq_ok, ite_failed_eq_ok, not_lt, Prod.mk.injEq]
    simp only [and_true]
  constructor
  · rintro ⟨e, e', he, he', hrest⟩
    obtain ⟨hlen, hold, hnew, rfl⟩ := (hok e).1 he
    have he' : (if 64 ≤ data.length then _ else _) = some e' := he'
    rw [if_pos (by omega)] at he'
    obtain rfl := Option.some.inj he'
    have hkeyO : s.gov.keyRotationOld = update s.gov.keyRotationOld (idField data)
        (wordField data 1) := congrArg (fun r => r.1.keyRotationOld) hrest
    have hkey : s.gov.keyRotationNew = update s.gov.keyRotationNew (idField data)
        (wordField data 2) := congrArg (fun r => r.1.keyRotationNew) hrest
    have hflag : update s.gov.keyRotation (idField data) true = s.gov.keyRotation :=
      congrArg (fun r => r.1.keyRotation) hrest
    refine ⟨hlen, hold, hnew, (Function.update_eq_self_iff.1 hkeyO.symm).symm,
      (Function.update_eq_self_iff.1 hkey.symm).symm,
      (Function.update_eq_self_iff.1 hflag).symm, fun haddr => ?_⟩
    have hpub : (if s.validators.validatorAddr (idField data) ≠ 0 then rotateValidatorKeyEvm
        s.validators (s.validators.validatorAddr (idField data)) (wordField data 1)
          else s.validators).pubkey = s.validators.pubkey := congrArg (fun r => r.2.1.pubkey) hrest
    rw [if_pos haddr] at hpub
    exact (Function.update_eq_self_iff.1 hpub).symm
  · rintro ⟨hlen, hold, hnew, hkeyO, hkey, hflag, hpub⟩
    refine ⟨s, s, (hok s).2 ⟨hlen, hold, hnew, ?_⟩, ?_, rfl⟩
    · rw [← hkeyO, ← hkey, update_eq_self, update_eq_self]
    · show (if 64 ≤ data.length then some (s.rotateKey data) else some s) = some s
      rw [if_pos (by omega)]
      unfold rotateKey rotateValidatorKeyEvm
      dsimp only
      rw [← hflag, update_eq_self]
      split_ifs with haddr
      · rw [← hpub haddr, update_eq_self]
      · rfl

theorem proverKeyRotation_agrees_iff : s.SameEffect data .proverKeyRotation ↔
    s.EffectAgrees data .proverKeyRotation := by
  have hok : ∀ e, s.proverKeyRotation data = (e, .ok ()) ↔
      160 ≤ data.length ∧ field data 152 160 ≠ 0 ∧
      ({ s with gov := { s.gov with
        proverKeyRotation := { s.gov.proverKeyRotation with
          version := versionField data
          transferVkHash := wordField data 1
          depositVkHash := wordField data 2
          withdrawVkHash := wordField data 3
          sunsetTimestamp := BitVec.ofNat 64 (field data 152 160)
          pending := true } } } : State) = e := by
    intro e
    unfold proverKeyRotation sized
    rw [ite_failed_eq_ok, ite_failed_eq_ok, not_lt, Prod.mk.injEq]
    simp only [and_true]
  constructor
  · rintro ⟨e, e', he, he', hrest⟩
    obtain ⟨hlen, hsun, rfl⟩ := (hok e).1 he
    have he' : (if 160 ≤ data.length then _ else _) = some e' := he'
    rw [if_pos hlen] at he'
    obtain rfl := Option.some.inj he'
    have hrot : ({ s.gov.proverKeyRotation with
        registered := versionField data } : ProverKeyRotation) = { s.gov.proverKeyRotation with
            version := versionField data
            transferVkHash := wordField data 1
            depositVkHash := wordField data 2
            withdrawVkHash := wordField data 3
            sunsetTimestamp := BitVec.ofNat 64 (field data 152 160)
            pending := true } := congrArg (fun r => r.1.proverKeyRotation) hrest
    -- the version that is registered already is the one that the advancer writes
    have hreg := congrArg ProverKeyRotation.registered hrot
    refine ⟨hlen, hsun, ?_⟩
    dsimp only at hreg
    rw [hreg] at hrot ⊢
    exact hrot
  · rintro ⟨hlen, hsun, hrot⟩
    refine ⟨s, s, (hok s).2 ⟨hlen, hsun, ?_⟩, ?_, rfl⟩
    · rw [hrot, ← hrot]
    · show (if 160 ≤ data.length then _ else _) = some s
      rw [if_pos hlen, hrot, ← hrot]

theorem effect_agrees_iff {kind : ProposalType} (htype : kind ≠ .treasurySpend) :
    s.SameEffect data kind ↔ s.EffectAgrees data kind := by
  cases kind with
  | parameterChange => exact parameterChange_agrees_iff
  | treasurySpend => exact absurd rfl htype
  | validatorSlash =>
    refine sized_agrees_iff ?_
    rw [slash_rest]
  | complianceUpdate => exact complianceUpdate_agrees_iff
  | emergencyPause => exact iff_of_true ⟨_, _, rfl, rfl, rfl⟩ trivial
  | validatorKeyRotation => exact validatorKeyRotation_agrees_iff
  | proverKeyRotation => exact proverKeyRotation_agrees_iff
  | unsupported =>
    refine iff_of_false ?_ id
    rintro ⟨e, e', he, -, -⟩
    cases he
  | _ => exact sized_agrees_iff rfl

end State

/-! ### The balances after both executions -/

section Balances

variable {a b : AssetStorage} {p : Proposal}

theorem assets_ext (hiss : a.issuer = b.issuer)
    (h : ∀ assetId addr, (a.balance assetId addr).toNat = (b.balance assetId addr).toNat) :
    a = b := by
  obtain ⟨balance, issuer⟩ := a
  obtain ⟨balance', issuer'⟩ := b
  have hbal : balance = balance' :=
    funext fun assetId => funext fun addr => BitVec.eq_of_toNat_eq (h assetId addr)
  have hiss : issuer = issuer' := hiss
  rw [hbal, hiss]

theorem addBalanceEvm_issuer (a : AssetStorage) (aid : U64) (addr : Address) (amount : U128) :
    (addBalanceEvm a aid addr amount).issuer = a.issuer := by
  unfold addBalanceEvm
  split
  · rename_i t h
    obtain ⟨-, rfl⟩ := addBalance_eq_ok.1 h
    rfl
  · rfl

theorem addBalanceEvm_of_ok {t : AssetStorage} {aid : U64} {addr : Address} {amount : U128}
    (h : a.addBalance aid addr amount = .ok t) : addBalanceEvm a aid addr amount = t := by
  unfold addBalanceEvm
  rw [h]

theorem addBalanceEvm_toNat (a : AssetStorage) (aid : U64) (addr : Address) (amount : U128)
    (aid' : U64) (addr' : Address) :
    ((addBalanceEvm a aid addr amount).balance aid' addr').toNat = if (aid' = aid ∧ addr' = addr) ∧
          (a.balance aid addr).toNat + amount.toNat < 2 ^ 128 then
        (a.balance aid addr).toNat + amount.toNat else (a.balance aid' addr').toNat := by
  by_cases hfits : (a.balance aid addr).toNat + amount.toNat < 2 ^ 128
  · have hok := addBalance_eq_ok.2 ⟨hfits, rfl⟩
    rw [addBalanceEvm_of_ok hok, addBalance_toNat hok]
    simp only [hfits, and_true]
  · rw [if_neg fun h => hfits h.2]
    unfold addBalanceEvm
    split
    · rename_i t h
      exact absurd (addBalance_eq_ok.1 h).1 hfits
    · rfl

def payDeposit (a : AssetStorage) (p : Proposal) : AssetStorage :=
  if 0 < p.deposit ∧ p.proposer ≠ 0 then addBalanceEvm a callAssetId p.proposer p.deposit else a

theorem payDeposit_issuer (a : AssetStorage) (p : Proposal) :
    (payDeposit a p).issuer = a.issuer := by
  unfold payDeposit
  split_ifs
  · exact addBalanceEvm_issuer _ _ _ _
  · rfl

theorem payDeposit_toNat (a : AssetStorage) (p : Proposal) (aid : U64) (addr : Address) :
    ((payDeposit a p).balance aid addr).toNat =
      if (0 < p.deposit ∧ p.proposer ≠ 0) ∧ (aid = callAssetId ∧ addr = p.proposer) ∧
          (a.balance callAssetId p.proposer).toNat + p.deposit.toNat < 2 ^ 128 then
        (a.balance callAssetId p.proposer).toNat + p.deposit.toNat
      else (a.balance aid addr).toNat := by
  unfold payDeposit
  by_cases hdue : 0 < p.deposit ∧ p.proposer ≠ 0
  · rw [if_pos hdue, addBalanceEvm_toNat]
    simp only [hdue, true_and, ne_eq, not_false_eq_true]
  · rw [if_neg hdue, if_neg fun h => hdue h.1]

theorem refundEvm_assets (s : State) (pid : U64) :
    (s.refundEvm pid).assets = payDeposit s.assets (s.gov.proposal pid) := by
  unfold State.refundEvm payDeposit
  dsimp only
  split_ifs <;> rfl

theorem refund_ok_iff (s : State) (pid : U64) (reason : String) (Q : AssetStorage → Prop) :
    (∃ r, s.refund pid reason = (r, .ok ()) ∧ Q r.assets) ↔ s.Refundable (s.gov.proposal pid) ∧
        Q (payDeposit s.assets (s.gov.proposal pid)) := by
  unfold State.Refundable payDeposit
  rcases s.refund_cases pid reason with
    ⟨hdue, h⟩ | ⟨hdue, ⟨assets, hass, h⟩ | ⟨⟨e, herr⟩, h⟩⟩
  · rw [h, if_neg hdue]
    constructor
    · rintro ⟨r, hr, hQ⟩
      obtain ⟨rfl, -⟩ := Prod.mk.inj hr
      exact ⟨fun hpos hne => absurd ⟨hpos, hne⟩ hdue, hQ⟩
    · rintro ⟨-, hQ⟩
      exact ⟨s, rfl, hQ⟩
  · rw [h, if_pos hdue, addBalanceEvm_of_ok hass]
    constructor
    · rintro ⟨r, hr, hQ⟩
      obtain ⟨rfl, -⟩ := Prod.mk.inj hr
      exact ⟨fun _ _ => (addBalance_eq_ok.1 hass).1, hQ⟩
    · rintro ⟨-, hQ⟩
      exact ⟨_, rfl, hQ⟩
  · rw [h]
    constructor
    · rintro ⟨r, hr, -⟩
      cases hr
    · rintro ⟨hfits, -⟩
      rw [addBalance_eq_ok.2 ⟨hfits hdue.1 hdue.2, rfl⟩] at herr
      cases herr

theorem payDeposit_of_ne {aid : U64} {addr : Address}
    (h : ¬ ((0 < p.deposit ∧ p.proposer ≠ 0) ∧ aid = callAssetId ∧ addr = p.proposer)) :
    ((payDeposit a p).balance aid addr).toNat = (a.balance aid addr).toNat := by
  rw [payDeposit_toNat, if_neg fun hp => h ⟨hp.1, hp.2.1⟩]

theorem payDeposit_self (hdue : 0 < p.deposit ∧ p.proposer ≠ 0) :
    ((payDeposit a p).balance callAssetId p.proposer).toNat =
      if (a.balance callAssetId p.proposer).toNat + p.deposit.toNat < 2 ^ 128 then
        (a.balance callAssetId p.proposer).toNat + p.deposit.toNat
      else (a.balance callAssetId p.proposer).toNat := by
  rw [payDeposit_toNat]
  simp only [hdue, and_self, true_and, ne_eq, not_false_eq_true]

section Spend

variable {s : State} {aid : U64} {recipient : Address} {amount : U128}
  (hdeduct : s.assets.deductBalance aid treasuryAddress amount = .ok a)
  (hadd : a.addBalance aid recipient amount = .ok b)

include hdeduct hadd

theorem spend_issuer : b.issuer = s.assets.issuer := by
  obtain ⟨-, rfl⟩ := addBalance_eq_ok.1 hadd
  obtain ⟨-, -, rfl⟩ := deductBalance_eq_ok.1 hdeduct
  rfl

theorem spend_to_treasury (hrec : recipient = treasuryAddress) : b = s.assets := by
  have hle := (deductBalance_eq_ok.1 hdeduct).1
  refine assets_ext (spend_issuer hdeduct hadd) fun assetId' addr => ?_
  rw [addBalance_toNat hadd, hrec]
  by_cases h : assetId' = aid ∧ addr = treasuryAddress
  · rw [if_pos h, deductBalance_toNat hdeduct, if_pos ⟨rfl, rfl⟩, h.1, h.2]
    omega
  · rw [if_neg h, deductBalance_toNat hdeduct, if_neg h]

theorem spend_treasury (hrec : recipient ≠ treasuryAddress) :
    (b.balance aid treasuryAddress).toNat =
      (s.assets.balance aid treasuryAddress).toNat - amount.toNat := by
  rw [addBalance_toNat hadd, if_neg fun h => hrec h.2.symm,
    deductBalance_toNat hdeduct, if_pos ⟨rfl, rfl⟩]

omit hdeduct hadd in
theorem credit_treasury (hrec : recipient = treasuryAddress)
    (hfits : (s.assets.balance callAssetId treasuryAddress).toNat + amount.toNat < 2 ^ 128) :
    ((addBalanceEvm s.assets callAssetId recipient amount).balance callAssetId
      treasuryAddress).toNat =
        (s.assets.balance callAssetId treasuryAddress).toNat + amount.toNat := by
  rw [addBalanceEvm_toNat, hrec, if_pos ⟨⟨rfl, rfl⟩, hfits⟩]

omit hdeduct hadd in
theorem credit_elsewhere (s : State) (amount : U128) (hrec : recipient ≠ treasuryAddress)
    (k : U64) :
    ((addBalanceEvm s.assets callAssetId recipient amount).balance k treasuryAddress).toNat =
      (s.assets.balance k treasuryAddress).toNat := by
  rw [addBalanceEvm_toNat, if_neg fun h => hrec h.1.2.symm]

section

variable (hrefund : ({ s with assets := b } : State).Refundable p)
  (hsame : payDeposit (addBalanceEvm s.assets callAssetId recipient amount) p = payDeposit b p)
include hrefund hsame

theorem refund_dropped_of_same (hrec : recipient = treasuryAddress) (hpos : 0 < amount.toNat)
    (hfits : (s.assets.balance callAssetId treasuryAddress).toNat + amount.toNat < 2 ^ 128) :
    p.proposer = treasuryAddress ∧ p.deposit = amount ∧
      2 ^ 128 ≤ (s.assets.balance callAssetId treasuryAddress).toNat + amount.toNat +
        amount.toNat := by
  obtain rfl := spend_to_treasury hdeduct hadd hrec
  have hcre := credit_treasury hrec hfits
  have hcall : ((payDeposit (addBalanceEvm s.assets callAssetId recipient amount) p).balance
      callAssetId treasuryAddress).toNat =
        ((payDeposit s.assets p).balance callAssetId treasuryAddress).toNat := by rw [hsame]
  by_cases hdue : (0 < p.deposit ∧ p.proposer ≠ 0) ∧ treasuryAddress = p.proposer
  · obtain ⟨hdue, hpro⟩ := hdue
    have hrefund := hrefund hdue.1 hdue.2
    rw [hpro] at hcre hfits hcall ⊢
    rw [payDeposit_self hdue, payDeposit_self hdue] at hcall
    split_ifs at hcall with hboth
    · omega
    · exact ⟨rfl, BitVec.eq_of_toNat_eq (by omega), by omega⟩
  · rw [payDeposit_of_ne fun h => hdue ⟨h.1, h.2.2⟩,
      payDeposit_of_ne fun h => hdue ⟨h.1, h.2.2⟩] at hcall
    omega

theorem debit_refunded_of_same (hrec : recipient ≠ treasuryAddress) (hpos : 0 < amount.toNat) :
    aid = callAssetId ∧ p.proposer = treasuryAddress ∧ p.deposit = amount ∧
      (s.assets.balance callAssetId recipient).toNat + amount.toNat < 2 ^ 128 ∧
      2 ^ 128 ≤ (s.assets.balance callAssetId treasuryAddress).toNat + amount.toNat := by
  have hle := (deductBalance_eq_ok.1 hdeduct).1
  have hspe := spend_treasury hdeduct hadd hrec
  have hsta := credit_elsewhere s amount hrec aid
  have htre : ((payDeposit (addBalanceEvm s.assets callAssetId recipient amount) p).balance
      aid treasuryAddress).toNat =
        ((payDeposit b p).balance aid treasuryAddress).toNat := by rw [hsame]
  by_cases hdue : (0 < p.deposit ∧ p.proposer ≠ 0) ∧ aid = callAssetId ∧
      treasuryAddress = p.proposer
  · obtain ⟨hdue, rfl, hpro⟩ := hdue
    have hrefund := hrefund hdue.1 hdue.2
    have hrece := (addBalance_eq_ok.1 hadd).1
    rw [deductBalance_toNat hdeduct, if_neg fun h => hrec h.2] at hrece
    rw [hpro] at htre hsta hspe hle ⊢
    rw [payDeposit_self hdue, payDeposit_self hdue] at htre
    split_ifs at htre with hboth
    · omega
    · have hamo : p.deposit.toNat = amount.toNat := by omega
      exact ⟨rfl, rfl, BitVec.eq_of_toNat_eq hamo, hrece, by omega⟩
  · rw [payDeposit_of_ne hdue, payDeposit_of_ne hdue] at htre
    omega

theorem spend_agrees_of_same (hamo : amount ≠ 0) :
    let call : Address → ℕ := fun addr => (s.assets.balance callAssetId addr).toNat
    (recipient = treasuryAddress ∧ 2 ^ 128 ≤ call treasuryAddress + amount.toNat ∧ s.Refundable p) ∨
      (recipient = treasuryAddress ∧ p.proposer = treasuryAddress ∧ p.deposit = amount ∧
        call treasuryAddress + amount.toNat < 2 ^ 128 ∧
        2 ^ 128 ≤ call treasuryAddress + amount.toNat + amount.toNat) ∨
      (recipient ≠ treasuryAddress ∧ aid = callAssetId ∧ p.proposer = treasuryAddress ∧
        p.deposit = amount ∧ call recipient + amount.toNat < 2 ^ 128 ∧
        2 ^ 128 ≤ call treasuryAddress + amount.toNat) := by
  intro call
  have hpos : 0 < amount.toNat := Nat.pos_of_ne_zero fun h0 => hamo (BitVec.eq_of_toNat_eq h0)
  by_cases hrec : recipient = treasuryAddress
  · by_cases hfits : call treasuryAddress + amount.toNat < 2 ^ 128
    · obtain ⟨hpro, hdep, hover⟩ :=
        refund_dropped_of_same hdeduct hadd hrefund hsame hrec hpos hfits
      exact .inr (.inl ⟨hrec, hpro, hdep, hfits, hover⟩)
    · rw [spend_to_treasury hdeduct hadd hrec] at hrefund
      exact .inl ⟨hrec, not_lt.1 hfits, hrefund⟩
  · exact .inr (.inr ⟨hrec, debit_refunded_of_same hdeduct hadd hrefund hsame hrec hpos⟩)

end

theorem same_of_dropped_credit (hrec : recipient = treasuryAddress)
    (hover : 2 ^ 128 ≤ (s.assets.balance callAssetId treasuryAddress).toNat + amount.toNat) :
    payDeposit (addBalanceEvm s.assets callAssetId recipient amount) p = payDeposit b p := by
  have hdro : addBalanceEvm s.assets callAssetId recipient amount = s.assets := by
    refine assets_ext (addBalanceEvm_issuer _ _ _ _) fun assetId' addr => ?_
    rw [addBalanceEvm_toNat, hrec, if_neg fun h => absurd h.2 (not_lt.2 hover)]
  rw [hdro, spend_to_treasury hdeduct hadd hrec]

theorem same_of_dropped_refund (hrec : recipient = treasuryAddress)
    (hpro : p.proposer = treasuryAddress) (hdue : 0 < p.deposit ∧ p.proposer ≠ 0)
    (hdep : p.deposit = amount)
    (hfits : (s.assets.balance callAssetId treasuryAddress).toNat + amount.toNat < 2 ^ 128)
    (hover : 2 ^ 128 ≤ (s.assets.balance callAssetId treasuryAddress).toNat + amount.toNat +
      amount.toNat) :
    payDeposit (addBalanceEvm s.assets callAssetId recipient amount) p = payDeposit b p := by
  rw [spend_to_treasury hdeduct hadd hrec, hrec]
  have hcre := credit_treasury rfl hfits
  refine assets_ext (by simp only [payDeposit_issuer, addBalanceEvm_issuer]) fun assetId' addr => ?_
  rw [payDeposit_toNat, payDeposit_toNat, hpro, hdep, hcre,
    if_neg fun h => absurd h.2.2 (not_lt.2 hover), addBalanceEvm_toNat]
  rw [hpro, hdep] at hdue
  simp only [hdue, hfits, and_true, true_and, ne_eq, not_false_eq_true]

theorem same_of_undebited_refund (hrec : recipient ≠ treasuryAddress)
    (hass : aid = callAssetId) (hpro : p.proposer = treasuryAddress)
    (hdue : 0 < p.deposit ∧ p.proposer ≠ 0) (hdep : p.deposit = amount)
    (hover : 2 ^ 128 ≤ (s.assets.balance callAssetId treasuryAddress).toNat + amount.toNat) :
    payDeposit (addBalanceEvm s.assets callAssetId recipient amount) p = payDeposit b p := by
  subst hass
  obtain ⟨hle, hlt, -⟩ := deductBalance_eq_ok.1 hdeduct
  have hrece := (addBalance_eq_ok.1 hadd).1
  have hsen := deductBalance_toNat hdeduct callAssetId recipient
  rw [if_neg fun h => hrec h.2] at hsen
  rw [hsen] at hrece
  have hspe := spend_treasury hdeduct hadd hrec
  refine assets_ext ?_ fun assetId' addr => ?_
  · simp only [payDeposit_issuer, addBalanceEvm_issuer, spend_issuer hdeduct hadd]
  have hsta := credit_elsewhere s amount hrec callAssetId
  by_cases htre : assetId' = callAssetId ∧ addr = treasuryAddress
  · obtain ⟨rfl, rfl⟩ := htre
    rw [← hpro, payDeposit_self hdue, payDeposit_self hdue, hpro, hdep, hsta,
      if_neg (not_lt.2 hover), if_pos (by omega)]
    omega
  · have hne : ¬ ((0 < p.deposit ∧ p.proposer ≠ 0) ∧ assetId' = callAssetId ∧
        addr = p.proposer) := fun h => htre ⟨h.2.1, h.2.2.trans hpro⟩
    rw [payDeposit_of_ne hne, payDeposit_of_ne hne, addBalanceEvm_toNat,
      addBalance_toNat hadd, hsen,
      deductBalance_toNat hdeduct assetId' addr, if_neg htre]
    simp only [hrece, and_true]

end Spend

theorem treasury_ne_zero : treasuryAddress ≠ 0 := by decide

theorem applySideEffects_treasurySpend {s : State} {data : Bytes} (hlen : 64 ≤ data.length) :
    s.applySideEffects data .treasurySpend = some { s with
        assets := addBalanceEvm s.assets callAssetId (addressField data) (amountField data) } := by
  dsimp only [State.applySideEffects]
  rw [if_pos (by omega), if_pos hlen]

def State.SpendsAlike (s : State) (proposalId : U64) : Prop :=
  let p := s.gov.proposal proposalId
  ∃ e r e', s.applyEffect p.executionData .treasurySpend = (e, .ok ()) ∧
    e.refund proposalId "governance: refund failed" = (r, .ok ()) ∧
    s.applySideEffects p.executionData .treasurySpend = some e' ∧
    e'.rest = e.rest ∧ (e'.refundEvm proposalId).assets = r.assets

theorem spendsAlike_of_same {s : State} {pid : U64} :
    let p := s.gov.proposal pid
    let data := p.executionData
    64 ≤ data.length → addressField data ≠ 0 → amountField data ≠ 0 →
    s.assets.deductBalance (State.spendAssetId data) treasuryAddress (amountField data) = .ok a →
    a.addBalance (State.spendAssetId data) (addressField data) (amountField data) = .ok b →
    ({ s with assets := b } : State).Refundable p →
    payDeposit (addBalanceEvm s.assets callAssetId (addressField data) (amountField data)) p =
      payDeposit b p →
    s.SpendsAlike pid := by
  intro p data hlen hrec hamo hdeduct hadd hrefund hsame
  obtain ⟨r, hr, hass⟩ := (refund_ok_iff { s with assets := b } pid
    "governance: refund failed" fun x =>
      payDeposit (addBalanceEvm s.assets callAssetId (addressField data) (amountField data)) p =
        x).2 ⟨hrefund, hsame⟩
  refine ⟨{ s with assets := b }, r, _,
    State.treasurySpend_eq_ok.2 ⟨hlen, hrec, hamo, a, hdeduct, hadd, rfl⟩, hr,
    applySideEffects_treasurySpend hlen, rfl, ?_⟩
  rw [refundEvm_assets]
  exact hass

theorem spend_agrees_iff {s : State} {pid : U64} :
    s.SpendsAlike pid ↔ s.SpendAgrees (s.gov.proposal pid) := by
  set p := s.gov.proposal pid
  set recipient := addressField p.executionData
  set amount := amountField p.executionData
  constructor
  · rintro ⟨e, r, e', he, hr, he', -, hass⟩
    obtain ⟨hlen, hrec, hamo, a, hdeduct, hadd, heq⟩ := State.treasurySpend_eq_ok.1 he
    rw [applySideEffects_treasurySpend hlen] at he'
    obtain rfl := Option.some.inj he'
    rw [refundEvm_assets] at hass
    obtain ⟨hrefund, hsame⟩ := (refund_ok_iff e pid "governance: refund failed"
      fun x => payDeposit (addBalanceEvm s.assets callAssetId recipient amount) p = x).1
        ⟨r, hr, hass⟩
    rw [heq] at hrefund hsame
    obtain ⟨hle, hlt, -⟩ := deductBalance_eq_ok.1 hdeduct
    exact ⟨hlen, hrec, hamo, hle, hlt, spend_agrees_of_same hdeduct hadd hrefund hsame hamo⟩
  · rintro ⟨hlen, hrec, hamo, hle, hlt, hcas⟩
    obtain ⟨a, hdeduct⟩ : ∃ a, s.assets.deductBalance (State.spendAssetId p.executionData)
        treasuryAddress amount = .ok a := ⟨_, deductBalance_eq_ok.2 ⟨hle, hlt, rfl⟩⟩
    have hdeb := deductBalance_toNat hdeduct
    have hdue : p.proposer = treasuryAddress → p.deposit = amount →
        0 < p.deposit ∧ p.proposer ≠ 0 := by
      intro hpro hdep
      rw [hpro, hdep]
      have hpos := Nat.pos_of_ne_zero fun h0 : amount.toNat = 0 => hamo (BitVec.eq_of_toNat_eq h0)
      exact ⟨BitVec.lt_def.2 hpos, treasury_ne_zero⟩
    have hself : recipient = treasuryAddress → ∃ b,
        a.addBalance (State.spendAssetId p.executionData) recipient amount = .ok b := by
      intro hself
      refine ⟨_, addBalance_eq_ok.2 ⟨?_, rfl⟩⟩
      rw [hself, hdeb, if_pos ⟨rfl, rfl⟩]
      omega
    rcases hcas with ⟨hto, hover, hrefund⟩ | ⟨hto, hpro, hdep, hfits, hover⟩ |
      ⟨hto, hasse, hpro, hdep, hrece, hover⟩
    · obtain ⟨b, hadd⟩ := hself hto
      refine spendsAlike_of_same hlen hrec hamo hdeduct hadd ?_
        (same_of_dropped_credit hdeduct hadd hto hover)
      rw [spend_to_treasury hdeduct hadd hto]
      exact hrefund
    · obtain ⟨b, hadd⟩ := hself hto
      refine spendsAlike_of_same hlen hrec hamo hdeduct hadd ?_
        (same_of_dropped_refund hdeduct hadd hto hpro (hdue hpro hdep) hdep
          hfits hover)
      rw [spend_to_treasury hdeduct hadd hto]
      intro _ _
      rw [hpro, hdep]
      exact hfits
    · have hcre : ∃ b,
          a.addBalance (State.spendAssetId p.executionData) recipient amount = .ok b := by
        refine ⟨_, addBalance_eq_ok.2 ⟨?_, rfl⟩⟩
        rw [hdeb, if_neg fun h => hto h.2, hasse]
        exact hrece
      obtain ⟨b, hadd⟩ := hcre
      refine spendsAlike_of_same hlen hrec hamo hdeduct hadd ?_
        (same_of_undebited_refund hdeduct hadd hto hasse hpro (hdue hpro hdep)
          hdep hover)
      intro _ _
      have hspe := spend_treasury hdeduct hadd hto
      rw [hasse] at hspe hle hlt
      rw [hpro, hdep, hspe, Nat.sub_add_cancel hle]
      exact hlt

end Balances

/-! ### The comparison -/

section Comparison

variable {s : State} {pid now : U64}

theorem not_mirrors_of_timedOut (h : s.Due pid now)
    (hlate : (s.gov.proposal pid).TimedOut s.gov.executionTimeout now) : ¬ s.Mirrors pid now := by
  rintro ⟨advanced, hadv, hsame⟩
  rw [if_pos hlate] at hsame
  rw [State.advanceProposal_due h,
    if_pos (show Proposal.TimedOut _ s.advanceConfig.execTimeout _ from hlate)] at hadv
  cases hadv
  have hexpired : ((s.confiscate pid .expired).gov.proposal pid).status = .expired := by
    unfold State.confiscate
    rw [(State.wrote_setProposal s pid _).self]
  have hsta := hexpired.symm.trans hsame.1
  by_cases hpau : s.gov.paused = true ∧ (s.gov.proposal pid).proposalType ≠ .emergencyPause
  · rw [State.execute_paused h.id hpau.1 hpau.2, h.queued] at hsta
    cases hsta
  · rw [State.execute_due h fun hp => not_not.1 fun ht => hpau ⟨hp, ht⟩, if_pos hlate] at hsta
    have hlap : ((s.lapse pid).1.gov.proposal pid).status = .lapsed := by
      obtain ⟨deposit, hwro⟩ :=
        (s.setStatus pid .lapsed).refund_wrote pid "governance: deposit refund failed"
      have hset : ((s.setStatus pid .lapsed).gov.proposal pid).status = .lapsed := by
        unfold State.setStatus
        rw [(State.wrote_setProposal s pid _).self]
      have href := congrArg Proposal.status hwro.self
      unfold State.lapse
      split
      · rename_i t e ht
        rw [ht] at href
        exact href.trans hset
      · rename_i t ht
        rw [ht] at href
        exact href.trans hset
    rw [hlap] at hsta
    cases hsta

theorem not_mirrors_of_paused (h : s.Due pid now)
    (hear : ¬ (s.gov.proposal pid).TimedOut s.gov.executionTimeout now)
    (hpau : s.gov.paused = true) (htype : (s.gov.proposal pid).proposalType ≠ .emergencyPause) :
    ¬ s.Mirrors pid now := by
  rintro ⟨advanced, hadv, hsame⟩
  rw [if_neg hear, State.execute_paused h.id hpau htype] at hsame
  rw [State.advanceProposal_due h,
    if_neg (show ¬ Proposal.TimedOut _ s.advanceConfig.execTimeout _ from hear),
    Option.map_eq_some_iff] at hadv
  obtain ⟨e, he, rfl⟩ := hadv
  obtain ⟨deposit, hwro⟩ := State.settle_wrote pid he
  have hsta := congrArg Proposal.status hwro.self
  rw [hsame, h.queued] at hsta
  cases hsta

theorem applyEffect_unread {kind : ProposalType} (htype : kind ≠ .emergencyPause)
    {e : State} : s.applyEffect [] kind ≠ (e, .ok ()) := by
  cases kind <;> first
    | exact absurd rfl htype
    | exact error_ne_ok

theorem applyEffect_read {p : Proposal}
    (h : p.proposalType ≠ .emergencyPause → p.executionData.length ≤ maxExecutionDataLen) :
    s.applyEffect p.readExecutionData p.proposalType =
      s.applyEffect p.executionData p.proposalType := by
  by_cases htype : p.proposalType = .emergencyPause
  · rw [htype]
    rfl
  · unfold Proposal.readExecutionData
    rw [if_neg (not_lt.2 (h htype))]

theorem effect_iff {p : Proposal} (hp : p = s.gov.proposal pid) :
    (∃ e r e', s.applyEffect p.executionData p.proposalType = (e, .ok ()) ∧
      e.refund pid "governance: refund failed" = (r, .ok ()) ∧
      s.applySideEffects p.executionData p.proposalType = some e' ∧
      e'.rest = e.rest ∧ (e'.refundEvm pid).assets = r.assets) ↔
    if p.proposalType = .treasurySpend then s.SpendAgrees p
    else s.Refundable p ∧ s.EffectAgrees p.executionData p.proposalType := by
  by_cases htype : p.proposalType = .treasurySpend
  · rw [htype, hp]
    exact spend_agrees_iff
  rw [if_neg htype, ← State.effect_agrees_iff htype]
  constructor
  · rintro ⟨e, r, e', he, hr, he', hrest, -⟩
    refine ⟨?_, e, e', he, he', hrest⟩
    have hrefund := ((refund_ok_iff e pid _ fun _ => True).1 ⟨r, hr, trivial⟩).1
    have hass := s.applyEffect_assets p.executionData htype
    have hsame := s.sameTables_applyEffect p.executionData p.proposalType
    rw [he] at hass hsame
    unfold State.Refundable at hrefund
    rw [hsame.proposal, hass, ← hp] at hrefund
    exact hrefund
  · rintro ⟨hrefund, e, e', he, he', hrest⟩
    have hass := s.applyEffect_assets p.executionData htype
    have hsame := s.sameTables_applyEffect p.executionData p.proposalType
    rw [he] at hass hsame
    have hpro : e.gov.proposal pid = p := by rw [hsame.proposal, hp]
    have hpro' : e'.gov.proposal pid = p := by
      rw [(State.sameTables_applySideEffects he').proposal, hp]
    obtain ⟨r, hr, hpaid⟩ := (refund_ok_iff e pid "governance: refund failed"
      fun x => payDeposit s.assets p = x).2 ⟨by
        rw [hpro]
        unfold State.Refundable
        rw [hass]
        exact hrefund, by rw [hpro, hass]⟩
    refine ⟨e, r, e', he, hr, he', hrest, ?_⟩
    rw [refundEvm_assets, State.applySideEffects_assets he' htype, hpro', hpaid]

end Comparison

/-- **The two executions.** The advancer mirrors `execute` on a queued proposal that is due
exactly where `MirrorAgrees` says so. -/
theorem mirrors_iff (s : State) (proposalId currentBlock : U64) (hid : s.gov.ValidId proposalId)
    (hqueued : (s.gov.proposal proposalId).status = .queued)
    (hdue : (s.gov.proposal proposalId).executionBlock ≤ currentBlock) :
    s.Mirrors proposalId currentBlock ↔ s.MirrorAgrees proposalId currentBlock := by
  have h : s.Due proposalId currentBlock := ⟨hid, hqueued, hdue⟩
  by_cases hlate : (s.gov.proposal proposalId).TimedOut s.gov.executionTimeout currentBlock
  · exact iff_of_false (not_mirrors_of_timedOut h hlate) fun h => h.early hlate
  by_cases hpau : s.gov.paused = true ∧ (s.gov.proposal proposalId).proposalType ≠ .emergencyPause
  · exact iff_of_false (not_mirrors_of_paused h hlate hpau.1 hpau.2)
      fun h => hpau.2 (h.unpaused hpau.1)
  have hunp : s.gov.paused = true → (s.gov.proposal proposalId).proposalType = .emergencyPause :=
    fun h => not_not.1 fun ht => hpau ⟨h, ht⟩
  have hmir := State.mirror_iff h hunp hlate
  constructor
  · rintro ⟨advanced, hadv, hsame⟩
    rw [if_neg hlate] at hsame
    rw [hsame] at hadv
    obtain ⟨e, r, e', he, hr, he', hrest, hass⟩ := hmir.1 hadv
    have hread : (s.gov.proposal proposalId).proposalType ≠ .emergencyPause →
        (s.gov.proposal proposalId).executionData.length ≤ maxExecutionDataLen := by
      intro htype
      by_contra hlong
      unfold Proposal.readExecutionData at he
      rw [if_pos (not_le.1 hlong)] at he
      exact applyEffect_unread htype he
    rw [applyEffect_read hread] at he
    exact ⟨hlate, hunp, hread, (effect_iff rfl).1 ⟨e, r, e', he, hr, he', hrest, hass⟩⟩
  · intro h
    obtain ⟨e, r, e', he, hr, he', hrest, hass⟩ := (effect_iff rfl).2 h.effect
    rw [← applyEffect_read h.read] at he
    refine ⟨_, hmir.2 ⟨e, r, e', he, hr, he', hrest, hass⟩, ?_⟩
    rw [if_neg hlate]

/-! ### A key and an upgrade -/

def listedValidator : State :=
  { soleValidator with
    validators := { soleValidator.validators with
      validatorAddr := fun validatorId => if validatorId = 1 then 7 else 0 } }

def rotationData : Bytes := beBytes 32 1 ++ beBytes 32 5 ++ beBytes 32 6

def rotationQueued : List (U64 × Event) :=
  [(1, .call (.method 7 (.submitProposal .validatorKeyRotation rotationData))),
    (1, .call (.method 7 (.vote 1 1))), (101, .call (.method 7 (.queue 1)))]

/-- `execute` records the two keys, and the advancer makes the old key the validator's.
Past the timeout `execute` refunds the deposit, and the advancer keeps it. -/
theorem advancer_differs : (let s := Run.run Event.step listedValidator rotationQueued
     s.gov.ValidId 1 ∧ (s.gov.proposal 1).status = .queued ∧
      (s.gov.proposal 1).executionBlock = 201 ∧
      (s.execute 1 201).1.gov.keyRotationNew 1 = 6 ∧
      (s.execute 1 201).1.validators.pubkey 7 = 0 ∧
      (s.advanceProposal s.advanceConfig 201 1).map (fun t =>
        (t.gov.keyRotationNew 1, t.validators.pubkey 7)) = some (0, 5)) ∧
    (let s := Run.run Event.step listedValidator rotationQueued
     (s.execute 1 1202).1.callBalance 7 = proposalDeposit ∧
      ((s.execute 1 1202).1.gov.proposal 1).status = .lapsed ∧
      (s.advanceProposal s.advanceConfig 1202 1).map (fun t => (t.callBalance 7,
        (t.gov.proposal 1).deposit, (t.gov.proposal 1).status)) = some (0, 0, .expired)) := by
  decide

theorem mirrors_iff_at_upgrade :
    let s := Run.run Event.step soleValidator upgradeQueued
    s.gov.ValidId 1 ∧ (s.gov.proposal 1).status = .queued ∧ s.Mirrors 1 201 := by
  intro s
  have hagr : s.MirrorAgrees 1 201 := by
    refine ⟨by decide, fun h => absurd h (by decide), fun _ => by decide, ?_⟩
    rw [if_neg (by decide)]
    refine ⟨fun _ _ => by decide, ?_⟩
    show 32 ≤ (s.gov.proposal 1).executionData.length
    decide
  exact ⟨by decide, by decide, (mirrors_iff s 1 201 (by decide) (by decide) (by decide)).2 hagr⟩

end Callchain.Governance

/-
# Two writers of one registry

The precompile moves CALL into the escrow when it records a stake, and keeps the count
of active validators beside their status. The writers of consensus do neither: a stake
they record has nothing behind it, and a validator they activate or put out is not
counted. That is harmless where it touches no active validator but to lower its stake,
and not to nothing.
-/
import Callchain.Consensus.Tracked

namespace Callchain.Consensus

open Validator Asset Ledger Run
open Function (update update_eq_self update_of_ne update_self)

variable {s : Registry}

/-! ### The writers of consensus -/

section Writers

variable {v : ValidatorStorage} {addr : Address} {stake : U128} {status : BitVec 8}

def rewrite (v : ValidatorStorage) (addr : Address) (stake : U128) (status : BitVec 8) :
    ValidatorStorage :=
  { v with
    stake := update v.stake addr stake
    status := update v.status addr status }

theorem slashValidatorEvm_eq (v : ValidatorStorage) (addr : Address) (amount : U128) :
    (slashValidatorEvm v addr amount).1 =
      rewrite v addr (v.stake addr - (slashValidatorEvm v addr amount).2)
        (if v.stake addr - (slashValidatorEvm v addr amount).2 = 0 then 0 else v.status addr) := by
  unfold slashValidatorEvm rewrite
  dsimp only
  split_ifs <;> simp [update_eq_self]

def Mild (v : ValidatorStorage) (addr : Address) (stake : U128) (status : BitVec 8) : Prop :=
  (status = 0 ∧ stake = 0 ∧ v.status addr ≠ 1) ∨
    (status = v.status addr ∧ stake ≤ v.stake addr ∧ (status = 1 → 0 < stake))

theorem Mild.status_eq (h : Mild v addr stake status) (hsta : status = 1 ∨ status = 2) :
    status = v.status addr ∧ stake ≤ v.stake addr := by
  rcases h with ⟨h0, -, -⟩ | ⟨heq, hle, -⟩
  · rw [h0] at hsta
    exact absurd hsta (by decide)
  · exact ⟨heq, hle⟩

theorem Mild.isActive_eq (h : Mild v addr stake status) : status = 1 ↔ v.status addr = 1 := by
  rcases h with ⟨h0, -, hne⟩ | ⟨heq, -, -⟩
  · rw [h0]
    exact iff_of_false (by decide) hne
  · rw [heq]

theorem Mild.tracked (h : Mild v addr stake status) (hv : Tracked v) :
    Tracked (rewrite v addr stake status) := by
  refine .of_at (fun a => ?_) { hv.indexed with active := ?_ } hv.queuedIds
  · by_cases hac : a = addr
    · subst hac
      rcases h with ⟨hsta, hstak, -⟩ | ⟨hsta, hle, hpos⟩
      · exact trackedAt_idle ((update_self ..).trans hsta) ((update_self ..).trans hstak)
      · refine hv.at_of_le ((update_self ..).trans hsta) ?_ (fun h1 => ?_) rfl fun _ _ _ => Iff.rfl
        · simpa only [rewrite, update_self] using hle
        · simpa only [rewrite, update_self] using hpos (hsta.trans h1)
    · exact hv.at_of_agree (update_of_ne hac ..) (update_of_ne hac ..) rfl fun _ _ _ => Iff.rfl
  · have htot := activeValidators_of_agree addr (v := v) (w := rewrite v addr stake status)
      fun a ha => update_of_ne ha ..
    have hself : isActive (rewrite v addr stake status) addr = isActive v addr := by
      unfold isActive
      simp only [rewrite, update_self, h.isActive_eq]
    have hcou : (rewrite v addr stake status).activeValidatorCount.toNat = activeValidators v :=
      hv.active
    omega

theorem Mild.owed_le (h : Mild v addr stake status) :
    owed (rewrite v addr stake status) ≤ owed v := by
  have htot := owed_of_agree addr (v := v) (w := rewrite v addr stake status) fun a ha =>
    owedTo_congr (update_of_ne ha ..) (update_of_ne ha ..) fun _ => rfl
  have hsta : (rewrite v addr stake status).status addr = status := update_self ..
  have hstak : (rewrite v addr stake status).stake addr = stake := update_self ..
  have hself : owedTo (rewrite v addr stake status) addr ≤ owedTo v addr := by
    by_cases h1 : status = 1
    · obtain ⟨heq, hle⟩ := h.status_eq (Or.inl h1)
      rw [owedTo_active (hsta.trans h1), owedTo_active (heq ▸ h1), hstak]
      exact hle
    · by_cases h2 : status = 2
      · obtain ⟨heq, -⟩ := h.status_eq (Or.inr h2)
        rw [owedTo_unbonding (hsta.trans h2), owedTo_unbonding (heq ▸ h2)]
        exact le_refl _
      · rw [owedTo_idle (by rwa [hsta]) (by rwa [hsta])]
        exact Nat.zero_le _
  omega

theorem mild_remove (h : v.status addr ≠ 1) : Mild v addr 0 0 := Or.inl ⟨rfl, rfl, h⟩

theorem sub_pos_of_lt {x d : U128} (h : d < x) : 0 < x - d ∧ x - d ≠ 0 ∧ x - d ≤ x := by
  refine ⟨?_, ?_, ?_⟩ <;> bv_omega

theorem mild_slash {amount : U128} (h : v.status addr = 1 → amount < v.stake addr) :
    Mild v addr (v.stake addr - (slashValidatorEvm v addr amount).2)
      (if v.stake addr - (slashValidatorEvm v addr amount).2 = 0 then 0 else v.status addr) := by
  by_cases h1 : v.status addr = 1
  · obtain ⟨hpos, hne, hlow⟩ := sub_pos_of_lt (h h1)
    have hsla : (slashValidatorEvm v addr amount).2 = amount := if_neg (BitVec.not_le.2 (h h1))
    rw [hsla, if_neg hne]
    exact .inr ⟨rfl, hlow, fun _ => hpos⟩
  · have hle : (slashValidatorEvm v addr amount).2 ≤ v.stake addr := by
      show (if v.stake addr ≤ amount then v.stake addr else amount) ≤ v.stake addr
      split_ifs with hc
      · exact BitVec.le_refl _
      · exact BitVec.le_of_lt (BitVec.not_le.1 hc)
    split_ifs with h0
    · exact .inl ⟨rfl, h0, h1⟩
    · exact .inr ⟨rfl, by bv_omega, fun hs => absurd hs h1⟩

theorem share_lt {x k : U128} (hx : 0 < x) (hk : k.toNat < 10000) : x * k / 10000 < x := by
  have hx' : 0 < x.toNat := hx
  calc x.toNat * k.toNat % 2 ^ 128 / (10000 : U128).toNat
      ≤ x.toNat * k.toNat / 10000 := Nat.div_le_div_right (Nat.mod_le _ _)
    _ < x.toNat := by
      rw [Nat.div_lt_iff_lt_mul (by decide)]
      exact Nat.mul_lt_mul_of_pos_left hk hx'

end Writers

variable {addr : Address}

theorem Backing.of_mild (hs : Backing s) {stake : U128} {status : BitVec 8}
    (h : Mild s.validators addr stake status) :
    Backing { s with validators := rewrite s.validators addr stake status } :=
  ⟨h.tracked hs.toTracked, h.owed_le.trans hs.escrow⟩

variable {amount : U128}

theorem Backing.slash (hs : Backing s)
    (h : s.validators.status addr = 1 → amount < s.validators.stake addr) :
    Backing { s with validators := (slashValidatorEvm s.validators addr amount).1 } := by
  rw [slashValidatorEvm_eq]
  exact hs.of_mild (mild_slash h)

/-- Churn is harmless where no active validator is below the minimum: then it
removes unbonding ones only. -/
theorem Backing.churn (hs : Backing s) {c : SimplexConsensus}
    (h : ∀ a, s.validators.status a = 1 → c.params.minSelfStake ≤ s.validators.stake a) :
    Backing { s with validators := c.processEpochChurn s.validators } := by
  refine (SimplexConsensus.processEpochChurn_induction (v := s.validators)
    (P := fun v => Backing { s with validators := v } ∧
      ∀ a, v.status a = 1 → c.params.minSelfStake ≤ v.stake a) ?_ ⟨hs, h⟩).1
  rintro v addr ⟨hv, hmin⟩ hexit
  have hne : v.status addr ≠ 1 := by
    intro h1
    rcases SimplexConsensus.status_of_exits hexit with ⟨-, hlt⟩ | h2
    · exact absurd hlt (BitVec.not_lt.2 (hmin addr h1))
    · rw [h1] at h2
      exact absurd h2 (by decide)
  refine ⟨hv.of_mild (mild_remove hne), fun a ha => ?_⟩
  have hac : a ≠ addr := by
    rintro rfl
    simp only [removeValidatorEvm, update_self] at ha
    exact absurd ha (by decide)
  simp only [removeValidatorEvm, update_of_ne hac] at ha ⊢
  exact hmin a ha

variable {v : ValidatorStorage}

theorem Tracked.restake (hv : Tracked v) {pubkey : Bytes32}
    (h1 : v.status addr = 1) (hpos : 0 < amount) (hcou : v.validatorCount.toNat + 1 < 2 ^ 64) :
    Tracked (stakeValidatorEvm v addr pubkey amount).1 := by
  have hnext : (v.validatorCount + 1).toNat = v.validatorCount.toNat + 1 := by
    exact Nat.mod_eq_of_lt hcou
  have hfre : ∀ id : U64, id.toNat ≤ v.validatorCount.toNat → id ≠ v.validatorCount + 1 := by
    rintro id hid rfl
    omega
  have hnon : v.validatorCount + 1 ≠ 0 := (hfre 0 (Nat.zero_le _)).symm
  have hsta : (stakeValidatorEvm v addr pubkey amount).1.status = v.status :=
    (congrArg (update v.status addr) h1.symm).trans (update_eq_self ..)
  have hby : ∀ a, a ≠ addr →
      (stakeValidatorEvm v addr pubkey amount).1.validatorByAddr a = v.validatorByAddr a :=
    fun a hac => update_of_ne hac ..
  refine .of_at (fun a => ?_) ⟨?_, fun a ha => ?_, fun a => ?_, hv.once, ?_⟩ fun e he => ?_
  · by_cases hac : a = addr
    · subst hac
      refine trackedAt_active ?_ (by rw [hsta, h1]) ?_ fun e he => ?_
      · simpa only [stakeValidatorEvm, update_self] using hnon
      · simpa only [stakeValidatorEvm, update_self] using hpos
      · simpa only [stakeValidatorEvm, update_self] using hfre _ (hv.queuedIds e he)
    · exact hv.at_of_agree (by rw [hsta]) (update_of_ne hac ..) (hby a hac) fun _ _ _ => Iff.rfl
  · refine hv.active.trans (total_congr fun a => ?_)
    rw [isActive, isActive, hsta]
  · by_cases hac : a = addr
    · subst hac
      simp only [stakeValidatorEvm, update_self]
    · rw [hby a hac] at ha ⊢
      exact (update_of_ne (hfre _ (hv.ids a)) ..).trans (hv.addrOfId a ha)
  · show (update v.validatorByAddr addr _ a).toNat ≤ (v.validatorCount + 1).toNat
    by_cases hac : a = addr
    · rw [hac, update_self]
    · rw [update_of_ne hac, hnext]
      exact (hv.ids a).trans (Nat.le_succ _)
  · have hac : stakingEscrow ≠ addr := fun he => hv.registered addr (Or.inl h1) (he ▸ hv.notEscrow)
    exact (hby _ hac).trans hv.notEscrow
  · show e.validatorId.toNat ≤ (v.validatorCount + 1).toNat
    rw [hnext]
    exact (hv.queuedIds e he).trans (Nat.le_succ _)

theorem Tracked.restake_owed {pubkey : Bytes32}
    (h1 : v.status addr = 1) (hle : amount ≤ v.stake addr) :
    owed (stakeValidatorEvm v addr pubkey amount).1 ≤ owed v := by
  have htot := owed_of_agree addr (v := v) (w := (stakeValidatorEvm v addr pubkey amount).1)
    fun a ha => owedTo_congr (update_of_ne ha ..) (update_of_ne ha ..) fun _ => by
      simp only [stakeValidatorEvm, update_of_ne ha]
      rfl
  have haft : owedTo (stakeValidatorEvm v addr pubkey amount).1 addr = amount.toNat := by
    rw [owedTo_active (update_self ..)]
    exact congrArg BitVec.toNat (update_self ..)
  have hbef := owedTo_active h1
  have hle' : amount.toNat ≤ (v.stake addr).toNat := hle
  omega

/-! ### Runs -/

/-- The call only touches an active validator to lower its stake, and not to nothing;
the escrow does not stake. -/
def Call.Safe (s : Registry) : Call → Prop
  | .precompile call => call.Foreign
  | .stakeValidatorEvm addr _ amount =>
    s.validators.status addr = 1 ∧ 0 < amount ∧ amount ≤ s.validators.stake addr ∧
      s.validators.validatorCount.toNat + 1 < 2 ^ 64
  | .slashValidatorEvm addr amount =>
    s.validators.status addr = 1 → amount < s.validators.stake addr
  | .removeValidatorEvm addr => s.validators.status addr ≠ 1
  | .processEpochChurn c => ∀ id ∈ SimplexConsensus.validatorIds s.validators,
    s.validators.status (s.validators.validatorAddr id) = 1 →
      c.params.minSelfStake ≤ s.validators.stake (s.validators.validatorAddr id)
  | .handleDoubleSign validatorId =>
    s.validators.status (s.validators.validatorAddr (validatorId.setWidth 64)) ≠ 1
  | .handleOffline c validatorId roundsOffline =>
    s.validators.status (s.validators.validatorAddr (validatorId.setWidth 64)) = 1 →
      c.params.offlineSlashRateBps.toNat * roundsOffline.toNat < 10000
  | .handleOracleOutlier _ => True

instance (s : Registry) : DecidablePred (Call.Safe s)
  | .precompile call => inferInstanceAs (Decidable call.Foreign)
  | .stakeValidatorEvm .. => inferInstanceAs (Decidable (_ ∧ _ ∧ _ ∧ _))
  | .slashValidatorEvm .. => inferInstanceAs (Decidable (_ → _))
  | .removeValidatorEvm _ => inferInstanceAs (Decidable (_ ≠ _))
  | .processEpochChurn _ => List.decidableBAll (fun _ => _ → _) _
  | .handleDoubleSign _ => inferInstanceAs (Decidable (_ ≠ _))
  | .handleOffline .. => inferInstanceAs (Decidable (_ → _))
  | .handleOracleOutlier _ => isTrue trivial

theorem mem_validatorIds {id : U64} (h0 : id ≠ 0)
    (hle : id.toNat ≤ v.validatorCount.toNat) : id ∈ SimplexConsensus.validatorIds v := by
  have hpos : 0 < id.toNat := by
    rcases Nat.eq_zero_or_pos id.toNat with hz | hz
    · exact absurd (BitVec.eq_of_toNat_eq hz) h0
    · exact hz
  refine List.mem_map.2 ⟨id.toNat - 1, List.mem_range.2 (by omega), ?_⟩
  rw [Nat.sub_add_cancel hpos, BitVec.ofNat_toNat, BitVec.setWidth_eq]

theorem Backing.step {call : Call} (hs : Backing s) (hcall : call.Safe s) :
    Backing (step s call) := by
  cases call with
  | precompile call =>
    show Backing (Validator.step s call)
    unfold Validator.step
    split_ifs with hok
    · exact hs.move hcall (exec_move hok)
    · exact hs
  | stakeValidatorEvm =>
    obtain ⟨h1, hpos, hle, hcou⟩ := hcall
    exact ⟨hs.restake h1 hpos hcou, (Tracked.restake_owed h1 hle).trans hs.escrow⟩
  | slashValidatorEvm => exact hs.slash hcall
  | removeValidatorEvm => exact hs.of_mild (mild_remove hcall)
  | processEpochChurn =>
    refine hs.churn fun a ha => ?_
    have hid := hs.registered a (Or.inl ha)
    have hmin := hcall _ (mem_validatorIds hid (hs.ids a))
    rw [hs.addrOfId a hid] at hmin
    exact hmin ha
  | handleDoubleSign =>
    refine settled_punish (P := fun v => Backing { s with validators := v }) hs ?_
    rintro addr rfl -
    exact hs.slash fun h1 => absurd h1 hcall
  | handleOffline =>
    refine settled_punish (P := fun v => Backing { s with validators := v }) hs ?_
    rintro addr rfl -
    refine hs.slash fun h1 => share_lt (hs.positive _ h1) ?_
    refine lt_of_le_of_lt (Nat.mod_le _ _) ?_
    exact hcall h1
  | handleOracleOutlier =>
    refine settled_punish (P := fun v => Backing { s with validators := v }) hs ?_
    rintro addr rfl -
    exact hs.slash fun h1 => share_lt (hs.positive _ h1) (by decide)

theorem backing_of_empty (h : Empty s) : Backing s := by
  have hinv := h.inv
  have hnone : ∀ a, s.validators.validatorByAddr a = 0 := by
    obtain ⟨floor, period, hv⟩ := h.validators
    intro a
    rw [hv]
  have hsta : ∀ a, s.validators.status a = 0 := fun a => hinv.none a (hnone a)
  have hque : queue s.validators = [] := by
    obtain ⟨floor, period, hv⟩ := h.validators
    rw [hv]
    rfl
  have hstak : ∀ a, s.validators.stake a = 0 := by
    obtain ⟨floor, period, hv⟩ := h.validators
    intro a
    rw [hv]
  refine ⟨.of_at (fun a => trackedAt_idle (hsta a) (hstak a)) hinv.indexed ?_, ?_⟩
  · rw [hque]
    exact fun e he => absurd he List.not_mem_nil
  · have hzero : owed s.validators = 0 := total_eq_zero fun a =>
      owedTo_idle (by rw [hsta a]; decide) (by rw [hsta a]; decide)
    rw [hzero]
    exact Nat.zero_le _

/-- **The escrow covers the stakes.** From empty storage, in every interleaving of which all steps
are safe, the escrow covers what active and unbonding validators are owed, and the count of active
validators is right. -/
theorem backed_of_safe (hs : Empty s) (calls : List Call)
    (hcalls : Along step (fun s call => call.Safe s) s calls) : Backed (run step s calls) :=
  (invariant (I := Backing) (fun _ _ hs hcall => hs.step hcall) hcalls (backing_of_empty hs)).backed

def mixedCalls : List Call :=
  [.precompile (.stake 1 1000000 5),
    .processEpochChurn { params := { minSelfStake := 1000000 }, currentHeight := 7 },
    .handleOracleOutlier 1, .slashValidatorEvm 5 9000, .stakeValidatorEvm 5 2 900000,
    .precompile (.unstake 2 5 10), .slashValidatorEvm 5 500000,
    .precompile (.claimUnbonded 2 5 120970)]

theorem backed_of_safe_at_mixedCalls :
    Along step (fun s call => call.Safe s) fundedRegistry mixedCalls ∧
    Backed (run step fundedRegistry mixedCalls) ∧
    (run step fundedRegistry mixedCalls).escrow = 100000 := by
  have hcal : Along step (fun s call => call.Safe s) fundedRegistry mixedCalls := by
    refine ⟨?_, ?_, ?_, ?_, ?_, ?_, ?_, ?_, trivial⟩ <;> decide
  exact ⟨hcal, backed_of_safe fundedRegistry_empty _ hcal, by decide⟩

/-- A stake that consensus records is neither in the escrow nor counted. -/
theorem consensus_stake_unbacked : Empty fundedRegistry ∧
    ¬ Backed (run step fundedRegistry [.stakeValidatorEvm 7 1 1000000]) ∧
    (run step fundedRegistry [.stakeValidatorEvm 7 1 1000000]).escrow = 0 ∧
    owedTo (run step fundedRegistry [.stakeValidatorEvm 7 1 1000000]).validators 7 = 1000000 ∧
    (run step fundedRegistry
      [.stakeValidatorEvm 7 1 1000000]).validators.activeValidatorCount = 0 := by
  refine ⟨fundedRegistry_empty, fun h => ?_, by decide, by decide, by decide⟩
  have howed : owedTo (run step fundedRegistry [.stakeValidatorEvm 7 1 1000000]).validators 7 ≤
      (run step fundedRegistry [.stakeValidatorEvm 7 1 1000000]).escrow :=
    (Ledger.le_total _ 7).trans h.escrow
  exact absurd howed (by decide)

end Callchain.Consensus

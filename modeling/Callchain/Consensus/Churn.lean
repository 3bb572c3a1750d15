/-
# Churn and the stakes of validators

At the end of an epoch consensus removes active validators whose stake is too small, and
unbonding ones whose period, the one that a claim waits for, is over. A removed
validator keeps its id, but has no stake and no status: it can neither unstake nor claim
nor stake again, and its stake stays in the escrow for good.
-/
import Callchain.Consensus.Slashing

namespace Callchain.Consensus

open Validator Asset Ledger Run

variable {s t : Registry} {a : Address} {n : U128}

/-! ### Churn that removes nobody -/

theorem churnLoop_of_stay {c : SimplexConsensus} {v : ValidatorStorage} :
    ∀ {ids : List U64} {room : ℕ}, (∀ id ∈ ids, c.exits v (v.validatorAddr id) = false) →
      c.churnLoop ids room v = v
  | [], _, _ => rfl
  | _ :: _, 0, _ => rfl
  | id :: ids, room + 1, h => by
    have hstay : ¬ c.exits v (v.validatorAddr id) = true := by
      rw [h id List.mem_cons_self]
      decide
    rw [SimplexConsensus.churnLoop, if_neg hstay]
    exact churnLoop_of_stay fun i hi => h i (List.mem_cons_of_mem _ hi)

/-- A foreign call of the precompile, or an epoch's end at which nobody leaves. -/
def Call.Calm (s : Registry) : Call → Prop
  | .precompile call => call.Foreign
  | .processEpochChurn c => ∀ id ∈ SimplexConsensus.validatorIds s.validators,
    (s.validators.status (s.validators.validatorAddr id) = 1 →
      c.params.minSelfStake ≤ s.validators.stake (s.validators.validatorAddr id)) ∧
    (s.validators.status (s.validators.validatorAddr id) = 2 →
      c.currentBlock.toNat < min (2 ^ 64 - 1)
        ((s.validators.unbondHeight (s.validators.validatorAddr id)).toNat +
          c.params.unbondingPeriodBlocks.toNat))
  | _ => False

instance (s : Registry) : DecidablePred (Call.Calm s)
  | .precompile call => inferInstanceAs (Decidable call.Foreign)
  | .processEpochChurn _ => List.decidableBAll (fun _ => (_ → _) ∧ (_ → _)) _
  | .stakeValidatorEvm .. | .slashValidatorEvm .. | .removeValidatorEvm _ | .handleDoubleSign _
  | .handleOffline .. | .handleOracleOutlier _ => isFalse id

theorem processEpochChurn_of_calm {c : SimplexConsensus}
    (h : (Call.processEpochChurn c).Calm s) : c.processEpochChurn s.validators = s.validators := by
  refine churnLoop_of_stay fun id hid => ?_
  obtain ⟨hact, hunb⟩ := h id hid
  unfold SimplexConsensus.exits
  split_ifs with h0 h2
  · rfl
  · rw [decide_eq_false_iff_not]
    rintro ⟨h1, hlt⟩
    exact absurd hlt (BitVec.not_lt.2 (hact h1))
  · rw [decide_eq_false_iff_not, not_le]
    exact hunb (not_not.1 h2)

variable {call : Call}

theorem step_of_calm (h : call.Calm s) : step s call = s ∨
      ∃ op : ValidatorCall, op.Foreign ∧ call = .precompile op ∧ step s call = Validator.step s op := by
  cases call with
  | precompile op => exact .inr ⟨op, h, rfl, rfl⟩
  | processEpochChurn c =>
    left
    show { s with validators := c.processEpochChurn s.validators } = s
    rw [processEpochChurn_of_calm h]
  | _ => exact h.elim

/-! ### The CALL there is -/

theorem balances_step (s : Registry) (call : ValidatorCall) :
    (Validator.step s call).assets.balances callAssetId ≤ s.assets.balances callAssetId := by
  unfold Validator.step
  split_ifs with hok
  · cases exec_move hok with
    | staked h => exact h.balances.le
    | unstaked h => rw [h.assets]
    | claimed _ _ _ h => exact h.balances
    | slashed h => exact h.balances
    | spared h => rw [h]
  · exact le_refl _

/-! ### A stake that is held -/

/-- `a` can take `n` out: it is active, and can unstake when the floor allows it, or it
is unbonding, and a claim after its period pays `n`. -/
structure Held (s : Registry) (a : Address) (n : U128) : Prop where
  stake : s.validators.stake a = n
  release :
    (s.validators.status a = 1 ∧ ∀ currentBlock,
      s.validators.safetyFloor ≤ s.validators.activeValidatorCount - 1 →
      (s.unstake (s.validators.validatorByAddr a) a currentBlock).2 = .ok ()) ∨
    (s.validators.status a = 2 ∧ ∀ currentBlock : U64,
      (s.validators.unbondHeight a).toNat + s.validators.readUnbondingPeriodBlocks.toNat ≤
        currentBlock.toNat →
      (s.claimUnbonded (s.validators.validatorByAddr a) a currentBlock).2 = .ok n)

section

variable (hs : Inv s) (hid : s.validators.validatorByAddr a ≠ 0)
include hs hid

theorem unbondingCount_lt (h1 : s.validators.status a = 1) :
    s.validators.unbondingCount.toNat + 1 < 2 ^ 64 := by
  have hnod : ((s.validators.validatorByAddr a :: (queue s.validators).map
      (·.validatorId)).map BitVec.toNat).Nodup := by
    refine List.Nodup.map (fun x y hxy => BitVec.eq_of_toNat_eq hxy) ?_
    exact List.nodup_cons.2 ⟨hs.id_notMem hid h1, hs.once⟩
  -- ids are between one and the number of ids given out
  have hran : ∀ b, s.validators.validatorByAddr b ≠ 0 → (s.validators.validatorByAddr b).toNat ∈
      Finset.Icc 1 s.validators.validatorCount.toNat := by
    intro b hb
    refine Finset.mem_Icc.2 ⟨?_, hs.ids b⟩
    rcases Nat.eq_zero_or_pos (s.validators.validatorByAddr b).toNat with h0 | h0
    · exact absurd (BitVec.eq_of_toNat_eq h0) hb
    · exact h0
  have hsub : ((s.validators.validatorByAddr a :: (queue s.validators).map
      (·.validatorId)).map BitVec.toNat).toFinset ⊆
        Finset.Icc 1 s.validators.validatorCount.toNat := by
    intro x hx
    rw [List.mem_toFinset, List.mem_map] at hx
    obtain ⟨id, hmem, rfl⟩ := hx
    rcases List.mem_cons.1 hmem with rfl | hq
    · exact hran a hid
    · obtain ⟨e, he, rfl⟩ := List.mem_map.1 hq
      obtain ⟨b, hb, -, rfl⟩ := (hs.queued e).1 he
      exact hran b hb
  have hcard := Finset.card_le_card hsub
  rw [List.toFinset_card_of_nodup hnod, Nat.card_Icc, List.length_map, List.length_cons,
    List.length_map] at hcard
  have hlen : (queue s.validators).length = s.validators.unbondingCount.toNat := by
    simp [queue, Slots.entries]
  omega

theorem unstake_of_active (h1 : s.validators.status a = 1) {now : U64}
    (hflo : s.validators.safetyFloor ≤ s.validators.activeValidatorCount - 1) :
    (s.unstake (s.validators.validatorByAddr a) a now).2 = .ok () := by
  have hcou := unbondingCount_lt hs hid h1
  unfold Registry.unstake
  rw [if_neg hid, if_neg (not_not.2 rfl), if_neg (not_not.2 h1),
    if_neg fun h => absurd h.2 (BitVec.not_lt.2 hflo), if_neg (by omega)]

theorem claim_of_unbonding (hsup : s.assets.balances callAssetId < 2 ^ 128)
    (h2 : s.validators.status a = 2) {now : U64}
    (hunl : (s.validators.unbondHeight a).toNat + s.validators.readUnbondingPeriodBlocks.toNat ≤ now.toNat) :
    (s.claimUnbonded (s.validators.validatorByAddr a) a now).2 = .ok (s.validators.stake a) := by
  have hmem := (hs.queued _).2 ⟨a, hid, h2, rfl⟩
  obtain ⟨f, hfind, hent⟩ := findUnbonding_of_unique hmem fun x hx hxid => hs.entry_eq hx hxid
  have hne : a ≠ stakingEscrow := fun he => hid (he ▸ hs.notEscrow)
  have hcov : (s.validators.stake a).toNat ≤ s.escrow := by
    rw [hs.escrow]
    calc (s.validators.stake a).toNat = stakeOf s.validators a := (if_neg hid).symm
      _ ≤ stakes s.validators := Ledger.le_total _ a
  -- what `a` and the escrow hold is part of all there is
  have hpair : (s.assets.balance callAssetId a).toNat + s.escrow ≤ s.assets.balances callAssetId :=
    add_le_total (fun x => (s.assets.balance callAssetId x).toNat) hne
  have hpays := claimUnbonded_pays (checkClaim_eq_ok hid h2 hunl) hfind
  rw [hent] at hpays
  exact hpays hcov (by omega) (by dsimp only; omega)

theorem held_of_inv (hsup : s.assets.balances callAssetId < 2 ^ 128)
    (hsta : s.validators.stake a = n) : Held s a n := by
  refine ⟨hsta, ?_⟩
  rcases hs.some a hid with h1 | h2
  · exact .inl ⟨h1, fun _ hflo => unstake_of_active hs hid h1 hflo⟩
  · refine .inr ⟨h2, fun _ hunl => ?_⟩
    rw [claim_of_unbonding hs hid hsup h2 hunl, hsta]

end

/-! ### Runs -/

def Sane (s : Registry) : Prop := Inv s ∧ s.assets.balances callAssetId < 2 ^ 128

theorem Sane.step (hs : Sane s) (hcall : call.Calm s) : Sane (step s call) := by
  rcases step_of_calm hcall with heq | ⟨op, hop, -, heq⟩
  · rwa [heq]
  · rw [heq]
    exact ⟨hs.1.step hop, lt_of_le_of_lt (balances_step s op) hs.2⟩

/-- `a` is registered with the stake `n`. -/
def Recorded (s : Registry) (a : Address) (n : U128) : Prop :=
  s.validators.validatorByAddr a ≠ 0 ∧ s.validators.stake a = n

theorem Recorded.step (h : Recorded s a n) (hs : Inv s) (hcall : call.Calm s)
    (hsla : call ≠ .precompile (.slashStake a)) :
    Recorded (step s call) a n ∨ ∃ validatorId currentBlock,
      call = .precompile (.claimUnbonded validatorId a currentBlock) ∧
        (s.claimUnbonded validatorId a currentBlock).2 = .ok n := by
  obtain ⟨hid, hsta⟩ := h
  rcases step_of_calm hcall with heq | ⟨op, hop, rfl, heq⟩
  · rw [heq]
    exact .inl ⟨hid, hsta⟩
  rw [heq, Validator.step]
  split_ifs with hok
  swap
  · exact .inl ⟨hid, hsta⟩
  -- who leaves is not `a`, or `a` is paid
  have hlea : ∀ {who : Address} {taken : U128}, who ≠ a → Left s (exec s op).1 who taken →
      Recorded (exec s op).1 a n := by
    intro who taken hne hleft
    refine ⟨?_, ?_⟩
    · rwa [hleft.byAddr_of_ne hne.symm]
    · rw [hleft.stake, Function.update_of_ne hne.symm, hsta]
  cases op with
  | stake pubkey amount caller =>
    cases exec_move hok with
    | staked hmove =>
      have hne : a ≠ caller := by
        rintro rfl
        exact hid hmove.fresh
      refine .inl ⟨?_, ?_⟩
      · rwa [hmove.byAddr_of_ne hne]
      · rw [hmove.stake, Function.update_of_ne hne, hsta]
  | unstake =>
    cases exec_move hok with
    | unstaked hmove =>
      refine .inl ⟨?_, ?_⟩
      · rwa [hmove.byAddr]
      · rw [hmove.stake, hsta]
  | claimUnbonded validatorId caller currentBlock =>
    by_cases hne : caller = a
    · subst hne
      right
      refine ⟨validatorId, currentBlock, rfl, ?_⟩
      cases hr : (s.claimUnbonded validatorId caller currentBlock).2 with
      | error =>
        rw [exec, Prod.map_snd, hr] at hok
        cases hok
      | ok =>
        obtain ⟨e, hmem, heid, hamo, -, -⟩ := claimUnbonded_move (Prod.ext rfl hr)
        rw [hs.entry_eq hmem heid] at hamo
        rw [← hamo]
        exact congrArg Except.ok hsta
    · cases exec_move hok with
      | claimed _ _ _ hleft => exact .inl (hlea hne hleft)
  | slashStake validator =>
    have hne : validator ≠ a := by
      rintro rfl
      exact hsla rfl
    cases exec_move hok with
    | slashed hleft => exact .inl (hlea hne hleft)
    | spared hsame =>
      rw [hsame]
      exact .inl ⟨hid, hsta⟩

theorem recorded_run : ∀ {s : Registry} {calls : List Call}, Sane s →
    Along step (fun s call => call.Calm s) s calls → .precompile (.slashStake a) ∉ calls →
    Recorded s a n → Recorded (run step s calls) a n ∨ ∃ before after validatorId currentBlock,
        calls = before ++ .precompile (.claimUnbonded validatorId a currentBlock) :: after ∧
          ((run step s before).claimUnbonded validatorId a currentBlock).2 = .ok n
  | _, [], _, _, _, h => Or.inl h
  | s, call :: calls, hs, ⟨hcall, hcal⟩, hsla, h => by
    rw [List.mem_cons, not_or] at hsla
    rcases h.step hs.1 hcall (Ne.symm hsla.1) with hnext | ⟨validatorId, currentBlock, rfl, hpaid⟩
    · rcases recorded_run (hs.step hcall) hcal hsla.2 hnext with hrun |
        ⟨before, after, validatorId, currentBlock, rfl, hpaid⟩
      · exact .inl hrun
      · exact .inr ⟨call :: before, after, validatorId, currentBlock, rfl, hpaid⟩
    · exact .inr ⟨[], calls, validatorId, currentBlock, rfl, hpaid⟩

/-- **No stake is lost.** From empty storage, in every run of the precompile's operations and of
churn whose steps are all calm, a validator that has staked `n` and is not slashed can take `n`
out, or has been paid `n` by a claim. -/
theorem stake_never_lost (hs : Empty s) (hsupply : s.assets.balances callAssetId < 2 ^ 128)
    {before after : List Call} {pubkey : Bytes32} (hcalls : Along step (fun s call => call.Calm s) s
      (before ++ .precompile (.stake pubkey n a) :: after))
    (hstaked : (exec (run step s before) (.stake pubkey n a)).2.isOk = true)
    (hslash : .precompile (.slashStake a) ∉ after) :
    Held (run step s (before ++ .precompile (.stake pubkey n a) :: after)) a n ∨
      ∃ waiting rest validatorId currentBlock,
        after = waiting ++ .precompile (.claimUnbonded validatorId a currentBlock) :: rest ∧
          ((run step s (before ++ .precompile (.stake pubkey n a) :: waiting)).claimUnbonded
            validatorId a currentBlock).2 = .ok n := by
  have hstep : ∀ s call, Sane s → call.Calm s → Sane (step s call) := fun _ _ hs hcall => hs.step hcall
  have hsane : Sane (run step s (before ++ .precompile (.stake pubkey n a) :: after)) :=
    invariant hstep hcalls ⟨hs.inv, hsupply⟩
  obtain ⟨hbef, hcall, haft⟩ := along_append.1 hcalls
  have hmid := (invariant hstep hbef ⟨hs.inv, hsupply⟩).step hcall
  have hrec : Recorded (step (run step s before) (.precompile (.stake pubkey n a))) a n := by
    show Recorded (Validator.step _ _) a n
    rw [Validator.step, if_pos hstaked]
    cases exec_move hstaked with
    | staked h =>
      refine ⟨?_, ?_⟩
      · rw [h.byAddr_self]
        exact h.id_ne_zero
      · rw [h.stake, Function.update_self]
  have hrun : ∀ calls, run step s (before ++ .precompile (.stake pubkey n a) :: calls) =
      run step (step (run step s before) (.precompile (.stake pubkey n a))) calls :=
    fun calls => run_append ..
  rcases recorded_run hmid haft hslash hrec with hend |
    ⟨waiting, rest, validatorId, currentBlock, rfl, hpaid⟩
  · rw [← hrun] at hend
    exact .inl (held_of_inv hsane.1 hend.1 hsane.2 hend.2)
  · refine .inr ⟨waiting, rest, validatorId, currentBlock, rfl, ?_⟩
    rw [hrun]
    exact hpaid

theorem fundedRegistry_balances : fundedRegistry.assets.balances callAssetId = 2000000 := by
  have hsin : ∀ a : Address, a ≠ 5 → fundedRegistry.assets.balance callAssetId a = 0 :=
    fun a ha => if_neg ha
  rw [AssetStorage.balances_of_single hsin]
  rfl

def earlyChurn : List Call :=
  [.processEpochChurn { params := { minSelfStake := 1000000 }, currentHeight := 7 },
    .precompile (.unstake 1 5 10),
    .processEpochChurn { params := { minSelfStake := 1000000 }, currentHeight := 500 }]

theorem stake_never_lost_at_earlyChurn :
    Held (run step fundedRegistry (.precompile (.stake 1 1000000 5) :: earlyChurn)) 5 1000000 := by
  have hcal : Along step (fun s call => call.Calm s) fundedRegistry
      ([] ++ .precompile (.stake 1 1000000 5) :: earlyChurn) := by
    refine ⟨?_, ?_, ?_, ?_, trivial⟩ <;> decide
  have hsla : Call.precompile (.slashStake 5) ∉ earlyChurn := by
    simp [earlyChurn]
  rcases stake_never_lost fundedRegistry_empty (by rw [fundedRegistry_balances]; decide) hcal
    (by decide) hsla with h | ⟨waiting, rest, validatorId, currentBlock, haft, -⟩
  · exact h
  · have hmem : Call.precompile (.claimUnbonded validatorId 5 currentBlock) ∈ earlyChurn := by
      rw [haft]
      exact List.mem_append_right _ List.mem_cons_self
    simp [earlyChurn] at hmem

def exitedRegistry : Registry :=
  run step fundedRegistry [.precompile (.stake 1 1000000 5), .precompile (.unstake 1 5 10),
    .processEpochChurn { currentHeight := 120971 }]

/-- The million is in the escrow, and nothing takes it out: claim, unstake and stake are
refused. -/
theorem churned_stake_lost : exitedRegistry.escrow = 1000000 ∧
    (exitedRegistry.claimUnbonded 1 5 120970).2 = .error .notUnbonding ∧
    (exitedRegistry.unstake 1 5 120970).2 = .error .alreadyUnbonding ∧
    (exitedRegistry.stake 1 1000000 5).2 = .error .alreadyStaked ∧
    ¬ Held exitedRegistry 5 1000000 := by
  refine ⟨by decide, by decide, by decide, by decide, fun h => ?_⟩
  exact absurd h.stake (by decide)

end Callchain.Consensus

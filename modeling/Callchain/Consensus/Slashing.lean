/-
# Slashing what is unbonding

The stake of a validator that unstakes is written down twice: in its own slot, and in
its entry of the unbonding queue. The slashes of consensus and of governance lower the
slot, and `claim_unbonded` pays the entry. So a slash before the claim takes nothing,
unless it takes all of the slot: then the validator is put out, and cannot claim.
-/
import Callchain.Consensus.Backing

namespace Callchain.Consensus

open Validator Asset Run

variable {s t u : Registry} {who : Address} {m : U128}

/-- The call slashes the validator `who`. A slash by governance makes the
writes of `slash_validator_evm`, one of the bridge is `slash_stake`. -/
def Call.Slashes (u : Registry) (who : Address) : Call → Prop
  | .precompile (.slashStake validator) => validator = who
  | .slashValidatorEvm addr _ => addr = who
  | .handleDoubleSign validatorId | .handleOffline _ validatorId _
  | .handleOracleOutlier validatorId =>
    who ≠ 0 ∧ u.validators.validatorAddr (validatorId.setWidth 64) = who
  | _ => False

/-- What a call asks to take, before it is bounded by the stake. -/
def Call.demand (u : Registry) (who : Address) : Call → U128
  | .slashValidatorEvm _ amount => amount
  | .handleOffline c _ roundsOffline => u.validators.stake who *
    (c.params.offlineSlashRateBps * roundsOffline.setWidth 128) / 10000
  | .handleOracleOutlier _ => u.validators.stake who * 10 / 10000
  | .precompile _ | .handleDoubleSign _ => u.validators.stake who
  | .stakeValidatorEvm .. | .removeValidatorEvm _ | .processEpochChurn _ => 0

def taken (who : Address) (u : Registry) (call : Call) : ℕ :=
  (u.validators.stake who).toNat - ((step u call).validators.stake who).toNat

/-- What a claim pays; one that fails pays nothing. -/
def paid (u : Registry) (validatorId : U64) (caller : Address) (currentBlock : U64) : ℕ :=
  match (u.claimUnbonded validatorId caller currentBlock).2 with
  | .ok amount => amount.toNat
  | .error _ => 0

/-- Nothing but the slashes keeps `who` from its stake: the period is over, the escrow
has it, and the balance of `who` has room. -/
structure Payable (t : Registry) (who : Address) (currentBlock : U64) : Prop where
  unlocked : (t.validators.unbondHeight who).toNat +
    t.validators.readUnbondingPeriodBlocks.toNat ≤ currentBlock.toNat
  covered : (t.validators.stake who).toNat ≤ t.escrow
  narrow : t.escrow < 2 ^ 128
  room : (t.assets.balance callAssetId who).toNat + (t.validators.stake who).toNat < 2 ^ 128

/-! ### What a slash does -/

def lowered (t : Registry) (who : Address) (m : U128) : Registry :=
  { t with validators :=
    { t.validators with stake := Function.update t.validators.stake who m } }

theorem lowered_self (t : Registry) (who : Address) :
    lowered t who (t.validators.stake who) = t := by
  unfold lowered
  rw [Function.update_eq_self]

@[simp] theorem lowered_stake (t : Registry) (who : Address) (m : U128) :
    (lowered t who m).validators.stake who = m := Function.update_self ..

theorem punish_eq {v : ValidatorStorage} {vid : BitVec 32} {amount : U128 → U128}
    (h : who ≠ 0 ∧ v.validatorAddr (vid.setWidth 64) = who) :
    settled v (SimplexConsensus.punish v vid amount) =
      (slashValidatorEvm v who (amount (v.stake who))).1 := by
  obtain ⟨h0, rfl⟩ := h
  unfold SimplexConsensus.punish
  rw [if_neg h0]
  rfl

variable {call : Call}

theorem step_of_slashes (h : call.Slashes u who) : step u call = { u with validators :=
        (slashValidatorEvm u.validators who (call.demand u who)).1 } ∨
      call = .precompile (.slashStake who) := by
  cases call with
  | precompile call =>
    cases call with
    | slashStake validator =>
      right
      rw [show validator = who from h]
    | _ => exact h.elim
  | slashValidatorEvm addr =>
    left
    rw [show addr = who from h]
    rfl
  | handleDoubleSign => exact .inl (congrArg (Registry.mk u.assets) (punish_eq h))
  | handleOffline | handleOracleOutlier =>
    exact .inl (congrArg (Registry.mk u.assets) (punish_eq h))
  | _ => exact h.elim

theorem step_lowered (h : call.Slashes (lowered t who m) who)
    (hless : call.demand (lowered t who m) who < m) :
    step (lowered t who m) call = lowered t who (m - call.demand (lowered t who m) who) := by
  rcases step_of_slashes h with heq | rfl
  · rw [heq]
    generalize call.demand (lowered t who m) who = d at hless
    have hsla : (slashValidatorEvm (lowered t who m).validators who d).2 = d := by
      show (if (lowered t who m).validators.stake who ≤ d then _ else d) = d
      rw [lowered_stake, if_neg (BitVec.not_le.2 hless)]
    rw [slashValidatorEvm_eq, hsla, lowered_stake, if_neg (sub_pos_of_lt hless).2.1]
    simp [rewrite, lowered]
  · rw [Call.demand, lowered_stake] at hless
    exact absurd hless (BitVec.lt_irrefl _)

/-- `who` has nothing left, and can claim nothing. -/
def Gone (who : Address) (u : Registry) : Prop :=
  u.validators.stake who = 0 ∧ (u.validators.validatorByAddr who = 0 ∨ u.validators.status who ≠ 2)

theorem gone_slash {amount : U128} (h : u.validators.stake who ≤ amount) :
    Gone who { u with validators := (slashValidatorEvm u.validators who amount).1 } := by
  have hsla : (slashValidatorEvm u.validators who amount).2 = u.validators.stake who := if_pos h
  unfold Gone
  rw [slashValidatorEvm_eq, hsla]
  simp [rewrite]

theorem gone_left {n : U128} (h : Left u t who n) : Gone who t := by
  refine ⟨?_, Or.inl ?_⟩
  · rw [h.stake, Function.update_self]
  · rw [h.byAddr, Function.update_self]

theorem step_slashStake (u : Registry) (who : Address) :
    step u (.precompile (.slashStake who)) = u ∨ Gone who (step u (.precompile (.slashStake who))) := by
  show Validator.step u _ = u ∨ Gone who (Validator.step u _)
  unfold Validator.step
  split_ifs with hok
  · cases exec_move hok with
    | slashed h => exact .inr (gone_left h)
    | spared h => exact .inl h
  · exact .inl rfl

theorem step_gone (h : call.Slashes u who) (hu : Gone who u) : Gone who (step u call) := by
  rcases step_of_slashes h with heq | rfl
  · rw [heq]
    apply gone_slash
    rw [hu.1]
    exact Nat.zero_le _
  · rcases step_slashStake u who with heq | hgone
    · rwa [heq]
    · exact hgone

theorem run_gone : ∀ {u : Registry} {calls : List Call},
    Along step (fun u call => call.Slashes u who) u calls → Gone who u →
    Gone who (run step u calls) ∧ tally step (taken who) u calls = 0
  | _, [], _, hu => ⟨hu, rfl⟩
  | u, call :: calls, ⟨hcall, hcal⟩, hu => by
    obtain ⟨hgone, htal⟩ := run_gone hcal (step_gone hcall hu)
    refine ⟨hgone, ?_⟩
    rw [tally, htal, taken, hu.1]
    exact Nat.zero_sub _

theorem paid_of_gone (hu : Gone who u) (vid now : U64) : paid u vid who now = 0 := by
  have hche : ∃ e, Registry.checkClaim u.validators vid who now = .error e := by
    unfold Registry.checkClaim
    dsimp only
    split_ifs with h0 _ h2
    · exact ⟨_, rfl⟩
    · exact ⟨_, rfl⟩
    · exact ⟨_, rfl⟩
    · exact absurd (not_not.1 h2) (hu.2.resolve_left h0)
    · exact absurd (not_not.1 h2) (hu.2.resolve_left h0)
    · exact absurd (not_not.1 h2) (hu.2.resolve_left h0)
  obtain ⟨e, he⟩ := hche
  unfold paid Registry.claimUnbonded
  rw [he]

/-! ### Runs of slashes -/

theorem run_lowered : ∀ {calls : List Call} {m : U128},
    Along step (fun u call => call.Slashes u who) (lowered t who m) calls →
    Along step (fun u call => call.demand u who < u.validators.stake who) (lowered t who m) calls →
    ∃ m', run step (lowered t who m) calls = lowered t who m' ∧
      m'.toNat + tally step (taken who) (lowered t who m) calls = m.toNat ∧
      (tally step (taken who) (lowered t who m) calls = 0 ↔
        Along step (fun u call => call.demand u who = 0) (lowered t who m) calls)
  | [], m, _, _ => ⟨m, rfl, rfl, iff_of_true rfl trivial⟩
  | call :: calls, m, ⟨hcall, hcal⟩, ⟨hless, hles⟩ => by
    have hless' : call.demand (lowered t who m) who < m := by
      simpa only [lowered_stake] using hless
    have hstep := step_lowered hcall hless'
    have hsub := BitVec.toNat_sub_of_le (BitVec.le_of_lt hless')
    have htak : taken who (lowered t who m) call = (call.demand (lowered t who m) who).toNat := by
      rw [taken, hstep, lowered_stake, lowered_stake]
      have : (call.demand (lowered t who m) who).toNat < m.toNat := hless'
      omega
    rw [hstep] at hcal hles
    obtain ⟨m', hrun, htal, hzero⟩ := run_lowered hcal hles
    refine ⟨m', ?_, ?_, ?_⟩
    · rw [run_cons, hstep, hrun]
    · rw [tally, hstep]
      have : (call.demand (lowered t who m) who).toNat < m.toNat := hless'
      omega
    · rw [tally, Along, hstep, htak, Nat.add_eq_zero_iff, hzero]
      refine and_congr_left fun _ => ⟨fun h => BitVec.eq_of_toNat_eq h, fun h => ?_⟩
      rw [h]
      rfl

theorem run_gone_of_demand
    (hfind : ∃ f, t.validators.findUnbonding (t.validators.validatorByAddr who) = some f)
    (hid : t.validators.validatorByAddr who ≠ 0) (hesc : t.escrow < 2 ^ 128) :
    ∀ {calls : List Call} {m : U128}, m.toNat ≤ t.escrow →
    Along step (fun u call => call.Slashes u who) (lowered t who m) calls →
    ¬ Along step (fun u call => call.demand u who < u.validators.stake who) (lowered t who m) calls →
    Gone who (run step (lowered t who m) calls) ∧
      tally step (taken who) (lowered t who m) calls = m.toNat
  | [], _, _, _, hnot => absurd trivial hnot
  | call :: calls, m, hm, ⟨hcall, hcal⟩, hnot => by
    by_cases hless : call.demand (lowered t who m) who < m
    · have hstep := step_lowered hcall hless
      have hsub := BitVec.toNat_sub_of_le (BitVec.le_of_lt hless)
      have hrest : ¬ Along step (fun u call => call.demand u who < u.validators.stake who)
          (step (lowered t who m) call) calls := fun h =>
        hnot ⟨by simpa only [lowered_stake] using hless, h⟩
      rw [hstep] at hcal hrest
      obtain ⟨hgone, htal⟩ := run_gone_of_demand hfind hid hesc
        (by rw [hsub]; omega) hcal hrest
      rw [run_cons, tally, taken, hstep, lowered_stake, lowered_stake]
      exact ⟨hgone, by omega⟩
    · have hgone : Gone who (step (lowered t who m) call) := by
        rcases step_of_slashes hcall with heq | rfl
        · rw [heq]
          apply gone_slash
          rw [lowered_stake]
          exact BitVec.not_lt.1 hless
        · -- the slash goes through: the escrow has the stake, and the queue the entry
          have hsla : (lowered t who m).validators.Slashable (lowered t who m).assets who :=
            ⟨fun _ => by rw [lowered_stake]; exact ⟨hm, hesc⟩, fun _ => hfind⟩
          obtain ⟨n, hn⟩ := ValidatorStorage.slashStake_ok_iff.2 (Or.inr hsla)
          have hok : (exec (lowered t who m) (.slashStake who)).2.isOk = true := by
            rw [exec, Prod.map_snd, hn]
            rfl
          show Gone who (Validator.step _ _)
          rw [Validator.step, if_pos hok]
          rcases slashStake_move (t := (exec (lowered t who m) (.slashStake who)).1)
            (Prod.ext rfl hn) with hsame | hleft
          · have hgone := (ValidatorStorage.slashStake_spec hn).1
            rw [show ((lowered t who m).validators.slashStake (lowered t who m).assets who).1.2 =
              (lowered t who m).validators from congrArg Registry.validators hsame] at hgone
            exact absurd hgone hid
          · exact gone_left hleft
      obtain ⟨hrun, htal⟩ := run_gone hcal hgone
      rw [tally, htal, taken, hgone.1, lowered_stake]
      exact ⟨hrun, Nat.sub_zero _⟩

/-- **A claim pays the rest.** A validator unstakes, is slashed, and claims when nothing else
keeps it from its stake. It is paid its stake less what was slashed exactly when no slash asked
for anything, or one asked for all that was left. -/
theorem claim_pays_rest_iff {unstakeBlock currentBlock : U64} {calls : List Call}
    (hnew : ∀ e ∈ queue s.validators, e.validatorId ≠ s.validators.validatorByAddr who)
    (hunstake : s.unstake (s.validators.validatorByAddr who) who unstakeBlock = (t, .ok ()))
    (hpayable : Payable t who currentBlock)
    (hslashes : Along step (fun u call => call.Slashes u who) t calls) :
    paid (run step t calls) (s.validators.validatorByAddr who) who currentBlock =
        (s.validators.stake who).toNat - tally step (taken who) t calls ↔
      Along step (fun u call => call.demand u who = 0) t calls ∨
        ¬ Along step (fun u call => call.demand u who < u.validators.stake who) t calls := by
  have h := unstake_move hunstake
  have hsta : t.validators.status who = 2 := by rw [h.status, Function.update_self]
  have hid : t.validators.validatorByAddr who ≠ 0 := by
    rw [h.byAddr]
    exact h.registered
  -- the entry that the claim finds is the one that `unstake` has added
  obtain ⟨f, hfind, hent⟩ : ∃ f,
      t.validators.findUnbonding (t.validators.validatorByAddr who) = some f ∧
        t.validators.unbonding (BitVec.ofNat 64 f) =
          ⟨s.validators.validatorByAddr who, s.validators.stake who⟩ := by
    rw [h.byAddr]
    refine findUnbonding_of_unique (e := ⟨_, s.validators.stake who⟩) ?_ fun x hx hxid => ?_
    · rw [h.queue]
      exact List.mem_append_right _ (List.mem_singleton_self _)
    · rw [h.queue, List.mem_append, List.mem_singleton] at hx
      rcases hx with hx | rfl
      · exact absurd hxid (hnew x hx)
      · rfl
  have hself := lowered_self t who
  have hstak : t.validators.stake who = s.validators.stake who := by rw [h.stake]
  rw [← h.byAddr, ← hstak]
  by_cases hless : Along step (fun u call => call.demand u who < u.validators.stake who) t calls
  · -- every slash lowers the slot, and the claim still pays the entry
    rw [← hself] at hslashes hless
    obtain ⟨m', hrun, htal, hzero⟩ := run_lowered hslashes hless
    rw [hself] at hrun htal hzero hless
    have hpaid : paid (run step t calls) (t.validators.validatorByAddr who) who currentBlock =
        (t.validators.stake who).toNat := by
      have hpays := claimUnbonded_pays (s := lowered t who m') (f := f)
        (checkClaim_eq_ok hid hsta hpayable.unlocked) hfind
      rw [show (lowered t who m').validators.unbonding (BitVec.ofNat 64 f) = _ from hent,
        ← hstak] at hpays
      have hval : ((lowered t who m').claimUnbonded (t.validators.validatorByAddr who) who
          currentBlock).2 = .ok (t.validators.stake who) :=
        hpays hpayable.covered hpayable.narrow hpayable.room
      rw [hrun, paid, hval]
    rw [or_iff_left (not_not.2 hless), ← hzero]
    omega
  · rw [← hself] at hslashes hless
    obtain ⟨hgone, htal⟩ := run_gone_of_demand ⟨f, hfind⟩ hid hpayable.narrow hpayable.covered
      hslashes hless
    rw [hself] at hgone htal hless
    rw [paid_of_gone hgone, htal]
    exact iff_of_true (Nat.sub_self _).symm (Or.inr hless)

def unstakedRegistry : Registry := (stakedRegistry.unstake 1 5 10).1

theorem payable_unstakedRegistry : Payable unstakedRegistry 5 120970 :=
  ⟨by decide, by decide, by decide, by decide⟩

theorem claim_pays_rest_iff_at_doubleSign :
    paid (run step unstakedRegistry [.handleOracleOutlier 1, .handleDoubleSign 1]) 1 5 120970 =
      1000000 - tally step (taken 5) unstakedRegistry
        [.handleOracleOutlier 1, .handleDoubleSign 1] := by
  have hnew : ∀ e ∈ queue stakedRegistry.validators,
      e.validatorId ≠ stakedRegistry.validators.validatorByAddr 5 := by decide
  have huns : stakedRegistry.unstake (stakedRegistry.validators.validatorByAddr 5) 5 10 =
      (unstakedRegistry, .ok ()) := Prod.ext rfl rfl
  have hsla : Along step (fun u call => call.Slashes u 5) unstakedRegistry
      [.handleOracleOutlier 1, .handleDoubleSign 1] :=
    ⟨⟨by decide, by decide⟩, ⟨by decide, by decide⟩, trivial⟩
  exact (claim_pays_rest_iff hnew huns payable_unstakedRegistry hsla).2
    (Or.inr fun h => absurd h.2.1 (by decide))

/-- A slash of a thousand for an outlier, and the claim pays the million. -/
theorem outlier_slash_unpaid : (stakedRegistry.unstake 1 5 10).2 = .ok () ∧
    Call.Slashes unstakedRegistry 5 (.handleOracleOutlier 1) ∧ Payable unstakedRegistry 5 120970 ∧
    tally step (taken 5) unstakedRegistry [.handleOracleOutlier 1] = 1000 ∧
    paid (run step unstakedRegistry [.handleOracleOutlier 1]) 1 5 120970 = 1000000 :=
  ⟨rfl, ⟨by decide, by decide⟩, payable_unstakedRegistry, by decide, by decide⟩

end Callchain.Consensus

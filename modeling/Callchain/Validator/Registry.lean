/-
# Staking

An address stakes CALL to become a validator, unstakes, waits, and claims its stake; or
it is slashed. The registry keeps five indexes of this by hand: from address to id and
back, the stakes, the number of active validators, and a queue of those that are
unbonding. This module has the operations, and what each does when it succeeds.
-/
import Callchain.Lib.Ledger
import Callchain.Lib.Run
import Callchain.Lib.Slots
import Callchain.Validator.Storage

namespace Callchain.Validator

open Asset Ledger AssetStorage
open BitVec (eq_of_toNat_eq le_def ofNat ofNat_toNat setWidth_eq toNat_ofNat)
open Function (update update_of_ne update_self)

def minSelfStake : U128 := 1000000

namespace ValidatorStorage

variable (v : ValidatorStorage)

def readUnbondingPeriodBlocks : U64 :=
  if v.unbondingPeriodBlocks = 0 then 120960 else v.unbondingPeriodBlocks

/-- The writes of `stake` that register a validator. -/
def register (caller : Address) (validatorId : U64) (amount : U128) (pubkey : Bytes32) :
    ValidatorStorage :=
  { v with
    validatorCount := validatorId
    validatorByAddr := update v.validatorByAddr caller validatorId
    validatorAddr := update v.validatorAddr validatorId caller
    stake := update v.stake caller amount
    pubkey := update v.pubkey caller pubkey
    status := update v.status caller 1 }

/-- The writes of `unstake`, but for the last one. -/
def startUnbonding (caller : Address) (currentBlock : U64) : ValidatorStorage :=
  { v with
    activeValidatorCount :=
      if v.activeValidatorCount = 0 then 0 else v.activeValidatorCount - 1
    status := update v.status caller 2
    unbondHeight := update v.unbondHeight caller currentBlock
    unbonding := update v.unbonding v.unbondingCount
      ⟨v.validatorByAddr caller, v.stake caller⟩ }

end ValidatorStorage

structure Registry where
  assets : AssetStorage := {}
  validators : ValidatorStorage := {}

namespace Registry

def stake (s : Registry) (pubkey : Bytes32) (amount : U128) (caller : Address) :
    Registry × Except ValidatorError Unit :=
  if amount < minSelfStake then (s, .error .belowMinimumStake)
  else if pubkey = 0 then (s, .error .invalidPubkey)
  else if s.validators.validatorByAddr caller ≠ 0 then (s, .error .alreadyStaked)
  else match s.assets.deductBalance callAssetId caller amount with
  | .error _ => (s, .error .insufficientBalance)
  | .ok assets =>
    match assets.addBalance callAssetId stakingEscrow amount with
    | .error _ => ({ s with assets := assets }, .error .escrowOverflow)
    | .ok assets =>
      if 2 ^ 64 ≤ s.validators.validatorCount.toNat + 1 then
        ({ s with assets := assets }, .error .validatorCountOverflow)
      else
        let validators :=
          s.validators.register caller (s.validators.validatorCount + 1) amount pubkey
        if 2 ^ 64 ≤ validators.activeValidatorCount.toNat + 1 then
          (⟨assets, validators⟩, .error .validatorCountOverflow)
        else
          (⟨assets, { validators with
            activeValidatorCount := validators.activeValidatorCount + 1 }⟩, .ok ())

def unstake (s : Registry) (validatorId : U64) (caller : Address) (currentBlock : U64) :
    Registry × Except ValidatorError Unit :=
  let v := s.validators
  if v.validatorByAddr caller = 0 then (s, .error .notAValidator)
  else if v.validatorByAddr caller ≠ validatorId then (s, .error .idMismatch)
  else if v.status caller ≠ 1 then (s, .error .alreadyUnbonding)
  else if v.activeValidatorCount > 0 ∧ v.activeValidatorCount - 1 < v.safetyFloor then
    (s, .error .belowSafetyFloor)
  else if 2 ^ 64 ≤ v.unbondingCount.toNat + 1 then
    ({ s with validators := v.startUnbonding caller currentBlock },
      .error .validatorCountOverflow)
  else
    ({ s with validators := { v.startUnbonding caller currentBlock with
      unbondingCount := v.unbondingCount + 1 } }, .ok ())

def checkClaim (v : ValidatorStorage) (validatorId : U64) (caller : Address) (currentBlock : U64) :
    Except ValidatorError Unit :=
  let unlock := (v.unbondHeight caller).toNat + v.readUnbondingPeriodBlocks.toNat
  if v.validatorByAddr caller = 0 then .error .notAValidator
  else if v.validatorByAddr caller ≠ validatorId then .error .idMismatch
  else if v.status caller ≠ 2 then .error .notUnbonding
  else if 2 ^ 64 ≤ unlock then .error .unbondingPeriodNotElapsed
  else if currentBlock.toNat < unlock then .error .unbondingPeriodNotElapsed
  else .ok ()

def claimUnbonded (s : Registry) (validatorId : U64) (caller : Address) (currentBlock : U64) :
    Registry × Except ValidatorError U128 :=
  match checkClaim s.validators validatorId caller currentBlock with
  | .error e => (s, .error e)
  | .ok () =>
    match s.validators.removeFromUnbondingQueue (s.validators.validatorByAddr caller) with
    | .error e => (s, .error e)
    | .ok (validators, amount) =>
      match s.assets.deductBalance callAssetId stakingEscrow amount with
      | .error _ => ({ s with validators := validators }, .error .escrowUnderflow)
      | .ok assets =>
        match assets.addBalance callAssetId caller amount with
        | .error _ => (⟨assets, validators⟩, .error .balanceOverflow)
        | .ok assets =>
          (⟨assets, validators.clearValidatorState caller (s.validators.validatorByAddr caller)⟩,
            .ok amount)

end Registry

inductive ValidatorCall where
  | stake (pubkey : Bytes32) (amount : U128) (caller : Address)
  | unstake (validatorId : U64) (caller : Address) (currentBlock : U64)
  | claimUnbonded (validatorId : U64) (caller : Address) (currentBlock : U64)
  | slashStake (validator : Address)

def exec (s : Registry) : ValidatorCall → Registry × Except ValidatorError Unit
  | .stake pubkey amount caller => s.stake pubkey amount caller
  | .unstake validatorId caller currentBlock => s.unstake validatorId caller currentBlock
  | .claimUnbonded validatorId caller currentBlock =>
    (s.claimUnbonded validatorId caller currentBlock).map id (·.map fun _ => ())
  | .slashStake validator =>
    (s.validators.slashStake s.assets validator).map (fun p => ⟨p.1, p.2⟩) (·.map fun _ => ())

def step (s : Registry) (call : ValidatorCall) : Registry :=
  if (exec s call).2.isOk then (exec s call).1 else s

/-! ### The queue -/

def queue (v : ValidatorStorage) : List UnbondingEntry :=
  Slots.entries (fun i => v.unbonding (BitVec.ofNat 64 i)) v.unbondingCount.toNat

def FreeBehind (v : ValidatorStorage) : Prop :=
  ∀ i : U64, v.unbondingCount.toNat ≤ i.toNat → v.unbonding i = {}

theorem ofNat_eq_iff {i j : ℕ} (hi : i < 2 ^ 64) (hj : j < 2 ^ 64) :
    ofNat 64 i = ofNat 64 j ↔ i = j := by
  constructor
  · intro h
    have := congrArg BitVec.toNat h
    rwa [toNat_ofNat, toNat_ofNat, Nat.mod_eq_of_lt hi, Nat.mod_eq_of_lt hj] at this
  · rintro rfl
    rfl

section Removal

variable {v : ValidatorStorage} {f : ℕ} (hf : f < v.unbondingCount.toNat)

/-- The storage after the entry at `f` is taken out: the last entry is in its
place, and the last slot is empty. -/
def takeOut (v : ValidatorStorage) (f : ℕ) : ValidatorStorage :=
  { v with
    unbonding := fun i =>
      if i = v.unbondingCount - 1 then {}
      else if i = BitVec.ofNat 64 f then v.unbonding (v.unbondingCount - 1) else v.unbonding i
    unbondingCount := v.unbondingCount - 1 }

include hf

theorem lastIndex_toNat : (v.unbondingCount - 1).toNat = v.unbondingCount.toNat - 1 := by
  rw [BitVec.toNat_sub_of_le (by rw [le_def]; show 1 ≤ _; omega)]
  rfl

theorem queue_takeOut : (queue v).Perm (v.unbonding (ofNat 64 f) :: queue (takeOut v f)) := by
  obtain ⟨m, hm⟩ : ∃ m, v.unbondingCount.toNat = m + 1 := ⟨v.unbondingCount.toNat - 1, by omega⟩
  have hlast : v.unbondingCount - 1 = ofNat 64 m := by
    have htoN := lastIndex_toNat hf
    rw [hm, Nat.add_sub_cancel] at htoN
    rw [← htoN, ofNat_toNat, setWidth_eq]
  have hcou : (takeOut v f).unbondingCount.toNat = m := by
    show (v.unbondingCount - 1).toNat = m
    rw [lastIndex_toNat hf, hm, Nat.add_sub_cancel]
  unfold queue
  rw [hcou, hm]
  refine Slots.entries_perm_of_swap (by omega) fun i hi => ?_
  dsimp only [takeOut]
  rw [hlast, if_neg (by rw [ofNat_eq_iff (by omega) (by omega)]; omega)]
  exact if_congr (ofNat_eq_iff (by omega) (by omega)) rfl rfl

theorem freeBehind_takeOut (hfree : FreeBehind v) : FreeBehind (takeOut v f) := by
  intro i hi
  have hle : v.unbondingCount.toNat - 1 ≤ i.toNat := (lastIndex_toNat hf).symm.le.trans hi
  dsimp only [takeOut]
  by_cases hil : i = v.unbondingCount - 1
  · rw [if_pos hil]
  have hbeh : v.unbondingCount.toNat ≤ i.toNat := by
    have hne : i.toNat ≠ (v.unbondingCount - 1).toNat := fun he => hil (eq_of_toNat_eq he)
    rw [lastIndex_toNat hf] at hne
    omega
  have hne : i ≠ ofNat 64 f := by
    rintro rfl
    rw [toNat_ofNat] at hbeh
    omega
  rw [if_neg hil, if_neg hne, hfree i hbeh]

theorem takeOut_eq : takeOut v f = { v with
      unbonding := update
        (if v.unbondingCount > 1 ∧ ofNat 64 f ≠ v.unbondingCount - 1
          then update v.unbonding (ofNat 64 f) (v.unbonding (v.unbondingCount - 1))
          else v.unbonding) (v.unbondingCount - 1) {}
      unbondingCount := v.unbondingCount - 1 } := by
  unfold takeOut
  congr 1
  funext i
  by_cases hil : i = v.unbondingCount - 1
  · rw [if_pos hil, hil, update_self]
  rw [if_neg hil, update_of_ne hil]
  by_cases hif : i = ofNat 64 f
  · subst hif
    have hmany : v.unbondingCount > 1 := by
      have hne : f ≠ v.unbondingCount.toNat - 1 := by
        rintro rfl
        refine hil (eq_of_toNat_eq ?_)
        rw [lastIndex_toNat hf, toNat_ofNat, Nat.mod_eq_of_lt (by omega)]
      rw [gt_iff_lt, BitVec.lt_def]
      show 1 < _
      omega
    rw [if_pos rfl, if_pos ⟨hmany, hil⟩, update_self]
  · split_ifs
    · rw [update_of_ne hif]
    · rfl

end Removal

variable {validatorId currentBlock : U64} {amount : U128} {s t : Registry} {caller : Address}

theorem removeFromUnbondingQueue_spec {v v' : ValidatorStorage}
    (h : v.removeFromUnbondingQueue validatorId = .ok (v', amount)) :
    (∃ e : UnbondingEntry, e.validatorId = validatorId ∧ e.amount = amount ∧
      (queue v).Perm (e :: queue v')) ∧ (FreeBehind v → FreeBehind v') ∧ ∃ unbonding unbondingCount,
        v' = { v with unbonding := unbonding, unbondingCount := unbondingCount } := by
  unfold ValidatorStorage.removeFromUnbondingQueue at h
  cases hfind : v.findUnbonding validatorId with
  | none =>
    rw [hfind] at h
    cases h
  | some f =>
    have hf : f < v.unbondingCount.toNat := List.mem_range.1 (List.mem_of_find?_eq_some hfind)
    have hid : (v.unbonding (ofNat 64 f)).validatorId = validatorId := by
      simpa using List.find?_some hfind
    rw [hfind] at h
    dsimp only at h
    rw [← takeOut_eq hf] at h
    cases h
    exact ⟨⟨_, hid, rfl, queue_takeOut hf⟩, freeBehind_takeOut hf, _, _, rfl⟩

/-! ### What a successful call does -/

def Registry.escrow (s : Registry) : ℕ := (s.assets.balance callAssetId stakingEscrow).toNat

structure Staked (s t : Registry) (amount : U128) (caller : Address) : Prop where
  fresh : s.validators.validatorByAddr caller = 0
  enough : minSelfStake ≤ amount
  count : t.validators.validatorCount.toNat = s.validators.validatorCount.toNat + 1
  byAddr : t.validators.validatorByAddr =
    update s.validators.validatorByAddr caller t.validators.validatorCount
  addr : t.validators.validatorAddr =
    update s.validators.validatorAddr t.validators.validatorCount caller
  stake : t.validators.stake = update s.validators.stake caller amount
  status : t.validators.status = update s.validators.status caller 1
  active : t.validators.activeValidatorCount.toNat =
    s.validators.activeValidatorCount.toNat + 1
  queue : queue t.validators = queue s.validators
  free : FreeBehind s.validators → FreeBehind t.validators
  escrow : caller ≠ stakingEscrow → t.escrow = s.escrow + amount.toNat
  balances : t.assets.balances callAssetId = s.assets.balances callAssetId

structure Unstaked (s t : Registry) (caller : Address) : Prop where
  registered : s.validators.validatorByAddr caller ≠ 0
  wasActive : s.validators.status caller = 1
  count : t.validators.validatorCount = s.validators.validatorCount
  byAddr : t.validators.validatorByAddr = s.validators.validatorByAddr
  addr : t.validators.validatorAddr = s.validators.validatorAddr
  stake : t.validators.stake = s.validators.stake
  status : t.validators.status = update s.validators.status caller 2
  active : t.validators.activeValidatorCount.toNat =
    s.validators.activeValidatorCount.toNat - 1
  queue : queue t.validators =
    queue s.validators ++ [⟨s.validators.validatorByAddr caller, s.validators.stake caller⟩]
  free : FreeBehind s.validators → FreeBehind t.validators
  escrow : t.escrow = s.escrow
  assets : t.assets = s.assets

/-- All that is recorded of `who` is gone, and `taken` has left the escrow. -/
structure Left (s t : Registry) (who : Address) (taken : U128) : Prop where
  registered : s.validators.validatorByAddr who ≠ 0
  count : t.validators.validatorCount = s.validators.validatorCount
  byAddr : t.validators.validatorByAddr = update s.validators.validatorByAddr who 0
  addr : t.validators.validatorAddr =
    update s.validators.validatorAddr (s.validators.validatorByAddr who) 0
  stake : t.validators.stake = update s.validators.stake who 0
  status : t.validators.status = update s.validators.status who 0
  active : t.validators.activeValidatorCount.toNat =
    if s.validators.status who = 1 then s.validators.activeValidatorCount.toNat - 1
    else s.validators.activeValidatorCount.toNat
  waiting : s.validators.status who ≠ 2 → Validator.queue t.validators = Validator.queue s.validators
  unbonding : s.validators.status who = 2 → ∃ e : UnbondingEntry,
    e.validatorId = s.validators.validatorByAddr who ∧
      (Validator.queue s.validators).Perm (e :: Validator.queue t.validators)
  free : FreeBehind s.validators → FreeBehind t.validators
  escrow : who ≠ stakingEscrow → t.escrow + taken.toNat = s.escrow
  balances : t.assets.balances callAssetId ≤ s.assets.balances callAssetId

inductive Move (s t : Registry) : ValidatorCall → Prop
  | staked {pubkey : Bytes32} {amount : U128} {caller : Address} :
      Staked s t amount caller → Move s t (.stake pubkey amount caller)
  | unstaked {validatorId : U64} {caller : Address} {currentBlock : U64} :
      Unstaked s t caller → Move s t (.unstake validatorId caller currentBlock)
  | claimed {validatorId : U64} {caller : Address} {currentBlock : U64} {e : UnbondingEntry} :
      e ∈ queue s.validators → e.validatorId = s.validators.validatorByAddr caller →
      s.validators.status caller = 2 → Left s t caller e.amount →
      Move s t (.claimUnbonded validatorId caller currentBlock)
  | slashed {validator : Address} : Left s t validator (s.validators.stake validator) →
      Move s t (.slashStake validator)
  | spared {validator : Address} : t = s → Move s t (.slashStake validator)

theorem stake_move {pubkey : Bytes32}
    (h : s.stake pubkey amount caller = (t, .ok ())) : Staked s t amount caller := by
  unfold Registry.stake at h
  rw [ite_failed_eq_ok, ite_failed_eq_ok, ite_failed_eq_ok] at h
  obtain ⟨hmin, -, hid, h⟩ := h
  split at h
  · cases h
  rename_i debited hdeb
  split at h
  · cases h
  rename_i credited hcre
  rw [ite_failed_eq_ok, ite_failed_eq_ok] at h
  obtain ⟨hcou, hact, h⟩ := h
  cases h
  refine ⟨not_not.1 hid, BitVec.not_lt.1 hmin, ?_, rfl, rfl, rfl, rfl, ?_, rfl, id, ?_, ?_⟩
  · exact Nat.mod_eq_of_lt (not_le.1 hcou)
  · exact Nat.mod_eq_of_lt (not_le.1 hact)
  · intro hne
    show (credited.balance callAssetId stakingEscrow).toNat = _
    rw [addBalance_toNat hcre, if_pos ⟨rfl, rfl⟩,
      deductBalance_toNat hdeb, if_neg fun h => hne h.2.symm]
    rfl
  · have h1 := balances_deduct hdeb callAssetId
    have h2 := balances_add hcre callAssetId
    show credited.balances callAssetId = _
    omega

theorem countDown_toNat (n : U64) : (if n = 0 then 0 else n - 1).toNat = n.toNat - 1 := by
  split_ifs with h
  · rw [h]
    rfl
  · have hpos : 1 ≤ n.toNat := by
      rcases Nat.eq_zero_or_pos n.toNat with h0 | h0
      · exact absurd (eq_of_toNat_eq h0) h
      · exact h0
    rw [BitVec.toNat_sub_of_le (by rw [le_def]; exact hpos)]
    rfl

theorem unstake_move
    (h : s.unstake validatorId caller currentBlock = (t, .ok ())) : Unstaked s t caller := by
  unfold Registry.unstake at h
  rw [ite_failed_eq_ok, ite_failed_eq_ok, ite_failed_eq_ok, ite_failed_eq_ok, ite_failed_eq_ok] at h
  obtain ⟨hid, -, hsta, -, hcou, h⟩ := h
  cases h
  have hlt : s.validators.unbondingCount.toNat + 1 < 2 ^ 64 := not_le.1 hcou
  have hnext : (s.validators.unbondingCount + 1).toNat = s.validators.unbondingCount.toNat + 1 := by
    exact Nat.mod_eq_of_lt hlt
  have hself : ofNat 64 s.validators.unbondingCount.toNat = s.validators.unbondingCount := by
    rw [ofNat_toNat, setWidth_eq]
  refine ⟨hid, not_not.1 hsta, rfl, rfl, rfl, rfl, rfl, countDown_toNat _, ?_, ?_, rfl, rfl⟩
  · show Slots.entries (fun i => update s.validators.unbonding
      s.validators.unbondingCount _ (ofNat 64 i)) (s.validators.unbondingCount + 1).toNat = _
    rw [hnext, Slots.entries_succ, hself, update_self]
    congr 1
    refine Slots.entries_congr fun i hi => update_of_ne ?_ ..
    rw [← hself, Ne, ofNat_eq_iff (by omega) (by omega)]
    omega
  · intro hfree i hi
    change (s.validators.unbondingCount + 1).toNat ≤ i.toNat at hi
    show update s.validators.unbonding s.validators.unbondingCount _ i = {}
    have hne : i ≠ s.validators.unbondingCount := by
      rintro rfl
      omega
    rw [update_of_ne hne]
    exact hfree i (by omega)

theorem countOut_eq (v : ValidatorStorage) (status : BitVec 8) :
    v.countOut status = { v with activeValidatorCount := if status = 1
      then (if v.activeValidatorCount = 0 then 0 else v.activeValidatorCount - 1)
      else v.activeValidatorCount } := by
  unfold ValidatorStorage.countOut
  split_ifs <;> rfl

variable {v : ValidatorStorage}

theorem Left.of_clear {assets : AssetStorage} {who : Address}
    {taken : U128} {unbonding : U64 → UnbondingEntry} {unbondingCount : U64}
    (hid : s.validators.validatorByAddr who ≠ 0)
    (hv : v = { s.validators with unbonding := unbonding, unbondingCount := unbondingCount })
    (hwai : s.validators.status who ≠ 2 → queue v = queue s.validators)
    (hque : s.validators.status who = 2 → ∃ e : UnbondingEntry,
      e.validatorId = s.validators.validatorByAddr who ∧ (queue s.validators).Perm (e :: queue v))
    (hfree : FreeBehind s.validators → FreeBehind v)
    (hesc : who ≠ stakingEscrow →
      (assets.balance callAssetId stakingEscrow).toNat + taken.toNat = s.escrow)
    (hbal : assets.balances callAssetId ≤ s.assets.balances callAssetId) :
    Left s ⟨assets, (v.clearValidatorState who (s.validators.validatorByAddr who)).countOut
      (s.validators.status who)⟩ who taken := by
  subst hv
  rw [countOut_eq]
  refine ⟨hid, rfl, rfl, rfl, rfl, rfl, ?_, hwai, hque, hfree, hesc, hbal⟩
  by_cases hst : s.validators.status who = 1
  · rw [if_pos hst, if_pos hst]
    exact countDown_toNat _
  · rw [if_neg hst, if_neg hst]
    rfl

theorem slashStake_move {who : Address} {n : U128}
    (h : s.validators.slashStake s.assets who = ((t.assets, t.validators), .ok n)) :
    t = s ∨ Left s t who (s.validators.stake who) := by
  by_cases hid : s.validators.validatorByAddr who = 0
  · rw [ValidatorStorage.slashStake_unregistered hid] at h
    left
    cases t
    cases s
    simp_all
  right
  unfold ValidatorStorage.slashStake at h
  dsimp only at h
  rw [if_neg hid] at h
  split at h
  · exact nomatch congrArg Prod.snd h
  rename_i assets hass
  split at h
  · exact nomatch congrArg Prod.snd h
  rename_i v hv
  obtain ⟨rfl, hval⟩ : assets = t.assets ∧ _ = t.validators := by
    simpa using congrArg Prod.fst h
  have hesc : (t.assets.balance callAssetId stakingEscrow).toNat +
      (s.validators.stake who).toNat = s.escrow := by
    split_ifs at hass with hpos
    · have hle := (deductBalance_eq_ok.1 hass).1
      rw [deductBalance_toNat hass]
      exact Nat.sub_add_cancel hle
    · have hzero : s.validators.stake who = 0 := BitVec.le_zero_iff.1 (BitVec.not_lt.1 hpos)
      rw [← Except.ok.inj hass, hzero]
      rfl
  have hbal : t.assets.balances callAssetId ≤ s.assets.balances callAssetId := by
    split_ifs at hass with hpos
    · exact Nat.le.intro (balances_deduct hass callAssetId)
    · rw [Except.ok.inj hass]
  have ht : t = ⟨t.assets, (v.clearValidatorState who (s.validators.validatorByAddr who)).countOut
      (s.validators.status who)⟩ := by
    rw [hval]
  rw [ht]
  split_ifs at hv with hst
  · cases hq : s.validators.removeFromUnbondingQueue (s.validators.validatorByAddr who) with
    | error =>
      rw [hq] at hv
      cases hv
    | ok =>
      rw [hq] at hv
      cases hv
      obtain ⟨⟨e, he, -, hperm⟩, hfree, unbonding, unbondingCount, hv⟩ :=
        removeFromUnbondingQueue_spec hq
      exact Left.of_clear hid hv (fun h => absurd hst h) (fun _ => ⟨e, he, hperm⟩) hfree
        (fun _ => hesc) hbal
  · cases hv
    exact Left.of_clear hid rfl (fun _ => rfl) (fun h => absurd h hst) id (fun _ => hesc)
      hbal

theorem claimUnbonded_move (h : s.claimUnbonded validatorId caller currentBlock = (t, .ok amount)) :
    ∃ e ∈ queue s.validators, e.validatorId = s.validators.validatorByAddr caller ∧
      e.amount = amount ∧ s.validators.status caller = 2 ∧ Left s t caller e.amount := by
  unfold Registry.claimUnbonded at h
  split at h
  · cases h
  rename_i hche
  unfold Registry.checkClaim at hche
  rw [ite_error_eq_ok, ite_error_eq_ok, ite_error_eq_ok] at hche
  obtain ⟨hid, -, hst, -⟩ := hche
  rw [not_not] at hst
  split at h
  · cases h
  rename_i v removed hq
  split at h
  · cases h
  rename_i debited hdeb
  split at h
  · cases h
  rename_i credited hcre
  cases h
  obtain ⟨⟨e, he, rfl, hperm⟩, hfree, unbonding, unbondingCount, hv⟩ :=
    removeFromUnbondingQueue_spec hq
  refine ⟨e, hperm.mem_iff.2 List.mem_cons_self, he, rfl, hst, ?_⟩
  have hesc : caller ≠ stakingEscrow →
      (credited.balance callAssetId stakingEscrow).toNat + e.amount.toNat = s.escrow := by
    intro hne
    have hle := (deductBalance_eq_ok.1 hdeb).1
    rw [addBalance_toNat hcre, if_neg fun h => hne h.2.symm,
      deductBalance_toNat hdeb]
    exact Nat.sub_add_cancel hle
  have hbal : credited.balances callAssetId ≤ s.assets.balances callAssetId := by
    have h1 := balances_deduct hdeb callAssetId
    have h2 := balances_add hcre callAssetId
    omega
  have hleft := Left.of_clear hid hv (fun h => absurd hst h) (fun _ => ⟨e, he, hperm⟩) hfree hesc
    hbal
  -- an unbonding validator has been counted out before
  rwa [hst] at hleft

theorem eq_ok_of_isOk {ε α : Type} {r : Except ε α} (h : r.isOk = true) : ∃ a, r = .ok a := by
  cases r with
  | error => cases h
  | ok a => exact ⟨a, rfl⟩

theorem exec_move {call : ValidatorCall} (h : (exec s call).2.isOk = true) :
    Move s (exec s call).1 call := by
  cases call with
  | stake =>
    obtain ⟨u, hu⟩ := eq_ok_of_isOk h
    exact .staked (stake_move (Prod.ext rfl hu))
  | unstake =>
    obtain ⟨u, hu⟩ := eq_ok_of_isOk h
    exact .unstaked (unstake_move (Prod.ext rfl hu))
  | claimUnbonded validatorId caller currentBlock =>
    cases hr : (s.claimUnbonded validatorId caller currentBlock).2 with
    | error =>
      rw [exec, Prod.map_snd, hr] at h
      cases h
    | ok =>
      obtain ⟨e, hmem, hid, -, hst, hleft⟩ := claimUnbonded_move (Prod.ext rfl hr)
      exact .claimed hmem hid hst hleft
  | slashStake validator =>
    cases hr : (s.validators.slashStake s.assets validator).2 with
    | error =>
      rw [exec, Prod.map_snd, hr] at h
      cases h
    | ok =>
      rcases slashStake_move (t := (exec s (.slashStake validator)).1) (Prod.ext rfl hr) with
        hsame | hleft
      · exact .spared hsame
      · exact .slashed hleft

theorem findUnbonding_of_unique {e : UnbondingEntry} (he : e ∈ queue v)
    (huni : ∀ x ∈ queue v, x.validatorId = e.validatorId → x = e) :
    ∃ f, v.findUnbonding e.validatorId = some f ∧ v.unbonding (ofNat 64 f) = e := by
  cases hf : v.findUnbonding e.validatorId with
  | none =>
    obtain ⟨i, hi, rfl⟩ := Slots.mem_entries.1 he
    have hnone := List.find?_eq_none.1 hf i (List.mem_range.2 hi)
    exact absurd (by simp) hnone
  | some f =>
    have hlt : f < v.unbondingCount.toNat := List.mem_range.1 (List.mem_of_find?_eq_some hf)
    have hid : (v.unbonding (ofNat 64 f)).validatorId = e.validatorId := by
      simpa using List.find?_some hf
    exact ⟨f, rfl, huni _ (Slots.mem_entries.2 ⟨f, hlt, rfl⟩) hid⟩

theorem checkClaim_eq_ok (hid : v.validatorByAddr caller ≠ 0) (hsta : v.status caller = 2)
    (hunl : (v.unbondHeight caller).toNat + v.readUnbondingPeriodBlocks.toNat ≤
      currentBlock.toNat) :
    Registry.checkClaim v (v.validatorByAddr caller) caller currentBlock = .ok () := by
  unfold Registry.checkClaim
  rw [if_neg hid, if_neg (not_not.2 rfl), if_neg (not_not.2 hsta), if_neg (by omega),
    if_neg (by omega)]

/-- A claim pays what the entry of the caller says, if the escrow has it and the caller
has room for it. -/
theorem claimUnbonded_pays {f : ℕ}
    (hche : Registry.checkClaim s.validators (s.validators.validatorByAddr caller) caller
      currentBlock = .ok ())
    (hfind : s.validators.findUnbonding (s.validators.validatorByAddr caller) = some f)
    (hcov : (s.validators.unbonding (ofNat 64 f)).amount.toNat ≤ s.escrow)
    (hesc : s.escrow < 2 ^ 128) (hroom : (s.assets.balance callAssetId caller).toNat +
      (s.validators.unbonding (ofNat 64 f)).amount.toNat < 2 ^ 128) :
    (s.claimUnbonded (s.validators.validatorByAddr caller) caller currentBlock).2 =
      .ok (s.validators.unbonding (ofNat 64 f)).amount := by
  obtain ⟨debited, hdeb⟩ : ∃ a, s.assets.deductBalance callAssetId stakingEscrow
      (s.validators.unbonding (ofNat 64 f)).amount = .ok a :=
    ⟨_, deductBalance_eq_ok.2 ⟨hcov, hesc, rfl⟩⟩
  obtain ⟨credited, hcre⟩ : ∃ a, debited.addBalance callAssetId caller
      (s.validators.unbonding (ofNat 64 f)).amount = .ok a := by
    refine ⟨_, addBalance_eq_ok.2 ⟨?_, rfl⟩⟩
    rw [deductBalance_toNat hdeb]
    split_ifs with h
    · rw [h.2] at hroom
      omega
    · exact hroom
  unfold Registry.claimUnbonded ValidatorStorage.removeFromUnbondingQueue
  rw [hche, hfind]
  dsimp only
  rw [hdeb]
  dsimp only
  rw [hcre]

end Callchain.Validator

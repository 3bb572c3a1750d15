/-
# The limit on withdrawals

In every period of `withdraw_period` blocks an asset may be withdrawn up to a limit. The
start of the period is one slot for all assets, what has been withdrawn is a slot for
each, and the withdrawal that opens a period resets the slot of its own asset only. So
that of another goes on from the amount it ended an earlier period with.
-/
import Callchain.Bridge.Calls
import Callchain.Lib.Run

namespace Callchain.Bridge
namespace Precompile

open LightClient Asset Validator Run

/-! ### The books -/

structure Withdrawal where
  assetId : U64
  amount : U128
  block : U64
  deriving DecidableEq

/-- The running period: what each asset has used in it, and between the last period it
opened itself and this one. -/
structure Period where
  start : U64 := 0
  used : U64 → ℕ := fun _ => 0
  carried : U64 → ℕ := fun _ => 0

/-- The block a period ends with; no block comes after the largest height. -/
def Period.stop (p : Period) (length : U64) : ℕ :=
  min (p.start.toNat + length.toNat) (2 ^ 64 - 1)

def Period.record (length : U64) (p : Period) (w : Withdrawal) : Period :=
  if p.stop length ≤ w.block.toNat then
    { start := w.block
      used := Function.update (fun _ => 0) w.assetId w.amount.toNat
      carried := Function.update (fun a => p.used a + p.carried a) w.assetId 0 }
  else
    { p with used := Function.update p.used w.assetId (p.used w.assetId + w.amount.toNat) }

/-- What the asset has used in the period that a withdrawal at `block` falls
into. -/
def Period.usedAt (p : Period) (length assetId block : U64) : ℕ :=
  if p.stop length ≤ block.toNat then 0 else p.used assetId

def BridgeCall.withdrawal : BridgeCall → List Withdrawal
  | .externalWithdraw assetId amount _ currentBlock => [⟨assetId, amount, currentBlock⟩]
  | .externalDeposit .. | .initiateChallenge .. | .resolveChallenge ..
  | .withdrawChallengeBond .. => []

/-- The withdrawal a call makes: the one it asks for, if it succeeds. -/
def withdrawals (B : Build) (s : Store) (call : BridgeCall) : List Withdrawal :=
  if (exec B s call).2.isOk then call.withdrawal else []

def periodOf (B : Build) (reverting : Bool) (s : Store) (calls : List BridgeCall) : Period :=
  (collect (step B reverting) (withdrawals B) s calls).foldl
    (Period.record s.bridge.readWithdrawPeriod) {}

/-! ### The slots follow the books -/

structure Books (b : BridgeStorage) (p : Period) : Prop where
  start : b.currentPeriodStart = p.start
  slot : ∀ a, (b.periodWithdrawn a).toNat = p.used a + p.carried a

def SameLimit (b t : BridgeStorage) : Prop :=
  t.currentPeriodStart = b.currentPeriodStart ∧ t.periodWithdrawn = b.periodWithdrawn

variable {b : BridgeStorage} {p : Period}

theorem Books.congr {t : BridgeStorage} (h : Books b p) (hs : SameLimit b t) : Books t p :=
  ⟨hs.1.trans h.start, fun a => by rw [hs.2]; exact h.slot a⟩

variable {aid now : U64}

theorem checkWithdrawLimit_eq_newPeriod {amount : U128} :
    b.checkWithdrawLimit aid amount now = .ok .newPeriod ↔
      min (b.currentPeriodStart.toNat + b.readWithdrawPeriod.toNat) (2 ^ 64 - 1) ≤
        now.toNat ∧ amount ≤ b.readMaxExternalWithdrawPerPeriod := by
  unfold BridgeStorage.checkWithdrawLimit
  dsimp only
  split_ifs with hend hover hbig hmax
  · exact iff_of_false (fun h => nomatch h) fun h => absurd h.2 (BitVec.not_le.2 hover)
  · exact iff_of_true rfl ⟨hend, BitVec.not_lt.1 hover⟩
  · exact iff_of_false (fun h => nomatch h) fun h => hend h.1
  · exact iff_of_false (fun h => nomatch h) fun h => hend h.1
  · exact iff_of_false (fun h => nomatch h) fun h => hend h.1

theorem checkWithdrawLimit_eq_existingPeriod {amount newTotal : U128}
    (h : b.checkWithdrawLimit aid amount now = .ok (.existingPeriod newTotal)) :
    now.toNat < min (b.currentPeriodStart.toNat + b.readWithdrawPeriod.toNat) (2 ^ 64 - 1) ∧
      newTotal.toNat = (b.periodWithdrawn aid).toNat + amount.toNat := by
  unfold BridgeStorage.checkWithdrawLimit at h
  dsimp only at h
  split_ifs at h with hend hover hbig hmax
  · cases h
  · cases h
    exact ⟨not_le.1 hend, by rw [BitVec.toNat_add, Nat.mod_eq_of_lt (not_le.1 hbig)]⟩

variable {limitCheck : WithdrawLimitCheck}

theorem checkWithdraw_eq_ok {s : Store} {amount fee : U128}
    (h : checkWithdraw s aid amount now = .ok (limitCheck, fee)) :
    s.bridge.checkWithdrawLimit aid amount now = .ok limitCheck ∧ fee = s.bridge.readBridgeFee := by
  unfold checkWithdraw at h
  rw [ite_error_eq_ok] at h
  obtain ⟨-, h⟩ := h
  split at h
  · cases h
  · split at h
    · cases h
    · rename_i check hche
      rw [ite_error_eq_ok] at h
      obtain ⟨-, h⟩ := h
      cases h
      exact ⟨hche, rfl⟩

theorem recordWithdrawUsed_sameLimit (b : BridgeStorage) (n : U128) (aid : U64) (amount : U128)
    (now : U64) (check : WithdrawLimitCheck) : SameLimit (b.recordWithdrawUsed aid amount now check)
      (BridgeStorage.recordWithdrawUsed { b with totalWithdrawals := n } aid amount now
        check) := by
  cases check <;> exact ⟨rfl, rfl⟩

theorem Books.recordWithdrawUsed {amount : U128}
    (h : Books b p) (hche : b.checkWithdrawLimit aid amount now = .ok limitCheck) :
    Books (b.recordWithdrawUsed aid amount now limitCheck)
      (p.record b.readWithdrawPeriod ⟨aid, amount, now⟩) := by
  unfold Period.record Period.stop
  rw [← h.start]
  cases limitCheck with
  | newPeriod =>
    rw [if_pos (checkWithdrawLimit_eq_newPeriod.1 hche).1]
    refine ⟨rfl, fun a => ?_⟩
    show (Function.update b.periodWithdrawn aid amount a).toNat = _
    by_cases ha : a = aid
    · subst ha
      simp
    · simp [ha, h.slot a]
  | existingPeriod newTotal =>
    obtain ⟨hin, htot⟩ := checkWithdrawLimit_eq_existingPeriod hche
    rw [if_neg (by simpa using hin)]
    refine ⟨rfl, fun a => ?_⟩
    show (Function.update b.periodWithdrawn aid newTotal a).toNat = _
    by_cases ha : a = aid
    · subst ha
      have := h.slot a
      simp only [Function.update_self]
      omega
    · simp [ha, h.slot a]

/-- A call that succeeds records the withdrawal it asks for, and writes the slots of the
limit for nothing else. -/
theorem Effect.books {B : Build} {s t : Store} {call : BridgeCall}
    (h : Effect B s call t (.ok ())) (hp : Books s.bridge p) :
    Books t.bridge (call.withdrawal.foldl (Period.record s.bridge.readWithdrawPeriod) p) := by
  cases h with
  | deposited _ _ _ htot =>
    obtain ⟨-, rfl⟩ := addTotalDeposits_eq_ok.1 htot
    exact hp.congr ⟨rfl, rfl⟩
  | withdrawn hche _ _ htot =>
    obtain ⟨-, rfl⟩ := addTotalWithdrawals_eq_ok.1 htot
    exact (hp.recordWithdrawUsed (checkWithdraw_eq_ok hche).1).congr
      (recordWithdrawUsed_sameLimit ..)
  | upheld _ _ _ _ htot =>
    obtain ⟨-, rfl⟩ := subTotalDeposits_eq_ok.1 htot
    exact hp.congr ⟨rfl, rfl⟩
  | _ => exact hp.congr ⟨rfl, rfl⟩

theorem step_books (B : Build) (reverting : Bool) {s : Store} (call : BridgeCall)
    (hp : Books s.bridge p) : Books (step B reverting s call).bridge
      ((withdrawals B s call).foldl (Period.record s.bridge.readWithdrawPeriod) p) := by
  have h := exec_effect B s call
  unfold step withdrawals
  generalize exec B s call = r at h ⊢
  obtain ⟨t, result⟩ := r
  cases result with
  | ok => simpa [Except.isOk, Except.toBool] using h.books hp
  | error =>
    have hb : t.bridge = s.bridge := by cases h with | failed hb => exact hb
    cases reverting
    · simpa [Except.isOk, Except.toBool, hb] using hp
    · simpa [Except.isOk, Except.toBool] using hp

theorem readWithdrawPeriod_congr {t : BridgeStorage} (h : t.config = b.config) :
    t.readWithdrawPeriod = b.readWithdrawPeriod := by
  rw [BridgeStorage.readWithdrawPeriod, BridgeStorage.readWithdrawPeriod, h]

theorem run_config (B : Build) (reverting : Bool) (s : Store) (calls : List BridgeCall) :
    (run (step B reverting) s calls).bridge.config = s.bridge.config :=
  invariant_mem (I := fun u : Store => u.bridge.config = s.bridge.config)
    (fun u call _ hu => (step_config B reverting u call).trans hu) rfl

structure FreshLimit (b : BridgeStorage) : Prop where
  start : b.currentPeriodStart = 0
  withdrawn : ∀ a, b.periodWithdrawn a = 0

theorem run_books (B : Build) (reverting : Bool) {s : Store} (hs : FreshLimit s.bridge)
    (calls : List BridgeCall) :
    Books (run (step B reverting) s calls).bridge (periodOf B reverting s calls) := by
  induction calls using List.reverseRecOn with
  | nil => exact ⟨hs.start, fun a => by rw [run_nil, hs.withdrawn a]; rfl⟩
  | append_singleton calls call ih =>
    have hlen := readWithdrawPeriod_congr (run_config B reverting s calls)
    have h := step_books B reverting call ih
    rw [hlen] at h
    unfold periodOf
    rw [run_append, collect_snoc, List.foldl_append]
    exact h

/-! ### The judgement -/

/-- All that `external_withdraw` checks beside the limit. -/
structure PassesOtherChecks (s : Store) (assetId : U64) (amount : U128) (caller : Address) :
    Prop where
  positive : amount ≠ 0
  basic : s.bridge.validateBasic s.assets assetId = .ok ()
  fee : s.bridge.readBridgeFee < amount
  paid : ∃ debited assets, s.assets.deductBalance assetId caller amount = .ok debited ∧
    payFee debited assetId s.bridge.readBridgeFee = .ok assets
  total : ∃ bridge, s.bridge.addTotalWithdrawals (amount - s.bridge.readBridgeFee) = .ok bridge

def RejectedForLimit (s : Store) (assetId : U64) (amount : U128) (caller : Address)
    (currentBlock : U64) : Prop :=
  ∃ e, s.bridge.checkWithdrawLimit assetId amount currentBlock = .error e ∧
    (externalWithdraw s assetId amount caller currentBlock).2 = .error e

variable {s : Store} {assetId currentBlock : U64} {amount : U128} {caller : Address}

theorem externalWithdraw_of_passes (h : PassesOtherChecks s assetId amount caller) :
    (externalWithdraw s assetId amount caller currentBlock).2 =
      (s.bridge.checkWithdrawLimit assetId amount currentBlock).map
        fun _ => amount - s.bridge.readBridgeFee := by
  obtain ⟨debited, assets, hdeb, hpay⟩ := h.paid
  obtain ⟨bridge, htot⟩ := h.total
  unfold externalWithdraw checkWithdraw
  rw [if_neg h.positive, h.basic]
  cases hche : s.bridge.checkWithdrawLimit assetId amount currentBlock with
  | error => rfl
  | ok =>
    dsimp only
    rw [if_neg (BitVec.not_le.2 h.fee)]
    rw [hdeb]
    dsimp only
    rw [hpay]
    rw [htot]
    rfl

theorem rejectedForLimit_iff (h : PassesOtherChecks s assetId amount caller) :
    RejectedForLimit s assetId amount caller currentBlock ↔
      ∃ e, s.bridge.checkWithdrawLimit assetId amount currentBlock = .error e := by
  refine exists_congr fun e => and_iff_left_of_imp fun he => ?_
  rw [externalWithdraw_of_passes h, he]
  rfl

theorem checkWithdrawLimit_error_iff :
    (∃ e, b.checkWithdrawLimit assetId amount currentBlock = .error e) ↔
      b.readMaxExternalWithdrawPerPeriod.toNat < amount.toNat +
        if min (b.currentPeriodStart.toNat + b.readWithdrawPeriod.toNat) (2 ^ 64 - 1) ≤
          currentBlock.toNat then 0 else (b.periodWithdrawn assetId).toNat := by
  unfold BridgeStorage.checkWithdrawLimit
  dsimp only
  split_ifs with hend hover hbig hexceeds
  · exact iff_of_true ⟨_, rfl⟩ hover
  · exact iff_of_false (fun ⟨_, he⟩ => nomatch he) (fun h => hover h)
  · exact iff_of_true ⟨_, rfl⟩ (by omega)
  · rw [gt_iff_lt, BitVec.lt_def, BitVec.toNat_add] at hexceeds
    exact iff_of_true ⟨_, rfl⟩ (by omega)
  · rw [gt_iff_lt, BitVec.lt_def, BitVec.toNat_add] at hexceeds
    exact iff_of_false (fun ⟨_, he⟩ => nomatch he) (by omega)

/-- **The limit of a period.** From fresh slots, after any calls at any blocks, a withdrawal that
passes every other check is rejected for the limit exactly when it exceeds what is left of the
period, unless what the slot carries over from earlier periods makes the difference. -/
theorem rejected_iff_over_limit_iff (B : Build) (reverting : Bool) {s : Store}
    (hs : FreshLimit s.bridge) (calls : List BridgeCall)
    (hpass : PassesOtherChecks (run (step B reverting) s calls) assetId amount caller) :
    (RejectedForLimit (run (step B reverting) s calls) assetId amount caller currentBlock ↔
      s.bridge.readMaxExternalWithdrawPerPeriod.toNat < amount.toNat +
        (periodOf B reverting s calls).usedAt s.bridge.readWithdrawPeriod assetId currentBlock) ↔
    ¬ (currentBlock.toNat < (periodOf B reverting s calls).stop s.bridge.readWithdrawPeriod ∧
      amount.toNat + (periodOf B reverting s calls).used assetId ≤
        s.bridge.readMaxExternalWithdrawPerPeriod.toNat ∧
      s.bridge.readMaxExternalWithdrawPerPeriod.toNat <
        amount.toNat + (periodOf B reverting s calls).used assetId +
          (periodOf B reverting s calls).carried assetId) := by
  have hboo := run_books B reverting hs calls
  have hcon := run_config B reverting s calls
  have hmax : (run (step B reverting) s calls).bridge.readMaxExternalWithdrawPerPeriod =
      s.bridge.readMaxExternalWithdrawPerPeriod := by
    rw [BridgeStorage.readMaxExternalWithdrawPerPeriod,
      BridgeStorage.readMaxExternalWithdrawPerPeriod, hcon]
  rw [rejectedForLimit_iff hpass, checkWithdrawLimit_error_iff, hmax,
    readWithdrawPeriod_congr hcon, hboo.start, hboo.slot assetId]
  unfold Period.usedAt Period.stop
  split_ifs with hend
  · exact iff_of_true Iff.rfl fun h => absurd hend (not_le.2 h.1)
  · have hin := not_le.1 hend
    constructor
    · rintro h ⟨-, hfits, hcar⟩
      omega
    · intro h
      constructor
      · intro hover
        by_contra hfits
        exact h ⟨hin, by omega, by omega⟩
      · intro hover
        omega

def limitedStore : Store where
  bridge := { config := { maxWithdrawPerPeriod := 101, withdrawPeriod := 11 } }
  assets := { issuer := fun _ => 1, balance := fun _ _ => 1000 }

def carryingCalls : List BridgeCall :=
  [.externalWithdraw 1 60 6 1, .externalWithdraw 2 1 6 12]

theorem rejected_iff_over_limit_iff_at_carryingCalls : FreshLimit limitedStore.bridge ∧
    (RejectedForLimit (run (step plainBuild true) limitedStore carryingCalls) 1 30 6 13 ↔
      100 < 30 + (periodOf plainBuild true limitedStore carryingCalls).usedAt 10 1 13) := by
  have hs : FreshLimit limitedStore.bridge := ⟨rfl, fun _ => rfl⟩
  refine ⟨hs, (rejected_iff_over_limit_iff plainBuild true hs carryingCalls
    ⟨by decide, by decide, by decide, ⟨_, _, rfl, rfl⟩, ⟨_, rfl⟩⟩).2 ?_⟩
  decide

/-- In the second period nothing of asset 1 has been withdrawn, and still 60 of it are
rejected: the 60 of the first count. -/
theorem withdrawal_rejected_below_limit :
    PassesOtherChecks (run (step plainBuild true) limitedStore carryingCalls) 1 60 6 ∧
    RejectedForLimit (run (step plainBuild true) limitedStore carryingCalls) 1 60 6 13 ∧
    limitedStore.bridge.readMaxExternalWithdrawPerPeriod = 100 ∧
    (periodOf plainBuild true limitedStore carryingCalls).usedAt 10 1 13 = 0 :=
  ⟨⟨by decide, by decide, by decide, ⟨_, _, rfl, rfl⟩, ⟨_, rfl⟩⟩, ⟨_, rfl, rfl⟩, by decide, by decide⟩

end Precompile
end Callchain.Bridge

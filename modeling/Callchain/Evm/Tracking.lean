/-
# The delta next to the cache

A block keeps its changes twice: in the cache, over which the next transaction runs, and
in the accumulated delta, which is returned. This module says when the two agree at one
address and slot, and what keeps them agreeing there.

* `InfoTracks`: a part of an account's info (its balance, nonce or code) is the same in
  the delta, on top of the provider, as in the cache.
* `SlotTracks`: the same of a slot. A slot of `ASSET_ADDRESS` that the cache lists and
  the delta does not is left to the final merge.
-/
import Callchain.Evm.Revm

namespace Callchain.Evm

open Function (update update_of_ne update_self)
open CacheDB (cell_commit entry_commit)
open Option (getD_some map_some)

/-! ### Reading a delta on top of a provider -/

def recorded (acc : EvmState) (a : Address) (k : U256) : Option U256 :=
  ((acc a).bind (·.storage k)).map (·.presentValue)

namespace InMemoryStateProvider

variable (p : InMemoryStateProvider) (acc : EvmState) (a : Address)

theorem getBalance_apply : (p.applyFromRevmState acc).getBalance a =
    ((acc a).map (·.info.balance)).getD (p.getBalance a) := by
  cases h : acc a <;> simp [getBalance, applyFromRevmState, h, EvmAccount.applyRevm]

theorem getNonce_apply : (p.applyFromRevmState acc).getNonce a =
    ((acc a).map (·.info.nonce)).getD (p.getNonce a) := by
  cases h : acc a <;> simp [getNonce, applyFromRevmState, h, EvmAccount.applyRevm]

theorem getCode_apply : (p.applyFromRevmState acc).getCode a =
    ((acc a).map fun r => r.info.code.getD (p.getCode a)).getD (p.getCode a) := by
  cases h : acc a with
  | none => simp [getCode, applyFromRevmState, h]
  | some => cases hp : p.accounts a <;> simp [getCode, applyFromRevmState, h, EvmAccount.applyRevm, hp]

theorem getStorage_apply (k : U256) : (p.applyFromRevmState acc).getStorage a k =
    (recorded acc a k).getD (p.getStorage a k) := by
  cases h : acc a with
  | none => simp [getStorage, applyFromRevmState, recorded, h]
  | some r =>
    cases hk : r.storage k with
    | none =>
      cases hp : p.accounts a <;>
        simp [getStorage, applyFromRevmState, recorded, h, EvmAccount.applyRevm, hk, hp]
    | some =>
      simp only [getStorage, applyFromRevmState, recorded, h, EvmAccount.applyRevm,
        Option.bind_some, hk, map_some, getD_some]
      split_ifs with hz
      · exact hz.symm
      · rfl

end InMemoryStateProvider

theorem recorded_accumulate (acc d : EvmState) (a : Address) (k : U256) :
    recorded (accumulate acc d) a k = (recorded d a k).or (recorded acc a k) := by
  unfold recorded accumulate
  cases hd : d a with
  | none => simp
  | some r =>
    cases ha : acc a with
    | none | some => cases hr : r.storage k <;> simp [hr]

variable {α : Type*}

theorem info_accumulate (f : AccountInfo → α) (acc d : EvmState) (a : Address) :
    (accumulate acc d a).map (fun r => f r.info) =
      ((d a).map fun r => f r.info).or ((acc a).map fun r => f r.info) := by
  unfold accumulate
  cases hd : d a with
  | none => simp
  | some => cases ha : acc a <;> simp

/-! ### Tracking -/

variable (H : Host) (p : InMemoryStateProvider)

/-- The delta, over what the provider has, gives the cache's value of `f`. -/
def InfoTracks {α : Type*} (f : AccountInfo → α) (y : α) (acc : EvmState) (c : CacheDB)
    (a : Address) : Prop :=
  ((acc a).map fun r => f r.info).getD y = f (c.cell H.keccak256 a).info

def SlotTracks (acc : EvmState) (c : CacheDB) (a : Address) (k : U256) : Prop :=
  match recorded acc a k with
  | some v => v = (c.cell H.keccak256 a).slots k
  | none => (c.cell H.keccak256 a).slots k = p.getStorage a k ∨
      (a = assetAddress ∧ (c.entry H.keccak256 assetAddress).storage k ≠ none)

variable {H p} {acc acc' d : EvmState} {c c' : CacheDB} {a : Address} {k : U256}

variable {f : AccountInfo → α}

theorem InfoTracks.congr {y : α} (h : InfoTracks H f y acc c a)
    (hr : (acc' a).map (fun r => f r.info) = (acc a).map fun r => f r.info)
    (hs : f (c'.cell H.keccak256 a).info = f (c.cell H.keccak256 a).info) :
    InfoTracks H f y acc' c' a := by
  unfold InfoTracks at *
  rw [hr, hs, h]

theorem SlotTracks.congr (h : SlotTracks H p acc c a k) (hr : recorded acc' a k = recorded acc a k)
    (hs : (c'.cell H.keccak256 a).slots k = (c.cell H.keccak256 a).slots k)
    (hl : a = assetAddress → (c.entry H.keccak256 assetAddress).storage k ≠ none →
      (c'.entry H.keccak256 assetAddress).storage k ≠ none) : SlotTracks H p acc' c' a k := by
  unfold SlotTracks at *
  rw [hr, hs]
  split at h
  · exact h
  · exact h.imp_right fun ⟨ha, hk⟩ => ⟨ha, hl ha hk⟩

/-! ### Committing and merging a transaction's delta -/

theorem InfoTracks.commit {y : α}
    (hf : ∀ info, f (CacheDB.insertContract H.keccak256 info) = f info)
    (h : d a = none → InfoTracks H f y acc c a)
    (hsd : ∀ r, d a = some r → r.status.touched → r.status.selfdestructed → f r.info = f .empty)
    (hun : ∀ r, d a = some r → ¬ r.status.touched → f r.info = f (c.cell H.keccak256 a).info) :
    InfoTracks H f y (accumulate acc d) (c.commit H.keccak256 d) a := by
  unfold InfoTracks
  rw [info_accumulate, cell_commit]
  cases hd : d a with
  | none => exact h hd
  | some r =>
    simp only [map_some, Option.some_or, getD_some]
    by_cases ht : r.status.touched
    · rw [if_pos ht, Cell.commit]
      by_cases hs : r.status.selfdestructed
      · rw [if_pos hs]; exact hsd r hd ht hs
      · rw [if_neg hs]; exact (hf _).symm
    · rw [if_neg ht]
      exact hun r hd ht

theorem slots_commit (hlive : (c.cell H.keccak256 a).store.IsLive) {r : Account}
    (hd : d a = some r) (ht : r.status.touched) (hsd : ¬ r.status.selfdestructed) :
    ((c.commit H.keccak256 d).cell H.keccak256 a).slots k =
      ((r.storage k).map (·.presentValue)).getD
        (if r.status.created then 0 else (c.cell H.keccak256 a).slots k) := by
  rw [cell_commit, hd]
  dsimp only
  rw [if_pos ht, Cell.commit, if_neg hsd, Store.base_eq_get hlive]
  rfl

theorem listed_commit (hk : (c.entry H.keccak256 a).storage k ≠ none)
    (hd : ∀ r, d a = some r → r.status.touched → ¬ r.status.selfdestructed ∧ ¬ r.status.created) :
    ((c.commit H.keccak256 d).entry H.keccak256 a).storage k ≠ none := by
  rw [entry_commit]
  cases ha : d a with
  | none => exact hk
  | some r =>
    dsimp only
    split_ifs with ht
    · obtain ⟨hs, hc⟩ := hd r ha ht
      rw [DbAccount.storage_commit, if_neg hs, if_neg hc]
      cases r.storage k <;> simp [hk]
    · exact hk

theorem isLive_commit (hlive : (c.cell H.keccak256 a).store.IsLive)
    (hsd : ∀ r, d a = some r → r.status.touched → ¬ r.status.selfdestructed) :
    ((c.commit H.keccak256 d).cell H.keccak256 a).store.IsLive := by
  rw [cell_commit]
  cases ha : d a with
  | none => exact hlive
  | some r =>
    dsimp only
    split_ifs with ht
    · rw [Cell.commit, if_neg (hsd r ha ht)]; trivial
    · exact hlive

/-- At a slot, the account is not destroyed, a creation clears nothing that the delta so
far still gives, and what was only read is as the cache has it. -/
structure DeltaAt (p : InMemoryStateProvider) (acc d : EvmState) (c : CacheDB) (a : Address)
    (k : U256) : Prop where
  alive : ∀ r, d a = some r → r.status.touched → ¬ r.status.selfdestructed
  created : ∀ r, d a = some r → r.status.touched → r.status.created → r.storage k = none →
    (recorded acc a k).getD (p.getStorage a k) = 0
  read : ∀ r s, d a = some r → ¬ r.status.touched → r.storage k = some s →
    s.presentValue = (c.cell H.keccak256 a).slots k

theorem SlotTracks.commit (h : SlotTracks H p acc c a k)
    (hlive : (c.cell H.keccak256 a).store.IsLive) (hd : DeltaAt (H := H) p acc d c a k) :
    SlotTracks H p (accumulate acc d) (c.commit H.keccak256 d) a k := by
  cases ha : d a with
  | none =>
    refine h.congr ?_ ?_ fun hA hk => ?_
    · rw [recorded_accumulate]; simp [recorded, ha]
    · rw [cell_commit, ha]
    · subst hA
      rw [entry_commit, ha]; exact hk
  | some r =>
    by_cases ht : r.status.touched
    · have hs := slots_commit (k := k) hlive ha ht (hd.alive r ha ht)
      cases hr : r.storage k with
      | some =>
        unfold SlotTracks
        rw [recorded_accumulate, hs]
        simp [recorded, ha, hr]
      | none =>
        have hrec : recorded (accumulate acc d) a k = recorded acc a k := by
          rw [recorded_accumulate]; simp [recorded, ha, hr]
        rw [hr] at hs
        by_cases hc : r.status.created
        · have hz := hd.created r ha ht hc hr
          rw [if_pos hc] at hs
          unfold SlotTracks
          rw [hrec, hs]
          cases hrec' : recorded acc a k with
          | some => simpa [hrec'] using hz
          | none => left; simpa [hrec'] using hz.symm
        · rw [if_neg hc] at hs
          refine h.congr hrec hs fun hA hk => ?_
          subst hA
          refine listed_commit hk fun r' hr' ht' => ?_
          rw [ha, Option.some.injEq] at hr'
          subst hr'
          exact ⟨hd.alive r ha ht, hc⟩
    · have hcell : (c.commit H.keccak256 d).cell H.keccak256 a = c.cell H.keccak256 a := by
        rw [cell_commit, ha]; simp [ht]
      cases hr : r.storage k with
      | some s =>
        unfold SlotTracks
        rw [recorded_accumulate, hcell]
        simp [recorded, ha, hr, hd.read r s ha ht hr]
      | none =>
        refine h.congr ?_ (by rw [hcell]) fun hA hk => ?_
        · rw [recorded_accumulate]; simp [recorded, ha, hr]
        · subst hA
          rw [entry_commit, ha]
          simpa [ht] using hk

/-! ### The refund in the delta -/

section Refund

variable {tx : EvmTransaction} {refund : U256}

variable {A B : Account}

theorem refundDelta_eq (hpos : 0 < refund) (hA : acc tx.caller = some A)
    (hB : update acc tx.caller (some (A.debit refund)) assetAddress = some B) :
    (refundDelta H tx refund c acc).2 =
      update (update acc tx.caller (some (A.debit refund))) assetAddress
        (some (B.insertSlot (callSlot H tx.caller)
          (((B.storage (callSlot H tx.caller)).map (·.presentValue)).getD 0 + refund))) := by
  have hpos' : refund > 0 := hpos
  unfold refundDelta
  rw [if_pos hpos', hA]
  dsimp only
  rw [hB]

section

variable (hA : acc tx.caller = some A) (hB : acc assetAddress = some B)
include hA hB

theorem storage_after_debit (refund : U256) :
    ∃ B', update acc tx.caller (some (A.debit refund)) assetAddress = some B' ∧
      B'.storage = B.storage ∧ (assetAddress ≠ tx.caller → B' = B) ∧
      (assetAddress = tx.caller → B' = B.debit refund) := by
  by_cases h : assetAddress = tx.caller
  · rw [h] at hB ⊢
    rw [hA, Option.some.injEq] at hB
    subst hB
    exact ⟨A.debit refund, by simp, rfl, fun h' => absurd rfl h', fun _ => rfl⟩
  · exact ⟨B, by rw [update_of_ne h]; exact hB, rfl, fun _ => rfl, fun h' => absurd h' h⟩

theorem recorded_refundDelta (hpos : 0 < refund) (a : Address) (k : U256) :
    recorded (refundDelta H tx refund c acc).2 a k =
      if a = assetAddress ∧ k = callSlot H tx.caller then
        some ((recorded acc assetAddress (callSlot H tx.caller)).getD 0 + refund)
      else recorded acc a k := by
  obtain ⟨B', hB', hst, -, -⟩ := storage_after_debit hA hB refund
  rw [refundDelta_eq hpos hA hB']
  by_cases ha : a = assetAddress
  · subst ha
    by_cases hk : k = callSlot H tx.caller
    · subst hk; simp [recorded, Account.insertSlot, hst, hB]
    · simp [recorded, Account.insertSlot, hst, hB, hk]
  · by_cases hc : a = tx.caller
    · subst hc; simp [recorded, ha, hA, Account.debit]
    · simp [recorded, ha, hc]

theorem info_refundDelta (hpos : 0 < refund) {α : Type*} (f : AccountInfo → α) (a : Address) :
    ((refundDelta H tx refund c acc).2 a).map (fun r => f r.info) =
      if a = tx.caller then some (f (A.debit refund).info) else (acc a).map fun r => f r.info := by
  obtain ⟨B', hB', -, hne, heq⟩ := storage_after_debit hA hB refund
  rw [refundDelta_eq hpos hA hB']
  by_cases ha : a = assetAddress
  · subst ha
    by_cases hc : assetAddress = tx.caller
    · have hAB : A = B := by rw [hc, hA] at hB; exact Option.some.inj hB
      rw [if_pos hc, heq hc, hAB]
      rfl
    · rw [if_neg hc, hne hc, hB]
      rfl
  · rw [update_of_ne ha]
    by_cases hc : a = tx.caller
    · subst hc; simp
    · rw [update_of_ne hc, if_neg hc]

end

end Refund

/-! ### A transaction that ran -/

theorem actualCost_toNat (tx : EvmTransaction) (baseFee : U128) (gasUsed : U64) :
    (actualCost tx baseFee gasUsed).toNat =
      gasUsed.toNat * (effectiveGasPrice tx baseFee).toNat := by
  unfold actualCost
  have h1 := gasUsed.isLt
  have h2 := (effectiveGasPrice tx baseFee).isLt
  have h3 : gasUsed.toNat * (effectiveGasPrice tx baseFee).toNat < 2 ^ 256 :=
    calc gasUsed.toNat * (effectiveGasPrice tx baseFee).toNat
        ≤ 2 ^ 64 * 2 ^ 128 := Nat.mul_le_mul h1.le h2.le
      _ < 2 ^ 256 := by norm_num
  rw [BitVec.toNat_mul, BitVec.toNat_setWidth_of_le (by norm_num),
    BitVec.toNat_setWidth_of_le (by norm_num), Nat.mod_eq_of_lt h3]

variable (H) in
/-- In the state `s` the transaction passed all checks and revm ran it. -/
structure RanIn (blk : BlockParams) (s : BlockState) (raw : Bytes) (tx : EvmTransaction) (b : Bridge)
    (c : CacheDB) (res : EvmExecutionResult) (d : EvmState) : Prop where
  bridged : Bridged H s raw tx b
  valid : validateEvmTxCached H tx b.cacheDb = .ok ()
  ran : executeTxCached H tx b.cacheDb blk.env = (c, .ok (res, d))

def refundIn (blk : BlockParams) (tx : EvmTransaction) (b : Bridge) (res : EvmExecutionResult) :
    U256 :=
  txRefund tx blk.baseFee b.borrowed res.gasUsed

variable (H) in
/-- The delta knows the caller's CALL slot where the refund is made: its type agrees with its
fee fields; its caller paid the value and the gas at most; a refund finds `ASSET_ADDRESS` in
the delta, with the slot (zero if it is not there) as the cache has it; without a refund the
slot, if it is in the delta, is there as the cache has it. -/
structure Settles (blk : BlockParams) (s : BlockState) (tx : EvmTransaction) (b : Bridge)
    (c : CacheDB) (res : EvmExecutionResult) (d : EvmState) : Prop where
  typed : tx.Typed
  pays : CallerPays (b.cacheDb.view H.keccak256) tx.txEnv blk.env res.gasUsed d
  refunded : 0 < refundIn blk tx b res →
    (accumulate s.accumulatedState d assetAddress).isSome ∧
      (recorded (accumulate s.accumulatedState d) assetAddress (callSlot H tx.caller)).getD 0 =
        listedCall H (c.commit H.keccak256 d) tx.caller
  unrefunded : refundIn blk tx b res = 0 → ∀ v,
    recorded (accumulate s.accumulatedState d) assetAddress (callSlot H tx.caller) = some v →
      v = callBalance H (c.commit H.keccak256 d) tx.caller

variable (H) in
/-- A step after which cache and delta agree about what was bridged: a transaction that
bridged is not dropped at the gas limit, and one that is executed `Settles`. -/
def BridgeOk (blk : BlockParams) (s : BlockState) (raw : Bytes) : Prop :=
  ∀ tx b c res d, RanIn H blk s raw tx b c res d → 0 < b.borrowed →
    (s.gasTracker.addGas res.gasUsed).isSome ∧ Settles H blk s tx b c res d

variable (H) in
/-- An executed transaction is as `RevmSpec` says. -/
def RevmOk (blk : BlockParams) (s : BlockState) (raw : Bytes) : Prop :=
  ∀ tx b c res d, RanIn H blk s raw tx b c res d → (s.gasTracker.addGas res.gasUsed).isSome →
    RevmSpec (b.cacheDb.view H.keccak256) tx.caller d

theorem borrowed_pos {blk : BlockParams} {tx : EvmTransaction} {b : Bridge}
    {res : EvmExecutionResult} (h : 0 < refundIn blk tx b res) : 0 < b.borrowed := by
  by_contra hb
  have hb' : ¬ b.borrowed > 0 := hb
  rw [refundIn, txRefund, if_neg hb'] at h
  exact absurd h (by decide)

namespace RanIn

variable {blk : BlockParams} {s : BlockState} {raw : Bytes} {tx : EvmTransaction} {b : Bridge}
  {res : EvmExecutionResult} (R : RanIn H blk s raw tx b c res d)
include R

theorem listed : b.cacheDb.Listed H.keccak256 c := executeTxCached_listed R.ran

theorem revm : Ran H (b.cacheDb.view H.keccak256) tx.txEnv blk.env res d := executeTxCached_ok R.ran

theorem db : c.db = s.cacheDb.db := R.listed.db.trans (preBridge_db R.bridged.bridged)

theorem wf (hw : s.cacheDb.WF H.keccak256) : c.WF H.keccak256 :=
  R.listed.wf (preBridge_wf R.bridged.bridged hw)

theorem info (hw : s.cacheDb.WF H.keccak256) (a : Address) :
    (c.cell H.keccak256 a).info = if a = tx.caller then { (s.cacheDb.cell H.keccak256 a).info with
          balance := (s.cacheDb.cell H.keccak256 a).info.balance + b.borrowed }
      else (s.cacheDb.cell H.keccak256 a).info := by
  rw [R.listed.cell_eq]
  exact preBridge_info R.bridged.bridged hw a

theorem isLive (hw : s.cacheDb.WF H.keccak256) {a : Address}
    (hl : (s.cacheDb.cell H.keccak256 a).store.IsLive) : (c.cell H.keccak256 a).store.IsLive := by
  rw [R.listed.cell_eq]
  exact preBridge_isLive R.bridged.bridged hw hl

theorem slots (hw : s.cacheDb.WF H.keccak256) {a : Address} {k : U256}
    (hl : (s.cacheDb.cell H.keccak256 a).store.IsLive)
    (hk : ¬ (0 < b.borrowed ∧ a = assetAddress ∧ k = callSlot H tx.caller)) :
    (c.cell H.keccak256 a).slots k = (s.cacheDb.cell H.keccak256 a).slots k := by
  rw [R.listed.cell_eq]
  exact preBridge_slots R.bridged.bridged hw hl hk

theorem listed_mono {k : U256} (hk : (s.cacheDb.entry H.keccak256 assetAddress).storage k ≠ none) :
    (c.entry H.keccak256 assetAddress).storage k ≠ none := by
  obtain ⟨v, hv⟩ := Option.ne_none_iff_exists'.mp (preBridge_listed R.bridged.bridged hk)
  rw [R.listed.listed hv]
  simp

theorem view_eq : b.cacheDb.view H.keccak256 = c.view H.keccak256 :=
  (CacheDB.view_congr _ R.listed.db R.listed.cell_eq).symm

theorem asRead (hr : RevmSpec (b.cacheDb.view H.keccak256) tx.caller d) {a : Address}
    {r : Account} (hd : d a = some r) (ht : ¬ r.status.touched) : AsRead (c.view H.keccak256) a r := by
  rw [← R.view_eq]
  exact hr.untouched hd ht

theorem refund_le (hS : Settles H blk s tx b c res d) (hw : s.cacheDb.WF H.keccak256)
    {r : Account} (hd : d tx.caller = some r) :
    (refundIn blk tx b res).toNat ≤ r.info.balance.toNat := by
  have hpays : ((b.cacheDb.view H.keccak256).basic tx.caller).balance.toNat ≤
      r.info.balance.toNat + tx.value.toNat + res.gasUsed.toNat * tx.txEnv.price blk.env :=
    hS.pays r hd
  have hpri := price_le_effective hS.typed blk
  rcases preBridge_cases H R.bridged.bridged with N | L
  · simp [refundIn, txRefund, N.borrowed]
  · have hpos : b.borrowed > 0 := L.pos
    have hbal : ((b.cacheDb.view H.keccak256).basic tx.caller).balance.toNat =
        tx.required.toNat := by
      have h1 : (b.cacheDb.view H.keccak256).basic tx.caller =
          (b.cacheDb.cell H.keccak256 tx.caller).info := CacheDB.basicRef_getD _ _ _
      rw [h1, preBridge_info R.bridged.bridged hw, if_pos rfl]
      rw [← CacheDB.nativeBalance_eq, L.balance_toNat]
    have hmul := Nat.mul_le_mul_left res.gasUsed.toNat hpri
    have hb := L.borrowed_toNat
    rw [refundIn, txRefund, if_pos hpos, refundOf, U256.saturatingSub_toNat,
      U256.saturatingSub_toNat, actualCost_toNat]
    omega

end RanIn

theorem RevmSpec.caller_exists {v : DbView} {caller : Address} (hr : RevmSpec v caller d) :
    ((c.commit H.keccak256 d).entry H.keccak256 caller).accountState ≠ .notExisting := by
  obtain ⟨r, hd, ht, hsd⟩ := hr.caller_touched
  rw [entry_commit, hd]
  simp only [ht, if_true]
  exact DbAccount.accountState_commit hsd

theorem RevmSpec.caller_accumulated {v : DbView} {caller : Address} (hr : RevmSpec v caller d)
    (acc : EvmState) : ∃ r A, d caller = some r ∧ accumulate acc d caller = some A ∧ A.info = r.info := by
  obtain ⟨r, hd, -, -⟩ := hr.caller_touched
  cases ha : acc caller with
  | none => exact ⟨r, r, hd, by simp [accumulate, hd, ha], rfl⟩
  | some e =>
    exact ⟨r, { info := r.info
                status := e.status.union r.status
                storage := fun k => (r.storage k).or (e.storage k) },
      hd, by simp [accumulate, hd, ha], rfl⟩

/-! ### One executed transaction -/

section CommitTx

variable {blk : BlockParams} {s : BlockState} {raw : Bytes} {tx : EvmTransaction} {b : Bridge}
  {res : EvmExecutionResult} {gasTracker : BlockGasTracker}

theorem commitTx_entry : (commitTx H blk raw tx b c res d gasTracker s).cacheDb.entry H.keccak256 =
      (refundCache H tx (refundIn blk tx b res) (c.commit H.keccak256 d)).entry H.keccak256 :=
  (refundDelta_entry H _).2

theorem commitTx_db : (commitTx H blk raw tx b c res d gasTracker s).cacheDb.db = c.db :=
  (refundDelta_entry H _).1.trans (refundCache_db H)

theorem commitTx_cell : (commitTx H blk raw tx b c res d gasTracker s).cacheDb.cell H.keccak256 =
      (refundCache H tx (refundIn blk tx b res) (c.commit H.keccak256 d)).cell H.keccak256 :=
  CacheDB.cell_congr (refundDelta_entry H _).1 commitTx_entry

theorem commitTx_acc : (commitTx H blk raw tx b c res d gasTracker s).accumulatedState =
      (refundDelta H tx (refundIn blk tx b res)
        (refundCache H tx (refundIn blk tx b res) (c.commit H.keccak256 d))
        (accumulate s.accumulatedState d)).2 :=
  rfl

theorem commitTx_acc_of_zero (hz : refundIn blk tx b res = 0) :
    (commitTx H blk raw tx b c res d gasTracker s).accumulatedState =
      accumulate s.accumulatedState d := by
  rw [commitTx_acc, hz]
  simp [refundDelta]

variable (R : RanIn H blk s raw tx b c res d) {v : DbView} (hr : RevmSpec v tx.caller d)
include hr

include R in
theorem commitTx_wf (hw : s.cacheDb.WF H.keccak256) :
    (commitTx H blk raw tx b c res d gasTracker s).cacheDb.WF H.keccak256 := by
  intro a
  rw [commitTx_entry]
  exact refundCache_wf H (CacheDB.wf_commit (R.wf hw) d) (hr.caller_exists) a

include R in
theorem commitTx_isLive (hw : s.cacheDb.WF H.keccak256) {a : Address}
    (hl : (s.cacheDb.cell H.keccak256 a).store.IsLive)
    (hsd : ∀ r, d a = some r → r.status.touched → ¬ r.status.selfdestructed) :
    ((commitTx H blk raw tx b c res d gasTracker s).cacheDb.cell H.keccak256 a).store.IsLive := by
  rw [commitTx_cell]
  exact refundCache_isLive H (hr.caller_exists) (isLive_commit (R.isLive hw hl) hsd)

section

variable (hB : 0 < b.borrowed → Settles H blk s tx b c res d)
include hB

theorem InfoTracks.commitTx_other {α : Type*} {f : AccountInfo → α} {y : α}
    (hf : ∀ (i : AccountInfo) n, f { i with balance := n } = f i)
    (h : InfoTracks H f y (accumulate s.accumulatedState d) (c.commit H.keccak256 d) a) :
    InfoTracks H f y (commitTx H blk raw tx b c res d gasTracker s).accumulatedState
      (commitTx H blk raw tx b c res d gasTracker s).cacheDb a := by
  by_cases hpos : 0 < refundIn blk tx b res
  · obtain ⟨r, A, hd, hA, hAr⟩ := hr.caller_accumulated s.accumulatedState
    obtain ⟨B, hB'⟩ := Option.isSome_iff_exists.mp ((hB (borrowed_pos hpos)).refunded hpos).1
    refine h.congr ?_ ?_
    · rw [commitTx_acc, info_refundDelta hA hB' hpos]
      split_ifs with hc
      · subst hc
        rw [hA, map_some, ← hf A.info (A.debit (refundIn blk tx b res)).info.balance]
        rfl
      · rfl
    · rw [commitTx_cell, refundCache_info H (hr.caller_exists) hpos]
      split_ifs
      · exact hf _ _
      · rfl
  · have hz : refundIn blk tx b res = 0 := by bv_omega
    refine h.congr ?_ ?_
    · rw [commitTx_acc_of_zero hz]
    · rw [commitTx_cell, hz, refundCache_zero]

include R in
/-- The delta's saturating subtraction does not saturate, and the cache's does not wrap.
-/
theorem InfoTracks.commitTx_balance {y : U256} (hw : s.cacheDb.WF H.keccak256)
    (h : InfoTracks H (·.balance) y (accumulate s.accumulatedState d) (c.commit H.keccak256 d) a) :
    InfoTracks H (·.balance) y (commitTx H blk raw tx b c res d gasTracker s).accumulatedState
      (commitTx H blk raw tx b c res d gasTracker s).cacheDb a := by
  by_cases hpos : 0 < refundIn blk tx b res
  · obtain ⟨r, A, hd, hA, hAr⟩ := hr.caller_accumulated s.accumulatedState
    have hS := hB (borrowed_pos hpos)
    obtain ⟨B, hB'⟩ := Option.isSome_iff_exists.mp (hS.refunded hpos).1
    by_cases hc : a = tx.caller
    · subst hc
      have hle := R.refund_le hS hw hd
      have hnlt : ¬ A.info.balance < refundIn blk tx b res := by
        rw [hAr, BitVec.not_lt]; exact hle
      unfold InfoTracks at h ⊢
      rw [hA] at h
      have h' : A.info.balance =
        ((c.commit H.keccak256 d).cell H.keccak256 tx.caller).info.balance := h
      rw [commitTx_acc, info_refundDelta hA hB' hpos, if_pos rfl, getD_some, commitTx_cell,
        refundCache_info H (hr.caller_exists) hpos, if_pos rfl]
      rw [h'] at hnlt
      simp only [Account.debit, U256.saturatingSub, h', if_neg hnlt]
    · refine h.congr ?_ ?_
      · rw [commitTx_acc, info_refundDelta hA hB' hpos, if_neg hc]
      · rw [commitTx_cell, refundCache_info H (hr.caller_exists) hpos, if_neg hc]
  · have hz : refundIn blk tx b res = 0 := by bv_omega
    refine h.congr ?_ ?_
    · rw [commitTx_acc_of_zero hz]
    · rw [commitTx_cell, hz, refundCache_zero]

theorem SlotTracks.commitTx_other
    (hk : ¬ (0 < b.borrowed ∧ a = assetAddress ∧ k = callSlot H tx.caller))
    (h : SlotTracks H p (accumulate s.accumulatedState d) (c.commit H.keccak256 d) a k) :
    SlotTracks H p (commitTx H blk raw tx b c res d gasTracker s).accumulatedState
      (commitTx H blk raw tx b c res d gasTracker s).cacheDb a k := by
  have hlist : a = assetAddress →
      ((c.commit H.keccak256 d).entry H.keccak256 assetAddress).storage k ≠ none →
      ((commitTx H blk raw tx b c res d gasTracker s).cacheDb.entry H.keccak256
        assetAddress).storage k ≠ none := fun _ hl => by
    rw [commitTx_entry]; exact refundCache_listed H hl
  by_cases hpos : 0 < refundIn blk tx b res
  · obtain ⟨r, A, hd, hA, hAr⟩ := hr.caller_accumulated s.accumulatedState
    obtain ⟨B, hB'⟩ := Option.isSome_iff_exists.mp ((hB (borrowed_pos hpos)).refunded hpos).1
    replace hk := fun hak => hk ⟨borrowed_pos hpos, hak⟩
    refine h.congr ?_ ?_ hlist
    · rw [commitTx_acc, recorded_refundDelta hA hB' hpos, if_neg hk]
    · rw [commitTx_cell, refundCache_slots H (hr.caller_exists) hpos, if_neg hk]
  · have hz : refundIn blk tx b res = 0 := by bv_omega
    refine h.congr ?_ ?_ hlist
    · rw [commitTx_acc_of_zero hz]
    · rw [commitTx_cell, hz, refundCache_zero]

end

include R in
theorem SlotTracks.commitTx_call (hw : s.cacheDb.WF H.keccak256)
    (hl : (s.cacheDb.cell H.keccak256 assetAddress).store.IsLive) (hpos : 0 < b.borrowed)
    (hS : Settles H blk s tx b c res d)
    (hd : DeltaAt (H := H) p s.accumulatedState d c assetAddress (callSlot H tx.caller)) :
    SlotTracks H p (commitTx H blk raw tx b c res d gasTracker s).accumulatedState
      (commitTx H blk raw tx b c res d gasTracker s).cacheDb assetAddress (callSlot H tx.caller) := by
  by_cases hpos' : 0 < refundIn blk tx b res
  · obtain ⟨r, A, -, hA, -⟩ := hr.caller_accumulated s.accumulatedState
    obtain ⟨hsome, hval⟩ := hS.refunded hpos'
    obtain ⟨B, hB'⟩ := Option.isSome_iff_exists.mp hsome
    unfold SlotTracks
    rw [commitTx_acc, recorded_refundDelta hA hB' hpos', if_pos ⟨rfl, rfl⟩, commitTx_cell,
      refundCache_slots H (hr.caller_exists) hpos', if_pos ⟨rfl, rfl⟩, hval]
  · have hz : refundIn blk tx b res = 0 := by bv_omega
    have hcell : (commitTx H blk raw tx b c res d gasTracker s).cacheDb.cell H.keccak256 =
        (c.commit H.keccak256 d).cell H.keccak256 := by
      rw [commitTx_cell, hz, refundCache_zero]
    unfold SlotTracks
    rw [commitTx_acc_of_zero hz, hcell]
    cases hrec : recorded (accumulate s.accumulatedState d) assetAddress (callSlot H tx.caller) with
    | some v => exact (hS.unrefunded hz v hrec).trans (CacheDB.storageRef_eq _ _ _ _)
    | none =>
      -- nothing recorded: the slot is listed by the pre-bridge, or was cleared and reads zero
      rw [recorded_accumulate, Option.or_eq_none_iff] at hrec
      obtain ⟨hrd, hra⟩ := hrec
      by_cases hc : ∃ r, d assetAddress = some r ∧ r.status.touched ∧ r.status.created
      · obtain ⟨r, hr', ht, hcr⟩ := hc
        have hrn : r.storage (callSlot H tx.caller) = none := by
          simpa [recorded, hr'] using hrd
        have h0 := hd.created r hr' ht hcr hrn
        rw [hra, Option.getD_none] at h0
        left
        rw [slots_commit (R.isLive hw hl) hr' ht (hd.alive r hr' ht), hrn, if_pos hcr, h0]
        rfl
      · right
        refine ⟨rfl, ?_⟩
        rw [commitTx_entry, hz]
        refine listed_commit ?_ fun r hr' ht => ⟨hd.alive r hr' ht, fun hcr => hc ⟨r, hr', ht, hcr⟩⟩
        rcases preBridge_cases H R.bridged.bridged with N | L
        · rw [N.borrowed] at hpos; exact absurd hpos (by decide)
        · rw [R.listed.listed L.slot_listed]; simp

end CommitTx

/-! ### The final merge -/

theorem InfoTracks.finalMerge {y : α} (hw : c.WF H.keccak256) (h : InfoTracks H f y acc c a) :
    ((finalMerge H c acc a).map fun r => f r.info).getD y = f (c.cell H.keccak256 a).info := by
  unfold Evm.finalMerge
  by_cases ha : a = assetAddress
  · subst ha
    cases hacc : acc assetAddress with
    | none =>
      rw [CacheDB.cell, DbAccount.cell_info (hw _)]
      rfl
    | some =>
      unfold InfoTracks at h
      rw [hacc] at h
      simpa using h
  · rw [update_of_ne ha]; exact h

theorem SlotTracks.finalMerge (h : SlotTracks H p acc c a k) :
    (recorded (finalMerge H c acc) a k).getD (p.getStorage a k) =
      (c.cell H.keccak256 a).slots k := by
  have hrec : recorded (Evm.finalMerge H c acc) a k = (recorded acc a k).or
        (if a = assetAddress then (c.entry H.keccak256 assetAddress).storage k else none) := by
    unfold recorded Evm.finalMerge
    by_cases ha : a = assetAddress
    · subst ha
      cases hacc : acc assetAddress with
      | none => simp [Function.comp_def]
      | some e => cases he : e.storage k <;> simp [he, Function.comp_def]
    · simp [ha]
  rw [hrec]
  unfold SlotTracks at h
  cases hr : recorded acc a k with
  | some => rw [hr] at h; exact h
  | none =>
    rw [hr] at h
    rw [Option.none_or]
    by_cases ha : a = assetAddress
    · subst ha
      rw [if_pos rfl]
      cases hl : (c.entry H.keccak256 assetAddress).storage k with
      | some =>
        rw [getD_some, CacheDB.cell, DbAccount.slots_cell, DbAccount.slot_of_listed hl]
      | none =>
        rcases h with h | ⟨-, h⟩
        · rw [h]; rfl
        · exact absurd hl h
    · rw [if_neg ha]
      rcases h with h | ⟨h, -⟩
      · rw [h]; rfl
      · exact absurd h ha

end Callchain.Evm

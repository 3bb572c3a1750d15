/-
# The pre-bridge and its undoing, on cells

A `Loan` is a pre-bridge that took something: it moves the missing amount from the
caller's CALL slot of `ASSET_ADDRESS` to the caller's native balance. `revertBridge`,
run on the cache after any further reads, puts both back, but a caller that was
destroyed earlier in the block is alive afterwards (`Loan.revert_cell`).
-/
import Callchain.Evm.World

namespace Callchain.Evm

open Function (update update_eq_self update_idem update_of_ne update_self)
open DbAccount (wf_insertSlot wf_of_ne)
open CacheDB (cell_debit entry_modifyAccount entry_modifyAccount_self wf_modifyAccount)

/-! ### Putting a slot and a balance back -/

namespace Cell

variable {x : Cell} {db : InMemoryStateProvider} {a : Address} {k : U256}

theorem insertSlot_restore (h : x.slots k ≠ 0) (v : U256) :
    (x.insertSlot k v).insertSlot k (x.slots k) = x := by
  refine Cell.ext rfl ?_
  obtain ⟨info, store⟩ := x
  cases store with
  | live => simp [insertSlot, slots, Store.insert, Store.get]
  | ghost l =>
    cases hl : l k with
    | none => simp [slots, Store.get, hl] at h
    | some p =>
      have hp : update l k (some p) = l := by rw [← hl]; exact update_eq_self k l
      simp [insertSlot, slots, Store.insert, Store.get, hl, hp]

theorem credit_debit (n : U256) : (x.credit db a n).debit n = x.revive db a := by
  simp [credit, debit, revive]

theorem insertSlot_credit_restore (h : x.slots k ≠ 0) (v n : U256) :
    (((x.insertSlot k v).credit db a n).insertSlot k (x.slots k)).debit n = x.revive db a := by
  refine Cell.ext ?_ ?_
  · simp [credit, debit, revive, insertSlot]
  · have hb : x.store.base db a k = x.slots k := Store.base_of_get_ne h
    show Store.live (update ((x.store.insert k v).base db a) k (x.slots k)) =
      Store.live (x.store.base db a)
    rw [Store.base_insert, ← hb, update_idem, update_eq_self]

end Cell

variable (H : Host)

def callBalance (c : CacheDB) (a : Address) : U256 := c.storageRef assetAddress (callSlot H a)

/-- The pre-bridge `b` of `tx` over `c` lends what the native balance lacks. -/
structure Loan (tx : EvmTransaction) (c : CacheDB) (b : Bridge) : Prop where
  short : c.nativeBalance H.keccak256 tx.caller < tx.required
  borrowed : b.borrowed = tx.required - c.nativeBalance H.keccak256 tx.caller
  covered : b.borrowed ≤ callBalance H c tx.caller
  cacheDb : b.cacheDb = (c.modifyAccount H.keccak256 assetAddress
    (·.insertSlot (callSlot H tx.caller) (callBalance H c tx.caller - b.borrowed))).modifyAccount
      H.keccak256 tx.caller (·.credit b.borrowed)

structure NoLoan (tx : EvmTransaction) (c : CacheDB) (b : Bridge) : Prop where
  enough : tx.required ≤ c.nativeBalance H.keccak256 tx.caller
  borrowed : b.borrowed = 0
  cacheDb : b.cacheDb = c

theorem preBridge_cases {tx : EvmTransaction} {c : CacheDB} {b : Bridge}
    (h : preBridge H tx c = some b) : NoLoan H tx c b ∨ Loan H tx c b := by
  unfold preBridge at h
  dsimp only at h
  split_ifs at h with hsho hcov
  · simp only [Option.some.injEq] at h
    subst h
    exact .inr ⟨hsho, rfl, BitVec.not_lt.mp hcov, rfl⟩
  · simp only [Option.some.injEq] at h
    subst h
    exact .inl ⟨BitVec.not_lt.mp hsho, rfl, rfl⟩

theorem revertBridge_zero (tx : EvmTransaction) (c : CacheDB) : revertBridge H tx 0 c = c := by
  simp [revertBridge]

namespace Loan

variable {H} {tx : EvmTransaction} {c d : CacheDB} {b : Bridge} (L : Loan H tx c b)
include L

theorem borrowed_toNat :
    b.borrowed.toNat = tx.required.toNat - (c.nativeBalance H.keccak256 tx.caller).toNat := by
  rw [L.borrowed]
  exact BitVec.toNat_sub_of_le (BitVec.le_of_lt L.short)

theorem pos : 0 < b.borrowed := by
  have h := L.short
  rw [L.borrowed]
  bv_omega

theorem balance_toNat :
    (c.nativeBalance H.keccak256 tx.caller + b.borrowed).toNat = tx.required.toNat := by
  have h1 := L.borrowed_toNat
  have h2 := L.short
  rw [BitVec.lt_def] at h2
  rw [BitVec.toNat_add]
  omega

theorem callBalance_ne_zero : callBalance H c tx.caller ≠ 0 := by
  intro h
  have h1 := L.covered
  have h2 := L.pos
  bv_omega

theorem db : b.cacheDb.db = c.db := by rw [L.cacheDb]; rfl

theorem wf (hw : c.WF H.keccak256) : b.cacheDb.WF H.keccak256 := by
  rw [L.cacheDb]
  refine wf_modifyAccount (wf_modifyAccount hw ?_) ?_
  · exact wf_insertSlot (hw _) _ _
  · exact wf_of_ne (DbAccount.accountState_credit _)

theorem caller_exists : (b.cacheDb.entry H.keccak256 tx.caller).accountState ≠ .notExisting := by
  rw [L.cacheDb, entry_modifyAccount_self]
  exact DbAccount.accountState_credit _

theorem slot_listed : (b.cacheDb.entry H.keccak256 assetAddress).storage (callSlot H tx.caller) =
    some (callBalance H c tx.caller - b.borrowed) := by
  rw [L.cacheDb, entry_modifyAccount]
  split_ifs with h
  · rw [← h]
    simp [DbAccount.credit, DbAccount.insertSlot]
  · simp [DbAccount.insertSlot]

theorem cell (hw : c.WF H.keccak256) :
    let w := update (c.cell H.keccak256) assetAddress
      ((c.cell H.keccak256 assetAddress).insertSlot (callSlot H tx.caller)
        (callBalance H c tx.caller - b.borrowed))
    b.cacheDb.cell H.keccak256 =
      update w tx.caller ((w tx.caller).credit c.db tx.caller b.borrowed) := by
  intro w
  have hw1 : (c.modifyAccount H.keccak256 assetAddress (·.insertSlot (callSlot H tx.caller)
      (callBalance H c tx.caller - b.borrowed))).WF H.keccak256 :=
    wf_modifyAccount hw (wf_insertSlot (hw _) _ _)
  rw [L.cacheDb, CacheDB.cell_credit hw1, CacheDB.cell_insertSlot]
  rfl

variable (hl : b.cacheDb.Listed H.keccak256 d)
include hl

theorem addToSlot_eq :
    (d.entry H.keccak256 assetAddress).addToSlot (callSlot H tx.caller) b.borrowed =
      (d.entry H.keccak256 assetAddress).insertSlot (callSlot H tx.caller)
        (callBalance H c tx.caller) := by
  have := hl.listed L.slot_listed
  rw [DbAccount.addToSlot, this, Option.getD_some, BitVec.sub_add_cancel]

theorem revertBridge_eq : revertBridge H tx b.borrowed d = (d.modifyAccount H.keccak256 assetAddress
        (·.insertSlot (callSlot H tx.caller) (callBalance H c tx.caller))).modifyAccount
          H.keccak256 tx.caller (·.debit b.borrowed) := by
  have hpos : b.borrowed > 0 := L.pos
  rw [revertBridge, if_pos hpos]
  simp only [CacheDB.modifyAccount, L.addToSlot_eq hl]

theorem revert_exists (k v : U256) :
    ((d.modifyAccount H.keccak256 assetAddress (·.insertSlot k v)).entry H.keccak256
      tx.caller).accountState ≠ .notExisting := by
  have := L.caller_exists
  rw [← hl.state] at this
  rw [entry_modifyAccount]
  split_ifs with h
  · rw [h] at this; exact this
  · exact this

theorem revert_wf (hw : c.WF H.keccak256) : (revertBridge H tx b.borrowed d).WF H.keccak256 := by
  rw [L.revertBridge_eq hl]
  have hd := hl.wf (L.wf hw)
  refine wf_modifyAccount (wf_modifyAccount hd ?_) (wf_of_ne ?_)
  · exact wf_insertSlot (hd _) _ _
  · exact L.revert_exists hl _ _

/-- Reverting the pre-bridge restores every cell, except that a caller that was
destroyed earlier in the block is brought back. -/
theorem revert_cell (hw : c.WF H.keccak256) :
    (revertBridge H tx b.borrowed d).cell H.keccak256 = update (c.cell H.keccak256) tx.caller
        ((c.cell H.keccak256 tx.caller).revive c.db tx.caller) := by
  have hP : callBalance H c tx.caller =
      (c.cell H.keccak256 assetAddress).slots (callSlot H tx.caller) :=
    c.storageRef_eq H.keccak256 _ _
  have hne := L.callBalance_ne_zero
  rw [hP] at hne
  rw [L.revertBridge_eq hl, cell_debit (L.revert_exists hl _ _),
    CacheDB.cell_insertSlot, hl.cell_eq, L.cell hw,
    hP]
  funext a
  by_cases hA : tx.caller = assetAddress
  · by_cases ha : a = assetAddress
    · rw [hA] at hne
      simp [hA, Cell.insertSlot_credit_restore hne]
    · simp [hA, ha]
  · have hA' : assetAddress ≠ tx.caller := Ne.symm hA
    by_cases ha : a = tx.caller
    · subst ha
      simp [hA, Cell.credit_debit]
    · by_cases ha' : a = assetAddress
      · subst ha'
        simp [hA', Cell.insertSlot_restore hne]
      · simp [ha, ha']

omit hl in
theorem storage_of_ne {k : U256} (hk : k ≠ callSlot H tx.caller) :
    (b.cacheDb.entry H.keccak256 assetAddress).storage k =
      (c.entry H.keccak256 assetAddress).storage k := by
  rw [L.cacheDb, entry_modifyAccount]
  split_ifs with h
  · rw [← h] at hk ⊢
    rw [entry_modifyAccount_self]
    simp [DbAccount.credit, DbAccount.insertSlot, hk]
  · rw [entry_modifyAccount_self]
    simp [DbAccount.insertSlot, hk]

theorem revert_entry_storage :
    ((revertBridge H tx b.borrowed d).entry H.keccak256 assetAddress).storage =
      update (d.entry H.keccak256 assetAddress).storage (callSlot H tx.caller)
        (some (callBalance H c tx.caller)) := by
  rw [L.revertBridge_eq hl, entry_modifyAccount]
  split_ifs with h
  · rw [← h]
    rfl
  · rfl

theorem revert_storage (k : U256) :
    let s := ((revertBridge H tx b.borrowed d).entry H.keccak256 assetAddress).storage k
    s = (c.entry H.keccak256 assetAddress).storage k ∨
      ((c.entry H.keccak256 assetAddress).storage k = none ∧
        s = some (c.db.getStorage assetAddress k)) := by
  intro s
  have hs : s = update (d.entry H.keccak256 assetAddress).storage (callSlot H tx.caller)
      (some (callBalance H c tx.caller)) k := congrFun (L.revert_entry_storage hl) k
  by_cases hk : k = callSlot H tx.caller
  · subst hk
    have hP : callBalance H c tx.caller =
        (c.entry H.keccak256 assetAddress).slot c.db assetAddress (callSlot H tx.caller) :=
      (c.storageRef_eq H.keccak256 _ _).trans (DbAccount.slots_cell _)
    have hne := L.callBalance_ne_zero
    rw [hP, DbAccount.slot] at hne
    rw [update_self, hP, DbAccount.slot] at hs
    cases hc : (c.entry H.keccak256 assetAddress).storage (callSlot H tx.caller) with
    | some => left; simpa [hc] using hs
    | none =>
      right
      rw [hc] at hs hne
      split_ifs at hs hne with hcl
      · exact absurd rfl hne
      · exact ⟨rfl, hs⟩
  · rw [update_of_ne hk] at hs
    rw [hs]
    rcases hl.storage assetAddress k with e | ⟨e1, -, -, e4⟩
    · left; rw [e, L.storage_of_ne hk]
    · right
      rw [L.storage_of_ne hk] at e1
      rw [L.db] at e4
      exact ⟨e1, e4⟩

end Loan

/-! ### What the pre-bridge leaves alone -/

section PreBridge

variable {H} {tx : EvmTransaction} {c : CacheDB} {b : Bridge} (h : preBridge H tx c = some b)
include h

theorem preBridge_db : b.cacheDb.db = c.db := by
  rcases preBridge_cases H h with N | L
  · rw [N.cacheDb]
  · exact L.db

theorem preBridge_wf (hw : c.WF H.keccak256) : b.cacheDb.WF H.keccak256 := by
  rcases preBridge_cases H h with N | L
  · rw [N.cacheDb]; exact hw
  · exact L.wf hw

theorem preBridge_info (hw : c.WF H.keccak256) (a : Address) :
    (b.cacheDb.cell H.keccak256 a).info = if a = tx.caller then { (c.cell H.keccak256 a).info with
          balance := (c.cell H.keccak256 a).info.balance + b.borrowed }
      else (c.cell H.keccak256 a).info := by
  rcases preBridge_cases H h with N | L
  · rw [N.cacheDb, N.borrowed]
    split_ifs <;> simp
  · rw [L.cell hw]
    by_cases ha : a = tx.caller
    · subst ha
      by_cases hA : tx.caller = assetAddress
      · simp [hA, Cell.credit, Cell.insertSlot]
      · simp [hA, Cell.credit]
    · by_cases hA : a = assetAddress
      · subst hA; simp [ha, Cell.insertSlot]
      · simp [ha, hA]

variable {a : Address}

theorem preBridge_isLive (hw : c.WF H.keccak256)
    (hl : (c.cell H.keccak256 a).store.IsLive) : (b.cacheDb.cell H.keccak256 a).store.IsLive := by
  rcases preBridge_cases H h with N | L
  · rw [N.cacheDb]; exact hl
  · rw [L.cell hw]
    by_cases ha : a = tx.caller
    · subst ha; rw [update_self]; trivial
    · rw [update_of_ne ha]
      by_cases hA : a = assetAddress
      · subst hA
        exact Store.isLive_insert hl _ _
      · rw [update_of_ne hA]; exact hl

theorem preBridge_slots (hw : c.WF H.keccak256) {k : U256}
    (hl : (c.cell H.keccak256 a).store.IsLive)
    (hk : ¬ (0 < b.borrowed ∧ a = assetAddress ∧ k = callSlot H tx.caller)) :
    (b.cacheDb.cell H.keccak256 a).slots k = (c.cell H.keccak256 a).slots k := by
  rcases preBridge_cases H h with N | L
  · rw [N.cacheDb]
  · have hk' : a = assetAddress → k ≠ callSlot H tx.caller := fun ha he => hk ⟨L.pos, ha, he⟩
    rw [L.cell hw]
    by_cases hA : a = assetAddress
    · subst hA
      have hne := hk' rfl
      have hlive : ((c.cell H.keccak256 assetAddress).insertSlot (callSlot H tx.caller)
        (callBalance H c tx.caller - b.borrowed)).store.IsLive := Store.isLive_insert hl _ _
      by_cases ha : assetAddress = tx.caller
      · rw [← ha] at hne hlive ⊢
        rw [update_self, update_self, Cell.slots_credit hlive, Cell.slots_insertSlot, if_neg hne]
      · rw [update_of_ne ha, update_self, Cell.slots_insertSlot, if_neg hne]
    · by_cases ha : a = tx.caller
      · subst ha
        rw [update_self, update_of_ne hA, Cell.slots_credit hl]
      · rw [update_of_ne ha, update_of_ne hA]

theorem preBridge_listed {k : U256} (hk : (c.entry H.keccak256 assetAddress).storage k ≠ none) :
    (b.cacheDb.entry H.keccak256 assetAddress).storage k ≠ none := by
  rcases preBridge_cases H h with N | L
  · rw [N.cacheDb]; exact hk
  · by_cases he : k = callSlot H tx.caller
    · subst he; rw [L.slot_listed]; simp
    · rw [L.storage_of_ne he]; exact hk

variable {d : CacheDB} (hl : b.cacheDb.Listed H.keccak256 d)
include hl

theorem revertBridge_db : (revertBridge H tx b.borrowed d).db = c.db := by
  rw [← preBridge_db h, ← hl.db]
  unfold revertBridge
  split_ifs <;> rfl

theorem revertBridge_wf (hw : c.WF H.keccak256) :
    (revertBridge H tx b.borrowed d).WF H.keccak256 := by
  rcases preBridge_cases H h with N | L
  · rw [N.borrowed]
    rw [N.cacheDb] at hl
    exact hl.wf hw
  · exact L.revert_wf hl hw

theorem revertBridge_cell (hw : c.WF H.keccak256) (a : Address) :
    (revertBridge H tx b.borrowed d).cell H.keccak256 a = c.cell H.keccak256 a ∨
      (0 < b.borrowed ∧ a = tx.caller ∧ (revertBridge H tx b.borrowed d).cell H.keccak256 a =
        (c.cell H.keccak256 a).revive c.db a) := by
  rcases preBridge_cases H h with N | L
  · rw [N.cacheDb] at hl
    rw [N.borrowed, revertBridge_zero, hl.cell_eq]
    exact .inl rfl
  · rw [L.revert_cell hl hw]
    by_cases hc : a = tx.caller
    · subst hc
      exact .inr ⟨L.pos, rfl, update_self _ _ _⟩
    · exact .inl (update_of_ne hc _ _)

theorem revertBridge_info (hw : c.WF H.keccak256) (a : Address) :
    ((revertBridge H tx b.borrowed d).cell H.keccak256 a).info = (c.cell H.keccak256 a).info := by
  rcases revertBridge_cell h hl hw a with e | ⟨-, -, e⟩ <;> rw [e]
  rfl

theorem revertBridge_cell_of_isLive (hw : c.WF H.keccak256)
    (hlive : (c.cell H.keccak256 a).store.IsLive) :
    (revertBridge H tx b.borrowed d).cell H.keccak256 a = c.cell H.keccak256 a := by
  rcases revertBridge_cell h hl hw a with e | ⟨-, -, e⟩
  · exact e
  · rw [e, Cell.revive_of_isLive hlive]

theorem revertBridge_storage (k : U256) :
    let l := ((revertBridge H tx b.borrowed d).entry H.keccak256 assetAddress).storage k
    l = (c.entry H.keccak256 assetAddress).storage k ∨
      ((c.entry H.keccak256 assetAddress).storage k = none ∧
        l = some (c.db.getStorage assetAddress k)) := by
  rcases preBridge_cases H h with N | L
  · rw [N.cacheDb] at hl
    rw [N.borrowed]
    exact (hl.storage _ k).imp_right fun e => ⟨e.1, e.2.2.2⟩
  · exact L.revert_storage hl k

end PreBridge

/-! ### The refund -/

section Refund

variable {tx : EvmTransaction} {c : CacheDB} {refund : U256}

/-- What the entry of `ASSET_ADDRESS` lists for the caller's slot, zero if
nothing. -/
def listedCall (c : CacheDB) (a : Address) : U256 :=
  ((c.entry H.keccak256 assetAddress).storage (callSlot H a)).getD 0

theorem refundCache_db : (refundCache H tx refund c).db = c.db := by
  unfold refundCache; split_ifs <;> rfl

theorem refundCache_wf (hw : c.WF H.keccak256)
    (hex : (c.entry H.keccak256 tx.caller).accountState ≠ .notExisting) :
    (refundCache H tx refund c).WF H.keccak256 := by
  unfold refundCache
  split_ifs
  · have h1 : (c.modifyAccount H.keccak256 tx.caller (·.debit refund)).WF H.keccak256 :=
      wf_modifyAccount hw (wf_of_ne hex)
    exact wf_modifyAccount h1 (wf_insertSlot (h1 _) _ _)
  · exact hw

theorem refundCache_cell (hpos : 0 < refund)
    (hex : (c.entry H.keccak256 tx.caller).accountState ≠ .notExisting) :
    let w := update (c.cell H.keccak256) tx.caller
      ((c.cell H.keccak256 tx.caller).debit refund)
    (refundCache H tx refund c).cell H.keccak256 =
      update w assetAddress ((w assetAddress).insertSlot (callSlot H tx.caller)
        (listedCall H c tx.caller + refund)) := by
  intro w
  have hpos' : refund > 0 := hpos
  have hlist : ((c.modifyAccount H.keccak256 tx.caller (·.debit refund)).entry H.keccak256
      assetAddress).storage = (c.entry H.keccak256 assetAddress).storage := by
    rw [entry_modifyAccount]
    split_ifs with h
    · rw [h]; rfl
    · rfl
  rw [refundCache, if_pos hpos']
  rw [CacheDB.cell_modifyAccount assetAddress (DbAccount.cell_insertSlot _ _), hlist]
  have hw : (c.modifyAccount H.keccak256 tx.caller (·.debit refund)).cell H.keccak256 = w :=
    cell_debit hex refund
  rw [← hw]
  rfl

theorem refundCache_zero : refundCache H tx 0 c = c := by simp [refundCache]

section

variable (hex : (c.entry H.keccak256 tx.caller).accountState ≠ .notExisting)
include hex

theorem refundCache_info (hpos : 0 < refund) (a : Address) :
    ((refundCache H tx refund c).cell H.keccak256 a).info = if a = tx.caller then
        { (c.cell H.keccak256 a).info with balance := (c.cell H.keccak256 a).info.balance - refund }
      else (c.cell H.keccak256 a).info := by
  rw [refundCache_cell H hpos hex]
  by_cases hA : a = assetAddress
  · subst hA
    by_cases hc : assetAddress = tx.caller
    · simp [← hc, Cell.insertSlot, Cell.debit]
    · simp [hc, Cell.insertSlot]
  · by_cases hc : a = tx.caller
    · subst hc; simp [hA, Cell.debit]
    · simp [hA, hc]

theorem refundCache_slots (hpos : 0 < refund) (a : Address) (k : U256) :
    ((refundCache H tx refund c).cell H.keccak256 a).slots k =
      if a = assetAddress ∧ k = callSlot H tx.caller then listedCall H c tx.caller + refund
      else (c.cell H.keccak256 a).slots k := by
  rw [refundCache_cell H hpos hex]
  by_cases hA : a = assetAddress
  · subst hA
    rw [update_self, Cell.slots_insertSlot]
    by_cases hk : k = callSlot H tx.caller
    · simp [hk]
    · simp only [hk, if_false, and_false]
      by_cases hc : assetAddress = tx.caller
      · rw [← hc]; rfl
      · rw [update_of_ne hc]
  · rw [update_of_ne hA, if_neg (fun h => hA h.1)]
    by_cases hc : a = tx.caller
    · subst hc; rw [update_self]; rfl
    · rw [update_of_ne hc]

theorem refundCache_isLive {a : Address} (hl : (c.cell H.keccak256 a).store.IsLive) :
    ((refundCache H tx refund c).cell H.keccak256 a).store.IsLive := by
  by_cases hpos : 0 < refund
  · have hw : (update (c.cell H.keccak256) tx.caller
        ((c.cell H.keccak256 tx.caller).debit refund) a).store.IsLive := by
      by_cases hc : a = tx.caller
      · subst hc; rw [update_self]; exact hl
      · rw [update_of_ne hc]; exact hl
    rw [refundCache_cell H hpos hex]
    by_cases hA : a = assetAddress
    · subst hA
      exact Store.isLive_insert hw _ _
    · rw [update_of_ne hA]; exact hw
  · have hz : refund = 0 := by bv_omega
    rw [hz]; exact hl

end

theorem refundCache_storage (hpos : 0 < refund) :
    ((refundCache H tx refund c).entry H.keccak256 assetAddress).storage =
      update (c.entry H.keccak256 assetAddress).storage (callSlot H tx.caller)
        (some (listedCall H c tx.caller + refund)) := by
  have hpos' : refund > 0 := hpos
  rw [refundCache, if_pos hpos', entry_modifyAccount_self, entry_modifyAccount, listedCall]
  split_ifs with h
  · rw [h]; rfl
  · rfl

theorem refundCache_listed {k : U256} (hk : (c.entry H.keccak256 assetAddress).storage k ≠ none) :
    ((refundCache H tx refund c).entry H.keccak256 assetAddress).storage k ≠ none := by
  by_cases hpos : 0 < refund
  · rw [refundCache_storage H hpos]
    by_cases he : k = callSlot H tx.caller
    · subst he; simp
    · rw [update_of_ne he]; exact hk
  · have hz : refund = 0 := by bv_omega
    rw [hz]; exact hk

theorem refundDelta_entry (acc : EvmState) : (refundDelta H tx refund c acc).1.db = c.db ∧
      (refundDelta H tx refund c acc).1.entry H.keccak256 = c.entry H.keccak256 := by
  unfold refundDelta
  split_ifs
  · cases h1 : acc tx.caller <;> dsimp only <;> split <;>
      exact ⟨rfl, funext fun a => by simp⟩
  · exact ⟨rfl, rfl⟩

end Refund

end Callchain.Evm

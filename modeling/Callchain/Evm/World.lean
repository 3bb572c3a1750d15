/-
# What a cache stands for

Much of what a `CacheDB` holds is bookkeeping: whether an account has been loaded yet,
which slots are listed and which are still read from the provider, which kind of entry
an account has. `CacheDB.entry` hides the first. `DbAccount.cell` hides the rest and
keeps what any later operation of the loop can see of one account:

* its info, the empty one if it is missing;
* the value of every slot;
* for an account that was destroyed in this block and that the provider still has (a
  ghost), which slots were listed since. Writing to it brings it back on top of the
  provider's old slots.

The operations of the loop act on cells, and reading is the identity on them.
-/
import Callchain.Evm.BlockExecutor

namespace Callchain.Evm

open Function (update update_of_ne)

/-! ### Entries -/

namespace CacheDB

variable (K : Bytes → B256) (c : CacheDB) (a b : Address) (f : DbAccount → DbAccount)

@[simp] theorem db_modifyAccount : (c.modifyAccount K a f).db = c.db :=
  rfl

@[simp] theorem db_commit (d : EvmState) : (c.commit K d).db = c.db := rfl

theorem entry_modifyAccount :
    (c.modifyAccount K a f).entry K b = if b = a then f (c.entry K a) else c.entry K b := by
  by_cases h : b = a
  · subst h; simp [modifyAccount, entry]
  · simp [modifyAccount, entry, h]

@[simp] theorem entry_modifyAccount_self : (c.modifyAccount K a f).entry K a = f (c.entry K a) := by
  simp [entry_modifyAccount]

@[simp] theorem entry_loadAccount : (c.loadAccount K a).entry K b = c.entry K b := by
  unfold loadAccount
  rw [entry_modifyAccount]
  split_ifs with h
  · subst h; rfl
  · rfl

theorem entry_commit (d : EvmState) : (c.commit K d).entry K a = match d a with
      | none => c.entry K a
      | some r => if r.status.touched then commitAccount K (c.entry K a) r else c.entry K a := by
  cases hd : d a with
  | none => simp [commit, entry, hd]
  | some r =>
    by_cases ht : r.status.touched
    · simp only [commit, entry, hd, ht, if_true, Option.getD_some]
      cases hc : c.accounts a with
      | some => rfl
      | none => cases hb : c.db.basicAccount K a <;> simp [commitAccount]
    · simp [commit, entry, hd, ht]

theorem basicRef_eq : c.basicRef K a =
      if (c.entry K a).accountState = .notExisting then none else some (c.entry K a).info := by
  unfold basicRef entry
  cases hc : c.accounts a with
  | some => rfl
  | none => cases hb : c.db.basicAccount K a <;> simp

end CacheDB

/-! ### Cells -/

/-- The value of every slot, or, for a destroyed account that the provider still has,
the slots listed since. -/
inductive Store where
  | live (slots : U256 → U256)
  | ghost (listed : U256 → Option U256)

namespace Store

def get : Store → U256 → U256
  | live f, k => f k
  | ghost l, k => (l k).getD 0

def insert : Store → U256 → U256 → Store
  | live f, k, v => live (update f k v)
  | ghost l, k, v => ghost (update l k (some v))

/-- The slots once the account is written to: a destroyed account comes back
on top of what the provider has. -/
def base (db : InMemoryStateProvider) (a : Address) : Store → U256 → U256
  | live f, k => f k
  | ghost l, k => (l k).getD (db.getStorage a k)

def IsLive : Store → Prop
  | live _ => True
  | ghost _ => False

theorem get_insert (s : Store) (k v j : U256) :
    (s.insert k v).get j = if j = k then v else s.get j := by
  cases s <;> by_cases h : j = k <;> simp [get, insert, h]

theorem base_insert (db : InMemoryStateProvider) (a : Address) (s : Store) (k v : U256) :
    (s.insert k v).base db a = update (s.base db a) k v := by
  funext j
  cases s <;> by_cases h : j = k <;> simp [base, insert, h]

variable {db : InMemoryStateProvider} {s : Store} {a : Address}

theorem base_of_isLive (h : s.IsLive) : live (s.base db a) = s := by
  cases s with
  | live => rfl
  | ghost => exact h.elim

theorem base_eq_get (h : s.IsLive) : s.base db a = s.get := by
  cases s with
  | live => rfl
  | ghost => exact h.elim

theorem isLive_insert (h : s.IsLive) (k v : U256) : (s.insert k v).IsLive := by
  cases s with
  | live => trivial
  | ghost => exact h.elim

theorem base_of_get_ne {k : U256} (h : s.get k ≠ 0) : s.base db a k = s.get k := by
  cases s with
  | live => rfl
  | ghost l =>
    cases hl : l k with
    | none => simp [get, hl] at h
    | some => simp [get, base, hl]

end Store

@[ext]
structure Cell where
  info : AccountInfo
  store : Store

namespace Cell

variable (K : Bytes → B256) (db : InMemoryStateProvider) (a : Address) (x : Cell)

def slots (k : U256) : U256 := x.store.get k

def insertSlot (k v : U256) : Cell := { x with store := x.store.insert k v }

def credit (n : U256) : Cell where
  info := { x.info with balance := x.info.balance + n }
  store := .live (x.store.base db a)

def debit (n : U256) : Cell :=
  { x with info := { x.info with balance := x.info.balance - n } }

def revive : Cell := { x with store := .live (x.store.base db a) }

def commit (r : Account) : Cell :=
  if r.status.selfdestructed then
    { info := .empty
      store := if (db.accounts a).isSome then .ghost fun _ => none else .live fun _ => 0 }
  else
    { info := CacheDB.insertContract K r.info
      store := .live fun k =>
        ((r.storage k).map (·.presentValue)).getD
          (if r.status.created then 0 else x.store.base db a k) }

theorem slots_insertSlot (k v j : U256) :
    (x.insertSlot k v).slots j = if j = k then v else x.slots j :=
  Store.get_insert _ _ _ _

theorem slots_credit {db a} {x : Cell} (h : x.store.IsLive) (n k : U256) :
    (x.credit db a n).slots k = x.slots k :=
  congrFun (Store.base_eq_get h) k

theorem revive_of_isLive {db a} {x : Cell} (h : x.store.IsLive) : x.revive db a = x := by
  rw [revive, Store.base_of_isLive h]

end Cell

namespace DbAccount

variable (db : InMemoryStateProvider) (a : Address) (e : DbAccount)

def slot (k : U256) : U256 :=
  (e.storage k).getD
    (if e.accountState = .storageCleared ∨ e.accountState = .notExisting then 0
     else db.getStorage a k)

def Ghost : Prop := e.accountState = .notExisting ∧ (db.accounts a).isSome

instance : Decidable (e.Ghost db a) := by unfold Ghost; infer_instance

def cell : Cell where
  info := if e.accountState = .notExisting then .empty else e.info
  store := if e.Ghost db a then .ghost e.storage else .live (e.slot db a)

def WF : Prop := e.accountState = .notExisting → e.info = .empty

variable {db a e} (k : U256)

theorem slots_cell : (e.cell db a).slots k = e.slot db a k := by
  by_cases h : e.Ghost db a
  · simp [Cell.slots, cell, h, Store.get, slot, h.1]
  · simp [Cell.slots, cell, h, Store.get]

theorem cell_info (h : e.WF) : (e.cell db a).info = e.info := by
  show (if e.accountState = .notExisting then AccountInfo.empty else e.info) = e.info
  split_ifs with hs
  · exact (h hs).symm
  · rfl

theorem cell_info_of_ne (h : e.accountState ≠ .notExisting) : (e.cell db a).info = e.info :=
  cell_info fun hs => absurd hs h

theorem store_cell_of_ne (h : e.accountState ≠ .notExisting) :
    (e.cell db a).store = .live (e.slot db a) := by
  simp [cell, Ghost, h]

theorem slot_of_listed {k v : U256} (h : e.storage k = some v) : e.slot db a k = v := by
  simp [slot, h]

theorem base_cell (hs : e.accountState ≠ .storageCleared) :
    (e.cell db a).store.base db a k = (e.storage k).getD (db.getStorage a k) := by
  by_cases hm : e.accountState = .notExisting
  · cases hp : db.accounts a with
    | none =>
      simp [Store.base, cell, Ghost, slot, hm, hp, InMemoryStateProvider.getStorage_of_none hp]
    | some => simp [Store.base, cell, Ghost, hm, hp]
  · simp [Store.base, cell, Ghost, slot, hm, hs]

theorem base_cell_of_cleared (hs : e.accountState = .storageCleared) :
    (e.cell db a).store.base db a k = (e.storage k).getD 0 := by
  simp [Store.base, cell, Ghost, slot, hs]

theorem slot_insertSlot (k v : U256) : (e.insertSlot k v).slot db a = update (e.slot db a) k v := by
  funext j
  by_cases hj : j = k
  · subst hj; simp [slot, insertSlot]
  · have hs : (e.insertSlot k v).storage j = e.storage j := update_of_ne hj _ _
    rw [update_of_ne hj, slot, hs]
    rfl

theorem cell_insertSlot (k v : U256) :
    (e.insertSlot k v).cell db a = (e.cell db a).insertSlot k v := by
  refine Cell.ext rfl ?_
  have hg : (e.insertSlot k v).Ghost db a ↔ e.Ghost db a := Iff.rfl
  simp only [cell, Cell.insertSlot, hg]
  split_ifs
  · rfl
  · rw [slot_insertSlot]; rfl

theorem accountState_credit (n : U256) : (e.credit n).accountState ≠ .notExisting := by
  by_cases h : e.accountState = .notExisting <;> simp [credit, h]

theorem cell_credit (h : e.WF) (n : U256) :
    (e.credit n).cell db a = (e.cell db a).credit db a n := by
  refine Cell.ext ?_ ?_
  · rw [cell_info_of_ne (accountState_credit n), Cell.credit, cell_info h]
    rfl
  · rw [store_cell_of_ne (accountState_credit n)]
    simp only [Cell.credit, Store.live.injEq]
    funext k
    by_cases hc : e.accountState = .storageCleared
    · simp [base_cell_of_cleared k hc, slot, credit, hc]
    · by_cases hm : e.accountState = .notExisting <;> simp [base_cell k hc, slot, credit, hm, hc]

theorem cell_debit (h : e.accountState ≠ .notExisting) (n : U256) :
    (e.debit n).cell db a = (e.cell db a).debit n := by
  refine Cell.ext ?_ rfl
  simp [cell, debit, Cell.debit, h]

theorem accountState_commit {K : Bytes → B256} {r : Account} (h : ¬ r.status.selfdestructed) :
    (CacheDB.commitAccount K e r).accountState ≠ .notExisting := by
  rw [CacheDB.commitAccount]
  split_ifs <;> simp

variable (K : Bytes → B256) (r : Account)

theorem storage_commit :
    (CacheDB.commitAccount K e r).storage k = if r.status.selfdestructed then none
      else ((r.storage k).map (·.presentValue)).or (if r.status.created then none else e.storage k) := by
  unfold CacheDB.commitAccount
  by_cases hd : r.status.selfdestructed
  · simp [hd]
  · by_cases hc : r.status.created <;> simp [hd, hc]

theorem cell_commit : (CacheDB.commitAccount K e r).cell db a = (e.cell db a).commit K db a r := by
  unfold Cell.commit
  by_cases hd : r.status.selfdestructed
  · rw [if_pos hd, CacheDB.commitAccount, if_pos hd]
    have hs : slot db a { accountState := .notExisting } = fun _ => 0 := by
      funext k; simp [slot]
    simp [cell, Ghost, hs]
  · have hne := accountState_commit (K := K) (e := e) hd
    rw [if_neg hd]
    refine Cell.ext ?_ ?_
    · rw [cell_info_of_ne hne]
      simp [CacheDB.commitAccount, hd]
    · rw [store_cell_of_ne hne]
      simp only [Store.live.injEq]
      funext k
      by_cases hc : r.status.created
      · cases hk : r.storage k <;> simp [slot, CacheDB.commitAccount, hd, hc, hk]
      · by_cases hs : e.accountState = .storageCleared
        · cases hk : r.storage k <;>
            simp [base_cell_of_cleared k hs, slot, CacheDB.commitAccount, hd, hc, hs, hk]
        · cases hk : r.storage k <;>
            simp [base_cell k hs, slot, CacheDB.commitAccount, hd, hc, hs, hk]

theorem wf_insertSlot (h : e.WF) (k v : U256) : (e.insertSlot k v).WF := h

theorem wf_of_ne (h : e.accountState ≠ .notExisting) : e.WF := fun hs => absurd hs h

theorem wf_commit : (CacheDB.commitAccount K e r).WF := by
  by_cases hd : r.status.selfdestructed
  · intro _
    simp [CacheDB.commitAccount, hd]
  · exact wf_of_ne (accountState_commit hd)

end DbAccount

/-! ### Caches -/

namespace CacheDB

variable (K : Bytes → B256) (c : CacheDB)

def cell (a : Address) : Cell := (c.entry K a).cell c.db a

def WF : Prop := ∀ a, (c.entry K a).WF

theorem wf_new (db : InMemoryStateProvider) : (CacheDB.new db).WF K := by
  intro a
  unfold DbAccount.WF entry
  cases hb : db.basicAccount K a <;> simp [new, hb]

variable (a : Address)

theorem storageRef_eq (k : U256) : c.storageRef a k = (c.cell K a).slots k := by
  rw [cell, DbAccount.slots_cell]
  unfold storageRef DbAccount.slot entry
  cases hc : c.accounts a with
  | some e => cases he : e.storage k <;> simp [he]
  | none =>
    cases hp : c.db.accounts a with
    | none => simp [InMemoryStateProvider.basicAccount, InMemoryStateProvider.getStorage, hp]
    | some => simp [InMemoryStateProvider.basicAccount, hp]

theorem basicRef_getD : (c.basicRef K a).getD .empty = (c.cell K a).info := by
  rw [basicRef_eq]
  unfold cell DbAccount.cell
  by_cases h : (c.entry K a).accountState = .notExisting <;> simp [h]

theorem nativeBalance_eq : c.nativeBalance K a = (c.cell K a).info.balance := by
  rw [← basicRef_getD, nativeBalance]
  cases c.basicRef K a <;> rfl

theorem nonce_eq : ((c.basicRef K a).map (·.nonce)).getD 0 = (c.cell K a).info.nonce := by
  rw [← basicRef_getD]
  cases c.basicRef K a <;> rfl

theorem codeRef_eq : c.codeRef K a = (c.cell K a).info.code.getD (c.db.getCode a) := by
  rw [← basicRef_getD, codeRef]
  cases c.basicRef K a <;> rfl

theorem cell_congr {K} {c c' : CacheDB} (hdb : c'.db = c.db) (h : c'.entry K = c.entry K) :
    c'.cell K = c.cell K := by
  funext a
  rw [cell, cell, hdb, h]

theorem view_congr {c c' : CacheDB} (hdb : c'.db = c.db) (h : c'.cell K = c.cell K) :
    c'.view K = c.view K := by
  unfold view
  simp only [basicRef_getD, DbView.mk.injEq]
  refine ⟨by rw [h], ?_, ?_⟩
  · funext a k; rw [storageRef_eq K, storageRef_eq K, h]
  · funext a; rw [codeRef_eq, codeRef_eq, h, hdb]

/-! ### Reading -/

/-- The cache `c'` is `c` with some slots listed that `c` would read from the
provider. -/
structure Listed (c c' : CacheDB) : Prop where
  db : c'.db = c.db
  info : ∀ a, (c'.entry K a).info = (c.entry K a).info
  state : ∀ a, (c'.entry K a).accountState = (c.entry K a).accountState
  storage : ∀ a k, (c'.entry K a).storage k = (c.entry K a).storage k ∨
    ((c.entry K a).storage k = none ∧ (c.entry K a).accountState ≠ .storageCleared ∧
      (c.entry K a).accountState ≠ .notExisting ∧
      (c'.entry K a).storage k = some (c.db.getStorage a k))

variable {K c}

theorem Listed.refl (c : CacheDB) : c.Listed K c :=
  ⟨rfl, fun _ => rfl, fun _ => rfl, fun _ _ => .inl rfl⟩

theorem Listed.trans {c₁ c₂ c₃ : CacheDB} (h : c₁.Listed K c₂) (h' : c₂.Listed K c₃) :
    c₁.Listed K c₃ := by
  refine ⟨h'.db.trans h.db, fun a => (h'.info a).trans (h.info a),
    fun a => (h'.state a).trans (h.state a), fun a k => ?_⟩
  rcases h.storage a k with e | ⟨e1, e2, e3, e4⟩
  · have := h'.storage a k
    rwa [e, h.state, h.db] at this
  · refine .inr ⟨e1, e2, e3, ?_⟩
    rcases h'.storage a k with e' | ⟨e', -, -, -⟩
    · rw [e', e4]
    · rw [e4] at e'; cases e'

variable {c' : CacheDB}

theorem Listed.cell_eq (h : c.Listed K c') : c'.cell K = c.cell K := by
  funext a
  have hg : (c'.entry K a).Ghost c'.db a ↔ (c.entry K a).Ghost c.db a := by
    rw [DbAccount.Ghost, DbAccount.Ghost, h.state, h.db]
  refine Cell.ext ?_ ?_
  · simp [cell, DbAccount.cell, h.info, h.state]
  · simp only [cell, DbAccount.cell, hg]
    split_ifs with hm
    · -- a missing account gets no slots listed
      congr 1
      funext k
      rcases h.storage a k with e | ⟨-, -, e3, -⟩
      · exact e
      · exact absurd hm.1 e3
    · congr 1
      funext k
      unfold DbAccount.slot
      rcases h.storage a k with e | ⟨e1, e2, e3, e4⟩
      · rw [e, h.state, h.db]
      · simp [e1, e2, e3, e4]

theorem Listed.wf (h : c.Listed K c') (hw : c.WF K) : c'.WF K := by
  intro a hs
  rw [h.info]
  exact hw a (by rw [← h.state]; exact hs)

theorem Listed.listed (h : c.Listed K c') {a : Address} {k v : U256}
    (hk : (c.entry K a).storage k = some v) : (c'.entry K a).storage k = some v := by
  rcases h.storage a k with e | ⟨e, -, -, -⟩
  · rw [e, hk]
  · rw [hk] at e; cases e

theorem listed_loadAccount : c.Listed K (c.loadAccount K a) :=
  ⟨rfl, by simp, by simp, by simp⟩

theorem listed_storage (k : U256) : c.Listed K (c.storage K a k).1 := by
  unfold storage
  dsimp only
  split
  · exact listed_loadAccount a
  · rename_i hk
    split_ifs with hs
    · exact listed_loadAccount a
    · rw [not_or] at hs
      refine ⟨rfl, fun b => ?_, fun b => ?_, fun b j => ?_⟩
      · rw [entry_modifyAccount]; split_ifs with hb <;> simp [hb]
      · rw [entry_modifyAccount]; split_ifs with hb <;> simp [hb]
      · rw [entry_modifyAccount]
        split_ifs with hb
        · subst hb
          by_cases hj : j = k
          · subst hj; exact .inr ⟨hk, hs.1, hs.2, by simp⟩
          · exact .inl (by simp [hj])
        · exact .inl rfl

theorem listed_warm : ∀ (rs : List DbRead) (c : CacheDB), c.Listed K (c.warm K rs)
  | [], c => .refl c
  | .basic a :: rs, _ => (listed_loadAccount a).trans (listed_warm rs _)
  | .storage a k :: rs, _ => (listed_storage a k).trans (listed_warm rs _)

theorem warm_append : ∀ (rs qs : List DbRead) (c : CacheDB),
    c.warm K (rs ++ qs) = (c.warm K rs).warm K qs
  | [], _, _ => rfl
  | .basic _ :: rs, qs, _ => warm_append rs qs _
  | .storage _ _ :: rs, qs, _ => warm_append rs qs _

def readEntry (db : InMemoryStateProvider) (a : Address) (k : U256) (e : DbAccount) : DbAccount :=
  match e.storage k with
  | some _ => e
  | none =>
    if e.accountState = .storageCleared ∨ e.accountState = .notExisting then e
    else e.insertSlot k (db.getStorage a k)

theorem entry_storage (c : CacheDB) (a b : Address) (k : U256) : ((c.storage K a k).1).entry K b =
      if b = a then readEntry c.db a k (c.entry K a) else c.entry K b := by
  unfold storage readEntry
  cases hv : (c.entry K a).storage k with
  | some =>
    simp only [hv, entry_loadAccount]
    split_ifs with hb
    · rw [hb]
    · rfl
  | none =>
    by_cases hs : (c.entry K a).accountState = .storageCleared ∨
        (c.entry K a).accountState = .notExisting
    · simp only [hv, hs, if_true, entry_loadAccount]
      split_ifs with hb
      · rw [hb]
      · rfl
    · simp only [hv, hs, if_false, entry_modifyAccount]
      rfl

theorem entry_warm_congr {a : Address} : ∀ {c' c : CacheDB}, c'.db = c.db →
    c'.entry K a = c.entry K a → ∀ rs : List DbRead, (c'.warm K rs).entry K a = (c.warm K rs).entry K a
  | _, _, _, h, [] => h
  | _, _, hdb, h, .basic b :: rs => by
    refine entry_warm_congr ?_ ?_ rs
    · exact hdb
    · rw [entry_loadAccount, entry_loadAccount, h]
  | _, _, hdb, h, .storage b k :: rs => by
    refine entry_warm_congr ?_ ?_ rs
    · rw [(listed_storage b k).db, (listed_storage b k).db, hdb]
    · rw [entry_storage, entry_storage]
      split_ifs with hb
      · subst hb; rw [hdb, h]
      · exact h

variable (K) in
theorem view_warm (c : CacheDB) (rs : List DbRead) : (c.warm K rs).view K = c.view K :=
  view_congr K (listed_warm rs c).db (listed_warm rs c).cell_eq

theorem storage_value (c : CacheDB) (a : Address) (k : U256) :
    (c.storage K a k).2 = c.storageRef a k := by
  rw [storageRef_eq K, cell, DbAccount.slots_cell]
  unfold storage DbAccount.slot
  dsimp only
  split
  · rename_i v hv; simp [hv]
  · rename_i hv
    split_ifs <;> simp [hv]

/-! ### Writing -/

variable {f : DbAccount → DbAccount}

theorem wf_modifyAccount {a : Address} (hw : c.WF K)
    (hf : (f (c.entry K a)).WF) : (c.modifyAccount K a f).WF K := by
  intro b
  rw [entry_modifyAccount]
  split_ifs
  · exact hf
  · exact hw b

theorem cell_modifyAccount {x : Cell} (hf : (f (c.entry K a)).cell c.db a = x) :
    (c.modifyAccount K a f).cell K = update (c.cell K) a x := by
  funext b
  by_cases hb : b = a
  · subst hb; simp [cell, hf]
  · simp [cell, entry_modifyAccount, hb]

theorem cell_insertSlot (k v : U256) : (c.modifyAccount K a (·.insertSlot k v)).cell K =
      update (c.cell K) a ((c.cell K a).insertSlot k v) :=
  cell_modifyAccount a (DbAccount.cell_insertSlot k v)

theorem cell_credit (hw : c.WF K) (a : Address) (n : U256) :
    (c.modifyAccount K a (·.credit n)).cell K =
      update (c.cell K) a ((c.cell K a).credit c.db a n) :=
  cell_modifyAccount a (DbAccount.cell_credit (hw a) n)

theorem cell_debit {a : Address} (h : (c.entry K a).accountState ≠ .notExisting) (n : U256) :
    (c.modifyAccount K a (·.debit n)).cell K = update (c.cell K) a ((c.cell K a).debit n) :=
  cell_modifyAccount a (DbAccount.cell_debit h n)

theorem cell_commit (d : EvmState) (a : Address) : (c.commit K d).cell K a = match d a with
      | none => c.cell K a
      | some r => if r.status.touched then (c.cell K a).commit K c.db a r else c.cell K a := by
  unfold cell
  rw [entry_commit]
  cases hd : d a with
  | none => rfl
  | some r =>
    by_cases ht : r.status.touched
    · simp [ht, DbAccount.cell_commit]
    · simp [ht]

theorem wf_commit (hw : c.WF K) (d : EvmState) : (c.commit K d).WF K := by
  intro a
  rw [entry_commit]
  cases hd : d a with
  | none => exact hw a
  | some r =>
    by_cases ht : r.status.touched
    · simp only [ht, if_true]; exact DbAccount.wf_commit K r
    · simp only [ht]; exact hw a

end CacheDB

/-! ### Executing -/

section Execute

variable (H : Host)

def viewRevm (tx : EvmTransaction) (v : DbView) (blk : BlockEnv) :
    List DbRead × Except EvmError (EvmExecutionResult × EvmState) :=
  if H.txEnvBuilds tx.txEnv then
    let (reads, r) := H.transact v tx.txEnv blk
    (reads, r.mapError .executionError)
  else ([], .error (.invalidTx "tx build failed"))

/-- `execute_tx_cached`, as a function of what the cache shows. -/
def viewTx (tx : EvmTransaction) (v : DbView) (blk : BlockEnv) :
    List DbRead × Except EvmError (EvmExecutionResult × EvmState) :=
  let read (a : Address) : DbRead := .storage complianceAddress (slotCompliance H a)
  let status (a : Address) : U256 := v.storage complianceAddress (slotCompliance H a)
  let run (reads : List DbRead) := ((reads ++ (viewRevm H tx v blk).1), (viewRevm H tx v blk).2)
  if status tx.caller ≠ 0 then ([read tx.caller], .error (.invalidTx "caller blocklisted"))
  else
    match tx.toAddr with
    | some recipient =>
      if tx.value = 0 then run [read tx.caller]
      else if status recipient ≠ 0 then
        ([read tx.caller, read recipient], .error (.invalidTx "recipient blocklisted"))
      else run [read tx.caller, read recipient]
    | none => run [read tx.caller]

variable {H} {tx : EvmTransaction} {c c' : CacheDB} {blk : BlockEnv}

theorem runRevm_eq (reads : List DbRead) : runRevm H tx (c.warm H.keccak256 reads) blk =
      (c.warm H.keccak256 (reads ++ (viewRevm H tx (c.view H.keccak256) blk).1),
        (viewRevm H tx (c.view H.keccak256) blk).2) := by
  unfold runRevm viewRevm
  rw [CacheDB.view_warm]
  split_ifs
  · cases ht : H.transact (c.view H.keccak256) tx.txEnv blk with
    | mk rs r => cases r <;> simp [CacheDB.warm_append, Except.mapError]
  · simp

/-- Executing a transaction answers as a function of what the cache shows, and leaves
the cache with what it read. -/
theorem executeTxCached_eq :
    executeTxCached H tx c blk = (c.warm H.keccak256 (viewTx H tx (c.view H.keccak256) blk).1,
        (viewTx H tx (c.view H.keccak256) blk).2) := by
  have hval : ∀ (reads : List DbRead) a k,
      ((c.warm H.keccak256 reads).storage H.keccak256 a k).2 = (c.view H.keccak256).storage a k :=
    fun reads a k => by rw [CacheDB.storage_value, ← CacheDB.view_warm H.keccak256 c reads]; rfl
  have hnil := hval []
  simp only [CacheDB.warm] at hnil
  have hone := hval [.storage complianceAddress (slotCompliance H tx.caller)]
  simp only [CacheDB.warm] at hone
  unfold executeTxCached viewTx
  simp only [hnil, hone]
  cases tx.toAddr with dsimp only
  | none =>
    split_ifs
    · rfl
    · exact runRevm_eq [.storage complianceAddress (slotCompliance H tx.caller)]
  | some recipient =>
    split_ifs
    · rfl
    · exact runRevm_eq [.storage complianceAddress (slotCompliance H tx.caller)]
    · rfl
    · exact runRevm_eq [.storage complianceAddress (slotCompliance H tx.caller),
        .storage complianceAddress (slotCompliance H recipient)]

theorem executeTxCached_listed {r : Except EvmError (EvmExecutionResult × EvmState)}
    (h : executeTxCached H tx c blk = (c', r)) : c.Listed H.keccak256 c' := by
  rw [executeTxCached_eq, Prod.mk.injEq] at h
  rw [← h.1]
  exact CacheDB.listed_warm _ _

theorem executeTxCached_ok {r : EvmExecutionResult × EvmState}
    (h : executeTxCached H tx c blk = (c', .ok r)) :
    ∃ reads, H.transact (c.view H.keccak256) tx.txEnv blk = (reads, .ok r) := by
  have hrun : (viewRevm H tx (c.view H.keccak256) blk).2 = .ok r := by
    rw [executeTxCached_eq, Prod.mk.injEq] at h
    have h2 := h.2
    unfold viewTx at h2
    cases hto : tx.toAddr with simp only [hto] at h2
    | none =>
      split_ifs at h2
      exact h2
    | some =>
      split_ifs at h2
      · exact h2
      · exact h2
  unfold viewRevm at hrun
  split_ifs at hrun
  cases ht : H.transact (c.view H.keccak256) tx.txEnv blk with
  | mk rs x =>
    rw [ht] at hrun
    cases x with
    | ok => exact ⟨rs, by rw [Except.ok.inj hrun]⟩
    | error => cases hrun

end Execute

end Callchain.Evm

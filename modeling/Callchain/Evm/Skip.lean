/-
# Skipped transactions

A transaction that the loop skips should leave no trace: the block without it gives the
same results and the same state. Two blocks are compared by a simulation. Their caches
are `Alike`: the same cell for every account, and at `ASSET_ADDRESS` the same slots
listed, up to slots with the value that the provider has anyway. Every operation of the
loop keeps caches alike and does the same on alike caches.

So a skip leaves no trace (`skipped_leaves_no_trace`) if its own step leaves the cache
alike, and `SkipOk` says when it does.
-/
import Callchain.Evm.Delta

namespace Callchain.Evm

open Function (update update_of_ne update_self)
open CacheDB (cell_commit cell_congr entry_commit entry_modifyAccount listed_warm nonce_eq
  storageRef_eq wf_commit wf_modifyAccount)
open DbAccount (cell_credit cell_debit cell_info slot_of_listed slots_cell storage_commit
  toAccount wf_insertSlot wf_of_ne)

variable (H : Host)

/-! ### Caches that are alike -/

/-- The caches show the same, and list at `ASSET_ADDRESS` the same slots, if not `X` up
to slots with the provider's value. -/
structure Alike (X : Prop) (c' c : CacheDB) : Prop where
  db : c'.db = c.db
  wf' : c'.WF H.keccak256
  wf : c.WF H.keccak256
  cell : c'.cell H.keccak256 = c.cell H.keccak256
  relist' : ∀ k v, (c'.entry H.keccak256 assetAddress).storage k = some v →
    (c.entry H.keccak256 assetAddress).storage k = none → v = c.db.getStorage assetAddress k
  relist : ∀ k v, (c.entry H.keccak256 assetAddress).storage k = some v →
    (c'.entry H.keccak256 assetAddress).storage k = none → v = c.db.getStorage assetAddress k
  twin : X → c'.entry H.keccak256 assetAddress = c.entry H.keccak256 assetAddress

namespace Alike

variable {H} {X : Prop} {c' c : CacheDB} (A : Alike H X c' c)
include A

variable (a : Address)

theorem entry_info : (c'.entry H.keccak256 a).info = (c.entry H.keccak256 a).info := by
  have h := congrArg Cell.info (congrFun A.cell a)
  rwa [CacheDB.cell, CacheDB.cell, cell_info (A.wf' a), cell_info (A.wf a)] at h

theorem view : c'.view H.keccak256 = c.view H.keccak256 := CacheDB.view_congr _ A.db A.cell

theorem nativeBalance : c'.nativeBalance H.keccak256 a = c.nativeBalance H.keccak256 a := by
  rw [CacheDB.nativeBalance_eq, CacheDB.nativeBalance_eq, A.cell]

theorem storageRef (k : U256) : c'.storageRef a k = c.storageRef a k := by
  rw [storageRef_eq H.keccak256, storageRef_eq H.keccak256, A.cell]

theorem listed_eq {k v' v : U256} (h' : (c'.entry H.keccak256 assetAddress).storage k = some v')
    (h : (c.entry H.keccak256 assetAddress).storage k = some v) : v' = v := by
  have hs := A.storageRef assetAddress k
  rwa [storageRef_eq H.keccak256, storageRef_eq H.keccak256, CacheDB.cell,
    CacheDB.cell, slots_cell, slots_cell, slot_of_listed h',
    slot_of_listed h] at hs

variable {d' d : CacheDB}

/-- Caches stay alike under changes that act on the cells in the same way and
on what `ASSET_ADDRESS` lists in the same way. -/
theorem map (hdb' : d'.db = c'.db) (hdb : d.db = c.db)
    (hw' : d'.WF H.keccak256) (hw : d.WF H.keccak256)
    (hcell : d'.cell H.keccak256 = d.cell H.keccak256)
    (hst : ∀ k, ((d'.entry H.keccak256 assetAddress).storage k =
          (c'.entry H.keccak256 assetAddress).storage k ∧
        (d.entry H.keccak256 assetAddress).storage k =
          (c.entry H.keccak256 assetAddress).storage k) ∨
      (d'.entry H.keccak256 assetAddress).storage k = (d.entry H.keccak256 assetAddress).storage k)
    (htwin : c'.entry H.keccak256 assetAddress = c.entry H.keccak256 assetAddress →
      d'.entry H.keccak256 assetAddress = d.entry H.keccak256 assetAddress) : Alike H X d' d where
  db := by rw [hdb', hdb, A.db]
  wf' := hw'
  wf := hw
  cell := hcell
  relist' k v h' h := by
    rcases hst k with ⟨e', e⟩ | e
    · rw [hdb]; exact A.relist' k v (e' ▸ h') (e ▸ h)
    · rw [e, h] at h'; cases h'
  relist k v h h' := by
    rcases hst k with ⟨e', e⟩ | e
    · rw [hdb]; exact A.relist k v (e ▸ h) (e' ▸ h')
    · rw [← e, h'] at h; cases h
  twin x := htwin (A.twin x)

theorem warm (reads : List DbRead) :
    Alike H X (c'.warm H.keccak256 reads) (c.warm H.keccak256 reads) := by
  have hl' := listed_warm (K := H.keccak256) reads c'
  have hl := listed_warm (K := H.keccak256) reads c
  refine ⟨by rw [hl'.db, hl.db, A.db], hl'.wf A.wf', hl.wf A.wf,
    by rw [hl'.cell_eq, hl.cell_eq, A.cell], fun k v h' h => ?_, fun k v h h' => ?_, fun x => ?_⟩
  · rw [hl.db]
    rcases hl.storage assetAddress k with e | ⟨-, -, -, e⟩
    · rcases hl'.storage assetAddress k with e' | ⟨-, -, -, e'⟩
      · exact A.relist' k v (e' ▸ h') (e ▸ h)
      · rw [e', A.db] at h'; exact (Option.some.inj h').symm
    · rw [e] at h; cases h
  · rw [hl.db]
    rcases hl'.storage assetAddress k with e' | ⟨-, -, -, e'⟩
    · rcases hl.storage assetAddress k with e | ⟨-, -, -, e⟩
      · exact A.relist k v (e ▸ h) (e' ▸ h')
      · rw [e] at h; exact (Option.some.inj h).symm
    · rw [e'] at h'; cases h'
  · exact CacheDB.entry_warm_congr A.db (A.twin x) reads

theorem insertSlot (k v : U256) :
    Alike H X (c'.modifyAccount H.keccak256 assetAddress (·.insertSlot k v))
      (c.modifyAccount H.keccak256 assetAddress (·.insertSlot k v)) := by
  refine A.map rfl rfl (wf_modifyAccount A.wf' (wf_insertSlot (A.wf' _) _ _))
    (wf_modifyAccount A.wf (wf_insertSlot (A.wf _) _ _)) ?_ (fun j => ?_) fun h => ?_
  · rw [CacheDB.cell_insertSlot, CacheDB.cell_insertSlot, A.cell]
  · by_cases hj : j = k
    · subst hj; exact .inr (by simp [DbAccount.insertSlot])
    · exact .inl (by simp [DbAccount.insertSlot, hj])
  · rw [CacheDB.entry_modifyAccount_self, CacheDB.entry_modifyAccount_self, h]

theorem modifyInfo {a : Address} {f : DbAccount → DbAccount} (hf : ∀ e, (f e).storage = e.storage)
    (hw' : (f (c'.entry H.keccak256 a)).WF) (hw : (f (c.entry H.keccak256 a)).WF)
    (hcell : (f (c'.entry H.keccak256 a)).cell c'.db a = (f (c.entry H.keccak256 a)).cell c.db a) :
    Alike H X (c'.modifyAccount H.keccak256 a f) (c.modifyAccount H.keccak256 a f) := by
  have hst : ∀ e : CacheDB, ((e.modifyAccount H.keccak256 a f).entry H.keccak256
      assetAddress).storage = (e.entry H.keccak256 assetAddress).storage := fun e => by
    rw [entry_modifyAccount]
    split_ifs with h
    · rw [hf, h]
    · rfl
  refine A.map rfl rfl (wf_modifyAccount A.wf' hw') (wf_modifyAccount A.wf hw) ?_
    (fun j => .inl ⟨by rw [hst], by rw [hst]⟩) fun h => ?_
  · rw [CacheDB.cell_modifyAccount a hcell, CacheDB.cell_modifyAccount a rfl, A.cell]
  · rw [entry_modifyAccount, entry_modifyAccount]
    split_ifs with ha
    · rw [← ha, h]
    · exact h

theorem credit (n : U256) : Alike H X (c'.modifyAccount H.keccak256 a (·.credit n))
      (c.modifyAccount H.keccak256 a (·.credit n)) := by
  refine A.modifyInfo (fun _ => rfl) (wf_of_ne (DbAccount.accountState_credit n))
    (wf_of_ne (DbAccount.accountState_credit n)) ?_
  have h := congrFun A.cell a
  rw [CacheDB.cell, CacheDB.cell] at h
  rw [cell_credit (A.wf' a), cell_credit (A.wf a), h, A.db]

theorem debit {a : Address} (n : U256) (hex' : (c'.entry H.keccak256 a).accountState ≠ .notExisting)
    (hex : (c.entry H.keccak256 a).accountState ≠ .notExisting) :
    Alike H X (c'.modifyAccount H.keccak256 a (·.debit n))
      (c.modifyAccount H.keccak256 a (·.debit n)) := by
  refine A.modifyInfo (fun _ => rfl) (wf_of_ne hex') (wf_of_ne hex) ?_
  have h := congrFun A.cell a
  rw [CacheDB.cell, CacheDB.cell] at h
  rw [cell_debit hex', cell_debit hex, h]

theorem commit (d : EvmState) : Alike H X (c'.commit H.keccak256 d) (c.commit H.keccak256 d) := by
  refine A.map rfl rfl (wf_commit A.wf' d) (wf_commit A.wf d) ?_ (fun k => ?_)
    fun h => ?_
  · funext a
    rw [cell_commit, cell_commit, A.cell, A.db]
  · rw [entry_commit, entry_commit]
    cases d assetAddress with
    | none => exact .inl ⟨rfl, rfl⟩
    | some r =>
      dsimp only
      split_ifs with ht
      · rw [storage_commit, storage_commit]
        split_ifs with hs hc
        · exact .inr rfl
        · exact .inr rfl
        · cases r.storage k with
          | none => exact .inl ⟨rfl, rfl⟩
          | some => exact .inr rfl
      · exact .inl ⟨rfl, rfl⟩
  · rw [entry_commit, entry_commit, h]

theorem of_entry (hdb' : d'.db = c'.db) (hdb : d.db = c.db)
    (he' : d'.entry H.keccak256 = c'.entry H.keccak256)
    (he : d.entry H.keccak256 = c.entry H.keccak256) : Alike H X d' d := by
  refine A.map hdb' hdb (fun a => ?_) (fun a => ?_) ?_ (fun k => .inl ⟨by rw [he'], by rw [he]⟩)
    fun h => ?_
  · rw [he']; exact A.wf' a
  · rw [he]; exact A.wf a
  · rw [cell_congr hdb' he', cell_congr hdb he, A.cell]
  · rw [he', he, h]

/-! ### The operations of the loop -/

variable (tx : EvmTransaction)

theorem preBridge : (preBridge H tx c' = none ∧ Evm.preBridge H tx c = none) ∨
    ∃ b' b, Evm.preBridge H tx c' = some b' ∧ Evm.preBridge H tx c = some b ∧
      b'.borrowed = b.borrowed ∧ b'.bridgeLogs = b.bridgeLogs ∧ Alike H X b'.cacheDb b.cacheDb := by
  unfold Evm.preBridge
  simp only [A.nativeBalance, A.storageRef]
  split_ifs
  · exact .inl ⟨rfl, rfl⟩
  · exact .inr ⟨_, _, rfl, rfl, rfl, rfl, (A.insertSlot _ _).credit _ _⟩
  · exact .inr ⟨_, _, rfl, rfl, rfl, rfl, A⟩

theorem validate : validateEvmTxCached H tx c' = validateEvmTxCached H tx c := by
  unfold validateEvmTxCached
  rw [A.nativeBalance, nonce_eq, nonce_eq, A.cell]

theorem execute (blk : BlockEnv) : ∃ reads r,
    executeTxCached H tx c' blk = (c'.warm H.keccak256 reads, r) ∧
    executeTxCached H tx c blk = (c.warm H.keccak256 reads, r) :=
  ⟨_, _, executeTxCached_eq, by rw [executeTxCached_eq, A.view]⟩

variable {tx}

theorem revert {b' b : Bridge} (h' : Evm.preBridge H tx c' = some b')
    (h : Evm.preBridge H tx c = some b) (hb : b'.borrowed = b.borrowed)
    (Ad : Alike H X d' d) (hl' : b'.cacheDb.Listed H.keccak256 d')
    (hl : b.cacheDb.Listed H.keccak256 d) :
    Alike H X (revertBridge H tx b'.borrowed d') (revertBridge H tx b.borrowed d) := by
  rcases preBridge_cases H h with N | L
  · rw [hb, N.borrowed]
    exact Ad
  · rcases preBridge_cases H h' with N' | L'
    · exact absurd (hb.symm.trans N'.borrowed ▸ L.pos) (by decide)
    · have hP : callBalance H c' tx.caller = callBalance H c tx.caller := A.storageRef _ _
      rw [L'.revertBridge_eq hl', L.revertBridge_eq hl, hP, hb]
      exact (Ad.insertSlot _ _).debit _ (L'.revert_exists hl' _ _) (L.revert_exists hl _ _)

omit A in
theorem modify_addToSlot (c : CacheDB) (k n : U256) :
    c.modifyAccount H.keccak256 assetAddress (·.addToSlot k n) =
      c.modifyAccount H.keccak256 assetAddress
        (·.insertSlot k (((c.entry H.keccak256 assetAddress).storage k).getD 0 + n)) := rfl

theorem refund {refund : U256} (hex' : (c'.entry H.keccak256 tx.caller).accountState ≠ .notExisting)
    (hex : (c.entry H.keccak256 tx.caller).accountState ≠ .notExisting)
    (hlist : 0 < refund → listedCall H c' tx.caller = listedCall H c tx.caller) :
    Alike H X (refundCache H tx refund c') (refundCache H tx refund c) := by
  unfold refundCache
  split_ifs with hpos
  · have hst : ∀ e : CacheDB, ((e.modifyAccount H.keccak256 tx.caller (·.debit refund)).entry
        H.keccak256 assetAddress).storage = (e.entry H.keccak256 assetAddress).storage := fun e => by
      rw [entry_modifyAccount]
      split_ifs with h
      · rw [h]; rfl
      · rfl
    have hl : ((c'.entry H.keccak256 assetAddress).storage (callSlot H tx.caller)).getD 0 =
        ((c.entry H.keccak256 assetAddress).storage (callSlot H tx.caller)).getD 0 := hlist hpos
    rw [modify_addToSlot, modify_addToSlot, hst, hst, hl]
    exact (A.debit refund hex' hex).insertSlot _ _
  · exact A

theorem refundDelta {refund : U256} (acc : EvmState)
    (hlist : 0 < refund → (c'.entry H.keccak256 assetAddress).storage (callSlot H tx.caller) =
      (c.entry H.keccak256 assetAddress).storage (callSlot H tx.caller)) :
    (refundDelta H tx refund c' acc).2 = (Evm.refundDelta H tx refund c acc).2 := by
  unfold Evm.refundDelta
  split_ifs with hpos
  · have hcal : (c'.entry H.keccak256 tx.caller).toAccount =
        (c.entry H.keccak256 tx.caller).toAccount := by
      rw [toAccount, toAccount, A.entry_info]
    have hass : (c'.entry H.keccak256 assetAddress).toAccount =
        (c.entry H.keccak256 assetAddress).toAccount := by
      rw [toAccount, toAccount, A.entry_info]
    cases h1 : acc tx.caller with
    | some =>
      dsimp only
      split
      · rfl
      · simp only [hass, hlist hpos]
    | none =>
      simp only [hcal, CacheDB.entry_loadAccount, hass, hlist hpos]
      split <;> rfl
  · rfl

end Alike

/-! ### States that are twins -/

/-- The states of two runs that differ by a skipped transaction are the same, up to
alike caches and the nonces of `N` being used. -/
structure Twins (X : Prop) (N : Set (Address × U64)) (s' s : BlockState) : Prop where
  gasTracker : s'.gasTracker = s.gasTracker
  nonces : ∀ x, x ∉ N → (x ∈ s'.usedEvmNonces ↔ x ∈ s.usedEvmNonces)
  cache : Alike H X s'.cacheDb s.cacheDb
  result : s'.result = s.result
  accumulatedState : s'.accumulatedState = s.accumulatedState

section Twins

variable {H} {X : Prop} {N : Set (Address × U64)} {s' s : BlockState} {blk : BlockParams} {raw : Bytes}

theorem Twins.useNonce (T : Twins H X N s' s) (tx : EvmTransaction) :
    Twins H X N (s'.useNonce tx) (s.useNonce tx) := by
  refine ⟨T.gasTracker, fun x hx => ?_, T.cache, T.result, T.accumulatedState⟩
  rw [BlockState.useNonce, BlockState.useNonce, List.mem_cons, List.mem_cons, T.nonces x hx]

variable {c' c : CacheDB}

theorem Twins.setCache (T : Twins H X N s' s) (A : Alike H X c' c) :
    Twins H X N { s' with cacheDb := c' } { s with cacheDb := c } :=
  { T with cache := A }

theorem RanIn.storage_commit_eq {tx : EvmTransaction} {b' b : Bridge}
    {res : EvmExecutionResult} {d : EvmState} (R' : RanIn H blk s' raw tx b' c' res d)
    (R : RanIn H blk s raw tx b c res d) (A : Alike H X c' c) (hpos' : 0 < b'.borrowed)
    (hpos : 0 < b.borrowed) :
    ((c'.commit H.keccak256 d).entry H.keccak256 assetAddress).storage (callSlot H tx.caller) =
      ((c.commit H.keccak256 d).entry H.keccak256 assetAddress).storage (callSlot H tx.caller) := by
  have hloan : ∀ {s b c}, RanIn H blk s raw tx b c res d → 0 < b.borrowed →
      ∃ v, (c.entry H.keccak256 assetAddress).storage (callSlot H tx.caller) = some v :=
    fun R hpos => by
      rcases preBridge_cases H R.bridged.bridged with N | L
      · rw [N.borrowed] at hpos; exact absurd hpos (by decide)
      · exact ⟨_, R.listed.listed L.slot_listed⟩
  obtain ⟨v', hv'⟩ := hloan R' hpos'
  obtain ⟨v, hv⟩ := hloan R hpos
  have heq : (c'.entry H.keccak256 assetAddress).storage (callSlot H tx.caller) =
      (c.entry H.keccak256 assetAddress).storage (callSlot H tx.caller) := by
    rw [hv', hv, A.listed_eq hv' hv]
  rw [entry_commit, entry_commit]
  cases d assetAddress with
  | none => exact heq
  | some =>
    dsimp only
    split_ifs
    · rw [storage_commit, storage_commit, heq]
    · exact heq

theorem Twins.commitTx {tx : EvmTransaction} {b' b : Bridge} {v : DbView}
    {res : EvmExecutionResult} {d : EvmState} {gasTracker : BlockGasTracker} {t' t : BlockState}
    (hr : RevmSpec v tx.caller d) (T : Twins H X N t' t) (R' : RanIn H blk s' raw tx b' c' res d)
    (R : RanIn H blk s raw tx b c res d) (A : Alike H X c' c) (hb : b'.borrowed = b.borrowed)
    (hlogs : b'.bridgeLogs = b.bridgeLogs) :
    Twins H X N (commitTx H blk raw tx b' c' res d gasTracker t')
      (Evm.commitTx H blk raw tx b c res d gasTracker t) := by
  have href : refundIn blk tx b' res = refundIn blk tx b res := by rw [refundIn, refundIn, hb]
  have hst : 0 < refundIn blk tx b res →
      ((c'.commit H.keccak256 d).entry H.keccak256 assetAddress).storage (callSlot H tx.caller) =
      ((c.commit H.keccak256 d).entry H.keccak256 assetAddress).storage (callSlot H tx.caller) :=
    fun hpos => R'.storage_commit_eq R A (hb ▸ borrowed_pos hpos) (borrowed_pos hpos)
  have Ar : Alike H X (refundCache H tx (refundIn blk tx b res) (c'.commit H.keccak256 d))
      (refundCache H tx (refundIn blk tx b res) (c.commit H.keccak256 d)) :=
    (A.commit d).refund hr.caller_exists hr.caller_exists fun hpos => by
      rw [listedCall, listedCall, hst hpos]
  refine ⟨rfl, T.nonces, ?_, ?_, ?_⟩
  · have he' : (Evm.commitTx H blk raw tx b' c' res d gasTracker t').cacheDb.entry H.keccak256 =
        (refundCache H tx (refundIn blk tx b' res) (c'.commit H.keccak256 d)).entry H.keccak256 :=
      commitTx_entry
    rw [href] at he'
    refine Ar.of_entry ?_ (refundDelta_entry H _).1 he' commitTx_entry
    rw [commitTx_db, refundCache_db]
    rfl
  · show BlockTxResult.mk _ _ _ = BlockTxResult.mk _ _ _
    rw [T.result]
    have hent : txEntry H blk raw tx b' res = txEntry H blk raw tx b res := by
      unfold txEntry
      rw [hb, hlogs]
    rw [hent]
  · rw [commitTx_acc, href, T.accumulatedState]
    refine Ar.refundDelta _ fun hpos => ?_
    rw [refundCache_storage H hpos, refundCache_storage H hpos, update_self,
      update_self, listedCall, listedCall, hst hpos]

theorem twins_executeTx (hr : RevmOk H blk s raw) (T : Twins H X N s' s)
    (hN : ∀ tx, decodeEvmTx H raw = some tx → (tx.caller, tx.nonce) ∉ N) :
    Twins H X N (executeTx H blk s' raw).1 (executeTx H blk s raw).1 := by
  unfold executeTx
  cases hd : decodeEvmTx H raw with
  | none => exact T
  | some tx =>
    have hmem := T.nonces _ (hN tx hd)
    by_cases hu : (tx.caller, tx.nonce) ∈ s.usedEvmNonces
    · simp only [hmem.mpr hu, hu, if_true]
      exact T
    · have hu' : (tx.caller, tx.nonce) ∉ s'.usedEvmNonces := mt hmem.mp hu
      have Tu := T.useNonce tx
      simp only [hu, hu', if_false]
      rcases Tu.cache.preBridge tx with ⟨h', h⟩ | ⟨b', b, h', h, hb, hlogs, Ab⟩
      · rw [h', h]; exact Tu
      · rw [h', h]
        dsimp only
        rw [Ab.validate tx]
        cases hv : validateEvmTxCached H tx b.cacheDb with
        | error => exact Tu.setCache (T.cache.revert h' h hb Ab (.refl _) (.refl _))
        | ok =>
          obtain ⟨reads, r, e', e⟩ := Ab.execute tx blk.env
          have Aw := Ab.warm reads
          rw [e', e]
          cases r with
          | error =>
            exact Tu.setCache
              (T.cache.revert h' h hb Aw (listed_warm _ _) (listed_warm _ _))
          | ok x =>
            obtain ⟨res, d⟩ := x
            have hgas : (s'.useNonce tx).gasTracker.addGas res.gasUsed =
              (s.useNonce tx).gasTracker.addGas res.gasUsed := by rw [Tu.gasTracker]
            dsimp only
            rw [hgas]
            cases hg : (s.useNonce tx).gasTracker.addGas res.gasUsed with
            | none => exact Tu.setCache Aw
            | some =>
              have R' : RanIn H blk s' raw tx b' _ res d :=
                ⟨⟨hd, hu', h'⟩, (Ab.validate tx).trans hv, e'⟩
              have R : RanIn H blk s raw tx b _ res d := ⟨⟨hd, hu, h⟩, hv, e⟩
              have hfits : (s.gasTracker.addGas res.gasUsed).isSome := Option.isSome_of_eq_some hg
              exact Tu.commitTx (hr _ _ _ _ _ R hfits) R' R Aw hb hlogs

theorem twins_runTxs {post : List Bytes} (T : Twins H X N s' s)
    (hr : Run.Along (fun s raw => (executeTx H blk s raw).1) (RevmOk H blk) s post)
    (hN : ∀ raw ∈ post, ∀ tx, decodeEvmTx H raw = some tx → (tx.caller, tx.nonce) ∉ N) :
    Twins H X N (runTxs H blk s' post) (runTxs H blk s post) := by
  induction post generalizing s' s with
  | nil => exact T
  | cons raw post ih =>
    exact ih (twins_executeTx hr.1 T (hN raw List.mem_cons_self)) hr.2
      fun raw' h => hN raw' (List.mem_cons_of_mem _ h)

end Twins

/-! ### The skipped transaction -/

/-- The nonce that a skipped transaction uses up: its own, if it is new. -/
def skipNonce (s : BlockState) (raw : Bytes) : Set (Address × U64) :=
  { x | ∃ tx, decodeEvmTx H raw = some tx ∧ x = (tx.caller, tx.nonce) ∧ x ∉ s.usedEvmNonces }

/-- A transaction that borrows stays within the block's gas, and its caller's account is live. -/
def SkipOk (blk : BlockParams) (s : BlockState) (raw : Bytes) : Prop :=
  ∀ tx b, Bridged H s raw tx b → 0 < b.borrowed →
    (∀ c res d, RanIn H blk s raw tx b c res d → (s.gasTracker.addGas res.gasUsed).isSome) ∧
      (s.cacheDb.cell H.keccak256 tx.caller).store.IsLive

section Skip

variable {H} {X : Prop} {s : BlockState} {blk : BlockParams} {raw : Bytes}

theorem wf_executeTx (hr : RevmOk H blk s raw) (hw : s.cacheDb.WF H.keccak256) :
    (executeTx H blk s raw).1.cacheDb.WF H.keccak256 ∧
      (executeTx H blk s raw).1.cacheDb.db = s.cacheDb.db := by
  have hstep := executeTx_step H blk s raw
  generalize executeTx H blk s raw = out at hstep ⊢
  cases hstep with
  | invalid hb => exact ⟨revertBridge_wf hb.bridged (.refl _) hw, revertBridge_db hb.bridged (.refl _)⟩
  | failed hb _ he =>
    exact ⟨revertBridge_wf hb.bridged (executeTxCached_listed he) hw,
      revertBridge_db hb.bridged (executeTxCached_listed he)⟩
  | dropped hb hv he =>
    have R : RanIn H blk s raw _ _ _ _ _ := ⟨hb, hv, he⟩
    exact ⟨R.wf hw, R.db⟩
  | @executed tx b c res d gasTracker hb hv he hgas =>
    have R : RanIn H blk s raw tx b c res d := ⟨hb, hv, he⟩
    have hwf : (commitTx H blk raw tx b c res d gasTracker s).cacheDb.WF H.keccak256 :=
      commitTx_wf R (hr _ _ _ _ _ R (by rw [hgas]; rfl)) hw
    exact ⟨hwf, commitTx_db.trans R.db⟩
  | _ => exact ⟨hw, rfl⟩

theorem wf_runTxs {txs : List Bytes} (hw : s.cacheDb.WF H.keccak256)
    (hr : Run.Along (fun s raw => (executeTx H blk s raw).1) (RevmOk H blk) s txs) :
    (runTxs H blk s txs).cacheDb.WF H.keccak256 ∧ (runTxs H blk s txs).cacheDb.db = s.cacheDb.db :=
  Run.invariant (I := fun t : BlockState => t.cacheDb.WF H.keccak256 ∧ t.cacheDb.db = s.cacheDb.db)
    (fun _ _ ht hr => ⟨(wf_executeTx hr ht.1).1, (wf_executeTx hr ht.1).2.trans ht.2⟩) hr ⟨hw, rfl⟩

theorem mem_useNonce {tx : EvmTransaction} (hd : decodeEvmTx H raw = some tx)
    (hf : (tx.caller, tx.nonce) ∉ s.usedEvmNonces) (x : Address × U64) (hx : x ∉ skipNonce H s raw) :
    x ∈ s.usedEvmNonces ↔ x ∈ (s.useNonce tx).usedEvmNonces := by
  rw [BlockState.useNonce, List.mem_cons]
  refine ⟨.inr, fun h => h.resolve_left fun he => hx ⟨tx, hd, he, ?_⟩⟩
  rw [he]; exact hf

theorem Alike.skip {tx : EvmTransaction} {b : Bridge} {d : CacheDB} (hw : s.cacheDb.WF H.keccak256)
    (hb : Bridged H s raw tx b) (hl : b.cacheDb.Listed H.keccak256 d)
    (hlive : 0 < b.borrowed → (s.cacheDb.cell H.keccak256 tx.caller).store.IsLive) :
    Alike H ((revertBridge H tx b.borrowed d).entry H.keccak256 assetAddress =
      s.cacheDb.entry H.keccak256 assetAddress) s.cacheDb (revertBridge H tx b.borrowed d) := by
  have hdb := revertBridge_db hb.bridged hl
  refine ⟨hdb.symm, hw, revertBridge_wf hb.bridged hl hw, ?_, fun k v h' h => ?_, fun k v h h' => ?_,
    Eq.symm⟩
  · funext a
    rcases revertBridge_cell hb.bridged hl hw a with e | ⟨hpos, rfl, e⟩
    · exact e.symm
    · rw [e, Cell.revive_of_isLive (hlive hpos)]
  · rcases revertBridge_storage hb.bridged hl k with e | ⟨e, -⟩
    · rw [e, h'] at h; cases h
    · rw [e] at h'; cases h'
  · rcases revertBridge_storage hb.bridged hl k with e | ⟨-, e⟩
    · rw [e, h'] at h; cases h
    · rw [e] at h; rw [hdb]; exact (Option.some.inj h).symm

theorem twins_skip (hw : s.cacheDb.WF H.keccak256) (hskip : (executeTx H blk s raw).2 ≠ .executed)
    (hok : SkipOk H blk s raw) :
    Twins H ((executeTx H blk s raw).1.cacheDb.entry H.keccak256 assetAddress =
      s.cacheDb.entry H.keccak256 assetAddress) (skipNonce H s raw) s (executeTx H blk s raw).1 := by
  have hrefl : Alike H (s.cacheDb.entry H.keccak256 assetAddress =
      s.cacheDb.entry H.keccak256 assetAddress) s.cacheDb s.cacheDb :=
    ⟨rfl, hw, hw, rfl, fun _ _ h h' => (by rw [h] at h'; cases h'),
      fun _ _ h h' => (by rw [h] at h'; cases h'), fun h => h⟩
  have hstep := executeTx_step H blk s raw
  revert hstep hskip
  generalize executeTx H blk s raw = out
  intro hskip hstep
  cases hstep with
  | undecodable | duplicate => exact ⟨rfl, fun _ _ => Iff.rfl, hrefl, rfl, rfl⟩
  | unfunded hd hf => exact ⟨rfl, mem_useNonce hd hf, hrefl, rfl, rfl⟩
  | invalid hb =>
    exact ⟨rfl, mem_useNonce hb.decoded hb.fresh,
      Alike.skip hw hb (.refl _) fun hpos => (hok _ _ hb hpos).2, rfl, rfl⟩
  | failed hb _ he =>
    exact ⟨rfl, mem_useNonce hb.decoded hb.fresh,
      Alike.skip hw hb (executeTxCached_listed he) fun hpos => (hok _ _ hb hpos).2, rfl, rfl⟩
  | @dropped tx b c res d hb hv he hgas =>
    have R : RanIn H blk s raw tx b c res d := ⟨hb, hv, he⟩
    have hz : b.borrowed = 0 := by
      by_contra hne
      have hfits := (hok tx b hb (by bv_omega)).1 c res d R
      rw [hgas] at hfits
      cases hfits
    -- nothing was bridged, so the cache is as after an empty revert
    have A := Alike.skip hw hb R.listed fun hpos => absurd (hz ▸ hpos) (by decide)
    rw [hz] at A
    exact ⟨rfl, mem_useNonce hb.decoded hb.fresh, A, rfl, rfl⟩
  | executed => exact absurd rfl hskip

end Skip

/-! ### The whole block -/

/-- The deltas are the same, up to slots of `ASSET_ADDRESS` listed with the value the
provider has. -/
structure SameDelta (p : InMemoryStateProvider) (e' e : EvmState) : Prop where
  other : ∀ a, a ≠ assetAddress → e' a = e a
  asset : ∃ A' A, e' assetAddress = some A' ∧ e assetAddress = some A ∧ A'.info = A.info ∧
    A'.status = A.status ∧ ∀ k, A'.storage k = A.storage k ∨
      (A'.storage k = none ∧ A.storage k = some ⟨p.getStorage assetAddress k⟩) ∨
      (A'.storage k = some ⟨p.getStorage assetAddress k⟩ ∧ A.storage k = none)

variable {H}

theorem Alike.finalMerge {X : Prop} {c' c : CacheDB} (A : Alike H X c' c) (acc : EvmState) :
    SameDelta c.db (finalMerge H c' acc) (Evm.finalMerge H c acc) := by
  have hrel : ∀ k, (c'.entry H.keccak256 assetAddress).storage k =
      (c.entry H.keccak256 assetAddress).storage k ∨
      ((c'.entry H.keccak256 assetAddress).storage k = none ∧
        (c.entry H.keccak256 assetAddress).storage k = some (c.db.getStorage assetAddress k)) ∨
      ((c'.entry H.keccak256 assetAddress).storage k = some (c.db.getStorage assetAddress k) ∧
        (c.entry H.keccak256 assetAddress).storage k = none) := fun k => by
    cases h' : (c'.entry H.keccak256 assetAddress).storage k with
    | none =>
      cases h : (c.entry H.keccak256 assetAddress).storage k with
      | none => exact .inl rfl
      | some v => exact .inr (.inl ⟨rfl, by rw [A.relist k v h h']⟩)
    | some v' =>
      cases h : (c.entry H.keccak256 assetAddress).storage k with
      | none => exact .inr (.inr ⟨by rw [A.relist' k v' h' h], rfl⟩)
      | some => exact .inl (by rw [A.listed_eq h' h])
  refine ⟨fun a ha => ?_, ?_⟩
  · unfold Evm.finalMerge
    rw [update_of_ne ha, update_of_ne ha]
  · unfold Evm.finalMerge
    cases hacc : acc assetAddress with
    | none =>
      refine ⟨_, _, update_self _ _ _, update_self _ _ _, A.entry_info _, rfl, fun k => ?_⟩
      rcases hrel k with e | ⟨e', e⟩ | ⟨e', e⟩
      · left; simp [e]
      · right; left; simp [e', e]
      · right; right; simp [e', e]
    | some existing =>
      refine ⟨_, _, update_self _ _ _, update_self _ _ _, rfl, rfl, fun k => ?_⟩
      cases he : existing.storage k with
      | some => left; simp [he]
      | none =>
        rcases hrel k with e | ⟨e', e⟩ | ⟨e', e⟩
        · left; simp [e]
        · right; left; simp [he, e', e]
        · right; right; simp [he, e', e]

/-- No query tells the two apart. -/
def SameAnswers (q' q : InMemoryStateProvider) : Prop :=
  ∀ a, q'.getBalance a = q.getBalance a ∧ q'.getNonce a = q.getNonce a ∧
    q'.getCode a = q.getCode a ∧ ∀ k, q'.getStorage a k = q.getStorage a k

theorem SameDelta.apply {p : InMemoryStateProvider} {e' e : EvmState} (h : SameDelta p e' e) :
    SameAnswers (p.applyFromRevmState e') (p.applyFromRevmState e) := by
  intro a
  simp only [InMemoryStateProvider.getBalance_apply, InMemoryStateProvider.getNonce_apply,
    InMemoryStateProvider.getCode_apply, InMemoryStateProvider.getStorage_apply, recorded]
  by_cases ha : a = assetAddress
  · subst ha
    obtain ⟨A', A, h', h1, hi, -, hs⟩ := h.asset
    simp only [h', h1, Option.map_some, Option.getD_some, hi, Option.bind_some, true_and]
    intro k
    rcases hs k with e | ⟨e', e⟩ | ⟨e', e⟩ <;> simp [*]
  · simp only [h.other a ha, true_and, implies_true]

/-- **A skip leaves no trace.** If its skip is `SkipOk` and no later transaction has its caller
and nonce, the block without a skipped transaction reports the same, and leads to the same state.
The returned map is the same up to slots of `ASSET_ADDRESS` listed with the provider's own value.
-/
theorem skipped_leaves_no_trace (H : Host) (p : InMemoryStateProvider)
    (blk : BlockParams) (pre post : List Bytes) (t : Bytes)
    (hr : Run.Along (fun s raw => (executeTx H blk s raw).1) (RevmOk H blk) (.init p)
      (pre ++ t :: post))
    (hskip : (executeTx H blk (executeLoop H pre p blk) t).2 ≠ .executed)
    (hok : SkipOk H blk (executeLoop H pre p blk) t)
    (hnonce : ∀ raw ∈ post, ∀ tx, decodeEvmTx H raw = some tx →
      (tx.caller, tx.nonce) ∉ skipNonce H (executeLoop H pre p blk) t) :
    let kept := executeBlockTransactions H (pre ++ t :: post) p blk
    let removed := executeBlockTransactions H (pre ++ post) p blk
    removed.1 = kept.1 ∧
      SameAnswers (p.applyFromRevmState removed.2) (p.applyFromRevmState kept.2) ∧
      SameDelta p removed.2 kept.2 ∧
      ((executeTx H blk (executeLoop H pre p blk) t).1.cacheDb.entry H.keccak256 assetAddress =
        (executeLoop H pre p blk).cacheDb.entry H.keccak256 assetAddress → removed.2 = kept.2) := by
  intro kept removed
  set s := executeLoop H pre p blk with hs
  obtain ⟨hpre, -, hpost⟩ := Run.along_append.1 hr
  have hwf : s.cacheDb.WF H.keccak256 := (wf_runTxs (CacheDB.wf_new _ p) hpre).1
  have T : Twins H _ _ (runTxs H blk s post) (runTxs H blk (executeTx H blk s t).1 post) :=
    twins_runTxs (twins_skip hwf hskip hok) hpost hnonce
  have hkept : executeLoop H (pre ++ t :: post) p blk =
      runTxs H blk (executeTx H blk s t).1 post := Run.run_append _ _ _ _
  have hrem : executeLoop H (pre ++ post) p blk = runTxs H blk s post := Run.run_append _ _ _ _
  have hdb : (executeLoop H (pre ++ t :: post) p blk).cacheDb.db = p :=
    (wf_runTxs (CacheDB.wf_new _ p) hr).2
  rw [← hkept, ← hrem] at T
  have hsame : SameDelta p removed.2 kept.2 := by
    have h := T.cache.finalMerge (executeLoop H (pre ++ t :: post) p blk).accumulatedState
    rw [hdb] at h
    simp only [removed, kept, executeBlockTransactions, T.accumulatedState]
    exact h
  refine ⟨T.result, hsame.apply, hsame, fun hx => ?_⟩
  · simp only [removed, kept, executeBlockTransactions, T.accumulatedState, finalMerge, T.cache.twin hx]

/-! ### Two skips -/

def skippingHost : Host :=
  Reference.host fun raw =>
    if raw = [0x7b] then some (bridgingTx 21000)
    else if raw = [0x7b, 0x7b] then some { bridgingTx 21000 with nonce := 7 }
    else if raw = [0x7b, 0x7b, 0x7b] then
      some { bridgingTx 30000001 with toAddr := some 0x1003, value := 0 }
    else none

def haltingProvider : InMemoryStateProvider where
  accounts := update (update (fun _ => none) 0x1003 (some { code := [0xfe] }))
    assetAddress
    (some { storage := update (fun _ => none) (callSlot skippingHost 0x1001) (some 50000000) })

theorem wrong_nonce_leaves_no_trace :
    (executeTx skippingHost ⟨1, 0, 0⟩ (.init haltingProvider) [0x7b, 0x7b]).2 =
      .invalid "invalid nonce" ∧
    (executeBlockTransactions skippingHost [[0x7b]] haltingProvider ⟨1, 0, 0⟩).1 =
      (executeBlockTransactions skippingHost [[0x7b, 0x7b], [0x7b]] haltingProvider ⟨1, 0, 0⟩).1 ∧
    SameAnswers (haltingProvider.applyFromRevmState
        (executeBlockTransactions skippingHost [[0x7b]] haltingProvider ⟨1, 0, 0⟩).2)
      (haltingProvider.applyFromRevmState
        (executeBlockTransactions skippingHost [[0x7b, 0x7b], [0x7b]] haltingProvider ⟨1, 0, 0⟩).2) := by
  have hout : (executeTx skippingHost ⟨1, 0, 0⟩ (.init haltingProvider) [0x7b, 0x7b]).2 =
    .invalid "invalid nonce" := by decide
  have hdec : decodeEvmTx skippingHost [0x7b, 0x7b] = some { bridgingTx 21000 with nonce := 7 } := by
    decide
  have hok : SkipOk skippingHost ⟨1, 0, 0⟩ (.init haltingProvider) [0x7b, 0x7b] := by
    refine fun tx b hb _ => ⟨fun c res d R => ?_, ?_⟩
    · obtain ⟨recipient, -, hgas, -⟩ := Reference.ran R.revm
      have htx := hb.decoded
      rw [hdec] at htx
      cases htx
      have hg : res.gasUsed = 21000 := by
        rw [hgas, Reference.gas]; split_ifs <;> rfl
      rw [hg]; decide
    · show ((CacheDB.new haltingProvider).cell _ tx.caller).store.IsLive
      rw [(cell_new tx.caller).1]
      trivial
  have hnon : ∀ raw ∈ [[0x7b]], ∀ tx, decodeEvmTx skippingHost raw = some tx →
      (tx.caller, tx.nonce) ∉ skipNonce skippingHost (.init haltingProvider) [0x7b, 0x7b] := by
    rintro raw hraw tx hd ⟨tx', hd', he, -⟩
    rw [List.mem_singleton.1 hraw] at hd
    have h1 : decodeEvmTx skippingHost [0x7b] = some (bridgingTx 21000) := by decide
    rw [h1] at hd
    rw [hdec] at hd'
    cases hd
    cases hd'
    exact absurd he (by decide)
  have h := skipped_leaves_no_trace skippingHost haltingProvider ⟨1, 0, 0⟩ [] [[0x7b]] [0x7b, 0x7b]
    ⟨revmOk_reference _ _ _ _, revmOk_reference _ _ _ _, trivial⟩
    (fun h => absurd (hout.symm.trans h) (by decide)) hok hnon
  exact ⟨hout, h.1, h.2.1⟩

/-- The block runs nothing, and its returned state takes 30000001 CALL from the caller's
protocol balance. -/
theorem dropped_keeps_loan : (∀ s raw, RevmOk skippingHost ⟨1, 0, 0⟩ s raw) ∧
    (executeTx skippingHost ⟨1, 0, 0⟩ (.init haltingProvider) [0x7b, 0x7b, 0x7b]).2 =
      .gasLimitExceeded ∧
    (executeBlockTransactions skippingHost [[0x7b, 0x7b, 0x7b]] haltingProvider
      ⟨1, 0, 0⟩).1.evmTxResults = [] ∧
    (haltingProvider.applyFromRevmState (executeBlockTransactions skippingHost
      [[0x7b, 0x7b, 0x7b]] haltingProvider ⟨1, 0, 0⟩).2).getStorage assetAddress
        (callSlot skippingHost 0x1001) = 19999999 ∧
    (haltingProvider.applyFromRevmState (executeBlockTransactions skippingHost [] haltingProvider
      ⟨1, 0, 0⟩).2).getStorage assetAddress (callSlot skippingHost 0x1001) = 50000000 :=
  ⟨revmOk_reference _ _, by decide, by decide, by decide, by decide⟩

end Callchain.Evm

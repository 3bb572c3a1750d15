/-
# The returned delta and the cache

The delta that the block returns, applied to the provider with `apply_from_revm_state`,
should be the state that the cache holds. It is (`delta_matches_cache`) for every block
whose steps are as revm promises (`RevmOk`) and meet two conditions:

* `BridgeOk`: the delta knows the caller's CALL slot where a refund is made, and no
  transaction that bridged is dropped at the gas limit;
* `DeltaOk`: no transaction destroys an account, or creates one over slots that are
  still set; `apply_from_revm_state` looks at neither flag.

The first fails for the plainest bridging block there is (`refund_counted_twice`).
-/
import Callchain.Evm.Tracking

namespace Callchain.Evm

open InMemoryStateProvider (basicAccount getBalance getCode getNonce getStorage_apply getStorage_of_none)

variable (H : Host) (p : InMemoryStateProvider) (Q : Set Address)

/-- What an executed transaction may do to the accounts of `Q`: it destroys none, and
creates one only where the delta gives no slot a value that this clears. Of the others,
a destroyed one ends with no balance. -/
def DeltaOk (blk : BlockParams) (s : BlockState) (raw : Bytes) : Prop :=
  ∀ tx b c res d, RanIn H blk s raw tx b c res d → (s.gasTracker.addGas res.gasUsed).isSome →
    ∀ a r, d a = some r → r.status.touched →
      (r.status.selfdestructed → r.info.balance = 0) ∧
      (a ∈ Q → ¬ r.status.selfdestructed ∧
        (r.status.created → ∀ k, r.storage k = none →
          (p.applyFromRevmState s.accumulatedState).getStorage a k = 0))

/-- Delta and cache agree about every balance, and about all of the accounts
of `Q`. -/
structure Agrees (s : BlockState) : Prop where
  db : s.cacheDb.db = p
  wf : s.cacheDb.WF H.keccak256
  balance : ∀ a, InfoTracks H (·.balance) (p.getBalance a) s.accumulatedState s.cacheDb a
  live : ∀ a ∈ Q, (s.cacheDb.cell H.keccak256 a).store.IsLive
  nonce : ∀ a ∈ Q, InfoTracks H (·.nonce) (p.getNonce a) s.accumulatedState s.cacheDb a
  code : ∀ a ∈ Q, InfoTracks H (fun i => i.code.getD (p.getCode a)) (p.getCode a)
    s.accumulatedState s.cacheDb a
  slots : ∀ a ∈ Q, ∀ k, SlotTracks H p s.accumulatedState s.cacheDb a k

variable {H p Q} {blk : BlockParams} {s : BlockState} {raw : Bytes}

theorem cell_new (a : Address) :
    ((CacheDB.new p).cell H.keccak256 a).store = .live (p.getStorage a) ∧
      ((CacheDB.new p).cell H.keccak256 a).info = ((p.basicAccount H.keccak256 a).getD .empty) := by
  cases ha : p.accounts a with
  | none =>
    constructor
    · simp only [CacheDB.cell, CacheDB.entry, CacheDB.new, basicAccount, ha,
        DbAccount.cell, DbAccount.Ghost]
      simp [DbAccount.slot, funext_iff, getStorage_of_none ha]
    · simp [CacheDB.cell, CacheDB.entry, CacheDB.new, basicAccount, ha,
        DbAccount.cell]
  | some =>
    constructor
    · simp only [CacheDB.cell, CacheDB.entry, CacheDB.new, basicAccount, ha,
        DbAccount.cell, DbAccount.Ghost]
      simp [DbAccount.slot, funext_iff]
    · simp [CacheDB.cell, CacheDB.entry, CacheDB.new, basicAccount, ha,
        DbAccount.cell]

theorem agrees_init : Agrees H p Q (.init p) where
  db := rfl
  wf := CacheDB.wf_new _ p
  balance a := by
    show p.getBalance a = ((CacheDB.new p).cell H.keccak256 a).info.balance
    rw [(cell_new a).2]
    cases ha : p.accounts a <;>
      simp [getBalance, basicAccount, ha,
        AccountInfo.empty]
  live a _ := by
    show (((CacheDB.new p).cell H.keccak256 a).store).IsLive
    rw [(cell_new a).1]; trivial
  nonce a _ := by
    show p.getNonce a = ((CacheDB.new p).cell H.keccak256 a).info.nonce
    rw [(cell_new a).2]
    cases ha : p.accounts a <;>
      simp [getNonce, basicAccount, ha,
        AccountInfo.empty]
  code a _ := by
    show p.getCode a = ((CacheDB.new p).cell H.keccak256 a).info.code.getD (p.getCode a)
    rw [(cell_new a).2]
    cases ha : p.accounts a <;>
      simp [getCode, basicAccount, ha,
        AccountInfo.empty]
  slots a _ k := by
    left
    show ((CacheDB.new p).cell H.keccak256 a).store.get k = _
    rw [(cell_new a).1]
    rfl

theorem Agrees.congr {s' : BlockState} (h : Agrees H p Q s)
    (hacc : s'.accumulatedState = s.accumulatedState) (hdb : s'.cacheDb.db = s.cacheDb.db)
    (hw : s'.cacheDb.WF H.keccak256)
    (hi : ∀ a, (s'.cacheDb.cell H.keccak256 a).info = (s.cacheDb.cell H.keccak256 a).info)
    (hc : ∀ a ∈ Q, s'.cacheDb.cell H.keccak256 a = s.cacheDb.cell H.keccak256 a)
    (hl : ∀ k, (s.cacheDb.entry H.keccak256 assetAddress).storage k ≠ none →
      (s'.cacheDb.entry H.keccak256 assetAddress).storage k ≠ none) : Agrees H p Q s' where
  db := hdb.trans h.db
  wf := hw
  balance a := (h.balance a).congr (by rw [hacc]) (by rw [hi])
  live a ha := by rw [hc a ha]; exact h.live a ha
  nonce a ha := (h.nonce a ha).congr (by rw [hacc]) (by rw [hi])
  code a ha := (h.code a ha).congr (by rw [hacc]) (by rw [hi])
  slots a ha k := (h.slots a ha k).congr (by rw [hacc]) (by rw [hc a ha]) fun _ => hl k

theorem Agrees.listed {c : CacheDB} {tx : EvmTransaction} (h : Agrees H p Q s)
    (hl : s.cacheDb.Listed H.keccak256 c) : Agrees H p Q { s.useNonce tx with cacheDb := c } := by
  refine h.congr rfl hl.db (hl.wf h.wf) (fun a => ?_) (fun a _ => ?_) fun k hk => ?_
  · rw [hl.cell_eq]
  · rw [hl.cell_eq]
  · obtain ⟨v, hv⟩ := Option.ne_none_iff_exists'.mp hk
    rw [hl.listed hv]
    simp

theorem Agrees.revert {tx : EvmTransaction} {b : Bridge} {d : CacheDB} (h : Agrees H p Q s)
    (hb : Bridged H s raw tx b) (hl : b.cacheDb.Listed H.keccak256 d) :
    Agrees H p Q { s.useNonce tx with cacheDb := revertBridge H tx b.borrowed d } := by
  refine h.congr rfl (revertBridge_db hb.bridged hl) (revertBridge_wf hb.bridged hl h.wf)
    (revertBridge_info hb.bridged hl h.wf)
    (fun a ha => revertBridge_cell_of_isLive hb.bridged hl h.wf (h.live a ha)) fun k hk => ?_
  rcases revertBridge_storage hb.bridged hl k with e | ⟨e, -⟩
  · exact fun he => hk (e.symm.trans he)
  · exact absurd e hk

section Executed

variable {tx : EvmTransaction} {b : Bridge} {c : CacheDB} {res : EvmExecutionResult} {d : EvmState}
  {gasTracker : BlockGasTracker}

theorem InfoTracks.ran {α : Type*} {f : AccountInfo → α} {y : α} {a : Address}
    (R : RanIn H blk s raw tx b c res d)
    (hr : RevmSpec (b.cacheDb.view H.keccak256) tx.caller d) (hw : s.cacheDb.WF H.keccak256)
    (hf : ∀ info, f (CacheDB.insertContract H.keccak256 info) = f info)
    (hsd : ∀ r, d a = some r → r.status.touched → r.status.selfdestructed → f r.info = f .empty)
    (hun : ∀ r, AsRead (c.view H.keccak256) a r → f r.info = f (c.cell H.keccak256 a).info)
    (h : InfoTracks H f y s.accumulatedState s.cacheDb a) :
    InfoTracks H f y (accumulate s.accumulatedState d) (c.commit H.keccak256 d) a := by
  refine InfoTracks.commit hf (fun hd => ?_) hsd fun r hd ht => hun r (R.asRead hr hd ht)
  -- an account outside the delta is not the caller, so the pre-bridge left it alone
  obtain ⟨r, hc, -, -⟩ := hr.caller_touched
  have hne : a ≠ tx.caller := fun he => by
    rw [← he, hd] at hc
    cases hc
  refine h.congr rfl ?_
  rw [R.info hw, if_neg hne]

theorem Agrees.commitTx (h : Agrees H p Q s)
    (hr : RevmSpec (b.cacheDb.view H.keccak256) tx.caller d) (R : RanIn H blk s raw tx b c res d)
    (hB : 0 < b.borrowed → Settles H blk s tx b c res d)
    (hD : ∀ a r, d a = some r → r.status.touched → (r.status.selfdestructed → r.info.balance = 0) ∧
      (a ∈ Q → ¬ r.status.selfdestructed ∧ (r.status.created → ∀ k, r.storage k = none →
          (p.applyFromRevmState s.accumulatedState).getStorage a k = 0))) :
    Agrees H p Q (Evm.commitTx H blk raw tx b c res d gasTracker s) := by
  have hview : ∀ a, (c.view H.keccak256).basic a = (c.cell H.keccak256 a).info :=
    fun a => CacheDB.basicRef_getD _ _ _
  have hali : ∀ a ∈ Q, ∀ r, d a = some r → r.status.touched → ¬ r.status.selfdestructed :=
    fun a ha r hd ht => ((hD a r hd ht).2 ha).1
  refine ⟨?_, commitTx_wf R hr h.wf, fun a => ?_, fun a ha => ?_, fun a ha => ?_, fun a ha => ?_,
    fun a ha k => ?_⟩
  · rw [commitTx_db, R.db, h.db]
  · refine InfoTracks.commitTx_balance R hr hB h.wf ?_
    refine InfoTracks.ran R hr h.wf (fun _ => rfl) (fun r hd ht hs => (hD a r hd ht).1 hs) ?_
      (h.balance a)
    intro r hread
    rw [hread.balance, hview]
  · exact commitTx_isLive R hr h.wf (h.live a ha) (hali a ha)
  · refine InfoTracks.commitTx_other hr hB (fun _ _ => rfl) ?_
    refine InfoTracks.ran R hr h.wf (fun _ => rfl)
      (fun r hd ht hs => absurd hs (hali a ha r hd ht)) ?_ (h.nonce a ha)
    intro r hread
    rw [hread.nonce, hview]
  · refine InfoTracks.commitTx_other hr hB (fun _ _ => rfl) ?_
    refine InfoTracks.ran R hr h.wf (fun _ => rfl)
      (fun r hd ht hs => absurd hs (hali a ha r hd ht)) ?_ (h.code a ha)
    intro r hread
    rcases hread.code with hc | hc
    · rw [hc, hview]
    · have hcode : (c.view H.keccak256).code a = _ := CacheDB.codeRef_eq H.keccak256 c a
      rw [hc, hcode, R.db, h.db]
      rfl
  · have hdel : DeltaAt (H := H) p s.accumulatedState d c a k :=
      { alive := hali a ha
        created := fun r hd ht hc hk => by
          rw [← getStorage_apply]
          exact ((hD a r hd ht).2 ha).2 hc k hk
        read := fun r sl hd ht hk => by
          rw [(R.asRead hr hd ht).storage k sl hk]
          exact CacheDB.storageRef_eq _ _ _ _ }
    by_cases hk : 0 < b.borrowed ∧ a = assetAddress ∧ k = callSlot H tx.caller
    · obtain ⟨hpos, rfl, rfl⟩ := hk
      exact SlotTracks.commitTx_call R hr h.wf (h.live _ ha) hpos (hB hpos) hdel
    · refine SlotTracks.commitTx_other hr hB hk ?_
      refine SlotTracks.commit ?_ (R.isLive h.wf (h.live a ha)) hdel
      exact (h.slots a ha k).congr rfl (R.slots h.wf (h.live a ha) hk) fun _ => R.listed_mono

end Executed

theorem agrees_executeTx (hr : RevmOk H blk s raw) (h : Agrees H p Q s) (hB : BridgeOk H blk s raw)
    (hD : DeltaOk H p Q blk s raw) : Agrees H p Q (executeTx H blk s raw).1 := by
  have hstep := executeTx_step H blk s raw
  generalize executeTx H blk s raw = out at hstep ⊢
  cases hstep with
  | undecodable | duplicate => exact h
  | unfunded => exact h.listed (.refl _)
  | invalid hb => exact h.revert hb (.refl _)
  | failed hb _ he => exact h.revert hb (executeTxCached_listed he)
  | dropped hb hv he hgas =>
    have R : RanIn H blk s raw _ _ _ _ _ := ⟨hb, hv, he⟩
    -- a transaction that bridged is not dropped, so the cache was only read
    rcases preBridge_cases H hb.bridged with N | L
    · have hl := R.listed
      rw [N.cacheDb] at hl
      exact h.listed hl
    · have := (hB _ _ _ _ _ R L.pos).1
      rw [hgas] at this
      cases this
  | @executed tx b c res d gasTracker hb hv he hgas =>
    have R : RanIn H blk s raw tx b c res d := ⟨hb, hv, he⟩
    have h' : Agrees H p Q (commitTx H blk raw tx b c res d gasTracker s) :=
      have hfits : (s.gasTracker.addGas res.gasUsed).isSome := by rw [hgas]; rfl
      h.commitTx (hr _ _ _ _ _ R hfits) R (fun hpos => (hB _ _ _ _ _ R hpos).2)
        (hD _ _ _ _ _ R hfits)
    exact ⟨h'.db, h'.wf, h'.balance, h'.live, h'.nonce, h'.code, h'.slots⟩

theorem agrees_executeLoop {txs : List Bytes}
    (hok : Run.Along (fun s raw => (executeTx H blk s raw).1)
      (fun s raw => RevmOk H blk s raw ∧ BridgeOk H blk s raw ∧ DeltaOk H p Q blk s raw)
      (.init p) txs) :
    Agrees H p Q (executeLoop H txs p blk) :=
  Run.invariant (fun _ _ h hc => agrees_executeTx hc.1 h hc.2.1 hc.2.2) hok agrees_init

/-- **The delta is the cache.** The returned delta, applied to the provider, is the cache's state:
balance, nonce and code of every account and the value of every slot. -/
theorem delta_matches_cache (H : Host) (p : InMemoryStateProvider)
    (blk : BlockParams) (txs : List Bytes) (hok : Run.Along (fun s raw => (executeTx H blk s raw).1)
      (fun s raw => RevmOk H blk s raw ∧ BridgeOk H blk s raw ∧ DeltaOk H p Set.univ blk s raw)
      (.init p) txs) :
    let c := (executeLoop H txs p blk).cacheDb
    let q := p.applyFromRevmState (executeBlockTransactions H txs p blk).2
    ∀ a, q.getBalance a = c.nativeBalance H.keccak256 a ∧
      q.getNonce a = ((c.basicRef H.keccak256 a).map (·.nonce)).getD 0 ∧
      q.getCode a = c.codeRef H.keccak256 a ∧
      ∀ k, q.getStorage a k = c.storageRef a k := by
  intro c q a
  have h := agrees_executeLoop hok
  have hQ := Set.mem_univ a
  refine ⟨?_, ?_, ?_, fun k => ?_⟩
  · rw [InMemoryStateProvider.getBalance_apply, CacheDB.nativeBalance_eq]
    exact (h.balance a).finalMerge h.wf
  · rw [InMemoryStateProvider.getNonce_apply, CacheDB.nonce_eq]
    exact (h.nonce a hQ).finalMerge h.wf
  · rw [InMemoryStateProvider.getCode_apply, CacheDB.codeRef_eq, h.db]
    exact (h.code a hQ).finalMerge h.wf
  · rw [InMemoryStateProvider.getStorage_apply, CacheDB.storageRef_eq H.keccak256]
    exact (h.slots a hQ k).finalMerge

/-! ### A block with one bridging transfer -/

def bridgingTx (gasLimit : U64) : EvmTransaction where
  caller := 0x1001
  nonce := 0
  gasLimit := gasLimit
  gasPrice := 1
  maxPriorityFee := none
  txType := 0
  toAddr := some 0x1002
  value := 5
  data := []
  chainId := 1

def bridgingHost : Host :=
  Reference.host fun raw =>
    if raw = [0x7b] then some (bridgingTx 21000)
    else if raw = [0x7b, 0x7b] then some (bridgingTx 100000)
    else none

def protocolProvider : InMemoryStateProvider where
  accounts := Function.update (fun _ => none) assetAddress
    (some { storage := Function.update (fun _ => none) (callSlot bridgingHost 0x1001) (some 1000000) })

theorem revmOk_reference (json : Bytes → Option EvmTransaction) (blk : BlockParams)
    (s : BlockState) (raw : Bytes) : RevmOk (Reference.host json) blk s raw :=
  fun _ _ _ _ _ R _ => Reference.host_spec R.revm

theorem deltaOk_bridgingHost (p : InMemoryStateProvider) (Q : Set Address) (blk : BlockParams)
    (s : BlockState) (raw : Bytes) : DeltaOk bridgingHost p Q blk s raw := by
  intro tx b c res d R _ a r hd _
  obtain ⟨recipient, -, -, -, -, -, rfl⟩ := Reference.ran R.revm
  have hst := (Reference.delta_plain hd).1
  refine ⟨fun hs => ?_, fun _ => ⟨?_, fun hc => ?_⟩⟩
  · rw [hst] at hs; cases hs
  · rw [hst]; decide
  · rw [hst] at hc; cases hc

theorem bridgeOk_exact_gas : BridgeOk bridgingHost ⟨1, 0, 0⟩ (.init protocolProvider) [0x7b] := by
  intro tx b c res d R hpos
  have htx : tx = bridgingTx 21000 := by
    have h : decodeEvmTx bridgingHost [0x7b] = some (bridgingTx 21000) := by decide
    rw [R.bridged.decoded] at h
    exact Option.some.inj h
  subst htx
  have hb : b.borrowed = 21005 := by
    have h : (preBridge bridgingHost (bridgingTx 21000)
      (BlockState.init protocolProvider).cacheDb).map (·.borrowed) = some 21005 := by decide
    rw [R.bridged.bridged] at h
    exact Option.some.inj h
  have hpays := Reference.host_callerPays R.revm
  obtain ⟨recipient, -, hgas, -, -, -, rfl⟩ := Reference.ran R.revm
  have hg : res.gasUsed = 21000 := by
    rw [hgas, Reference.gas]; split_ifs <;> rfl
  have hz : refundIn ⟨1, 0, 0⟩ (bridgingTx 21000) b res = 0 := by
    rw [refundIn, hb, hg]; decide
  refine ⟨by rw [hg]; decide, ⟨by decide, hpays, fun h => ?_, fun _ v hv => ?_⟩⟩
  · rw [hz] at h; exact absurd h (by decide)
  · rw [recorded_accumulate] at hv
    simp [recorded, Reference.recorded_none, BlockState.init] at hv

theorem exact_gas_matches_cache :
    let c := (executeLoop bridgingHost [[0x7b]] protocolProvider ⟨1, 0, 0⟩).cacheDb
    let q := protocolProvider.applyFromRevmState
      (executeBlockTransactions bridgingHost [[0x7b]] protocolProvider ⟨1, 0, 0⟩).2
    ∀ a, q.getBalance a = c.nativeBalance bridgingHost.keccak256 a ∧
      q.getNonce a = ((c.basicRef bridgingHost.keccak256 a).map (·.nonce)).getD 0 ∧
      q.getCode a = c.codeRef bridgingHost.keccak256 a ∧
      ∀ k, q.getStorage a k = c.storageRef a k :=
  delta_matches_cache bridgingHost protocolProvider ⟨1, 0, 0⟩ [[0x7b]]
    ⟨⟨revmOk_reference _ _ _ _, bridgeOk_exact_gas, deltaOk_bridgingHost _ _ _ _ _⟩, trivial⟩

/-- Of 100005 CALL bridged, 5 are sent and 21000 pay for gas; the cache gives the
protocol balance 1000000 - 21005, the delta 79000 more. -/
theorem refund_counted_twice : (∀ s raw, RevmOk bridgingHost ⟨1, 0, 0⟩ s raw) ∧
    (executeLoop bridgingHost [[0x7b, 0x7b]] protocolProvider ⟨1, 0, 0⟩).cacheDb.storageRef
      assetAddress (callSlot bridgingHost 0x1001) = 978995 ∧
    (protocolProvider.applyFromRevmState (executeBlockTransactions bridgingHost [[0x7b, 0x7b]]
      protocolProvider ⟨1, 0, 0⟩).2).getStorage assetAddress (callSlot bridgingHost 0x1001) =
        978995 + 79000 :=
  ⟨revmOk_reference _ _, by decide, by decide⟩

end Callchain.Evm

/-
# Native balance and protocol CALL together

The gas pre-bridge turns protocol CALL (a slot of `ASSET_ADDRESS`) into native balance,
and the refund turns it back. Over the cache both are moves, so the sum of all native
balances and all CALL slots falls by the fees that revm burns, and by nothing else
(`worldSupply_executeTx`). Over the returned delta the same holds for blocks whose steps
meet `BridgeOk`, and in which a destroyed account ends empty (`supply_executeBlock`).
-/
import Callchain.Evm.Delta

namespace Callchain.Evm

open Ledger
open DbAccount (slot_of_listed slots_cell)
open CacheDB (cell_commit nativeBalance_eq)

variable (H : Host)

/-- CALL in circulation, as EVM balances and as protocol balances. -/
def supply (p : InMemoryStateProvider) : ℕ :=
  total fun a => (p.getBalance a).toNat + (p.getStorage assetAddress (callSlot H a)).toNat

def worldSupply (c : CacheDB) : ℕ :=
  total (fun a => (c.cell H.keccak256 a).info.balance.toNat) +
    total fun a => ((c.cell H.keccak256 assetAddress).slots (callSlot H a)).toNat

/-- An executed transaction leaves the account of `ASSET_ADDRESS` in place, and the CALL
slots it lists there as they were. -/
def KeepsCall (blk : BlockParams) (s : BlockState) (raw : Bytes) : Prop :=
  ∀ tx b c res d, RanIn H blk s raw tx b c res d → (s.gasTracker.addGas res.gasUsed).isSome →
    ∀ r, d assetAddress = some r → r.status.touched →
      ¬ r.status.selfdestructed ∧ ¬ r.status.created ∧
        ∀ a sl, r.storage (callSlot H a) = some sl →
          sl.presentValue = c.storageRef assetAddress (callSlot H a)

def burned (fee : DbView → TxEnv → BlockEnv → ℕ) (blk : BlockParams) (s : BlockState)
    (raw : Bytes) : ℕ :=
  match decodeEvmTx H raw, (executeTx H blk s raw).2 with
  | some tx, .executed =>
    match preBridge H tx s.cacheDb with
    | some b => fee (b.cacheDb.view H.keccak256) tx.txEnv blk.env
    | none => 0
  | _, _ => 0

/-- An executed transaction conserves native balance up to `fee`, which goes to nobody. -/
def Conserves (fee : DbView → TxEnv → BlockEnv → ℕ) (blk : BlockParams) (s : BlockState)
    (raw : Bytes) : Prop :=
  ∀ tx b c res d, RanIn H blk s raw tx b c res d → (s.gasTracker.addGas res.gasUsed).isSome →
    total (balanceAfter (b.cacheDb.view H.keccak256) d) +
        fee (b.cacheDb.view H.keccak256) tx.txEnv blk.env =
      total fun a => ((b.cacheDb.view H.keccak256).basic a).balance.toNat

variable {H} {blk : BlockParams} {s : BlockState} {raw : Bytes} {tx : EvmTransaction} {b : Bridge}
  {c : CacheDB} {res : EvmExecutionResult} {d : EvmState}

theorem worldSupply_congr {c' : CacheDB}
    (hi : ∀ a, (c'.cell H.keccak256 a).info.balance = (c.cell H.keccak256 a).info.balance)
    (hs : ∀ a, (c'.cell H.keccak256 assetAddress).slots (callSlot H a) =
      (c.cell H.keccak256 assetAddress).slots (callSlot H a)) :
    worldSupply H c' = worldSupply H c := by
  unfold worldSupply
  rw [total_congr fun a => congrArg BitVec.toNat (hi a), total_congr fun a => congrArg BitVec.toNat (hs a)]

/-! ### The three moves -/

theorem Loan.worldSupply (L : Loan H tx c b) (hinj : Function.Injective (callSlot H))
    (hpre : preBridge H tx c = some b) (hw : c.WF H.keccak256)
    (hl : (c.cell H.keccak256 assetAddress).store.IsLive) :
    Evm.worldSupply H b.cacheDb = Evm.worldSupply H c := by
  have hP : callBalance H c tx.caller =
      (c.cell H.keccak256 assetAddress).slots (callSlot H tx.caller) :=
    c.storageRef_eq H.keccak256 _ _
  have hbal := total_of_agree
    (f := fun a => (c.cell H.keccak256 a).info.balance.toNat)
    (g := fun a => (b.cacheDb.cell H.keccak256 a).info.balance.toNat) tx.caller
    (fun a ha => by rw [preBridge_info hpre hw, if_neg ha])
  have hslot := total_of_agree
    (f := fun a => ((c.cell H.keccak256 assetAddress).slots (callSlot H a)).toNat)
    (g := fun a => ((b.cacheDb.cell H.keccak256 assetAddress).slots (callSlot H a)).toNat) tx.caller
    (fun a ha => by rw [preBridge_slots hpre hw hl fun h => ha (hinj h.2.2)])
  have h1 : (b.cacheDb.cell H.keccak256 tx.caller).info.balance.toNat = tx.required.toNat := by
    rw [preBridge_info hpre hw, if_pos rfl, ← L.balance_toNat, nativeBalance_eq]
  have h2 : ((b.cacheDb.cell H.keccak256 assetAddress).slots (callSlot H tx.caller)).toNat =
      (callBalance H c tx.caller).toNat - b.borrowed.toNat := by
    rw [CacheDB.cell, slots_cell, slot_of_listed L.slot_listed]
    exact BitVec.toNat_sub_of_le L.covered
  have h3 := L.borrowed_toNat
  have h4 := L.short
  have h5 := L.covered
  rw [BitVec.lt_def, nativeBalance_eq] at h4
  rw [BitVec.le_def] at h5
  rw [nativeBalance_eq] at h3
  unfold Evm.worldSupply
  rw [← hP] at hslot
  omega

section

variable (R : RanIn H blk s raw tx b c res d) (hk : KeepsCall H blk s raw)
  (hfits : (s.gasTracker.addGas res.gasUsed).isSome)
  (hl : (c.cell H.keccak256 assetAddress).store.IsLive)
include R hk hfits hl

theorem RanIn.slots_commit_call (a : Address) :
    ((c.commit H.keccak256 d).cell H.keccak256 assetAddress).slots (callSlot H a) =
      (c.cell H.keccak256 assetAddress).slots (callSlot H a) := by
  cases hd : d assetAddress with
  | none => rw [cell_commit, hd]
  | some r =>
    by_cases ht : r.status.touched
    · obtain ⟨hsd, hcr, hk⟩ := hk _ _ _ _ _ R hfits r hd ht
      rw [slots_commit hl hd ht hsd, if_neg hcr]
      cases hr : r.storage (callSlot H a) with
      | none => rfl
      | some sl =>
        rw [Option.map_some, hk a sl hr]
        exact CacheDB.storageRef_eq _ _ _ _
    · rw [cell_commit, hd]; simp [ht]

theorem RanIn.worldSupply_commit {fee : DbView → TxEnv → BlockEnv → ℕ}
    (hcons : Conserves H fee blk s raw) :
    worldSupply H (c.commit H.keccak256 d) + fee (b.cacheDb.view H.keccak256) tx.txEnv blk.env =
      worldSupply H c := by
  have hview : ∀ a, (b.cacheDb.view H.keccak256).basic a = (c.cell H.keccak256 a).info := fun a => by
    rw [R.view_eq]; exact CacheDB.basicRef_getD _ _ _
  have hc := hcons _ _ _ _ _ R hfits
  have hbal : ∀ a, balanceAfter (b.cacheDb.view H.keccak256) d a =
      ((c.commit H.keccak256 d).cell H.keccak256 a).info.balance.toNat := fun a => by
    rw [cell_commit, balanceAfter, hview]
    cases hd : d a with
    | none => rfl
    | some =>
      dsimp only
      split_ifs with ht hs
      · rw [Cell.commit, if_pos hs]; rfl
      · rw [Cell.commit, if_neg hs]; rfl
      · rfl
  rw [total_congr hbal, total_congr fun a => congrArg (fun i => i.balance.toNat) (hview a)] at hc
  unfold worldSupply
  rw [total_congr fun a => congrArg BitVec.toNat (R.slots_commit_call hk hfits hl a)]
  omega

end

theorem worldSupply_refund {refund : U256} (hinj : Function.Injective (callSlot H))
    (hex : (c.entry H.keccak256 tx.caller).accountState ≠ .notExisting)
    (hle : refund.toNat ≤ (c.cell H.keccak256 tx.caller).info.balance.toNat)
    (hlist : 0 < refund → listedCall H c tx.caller =
      (c.cell H.keccak256 assetAddress).slots (callSlot H tx.caller))
    (hfit : 0 < refund → (listedCall H c tx.caller).toNat + refund.toNat < 2 ^ 256) :
    worldSupply H (refundCache H tx refund c) = worldSupply H c := by
  by_cases hpos : 0 < refund
  · have hbal := total_of_agree
      (f := fun a => (c.cell H.keccak256 a).info.balance.toNat)
      (g := fun a => ((refundCache H tx refund c).cell H.keccak256 a).info.balance.toNat) tx.caller
      (fun a ha => by rw [refundCache_info H hex hpos, if_neg ha])
    have hslot := total_of_agree
      (f := fun a => ((c.cell H.keccak256 assetAddress).slots (callSlot H a)).toNat)
      (g := fun a => (((refundCache H tx refund c).cell H.keccak256 assetAddress).slots
        (callSlot H a)).toNat) tx.caller
      (fun a ha => by rw [refundCache_slots H hex hpos, if_neg fun h => ha (hinj h.2)])
    have h1 : ((refundCache H tx refund c).cell H.keccak256 tx.caller).info.balance.toNat =
        (c.cell H.keccak256 tx.caller).info.balance.toNat - refund.toNat := by
      rw [refundCache_info H hex hpos, if_pos rfl]
      exact BitVec.toNat_sub_of_le (BitVec.le_def.mpr hle)
    have h2 : (((refundCache H tx refund c).cell H.keccak256 assetAddress).slots
        (callSlot H tx.caller)).toNat =
        ((c.cell H.keccak256 assetAddress).slots (callSlot H tx.caller)).toNat + refund.toNat := by
      rw [refundCache_slots H hex hpos, if_pos ⟨rfl, rfl⟩, BitVec.toNat_add_of_lt (hfit hpos),
        hlist hpos]
    unfold worldSupply
    omega
  · have hz : refund = 0 := by bv_omega
    rw [hz, refundCache_zero]

/-! ### One iteration -/

theorem refundIn_le_borrowed : (refundIn blk tx b res).toNat ≤ b.borrowed.toNat := by
  unfold refundIn txRefund refundOf
  split_ifs
  · rw [U256.saturatingSub_toNat, U256.saturatingSub_toNat]; omega
  · simp

theorem RanIn.worldSupply_commitTx {fee : DbView → TxEnv → BlockEnv → ℕ}
    {gasTracker : BlockGasTracker}
    (R : RanIn H blk s raw tx b c res d) (hr : RevmOk H blk s raw) (hcons : Conserves H fee blk s raw)
    (hinj : Function.Injective (callSlot H)) (hw : s.cacheDb.WF H.keccak256)
    (hlive : (s.cacheDb.cell H.keccak256 assetAddress).store.IsLive)
    (hB : 0 < b.borrowed → Settles H blk s tx b c res d)
    (hk : KeepsCall H blk s raw) (hfits : (s.gasTracker.addGas res.gasUsed).isSome) :
    worldSupply H (commitTx H blk raw tx b c res d gasTracker s).cacheDb +
        fee (b.cacheDb.view H.keccak256) tx.txEnv blk.env = worldSupply H s.cacheDb := by
  have hlc := R.isLive hw hlive
  have hcom := R.worldSupply_commit hk hfits hlc hcons
  have hc : worldSupply H c = worldSupply H b.cacheDb :=
    worldSupply_congr (fun a => by rw [R.listed.cell_eq]) fun a => by rw [R.listed.cell_eq]
  have hcell : worldSupply H (commitTx H blk raw tx b c res d gasTracker s).cacheDb =
      worldSupply H (refundCache H tx (refundIn blk tx b res) (c.commit H.keccak256 d)) :=
    worldSupply_congr (fun a => by rw [commitTx_cell]) fun a => by rw [commitTx_cell]
  rcases preBridge_cases H R.bridged.bridged with N | L
  · have hz : refundIn blk tx b res = 0 := by simp [refundIn, txRefund, N.borrowed]
    rw [hcell, hz, refundCache_zero, hcom, hc, N.cacheDb]
  · have hspec := hr _ _ _ _ _ R hfits
    obtain ⟨r, hd, ht, hsd⟩ := hspec.caller_touched
    have hbal : ((c.commit H.keccak256 d).cell H.keccak256 tx.caller).info.balance =
        r.info.balance := by
      rw [cell_commit, hd]
      simp only [ht, if_true]
      rw [Cell.commit, if_neg hsd]
      rfl
    -- the slot the pre-bridge lowered is still listed, as lowered
    have hl0 : (c.entry H.keccak256 assetAddress).storage (callSlot H tx.caller) =
        some (callBalance H s.cacheDb tx.caller - b.borrowed) := R.listed.listed L.slot_listed
    obtain ⟨v, hv⟩ := Option.ne_none_iff_exists'.mp
      (listed_commit (d := d) (H := H) (c := c) (a := assetAddress) (k := callSlot H tx.caller)
        (by rw [hl0]; simp) fun r hr ht => (hk _ _ _ _ _ R hfits r hr ht).imp_right And.left)
    have hlist : listedCall H (c.commit H.keccak256 d) tx.caller =
        ((c.commit H.keccak256 d).cell H.keccak256 assetAddress).slots (callSlot H tx.caller) := by
      rw [listedCall, hv, CacheDB.cell, slots_cell, slot_of_listed hv]
      rfl
    have hval : ((c.commit H.keccak256 d).cell H.keccak256 assetAddress).slots
        (callSlot H tx.caller) = callBalance H s.cacheDb tx.caller - b.borrowed := by
      rw [R.slots_commit_call hk hfits hlc, CacheDB.cell, slots_cell,
        slot_of_listed hl0]
    have href : worldSupply H (refundCache H tx (refundIn blk tx b res) (c.commit H.keccak256 d)) =
        worldSupply H (c.commit H.keccak256 d) := worldSupply_refund hinj hspec.caller_exists
      (by rw [hbal]; exact R.refund_le (hB L.pos) hw hd) (fun _ => hlist) (fun _ => by
        have h1 : (refundIn blk tx b res).toNat ≤ b.borrowed.toNat := refundIn_le_borrowed
        have h2 := L.covered
        rw [hlist, hval, BitVec.toNat_sub_of_le h2]
        omega)
    rw [hcell, href, hcom, hc, L.worldSupply hinj R.bridged.bridged hw hlive]

variable {p : InMemoryStateProvider} {fee : DbView → TxEnv → BlockEnv → ℕ}

theorem worldSupply_executeTx (hr : RevmOk H blk s raw) (hcons : Conserves H fee blk s raw)
    (hinj : Function.Injective (callSlot H)) (h : Agrees H p {assetAddress} s)
    (hB : BridgeOk H blk s raw) (hK : KeepsCall H blk s raw) :
    worldSupply H (executeTx H blk s raw).1.cacheDb + burned H fee blk s raw =
      worldSupply H s.cacheDb := by
  have hlive := h.live assetAddress rfl
  have hrev : ∀ {tx b} {c : CacheDB}, Bridged H s raw tx b → b.cacheDb.Listed H.keccak256 c →
      worldSupply H (revertBridge H tx b.borrowed c) = worldSupply H s.cacheDb := fun hb hl =>
    worldSupply_congr (fun a => by rw [revertBridge_info hb.bridged hl h.wf])
      fun a => by rw [revertBridge_cell_of_isLive hb.bridged hl h.wf hlive]
  unfold burned
  have hstep := executeTx_step H blk s raw
  generalize executeTx H blk s raw = out at hstep ⊢
  cases hstep with
  | undecodable hd => rw [hd]; exact Nat.add_zero _
  | duplicate hd => rw [hd]; exact Nat.add_zero _
  | unfunded hd => rw [hd]; exact Nat.add_zero _
  | invalid hb => rw [hb.decoded]; exact (Nat.add_zero _).trans (hrev hb (.refl _))
  | failed hb _ he =>
    rw [hb.decoded]
    exact (Nat.add_zero _).trans (hrev hb (executeTxCached_listed he))
  | dropped hb hv he hgas =>
    rw [hb.decoded]
    have R : RanIn H blk s raw _ _ _ _ _ := ⟨hb, hv, he⟩
    rcases preBridge_cases H hb.bridged with N | L
    · have hl := R.listed
      rw [N.cacheDb] at hl
      exact (Nat.add_zero _).trans
        (worldSupply_congr (fun a => by rw [hl.cell_eq]) fun a => by rw [hl.cell_eq])
    · have := (hB _ _ _ _ _ R L.pos).1
      rw [hgas] at this
      cases this
  | @executed tx b c res d gasTracker hb hv he hgas =>
    have R : RanIn H blk s raw tx b c res d := ⟨hb, hv, he⟩
    rw [hb.decoded]
    simp only [hb.bridged]
    show worldSupply H (commitTx H blk raw tx b c res d gasTracker s).cacheDb + _ = _
    exact R.worldSupply_commitTx hr hcons hinj h.wf hlive (fun hpos => (hB _ _ _ _ _ R hpos).2)
      hK (by rw [hgas]; rfl)

/-! ### The whole block -/

theorem deltaOk_asset (hD : DeltaOk H p ∅ blk s raw) (hK : KeepsCall H blk s raw) :
    DeltaOk H p {assetAddress} blk s raw := by
  intro tx b c res d R hgas a r hd ht
  refine ⟨(hD tx b c res d R hgas a r hd ht).1, fun ha => ?_⟩
  subst ha
  obtain ⟨hsd, hcr, -⟩ := hK tx b c res d R hgas r hd ht
  exact ⟨hsd, fun h => absurd h hcr⟩

theorem Agrees.supply (h : Agrees H p {assetAddress} s) :
    Evm.supply H (p.applyFromRevmState (finalMerge H s.cacheDb s.accumulatedState)) =
      worldSupply H s.cacheDb := by
  unfold Evm.supply worldSupply
  rw [total_add]
  refine congrArg₂ (· + ·) (total_congr fun a => ?_) (total_congr fun a => ?_)
  · rw [InMemoryStateProvider.getBalance_apply]
    exact congrArg BitVec.toNat ((h.balance a).finalMerge h.wf)
  · rw [InMemoryStateProvider.getStorage_apply]
    exact congrArg BitVec.toNat (h.slots assetAddress rfl _).finalMerge

theorem supply_init : worldSupply H (BlockState.init p).cacheDb = supply H p := by
  unfold supply worldSupply
  rw [total_add]
  refine congrArg₂ (· + ·) (total_congr fun a => ?_) (total_congr fun a => ?_)
  · exact congrArg BitVec.toNat ((agrees_init (H := H) (p := p) (Q := ∅)).balance a).symm
  · show (((CacheDB.new p).cell H.keccak256 assetAddress).store.get (callSlot H a)).toNat = _
    rw [(cell_new assetAddress).1]
    rfl

/-- **A block conserves CALL.** A block lowers native balance and protocol CALL together by
exactly the fees it burns: the pre-bridge and its refund neither create nor destroy CALL. -/
theorem supply_executeBlock (H : Host) (fee : DbView → TxEnv → BlockEnv → ℕ)
    (hinj : Function.Injective (callSlot H))
    (p : InMemoryStateProvider) (blk : BlockParams) (txs : List Bytes)
    (hkeep : Run.Along (fun s raw => (executeTx H blk s raw).1) (KeepsCall H blk) (.init p) txs)
    (hok : Run.Along (fun s raw => (executeTx H blk s raw).1)
      (fun s raw => RevmOk H blk s raw ∧ Conserves H fee blk s raw ∧ BridgeOk H blk s raw ∧
        DeltaOk H p ∅ blk s raw) (.init p) txs) :
    supply H (p.applyFromRevmState (executeBlockTransactions H txs p blk).2) +
        Run.tally (fun s raw => (executeTx H blk s raw).1) (burned H fee blk) (.init p) txs =
      supply H p := by
  have hall := hok.and hkeep
  have hinv : ∀ s raw, Agrees H p {assetAddress} s →
      ((RevmOk H blk s raw ∧ Conserves H fee blk s raw ∧ BridgeOk H blk s raw ∧
        DeltaOk H p ∅ blk s raw) ∧ KeepsCall H blk s raw) →
      Agrees H p {assetAddress} (executeTx H blk s raw).1 := fun s raw h hc =>
    agrees_executeTx hc.1.1 h hc.1.2.2.1 (deltaOk_asset hc.1.2.2.2 hc.2)
  have hend : Agrees H p {assetAddress} (executeLoop H txs p blk) :=
    Run.invariant hinv hall agrees_init
  have hsum := Run.conserved (M := fun s : BlockState => worldSupply H s.cacheDb) hinv
    (fun s raw h hc => worldSupply_executeTx hc.1.1 hc.1.2.1 hinj h hc.1.2.2.1 hc.2) hall agrees_init
  have hq : supply H (p.applyFromRevmState (executeBlockTransactions H txs p blk).2) =
      worldSupply H (executeLoop H txs p blk).cacheDb := hend.supply
  rw [hq, ← supply_init (p := p)]
  exact hsum

/-! ### The bridging block again -/

theorem keepsCall_bridgingHost (blk : BlockParams) (s : BlockState) (raw : Bytes) :
    KeepsCall bridgingHost blk s raw := by
  intro tx b c res d R _ r hd _
  obtain ⟨recipient, -, -, -, -, -, rfl⟩ := Reference.ran R.revm
  obtain ⟨hst, hsto⟩ := Reference.delta_plain hd
  refine ⟨by rw [hst]; decide, by rw [hst]; decide, fun a sl h => ?_⟩
  rw [hsto] at h
  cases h

theorem conserves_bridgingHost (blk : BlockParams) (s : BlockState) (raw : Bytes) :
    Conserves bridgingHost Reference.fee blk s raw :=
  fun _ _ _ _ _ R _ => Reference.host_conserves R.revm

theorem callSlot_bridgingHost_injective : Function.Injective (callSlot bridgingHost) :=
  Reference.callSlot_injective _

theorem exact_gas_supply : supply bridgingHost (protocolProvider.applyFromRevmState
        (executeBlockTransactions bridgingHost [[0x7b]] protocolProvider ⟨1, 0, 0⟩).2) +
      Run.tally (fun s raw => (executeTx bridgingHost ⟨1, 0, 0⟩ s raw).1)
        (burned bridgingHost Reference.fee ⟨1, 0, 0⟩) (.init protocolProvider) [[0x7b]] =
      supply bridgingHost protocolProvider :=
  supply_executeBlock bridgingHost Reference.fee callSlot_bridgingHost_injective protocolProvider
    ⟨1, 0, 0⟩ [[0x7b]] ⟨keepsCall_bridgingHost _ _ _, trivial⟩
    ⟨⟨revmOk_reference _ _ _ _, conserves_bridgingHost _ _ _, bridgeOk_exact_gas,
      deltaOk_bridgingHost _ _ _ _ _⟩, trivial⟩

theorem supply_protocolProvider : supply bridgingHost protocolProvider = 1000000 := by
  have hbal : ∀ a, protocolProvider.getBalance a = 0 := fun a => by
    by_cases ha : a = assetAddress
    · subst ha; decide
    · simp [InMemoryStateProvider.getBalance, protocolProvider, ha]
  have hslot : ∀ a, a ≠ 0x1001 →
      protocolProvider.getStorage assetAddress (callSlot bridgingHost a) = 0 := fun a ha => by
    have hne : callSlot bridgingHost a ≠ callSlot bridgingHost 0x1001 :=
      fun h => ha (callSlot_bridgingHost_injective h)
    simp only [InMemoryStateProvider.getStorage, protocolProvider, Function.update_self,
      Option.bind_some, Function.update_of_ne hne]
    rfl
  unfold supply total
  rw [Finset.sum_eq_single 0x1001]
  · rw [hbal]; decide
  · intro a _ ha
    rw [hbal, hslot a ha]
    rfl
  · exact fun h => absurd (Finset.mem_univ _) h

/-- With gas to spare, the block creates CALL, although it burns 21000 of it and every
assumption about revm holds. -/
theorem refund_creates_call : (∀ s raw, RevmOk bridgingHost ⟨1, 0, 0⟩ s raw ∧
      Conserves bridgingHost Reference.fee ⟨1, 0, 0⟩ s raw ∧
      KeepsCall bridgingHost ⟨1, 0, 0⟩ s raw) ∧
    Function.Injective (callSlot bridgingHost) ∧
    supply bridgingHost protocolProvider < supply bridgingHost (protocolProvider.applyFromRevmState
        (executeBlockTransactions bridgingHost [[0x7b, 0x7b]] protocolProvider ⟨1, 0, 0⟩).2) := by
  refine ⟨fun s raw => ⟨revmOk_reference _ _ s raw, conserves_bridgingHost _ s raw,
    keepsCall_bridgingHost _ s raw⟩, callSlot_bridgingHost_injective, ?_⟩
  set q := protocolProvider.applyFromRevmState
    (executeBlockTransactions bridgingHost [[0x7b, 0x7b]] protocolProvider ⟨1, 0, 0⟩).2
  have hq : (q.getStorage assetAddress (callSlot bridgingHost 0x1001)).toNat = 1057995 := by decide
  have hle : (q.getBalance 0x1001).toNat +
      (q.getStorage assetAddress (callSlot bridgingHost 0x1001)).toNat ≤ supply bridgingHost q :=
    le_total (fun a => (q.getBalance a).toNat +
      (q.getStorage assetAddress (callSlot bridgingHost a)).toNat) 0x1001
  rw [supply_protocolProvider]
  omega

end Callchain.Evm

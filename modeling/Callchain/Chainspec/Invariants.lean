/-
# The invariants of the genesis state

What the protocol relies on of the state it starts from, and for which configurations
the genesis executor gives it:

* the balances of an asset add up to its supply, unless two entries name one address, or
  the symbol or the name is too long and the supply is not written;
* a CALL balance is the one listed, unless a later entry of any asset names its address:
  it writes the native balance too;
* the escrow holds the stake of the last validator, every validator has one id if no
  address is listed twice, and their number is never written.
-/
import Callchain.Chainspec.Registration
import Callchain.Switch.Precompile

namespace Callchain.Chainspec

open Asset Validator LastWrite
open BitVec (eq_of_toNat_eq ofNat toNat_ofNat)

/-! ### A successful execution -/

theorem duplicateAssetId_eq_none : ∀ {seen ids : List U64},
    duplicateAssetId seen ids = none → ids.Nodup ∧ ∀ id ∈ ids, id ∉ seen
  | _, [], _ => ⟨List.nodup_nil, fun _ h => absurd h List.not_mem_nil⟩
  | seen, id :: ids, h => by
    unfold duplicateAssetId at h
    split_ifs at h with hseen
    obtain ⟨hnod, hrest⟩ := duplicateAssetId_eq_none h
    refine ⟨List.nodup_cons.2 ⟨fun hmem => hrest id hmem List.mem_cons_self, hnod⟩, ?_⟩
    intro x hx
    rcases List.mem_cons.1 hx with rfl | hx
    · exact hseen
    · exact fun hmem => hrest x hx (List.mem_cons_of_mem _ hmem)

theorem validate_ok {g : Genesis} (h : validate g = .ok ()) :
    g.validators ≠ [] ∧ (g.initialAssets.map (·.assetId)).Nodup := by
  obtain ⟨-, h⟩ := ite_error_eq_ok.1 h
  obtain ⟨-, h⟩ := ite_error_eq_ok.1 h
  obtain ⟨-, h⟩ := ite_error_eq_ok.1 h
  obtain ⟨hval, h⟩ := ite_error_eq_ok.1 h
  obtain ⟨-, h⟩ := ite_error_eq_ok.1 h
  obtain ⟨-, h⟩ := ite_error_eq_ok.1 h
  refine ⟨fun hnil => hval (by rw [hnil]; rfl), ?_⟩
  cases hdup : duplicateAssetId [] (g.initialAssets.map (·.assetId)) with
  | some =>
    rw [hdup] at h
    cases h
  | none => exact (duplicateAssetId_eq_none hdup).1

structure Executed (K : Bytes → B256) (vm : Vm) (g : Genesis) (st : GenesisState) : Prop where
  steps : ∃ p₁ p₂, registerAssets Provider.new g.initialAssets = .ok p₁ ∧
    registerValidators p₁ 0 g.validators = .ok p₂ ∧
    deployEvmTemplates vm g.chainId p₂ g.initialAssets = .ok st.evmState
  validators : g.validators ≠ []
  ids : (g.initialAssets.map (·.assetId)).Nodup
  root : st.stateRoot = computeEvmStateRoot K st.evmState

theorem execute_ok {K : Bytes → B256} {vm : Vm} {g : Genesis} {st : GenesisState}
    (h : execute K vm g = .ok st) : Executed K vm g st := by
  unfold execute at h
  obtain ⟨⟨⟩, hvali, h⟩ := except_bind_eq_ok.1 h
  obtain ⟨p₁, hass, h⟩ := except_bind_eq_ok.1 h
  obtain ⟨p₂, hsta, h⟩ := except_bind_eq_ok.1 h
  obtain ⟨p₃, hdep, h⟩ := except_bind_eq_ok.1 h
  cases h
  obtain ⟨hval, hids⟩ := validate_ok hvali
  exact ⟨⟨p₁, p₂, hass, hsta, hdep⟩, hval, hids, rfl⟩

/-! ### Supplies -/

def protocolTotal (p : Provider) (assetId : U64) : ℕ :=
  Ledger.total fun a : Address => (p.slots (.balance assetId a)).toNat

def recordedSupply (p : Provider) (assetId : U64) : ℕ :=
  (p.slots (.assetMeta assetId .supply)).toNat

/-- An entry that is followed by one of the same address gives nothing; if the supply is not
written, no address is left with a balance. -/
def GenesisAsset.SupplyKept (asset : GenesisAsset) : Prop :=
  if asset.Fits then asset.entries.Pairwise fun e e' => e.1 = e'.1 → e.2 = 0
  else ∀ e, IsLast asset.entries e → e.2 = 0

def amounts (entries : List (Address × U128)) : List (Address × ℕ) :=
  entries.map fun e => (e.1, e.2.toNat)

variable (entries : List (Address × U128))

theorem writeAll_words_toNat (a : Address) :
    (writeAll (fun _ => 0) (words entries) a).toNat = writeAll (fun _ => 0) (amounts entries) a := by
  rw [writeAll_map BitVec.toNat]
  have hamo : (words entries).map (fun w => (w.1, w.2.toNat)) = amounts entries := by
    simp only [words, amounts, List.map_map]
    refine List.map_congr_left fun e _ => ?_
    exact Prod.ext rfl (u128ToU256_toNat e.2)
  rw [hamo]
  rfl

theorem allocated_eq : allocated entries = ((amounts entries).map Prod.snd).sum := by
  rw [amounts, List.map_map]
  rfl

theorem pairwise_amounts : ((amounts entries).Pairwise fun w w' => w.1 = w'.1 → w.2 = 0) ↔
      entries.Pairwise fun e e' => e.1 = e'.1 → e.2 = 0 := by
  rw [amounts, List.pairwise_map]
  refine List.Pairwise.iff fun e e' => imp_congr_right fun _ => ?_
  exact ⟨fun h => eq_of_toNat_eq h, fun h => by rw [h]; rfl⟩

theorem total_amounts_eq_zero_iff : Ledger.total (writeAll (fun _ => 0) (amounts entries)) = 0 ↔
      ∀ e, IsLast entries e → e.2 = 0 := by
  have hval : ∀ a, writeAll (fun _ => 0) (amounts entries) a =
      (writeAll (fun _ => (0 : U128)) entries a).toNat := by
    intro a
    rw [writeAll_map BitVec.toNat]
    rfl
  constructor
  · intro htot e hlast
    have hle := Ledger.le_total (writeAll (fun _ => 0) (amounts entries)) e.1
    rw [htot, hval, writeAll_of_isLast hlast] at hle
    exact eq_of_toNat_eq (Nat.le_zero.1 hle)
  · intro hlast
    refine Ledger.total_eq_zero fun a => ?_
    rw [hval]
    by_cases ha : a ∈ entries.map Prod.fst
    · obtain ⟨v, hv⟩ := exists_isLast ha
      have hzero : v = 0 := hlast _ hv
      rw [writeAll_of_isLast hv, hzero]
      rfl
    · rw [writeAll_of_notMem ha]
      rfl

section
variable {K : Bytes → B256} {vm : Vm} {g : Genesis} {st : GenesisState}

theorem supply_iff (hvm : vm.TokenOnly) (h : Executed K vm g st) {asset : GenesisAsset}
    (hmem : asset ∈ g.initialAssets) (hne : asset.assetId ≠ callAssetId) :
    protocolTotal st.evmState asset.assetId = recordedSupply st.evmState asset.assetId ↔
      asset.SupplyKept := by
  obtain ⟨p₁, p₂, hass, hstak, hdep⟩ := h.steps
  have hsta := registerValidators_spec hstak
  have hdepl := deployEvmTemplates_spec hvm hdep
  obtain ⟨hbal, hsup⟩ := registerAssets_asset hass h.ids hmem
  have hslot : ∀ k : Slot, k.asset = some asset.assetId → st.evmState.slots k = p₁.slots k := by
    intro k hk
    rw [hdepl.slots k (by rintro a i rfl; cases hk), hsta.frame]
    rintro rfl
    exact hne (Option.some.inj hk).symm
  have htot : protocolTotal st.evmState asset.assetId =
      Ledger.total (writeAll (fun _ => 0) (amounts asset.entries)) := by
    refine Ledger.total_congr fun a => ?_
    rw [hslot _ rfl, hbal hne a]
    exact writeAll_words_toNat asset.entries a
  have hrec : recordedSupply st.evmState asset.assetId =
      if asset.Fits then allocated asset.entries else 0 := by
    rw [recordedSupply, hslot _ rfl]
    exact hsup rfl
  rw [htot, hrec, GenesisAsset.SupplyKept]
  by_cases hfits : asset.Fits
  · rw [if_pos hfits, if_pos hfits, allocated_eq, total_writeAll_eq_iff, pairwise_amounts]
  · rw [if_neg hfits, if_neg hfits]
    exact total_amounts_eq_zero_iff asset.entries

/-! ### Native balances -/

theorem native_iff (hvm : vm.TokenOnly) (h : Executed K vm g st) {e : Address × U128}
    (hmem : e ∈ g.initialAssets.flatMap (·.entries)) (hbri : e.1 ≠ bridgeEvmAddress)
    (hzero : e.1 ≠ 0) : st.evmState.getBalance e.1 = u128ToU256 e.2 ↔
      IsLast (g.initialAssets.flatMap (·.entries)) e := by
  obtain ⟨p₁, p₂, hass, hsta, hdep⟩ := h.steps
  have hbal : st.evmState.getBalance e.1 =
      u128ToU256 (writeAll (fun _ => 0) (g.initialAssets.flatMap (·.entries)) e.1) := by
    rw [(deployEvmTemplates_spec hvm hdep).native e.1 hbri hzero,
      (registerValidators_spec hsta).native, (registerAssets_spec hass).native,
      writeAll_map u128ToU256]
    rfl
  rw [hbal, ← writeAll_eq_iff (List.mem_map_of_mem hmem)]
  constructor
  · intro heq
    have htoN := congrArg BitVec.toNat heq
    exact eq_of_toNat_eq htoN
  · intro heq
    rw [heq]

/-! ### The escrow -/

theorem sum_eq_getLast_iff {l : List ℕ} (h : l ≠ []) :
    l.getLast h = l.sum ↔ ∀ n ∈ l.dropLast, n = 0 := by
  have hsum : l.sum = l.dropLast.sum + l.getLast h := by
    conv_lhs => rw [← List.dropLast_append_getLast h]
    rw [List.sum_append, List.sum_singleton]
  rw [← List.sum_eq_zero_iff]
  omega

theorem escrow_iff (hvm : vm.TokenOnly) (h : Executed K vm g st) :
    (st.evmState.slots (.balance callAssetId stakingEscrow)).toNat =
        (g.validators.map (·.selfStake.toNat)).sum ↔
      ∀ gv ∈ g.validators.dropLast, gv.selfStake = 0 := by
  obtain ⟨p₁, p₂, hass, hsta, hdep⟩ := h.steps
  have hesc : (st.evmState.slots (.balance callAssetId stakingEscrow)).toNat =
      (g.validators.getLast h.validators).selfStake.toNat := by
    rw [(deployEvmTemplates_spec hvm hdep).slots _ (by rintro a i hk; cases hk),
      (registerValidators_spec hsta).escrow h.validators]
    exact u128ToU256_toNat _
  have hmap : g.validators.map (·.selfStake.toNat) ≠ [] := by
    simpa using h.validators
  have hlast : (g.validators.getLast h.validators).selfStake.toNat =
      (g.validators.map (·.selfStake.toNat)).getLast hmap := by
    rw [List.getLast_map]
  rw [hesc, hlast, sum_eq_getLast_iff hmap, ← List.map_dropLast, List.forall_mem_map]
  refine forall₂_congr fun gv _ => ?_
  exact ⟨fun hz => eq_of_toNat_eq hz, fun hz => by rw [hz]; rfl⟩

/-! ### Ids -/

variable {validators : List GenesisValidator}

theorem mem_numbered_keys {i : ℕ} {id : U64} (h : id ∈ (numbered i validators).map Prod.fst) :
    ∃ j, i < j ∧ j ≤ i + validators.length ∧ id = ofNat 64 j := by
  induction validators generalizing i with
  | nil => simp [numbered] at h
  | cons gv rest ih =>
    rw [numbered, List.map_cons, List.mem_cons] at h
    rcases h with rfl | h
    · exact ⟨i + 1, by omega, by simp, rfl⟩
    · obtain ⟨j, hlt, hle, rfl⟩ := ih h
      exact ⟨j, by omega, by simp; omega, rfl⟩

theorem validatorAddr_numbered {i j : ℕ} (f : U64 → Address)
    (hj : j < validators.length) (hlen : i + validators.length < 2 ^ 64) :
    writeAll f (numbered i validators) (ofNat 64 (i + j + 1)) =
      addressOf (validators.get ⟨j, hj⟩).address := by
  induction validators generalizing i j f with
  | nil => simp at hj
  | cons gv rest ih =>
    rw [List.length_cons] at hlen hj
    rw [numbered, writeAll_cons]
    cases j with
    | zero =>
      have hfre : ofNat 64 (i + 0 + 1) ∉ (numbered (i + 1) rest).map Prod.fst := by
        intro hmem
        obtain ⟨j, hlt, hle, heq⟩ := mem_numbered_keys hmem
        have htoN := congrArg BitVec.toNat heq
        rw [toNat_ofNat, toNat_ofNat] at htoN
        omega
      rw [writeAll_of_notMem hfre]
      exact Function.update_self _ _ _
    | succ j =>
      have hnext := ih (i := i + 1) (j := j)
        (Function.update f (ofNat 64 (i + 1)) (addressOf gv.address)) (by omega) (by omega)
      rwa [show i + (j + 1) + 1 = i + 1 + j + 1 by omega]

theorem existsUnique_id_iff {f : U64 → Address} {l : List Address} (hlen : l.length < 2 ^ 64)
    (hf : ∀ j (hj : j < l.length), f (ofNat 64 (j + 1)) = l.get ⟨j, hj⟩) :
    (∀ a ∈ l, ∃! id : U64, (1 ≤ id.toNat ∧ id.toNat ≤ l.length) ∧ f id = a) ↔ l.Nodup := by
  have hid : ∀ j, j < l.length → (ofNat 64 (j + 1)).toNat = j + 1 := fun j hj => by
    rw [toNat_ofNat, Nat.mod_eq_of_lt (by omega)]
  rw [List.nodup_iff_injective_get]
  constructor
  · rintro h ⟨i, hi⟩ ⟨j, hj⟩ heq
    obtain ⟨id, -, huni⟩ := h _ (List.get_mem l ⟨i, hi⟩)
    have hi' := huni (ofNat 64 (i + 1)) ⟨by rw [hid i hi]; omega, hf i hi⟩
    have hj' := huni (ofNat 64 (j + 1)) ⟨by rw [hid j hj]; omega, (hf j hj).trans heq.symm⟩
    have htoN := congrArg BitVec.toNat (hi'.trans hj'.symm)
    rw [hid i hi, hid j hj] at htoN
    exact Fin.ext (Nat.succ.inj htoN)
  · intro hinj a ha
    obtain ⟨⟨i, hi⟩, rfl⟩ := List.get_of_mem ha
    refine ⟨ofNat 64 (i + 1), ⟨by rw [hid i hi]; omega, hf i hi⟩, ?_⟩
    rintro id ⟨⟨hone, hle⟩, heq⟩
    have hid' : id = ofNat 64 (id.toNat - 1 + 1) := by
      rw [Nat.sub_add_cancel hone, BitVec.ofNat_toNat, BitVec.setWidth_eq]
    rw [hid', hf _ (by omega)] at heq
    have hsame : id.toNat - 1 = i := congrArg Fin.val (hinj heq)
    rw [hid', hsame]

theorem ids_iff (hvm : vm.TokenOnly) (h : Executed K vm g st)
    (hlen : g.validators.length < 2 ^ 64) :
    (∀ gv ∈ g.validators, ∃! id : U64, (1 ≤ id.toNat ∧ id.toNat ≤ g.validators.length) ∧
        st.evmState.validators.validatorAddr id = addressOf gv.address) ↔
      (g.validators.map fun gv => addressOf gv.address).Nodup := by
  obtain ⟨p₁, p₂, hass, hsta, hdep⟩ := h.steps
  have haddr : st.evmState.validators.validatorAddr =
      writeAll p₁.validators.validatorAddr (numbered 0 g.validators) := by
    rw [(deployEvmTemplates_spec hvm hdep).validators, (registerValidators_spec hsta).registry]
    rfl
  rw [← existsUnique_id_iff (f := st.evmState.validators.validatorAddr) (by simpa using hlen),
    List.forall_mem_map, List.length_map]
  intro j hj
  have hnum := validatorAddr_numbered (i := 0) (j := j) p₁.validators.validatorAddr
    (by simpa using hj) (by omega)
  rw [haddr]
  simpa using hnum

theorem activeValidatorCount_eq (hvm : vm.TokenOnly) (h : Executed K vm g st) :
    st.evmState.validators.activeValidatorCount = 0 := by
  obtain ⟨p₁, p₂, hass, hsta, hdep⟩ := h.steps
  rw [(deployEvmTemplates_spec hvm hdep).validators,
    (registerValidators_spec hsta).registry, (registerAssets_spec hass).validators]
  rfl

/-! ### Contracts -/

theorem readEvmContract_fails (hvm : vm.TokenOnly) (h : Executed K vm g st) (aid : U64) :
    ((Switch.readEvmContract aid).eval st.evmState.slots).2 = .error .evmContractNotRegistered := by
  obtain ⟨p₁, p₂, hass, hsta, hdep⟩ := h.steps
  have hzero : st.evmState.slots (.assetMeta aid .evmContract) = 0 := by
    rw [(deployEvmTemplates_spec hvm hdep).slots _ (by rintro a i hk; cases hk),
      (registerValidators_spec hsta).frame (by simp)]
    exact (registerAssets_spec hass).evmContract (fun _ => rfl) aid
  unfold Switch.readEvmContract
  rw [Access.eval_get_bind, hzero]
  rfl

end

/-- **What genesis establishes.** For every configuration that the executor accepts, each
invariant holds exactly under its condition, on entries that come after each other, on stakes or
on ids. The number of active validators is zero, and no asset has a contract. -/
theorem genesis_invariants_iff (K : Bytes → B256) (vm : Vm) (hvm : vm.TokenOnly) (g : Genesis)
    (st : GenesisState) (hrun : execute K vm g = .ok st) (hlen : g.validators.length < 2 ^ 64) :
    (∀ asset ∈ g.initialAssets, asset.assetId ≠ callAssetId →
        (protocolTotal st.evmState asset.assetId = recordedSupply st.evmState asset.assetId ↔
          asset.SupplyKept)) ∧
      (∀ asset ∈ g.initialAssets, asset.assetId = callAssetId → ∀ e ∈ asset.entries,
        e.1 ≠ bridgeEvmAddress → e.1 ≠ 0 → (st.evmState.getBalance e.1 = u128ToU256 e.2 ↔
          IsLast (g.initialAssets.flatMap (·.entries)) e)) ∧
      ((st.evmState.slots (.balance callAssetId stakingEscrow)).toNat =
          (g.validators.map (·.selfStake.toNat)).sum ↔
        ∀ gv ∈ g.validators.dropLast, gv.selfStake = 0) ∧
      ((∀ gv ∈ g.validators, ∃! id : U64, (1 ≤ id.toNat ∧ id.toNat ≤ g.validators.length) ∧
          st.evmState.validators.validatorAddr id = addressOf gv.address) ↔
        (g.validators.map fun gv => addressOf gv.address).Nodup) ∧
      st.evmState.validators.activeValidatorCount.toNat ≠
        (g.validators.map fun gv => addressOf gv.address).toFinset.card ∧
      ∀ assetId, ((Switch.readEvmContract assetId).eval st.evmState.slots).2 =
        .error .evmContractNotRegistered := by
  have h := execute_ok hrun
  refine ⟨fun asset hmem hne => supply_iff hvm h hmem hne, fun asset hmem _ e he => ?_,
    escrow_iff hvm h, ids_iff hvm h hlen, ?_, readEvmContract_fails hvm h⟩
  · exact native_iff hvm h (List.mem_flatMap.2 ⟨asset, hmem, he⟩)
  · rw [activeValidatorCount_eq hvm h]
    refine (Finset.card_pos.2 ?_).ne
    simpa using h.validators

/-! ### Two configurations -/

/-- The fee of a deployment: its limit of ten million gas at a price of 10. -/
def deployFee : U256 := 100000000

/-- Creates a contract that keeps the decimals of its token. The deployer pays the fee to the
zero address, also where the address is taken and the deployment halts. -/
def tokenVm : Vm where
  executeTxDb p d :=
    let contract := d.nonce.setWidth 160 + 0x1000
    let paid := [(0, ⟨p.getBalance 0 + deployFee, p.getNonce 0, none, []⟩)]
    let payer := [(d.deployer, ⟨p.getBalance d.deployer - deployFee, d.nonce + 1, none, []⟩)]
    if p.entry contract = { balance := p.getBalance contract } then
      .ok ⟨true, [0xfe], paid ++ [(contract, ⟨p.getBalance contract, 1, some [0xfe],
        [(.account contract 0, d.asset.decimals.setWidth 256)]⟩)] ++ payer⟩
    else .ok ⟨false, [], paid ++ payer⟩
  deriveCreateAddress _ nonce := nonce.setWidth 160 + 0x1000

theorem tokenVm_tokenOnly : tokenVm.TokenOnly where
  slots {p d r} h := by
    unfold tokenVm at h
    dsimp only at h
    split at h <;> cases h <;> simp
  balances {p d r} h := by
    unfold tokenVm at h
    dsimp only at h
    split at h <;> cases h <;> simp +contextual

def repeated (digit : UInt8) : Bytes := List.replicate 40 digit

def configOf (call gold : List (Bytes × U128)) (stakes : List (UInt8 × U128)) : Genesis where
  chainName := [0x63]
  chainId := 1
  timestampMillis := 1
  initialAssets := [⟨1, [0x43], [0x43], 18, call⟩, ⟨2, [0x47], [0x47], 18, gold⟩]
  initialFeeCurrencies := [1]
  validators := stakes.map fun v => ⟨repeated v.1, List.replicate 64 v.1, v.2⟩

def separateHolders : Genesis :=
  configOf [(repeated 0x31, 500)] [(repeated 0x32, 30)] [(0x35, 7)]

theorem separate_holders_kept : ∃ st, execute (fun _ => 0) tokenVm separateHolders = .ok st ∧
      st.evmState.getBalance (addressOf (repeated 0x31)) = u128ToU256 500 ∧
      protocolTotal st.evmState 2 = recordedSupply st.evmState 2 := by
  have hrun : execute (fun _ => 0) tokenVm separateHolders = .ok _ := rfl
  obtain ⟨hsup, hnat, -⟩ := genesis_invariants_iff (fun _ => 0) tokenVm tokenVm_tokenOnly
    separateHolders _ hrun (by decide)
  refine ⟨_, hrun, ?_, ?_⟩
  · have hcall := hnat _ List.mem_cons_self rfl _ List.mem_cons_self (by decide +kernel)
      (by decide +kernel)
    exact hcall.2 ⟨[], [(addressOf (repeated 0x32), 30)], rfl, by decide +kernel⟩
  · have hgold := hsup ⟨2, [0x47], [0x47], 18, [(repeated 0x32, 30)]⟩ (by simp [separateHolders, configOf])
      (by decide)
    refine hgold.2 ?_
    rw [GenesisAsset.SupplyKept, if_pos (by decide)]
    exact List.pairwise_singleton _ _

def sharedHolders : Genesis :=
  configOf [(repeated 0x31, 500)] [(repeated 0x31, 30), (repeated 0x61, 10), (repeated 0x41, 20)]
    [(0x35, 7), (0x36, 8)]

/-- The CALL balance is that of the other asset, the supply counts both spellings, the escrow has
the last stake, no validator counts as active, and the second asset has no contract. -/
theorem genesis_breaks_invariants : ∃ st, execute (fun _ => 0) tokenVm sharedHolders = .ok st ∧
      st.evmState.getBalance (addressOf (repeated 0x31)) = 30 ∧ recordedSupply st.evmState 2 = 60 ∧
      st.evmState.slots (.balance 2 (addressOf (repeated 0x61))) = 20 ∧
      st.evmState.slots (.balance callAssetId stakingEscrow) = 8 ∧
      st.evmState.validators.activeValidatorCount = 0 ∧
      ((Switch.readEvmContract 2).eval st.evmState.slots).2 = .error .evmContractNotRegistered ∧
      st.evmState.readAssetContractAddress 2 = some 0x1000 := by
  refine ⟨_, rfl, ?_, ?_, ?_, ?_, ?_, ?_, ?_⟩
  · decide +kernel
  · decide +kernel
  · decide +kernel
  · decide +kernel
  · decide +kernel
  · rfl
  · decide +kernel

end Callchain.Chainspec

/-
# What genesis registers

The loops of the genesis executor: which native balances and which slots of the protocol
each of them writes. An entry of a distribution writes the native balance of its
address, of whatever asset it is (`distribute_spec`); a validator writes the balance of
the staking escrow (`registerValidators_spec`). They are written over, not added to.
-/
import Callchain.Chainspec.Genesis
import Callchain.Lib.LastWrite

namespace Callchain.Chainspec

open Asset Validator LastWrite

/-! ### Accounts -/

section
variable (p : Provider) (a b : Address)

theorem entry_modify (f : Account → Account) :
    (p.modify a f).entry b = if b = a then f (p.entry a) else p.entry b := by
  unfold Provider.entry Provider.modify
  by_cases h : b = a
  · subst h
    simp [Provider.entry]
  · rw [if_neg h]
    simp [AList.lookup_insert_ne h]

theorem getBalance_modify (f : Account → Account) :
    (p.modify a f).getBalance b = if b = a then (f (p.entry a)).balance else p.getBalance b := by
  rw [Provider.getBalance, entry_modify, apply_ite Account.balance]
  rfl

theorem getNonce_modify {f : Account → Account} (hf : ∀ x, (f x).nonce = x.nonce) :
    (p.modify a f).getNonce = p.getNonce := by
  funext b
  rw [Provider.getNonce, entry_modify]
  split_ifs with h
  · rw [hf, h]
    rfl
  · rfl

@[simp] theorem getBalance_createAccount : (p.createAccount a).getBalance b = p.getBalance b := by
  rw [Provider.createAccount, getBalance_modify]
  split_ifs with h
  · rw [h]
    rfl
  · rfl

@[simp] theorem getNonce_createAccount : (p.createAccount a).getNonce = p.getNonce :=
  getNonce_modify p a fun _ => rfl

@[simp] theorem getBalance_setBalance (balance : U256) :
    (p.setBalance a balance).getBalance b = Function.update p.getBalance a balance b := by
  rw [Provider.setBalance, getBalance_modify, Function.update_apply]

@[simp] theorem getNonce_setBalance (balance : U256) : (p.setBalance a balance).getNonce = p.getNonce :=
  getNonce_modify p a fun _ => rfl

@[simp] theorem getNonce_setCode (code : Bytes) : (p.setCode a code).getNonce = p.getNonce :=
  getNonce_modify p a fun _ => rfl

@[simp] theorem getNonce_runAsset {α : Type} (method : Method α) :
    (p.runAsset method).getNonce = p.getNonce := getNonce_createAccount p assetAddress

@[simp] theorem getNonce_seedBalance (aid : U64) (amount : U128) :
    (p.seedBalance aid a amount).getNonce = p.getNonce := getNonce_runAsset p _

@[simp] theorem getBalance_runAsset {α : Type} (method : Method α) :
    (p.runAsset method).getBalance = p.getBalance := by
  funext b
  exact getBalance_createAccount p assetAddress b

@[simp] theorem getBalance_seedBalance (aid : U64) (amount : U128) :
    (p.seedBalance aid a amount).getBalance = p.getBalance := getBalance_runAsset p _

end

/-! ### Distributions -/

/-- The address that a text stands for, zero where it stands for none. -/
def addressOf (s : Bytes) : Address :=
  match parseAddress s with
  | .ok addr => addr
  | .error _ => 0

theorem addressOf_eq {s : Bytes} {addr : Address} (h : parseAddress s = .ok addr) :
    addressOf s = addr := by
  rw [addressOf, h]

def entriesOf (distribution : List (Bytes × U128)) : List (Address × U128) :=
  distribution.map fun e => (addressOf e.1, e.2)

def GenesisAsset.entries (asset : GenesisAsset) : List (Address × U128) :=
  entriesOf asset.distribution

def words (entries : List (Address × U128)) : List (Address × U256) :=
  entries.map fun e => (e.1, u128ToU256 e.2)

theorem words_append (entries entries' : List (Address × U128)) :
    words (entries ++ entries') = words entries ++ words entries' := List.map_append

def allocated (entries : List (Address × U128)) : ℕ := (entries.map (·.2.toNat)).sum

/-- The words that a distribution writes to the slots of the protocol: none for CALL. -/
def balanceWords (assetId : U64) (entries : List (Address × U128)) : List (Slot × U256) :=
  if assetId = callAssetId then []
  else entries.map fun e => (.balance assetId e.1, u128ToU256 e.2)

theorem balanceWords_append (aid : U64) (entries entries' : List (Address × U128)) :
    balanceWords aid (entries ++ entries') =
      balanceWords aid entries ++ balanceWords aid entries' := by
  unfold balanceWords
  split_ifs
  · rfl
  · exact List.map_append

structure Distributed (assetId : U64) (entries : List (Address × U128)) (p p' : Provider) : Prop where
  native : p'.getBalance = writeAll p.getBalance (words entries)
  nonces : p'.getNonce = p.getNonce
  slots : p'.slots = writeAll p.slots (balanceWords assetId entries)
  validators : p'.validators = p.validators
  contracts : p'.assetContract = p.assetContract

variable {aid : U64} {entries : List (Address × U128)} {p' : Provider} {asset : GenesisAsset}
  {assets : List GenesisAsset} {i : ℕ} {validators : List GenesisValidator}

variable {p : Provider}

theorem Distributed.frame (h : Distributed aid entries p p') {k : Slot}
    (hk : ∀ a, k = .balance aid a → aid = callAssetId) : p'.slots k = p.slots k := by
  rw [h.slots, writeAll_of_notMem]
  unfold balanceWords
  split_ifs with hcall
  · exact List.not_mem_nil
  · intro hmem
    rw [List.map_map, List.mem_map] at hmem
    obtain ⟨e, -, rfl⟩ := hmem
    exact hcall (hk e.1 rfl)

theorem Distributed.protocol
    (h : Distributed aid entries p p') (hne : aid ≠ callAssetId) (a : Address) :
    p'.slots (.balance aid a) = writeAll (fun a => p.slots (.balance aid a)) (words entries) a := by
  have hhol : ∀ k a, Slot.holder aid k = some a ↔ Slot.balance aid a = k := by
    intro k a
    cases k <;> simp [Slot.holder]
    rename_i id b
    exact ⟨fun hk => ⟨hk.1.symm, hk.2.symm⟩, fun hk => ⟨hk.1.symm, hk.2.symm⟩⟩
  rw [h.slots, writeAll_comp hhol, balanceWords, if_neg hne, List.filterMap_map]
  have hwor : entries.filterMap ((fun w : Slot × U256 => (w.1.holder aid).map fun i => (i, w.2)) ∘
      fun e => (Slot.balance aid e.1, u128ToU256 e.2)) = words entries := by
    rw [words, ← List.filterMap_eq_map]
    refine List.filterMap_congr fun e _ => ?_
    simp [Slot.holder]
  rw [hwor]

theorem distributed_entry (aid : U64) (p : Provider) (addr : Address) (amount : U128) :
    Distributed aid [(addr, amount)] p
      ((if aid = callAssetId then p.setBalance addr (u128ToU256 amount)
        else (p.seedBalance aid addr amount).setBalance addr (u128ToU256 amount)).createAccount
          addr) := by
  by_cases hcall : aid = callAssetId
  · rw [if_pos hcall]
    refine ⟨?_, ?_, ?_, rfl, rfl⟩
    · funext a
      rw [getBalance_createAccount, getBalance_setBalance]
      rfl
    · rw [getNonce_createAccount, getNonce_setBalance]
    · rw [balanceWords, if_pos hcall]
      rfl
  · rw [if_neg hcall]
    refine ⟨?_, ?_, ?_, rfl, rfl⟩
    · funext a
      rw [getBalance_createAccount, getBalance_setBalance, getBalance_seedBalance]
      rfl
    · rw [getNonce_createAccount, getNonce_setBalance, getNonce_seedBalance]
    · rw [balanceWords, if_neg hcall]
      rfl

theorem Distributed.append {entries' : List (Address × U128)}
    {p p'' : Provider} (h : Distributed aid entries p p')
    (h' : Distributed aid entries' p' p'') : Distributed aid (entries ++ entries') p p'' where
  native := by rw [h'.native, h.native, words_append, writeAll_append]
  nonces := h'.nonces.trans h.nonces
  slots := by rw [h'.slots, h.slots, balanceWords_append, writeAll_append]
  validators := h'.validators.trans h.validators
  contracts := h'.contracts.trans h.contracts

theorem distribute_spec {distribution : List (Bytes × U128)}
    {total total' : U128} (h : distribute aid p total distribution = .ok (p', total')) :
    Distributed aid (entriesOf distribution) p p' ∧
      total'.toNat = total.toNat + allocated (entriesOf distribution) := by
  induction distribution generalizing p total with
  | nil =>
    cases h
    refine ⟨⟨rfl, rfl, ?_, rfl, rfl⟩, rfl⟩
    rw [balanceWords]
    split_ifs <;> rfl
  | cons e rest ih =>
    obtain ⟨addressStr, amount⟩ := e
    unfold distribute at h
    cases hpar : parseAddress addressStr with rw [hpar] at h
    | error => cases h
    | ok addr =>
      obtain ⟨hfits, h⟩ := ite_error_eq_ok.1 h
      obtain ⟨hrest, htot⟩ := ih h
      have hent : entriesOf ((addressStr, amount) :: rest) =
          [(addr, amount)] ++ entriesOf rest := by
        rw [entriesOf, List.map_cons, addressOf_eq hpar]
        rfl
      rw [hent]
      refine ⟨(distributed_entry aid p addr amount).append hrest, ?_⟩
      rw [htot, BitVec.toNat_add_of_lt (by omega)]
      simp only [allocated, List.map_append, List.sum_append, List.map_singleton,
        List.sum_singleton]
      omega

/-! ### Metadata -/

/-- `store_meta_string` takes symbol and name. -/
def GenesisAsset.Fits (asset : GenesisAsset) : Prop :=
  asset.symbol.length ≤ 32 ∧ asset.name.length ≤ 32

instance (asset : GenesisAsset) : Decidable asset.Fits := inferInstanceAs (Decidable (_ ∧ _))

def metaWords (assetId : U64) (info : AssetMeta) : List (Slot × U256) :=
  if info.symbol.length ≤ 32 then
    if info.name.length ≤ 32 then
      [(.assetMeta assetId .symbol, writeString32 info.symbol),
        (.assetMeta assetId .name, writeString32 info.name),
        (.assetMeta assetId .decimals, info.decimals.setWidth 256),
        (.assetMeta assetId .issuer, addressToU256 info.issuer),
        (.assetMeta assetId .maxSupply, u128ToU256 info.maxSupply),
        (.assetMeta assetId .supply, u128ToU256 info.supply),
        (.assetMeta assetId .status, info.status.setWidth 256),
        (.assetMeta assetId .registeredAt, info.registeredAt),
        (.assetMeta assetId .evmContract, addressToU256 info.evmContract),
        (.assetMeta assetId .dominance, info.dominance.setWidth 256)]
    else [(.assetMeta assetId .symbol, writeString32 info.symbol)]
  else []

theorem writeMeta_slots (aid : U64) (info : AssetMeta) (s : Slot → U256) :
    ((writeMeta aid info).eval s).1 = writeAll s (metaWords aid info) := by
  unfold writeMeta storeMetaString storeMetaU256 metaWords
  by_cases hsym : info.symbol.length ≤ 32
  · by_cases hname : info.name.length ≤ 32
    · simp only [Access.require, if_pos hsym, if_pos hname]
      rfl
    · simp only [Access.require, if_pos hsym, if_neg hname]
      rfl
  · simp only [Access.require, if_neg hsym]
    rfl

def seedWords (asset : GenesisAsset) (supply : U128) : List (Slot × U256) :=
  metaWords asset.assetId (asset.info supply) ++
    [(.assetMeta asset.assetId .compliance, 0), (.assetMeta asset.assetId .registeredAt, 0)]

theorem seedAsset_slots (p : Provider) (asset : GenesisAsset) (supply : U128) :
    (p.seedAsset asset supply).slots = writeAll p.slots (seedWords asset supply) := by
  rw [seedWords, writeAll_append, ← writeMeta_slots]
  rfl

theorem seedAsset_contracts (p : Provider) (asset : GenesisAsset) (supply : U128) :
    (p.seedAsset asset supply).assetContract = p.assetContract := rfl

structure Seeded (asset : GenesisAsset) (supply : U128) (p p' : Provider) : Prop where
  supply : p'.slots (.assetMeta asset.assetId .supply) =
    if asset.Fits then u128ToU256 supply else p.slots (.assetMeta asset.assetId .supply)
  evmContract : ∀ id, p.slots (.assetMeta id .evmContract) = 0 →
    p'.slots (.assetMeta id .evmContract) = 0
  frame : ∀ k, (∀ field, k ≠ .assetMeta asset.assetId field) → p'.slots k = p.slots k
  native : p'.getBalance = p.getBalance
  nonces : p'.getNonce = p.getNonce
  validators : p'.validators = p.validators

theorem seedAsset_spec (p : Provider) (asset : GenesisAsset) (supply : U128) :
    Seeded asset supply p (p.seedAsset asset supply) := by
  have hsym : (asset.info supply).symbol = asset.symbol := rfl
  have hname : (asset.info supply).name = asset.name := rfl
  constructor
  case supply =>
    rw [seedAsset_slots, seedWords, metaWords, hsym, hname]
    by_cases hs : asset.symbol.length ≤ 32
    · by_cases hn : asset.name.length ≤ 32
      · have hfits : asset.Fits := ⟨hs, hn⟩
        rw [if_pos hs, if_pos hn, if_pos hfits]
        simp [writeAll, GenesisAsset.info]
      · have hfits : ¬ asset.Fits := fun h => hn h.2
        rw [if_pos hs, if_neg hn, if_neg hfits]
        simp [writeAll]
    · have hfits : ¬ asset.Fits := fun h => hs h.1
      rw [if_neg hs, if_neg hfits]
      simp [writeAll]
  case evmContract =>
    intro id hzero
    rw [seedAsset_slots, seedWords, metaWords]
    split_ifs
    · by_cases hid : id = asset.assetId
      · simp [writeAll, hid, GenesisAsset.info, addressToU256]
      · simp [writeAll, hid, hzero]
    · simp [writeAll, hzero]
    · simp [writeAll, hzero]
  case frame =>
    intro k hk
    rw [seedAsset_slots, seedWords, metaWords]
    split_ifs <;> simp [writeAll, hk]
  case native =>
    unfold Provider.seedAsset
    rw [getBalance_runAsset, getBalance_runAsset, getBalance_runAsset]
  case nonces =>
    unfold Provider.seedAsset
    rw [getNonce_runAsset, getNonce_runAsset, getNonce_runAsset]
  case validators => rfl

/-! ### All assets -/

def assetWords (asset : GenesisAsset) : List (Slot × U256) :=
  balanceWords asset.assetId asset.entries ++
    seedWords asset (BitVec.ofNat 128 (allocated asset.entries))

structure Registered (assets : List GenesisAsset) (p p' : Provider) : Prop where
  native : p'.getBalance = writeAll p.getBalance (words (assets.flatMap (·.entries)))
  nonces : p'.getNonce = p.getNonce
  slots : p'.slots = writeAll p.slots (assets.flatMap assetWords)
  evmContract : (∀ id, p.slots (.assetMeta id .evmContract) = 0) →
    ∀ id, p'.slots (.assetMeta id .evmContract) = 0
  frame : ∀ k, (∀ asset ∈ assets, k.asset ≠ some asset.assetId) → p'.slots k = p.slots k
  validators : p'.validators = p.validators
  contracts : p'.assetContract = p.assetContract

theorem registerAssets_cons {rest : List GenesisAsset}
    (h : registerAssets p (asset :: rest) = .ok p') :
    ∃ p₁ total, Distributed asset.assetId asset.entries p p₁ ∧ total.toNat = allocated asset.entries ∧
      registerAssets (p₁.seedAsset asset total) rest = .ok p' := by
  unfold registerAssets at h
  cases hdist : distribute asset.assetId p 0 asset.distribution with
  | error =>
    rw [hdist] at h
    cases h
  | ok r =>
    obtain ⟨p₁, total⟩ := r
    rw [hdist] at h
    obtain ⟨hspec, htot⟩ := distribute_spec hdist
    exact ⟨p₁, total, hspec, htot.trans (Nat.zero_add _), h⟩

theorem registerAssets_spec (h : registerAssets p assets = .ok p') : Registered assets p p' := by
  induction assets generalizing p with
  | nil =>
    cases h
    exact ⟨rfl, rfl, rfl, fun h => h, fun _ _ => rfl, rfl, rfl⟩
  | cons asset rest ih =>
    obtain ⟨p₁, total, hdist, htot, hrest⟩ := registerAssets_cons h
    have hseed := seedAsset_spec p₁ asset total
    have haft := ih hrest
    constructor
    case slots =>
      have hsup : BitVec.ofNat 128 (allocated asset.entries) = total := by
        rw [← htot, BitVec.ofNat_toNat, BitVec.setWidth_eq]
      rw [haft.slots, seedAsset_slots, hdist.slots, List.flatMap_cons, assetWords, hsup,
        writeAll_append, writeAll_append]
    case native =>
      rw [haft.native, hseed.native, hdist.native, List.flatMap_cons, words_append, writeAll_append]
    case nonces => rw [haft.nonces, hseed.nonces, hdist.nonces]
    case evmContract =>
      intro hzero
      refine haft.evmContract fun id => hseed.evmContract id ?_
      rw [hdist.frame (by simp)]
      exact hzero id
    case frame =>
      intro k hk
      have hoth := hk asset List.mem_cons_self
      rw [haft.frame k fun x hx => hk x (List.mem_cons_of_mem _ hx), hseed.frame, hdist.frame]
      · rintro a rfl
        exact absurd rfl hoth
      · rintro field rfl
        exact hoth rfl
    case validators => rw [haft.validators, hseed.validators, hdist.validators]
    case contracts => rw [haft.contracts, seedAsset_contracts, hdist.contracts]

theorem registerAssets_asset (h : registerAssets p assets = .ok p')
    (hids : (assets.map (·.assetId)).Nodup) (hmem : asset ∈ assets) :
    (asset.assetId ≠ callAssetId → ∀ a, p'.slots (.balance asset.assetId a) =
        writeAll (fun a => p.slots (.balance asset.assetId a)) (words asset.entries) a) ∧
      (p.slots (.assetMeta asset.assetId .supply) = 0 →
        (p'.slots (.assetMeta asset.assetId .supply)).toNat =
          if asset.Fits then allocated asset.entries else 0) := by
  induction assets generalizing p with
  | nil => simp at hmem
  | cons head rest ih =>
    obtain ⟨p₁, total, hdist, htot, hrest⟩ := registerAssets_cons h
    have hseed := seedAsset_spec p₁ head total
    have haft := registerAssets_spec hrest
    obtain ⟨hfre, hids⟩ := List.nodup_cons.1 hids
    dsimp only at hfre
    rcases List.mem_cons.1 hmem with rfl | hmem
    · -- the head: later assets have other ids
      have hfra : ∀ k : Slot, k.asset = some asset.assetId →
          p'.slots k = (p₁.seedAsset asset total).slots k := by
        intro k hk
        refine haft.frame k fun x hx heq => hfre ?_
        rw [hk] at heq
        rw [Option.some.inj heq]
        exact List.mem_map_of_mem hx
      refine ⟨fun hne a => ?_, fun hzero => ?_⟩
      · rw [hfra _ rfl, hseed.frame _ (by simp), hdist.protocol hne]
      · rw [hfra _ rfl, hseed.supply, hdist.frame (by simp), hzero]
        split_ifs
        · rw [u128ToU256, BitVec.toNat_setWidth_of_le (by norm_num), htot]
        · rfl
    · -- another asset: the head has another id
      have hne : asset.assetId ≠ head.assetId := by
        intro heq
        rw [← heq] at hfre
        exact hfre (List.mem_map_of_mem hmem)
      have hfra : ∀ k : Slot, k.asset = some asset.assetId →
          (p₁.seedAsset head total).slots k = p.slots k := by
        intro k hk
        rw [hseed.frame, hdist.frame]
        · rintro a rfl
          exact absurd (Option.some.inj hk).symm hne
        · rintro field rfl
          exact hne (Option.some.inj hk).symm
      obtain ⟨hbal, hsup⟩ := ih hrest hids hmem
      refine ⟨fun hcall a => ?_, fun hzero => ?_⟩
      · have hfun : (fun a => (p₁.seedAsset head total).slots (.balance asset.assetId a)) =
            fun a => p.slots (.balance asset.assetId a) := by
          funext a
          exact hfra _ rfl
        rw [hbal hcall, hfun]
      · exact hsup ((hfra _ rfl).trans hzero)

/-! ### Validators -/

def pubkeyOf (s : Bytes) : Bytes32 :=
  match parsePubkey s with
  | .ok pubkey => pubkey
  | .error _ => 0

theorem pubkeyOf_eq {s : Bytes} {pubkey : Bytes32} (h : parsePubkey s = .ok pubkey) :
    pubkeyOf s = pubkey := by
  rw [pubkeyOf, h]

/-- The validators under their ids, from the position `i` on. -/
def numbered : ℕ → List GenesisValidator → List (U64 × Address)
  | _, [] => []
  | i, gv :: rest => (BitVec.ofNat 64 (i + 1), addressOf gv.address) :: numbered (i + 1) rest

def stakes (validators : List GenesisValidator) : List (Address × U128) :=
  validators.map fun gv => (addressOf gv.address, gv.selfStake)

def pubkeys (validators : List GenesisValidator) : List (Address × Bytes32) :=
  validators.map fun gv => (addressOf gv.address, pubkeyOf gv.ed25519Pubkey)

def statuses (validators : List GenesisValidator) : List (Address × BitVec 8) :=
  validators.map fun gv => (addressOf gv.address, 1)

def enrolled (v : ValidatorStorage) (i : ℕ) (validators : List GenesisValidator) :
    ValidatorStorage :=
  { v with
    validatorCount :=
      if validators.isEmpty then v.validatorCount else BitVec.ofNat 64 (i + validators.length)
    validatorByAddr := writeAll v.validatorByAddr ((numbered i validators).map Prod.swap)
    validatorAddr := writeAll v.validatorAddr (numbered i validators)
    stake := writeAll v.stake (stakes validators)
    pubkey := writeAll v.pubkey (pubkeys validators)
    status := writeAll v.status (statuses validators) }

theorem enrolled_cons (v : ValidatorStorage) (i : ℕ) (gv : GenesisValidator)
    (rest : List GenesisValidator) : enrolled v i (gv :: rest) =
      enrolled (v.register (addressOf gv.address) (BitVec.ofNat 64 (i + 1)) gv.selfStake
        (pubkeyOf gv.ed25519Pubkey)) (i + 1) rest := by
  have hcou : BitVec.ofNat 64 (i + (gv :: rest).length) =
      if rest.isEmpty then BitVec.ofNat 64 (i + 1) else BitVec.ofNat 64 (i + 1 + rest.length) := by
    cases rest with
    | nil => rfl
    | cons => simp [Nat.add_comm, Nat.add_left_comm]
  unfold enrolled ValidatorStorage.register
  rw [hcou]
  rfl

def escrowWords (validators : List GenesisValidator) : List (Slot × U256) :=
  validators.map fun gv => (.balance callAssetId stakingEscrow, u128ToU256 gv.selfStake)

structure Staked (i : ℕ) (validators : List GenesisValidator) (p p' : Provider) : Prop where
  native : p'.getBalance = p.getBalance
  nonces : p'.getNonce = p.getNonce
  slots : p'.slots = writeAll p.slots (escrowWords validators)
  registry : p'.validators = enrolled p.validators i validators
  contracts : p'.assetContract = p.assetContract
  accounts : validators ≠ [] → p'.accounts.entries ≠ []

theorem Staked.frame (h : Staked i validators p p') {k : Slot}
    (hk : k ≠ .balance callAssetId stakingEscrow) : p'.slots k = p.slots k := by
  rw [h.slots, writeAll_of_notMem]
  intro hmem
  rw [escrowWords, List.map_map, List.mem_map] at hmem
  obtain ⟨gv, -, rfl⟩ := hmem
  exact hk rfl

theorem Staked.escrow (h : Staked i validators p p') (hne : validators ≠ []) :
    p'.slots (.balance callAssetId stakingEscrow) =
      u128ToU256 (validators.getLast hne).selfStake := by
  have hwor : escrowWords validators = escrowWords validators.dropLast ++
      [(.balance callAssetId stakingEscrow, u128ToU256 (validators.getLast hne).selfStake)] := by
    conv_lhs => rw [← List.dropLast_append_getLast hne]
    exact List.map_append
  rw [h.slots, hwor, writeAll_snoc, Function.update_self]

theorem insert_entries_ne_nil (p : Provider) (a : Address) (f : Account → Account) :
    (p.modify a f).accounts.entries ≠ [] := by
  exact List.cons_ne_nil _ _

theorem registerValidators_spec
    (h : registerValidators p i validators = .ok p') : Staked i validators p p' := by
  induction validators generalizing p i with
  | nil =>
    cases h
    exact ⟨rfl, rfl, rfl, rfl, rfl, fun h => absurd rfl h⟩
  | cons gv rest ih =>
    unfold registerValidators at h
    cases hpar : parseAddress gv.address with
    | error =>
      rw [hpar] at h
      cases h
    | ok =>
      cases hkey : parsePubkey gv.ed25519Pubkey with rw [hpar, hkey] at h
      | error => cases h
      | ok =>
        have haft := ih h
        constructor
        case native =>
          rw [haft.native, getBalance_seedBalance]
          funext a
          exact getBalance_createAccount p validatorAddress a
        case nonces =>
          rw [haft.nonces, getNonce_seedBalance]
          exact getNonce_createAccount p validatorAddress
        case slots =>
          rw [haft.slots]
          rfl
        case registry =>
          rw [haft.registry, enrolled_cons, addressOf_eq hpar, pubkeyOf_eq hkey]
          rfl
        case contracts => exact haft.contracts
        case accounts =>
          intro _
          cases rest with
          | nil =>
            cases h
            exact insert_entries_ne_nil _ _ _
          | cons => exact haft.accounts (List.cons_ne_nil _ _)

/-! ### Contracts -/

/-- What is taken from revm: the constructor of a token writes no slot of the protocol,
and only the deployer and the zero address, which gets the fees, change their balance.
-/
structure Vm.TokenOnly (vm : Vm) : Prop where
  slots : ∀ {p d r}, vm.executeTxDb p d = .ok r →
    ∀ e ∈ r.delta, ∀ w ∈ e.2.storage, ∃ a k, w.1 = .account a k
  balances : ∀ {p d r}, vm.executeTxDb p d = .ok r →
    ∀ e ∈ r.delta, e.1 ≠ d.deployer → e.1 ≠ 0 → e.2.balance = p.getBalance e.1

/-- The protocol's storage is as before, and so are the balances, but for two. -/
structure Undisturbed (p p' : Provider) : Prop where
  native : ∀ a, a ≠ bridgeEvmAddress → a ≠ 0 → p'.getBalance a = p.getBalance a
  slots : ∀ k, (∀ a i, k ≠ .account a i) → p'.slots k = p.slots k
  validators : p'.validators = p.validators

theorem Undisturbed.refl (p : Provider) : Undisturbed p p := ⟨fun _ _ _ => rfl, fun _ _ => rfl, rfl⟩

theorem Undisturbed.trans {p p'' : Provider} (h : Undisturbed p p') (h' : Undisturbed p' p'') :
    Undisturbed p p'' where
  native a hb hz := (h'.native a hb hz).trans (h.native a hb hz)
  slots k hk := (h'.slots k hk).trans (h.slots k hk)
  validators := h'.validators.trans h.validators

theorem undisturbed_applyAccount {p q : Provider} {a : Address} {d : AccountDelta}
    (hslo : ∀ w ∈ d.storage, ∃ a k, w.1 = .account a k)
    (hbal : a ≠ bridgeEvmAddress → a ≠ 0 → d.balance = q.getBalance a)
    (h : Undisturbed q p) : Undisturbed q (p.applyAccount a d) := by
  refine ⟨fun b hb hz => ?_, fun k hk => ?_, h.validators⟩
  · have happ : (p.applyAccount a d).getBalance b = if b = a then d.balance else p.getBalance b :=
      getBalance_modify p a b fun account =>
        { balance := d.balance, nonce := d.nonce, code := d.code.getD account.code }
    rw [happ]
    split_ifs with hab
    · subst hab
      exact hbal hb hz
    · exact h.native b hb hz
  · have hnot : k ∉ d.storage.map Prod.fst := by
      intro hmem
      obtain ⟨w, hw, rfl⟩ := List.mem_map.1 hmem
      obtain ⟨b, i, heq⟩ := hslo w hw
      exact hk b i heq
    have happ : (p.applyAccount a d).slots k = writeAll p.slots d.storage k := rfl
    rw [happ, writeAll_of_notMem hnot]
    exact h.slots k hk

theorem undisturbed_applyFromRevmState {q : Provider} {delta : List (Address × AccountDelta)}
    (hslo : ∀ e ∈ delta, ∀ w ∈ e.2.storage, ∃ a k, w.1 = .account a k)
    (hbal : ∀ e ∈ delta, e.1 ≠ bridgeEvmAddress → e.1 ≠ 0 → e.2.balance = q.getBalance e.1)
    (h : Undisturbed q p) : Undisturbed q (p.applyFromRevmState delta) := by
  induction delta generalizing p with
  | nil => exact h
  | cons e rest ih =>
    refine ih (fun e' he' => hslo e' (List.mem_cons_of_mem _ he'))
      (fun e' he' => hbal e' (List.mem_cons_of_mem _ he')) ?_
    exact undisturbed_applyAccount (hslo e List.mem_cons_self) (hbal e List.mem_cons_self) h

theorem getBalance_setCode (p : Provider) (a b : Address) (code : Bytes) :
    (p.setCode a code).getBalance b = p.getBalance b := by
  rw [Provider.setCode, getBalance_modify]
  split_ifs with h
  · rw [h]
    rfl
  · rfl

theorem undisturbed_deploy {vm : Vm} (hvm : vm.TokenOnly) {chainId : U64}
    {contractAddr : Address} {success : Bool}
    (h : deployErc20Template vm chainId p bridgeEvmAddress asset = .ok (p', contractAddr, success)) :
    Undisturbed p p' := by
  unfold deployErc20Template at h
  dsimp only at h
  split at h
  · cases h
  · rename_i result hres
    cases h
    have hdel := undisturbed_applyFromRevmState (hvm.slots hres) (hvm.balances hres)
      (Undisturbed.refl p)
    split_ifs
    · exact hdel
    · refine hdel.trans ⟨fun a _ _ => ?_, fun _ _ => rfl, rfl⟩
      exact getBalance_setCode _ _ _ _

theorem deployEvmTemplates_spec {vm : Vm} (hvm : vm.TokenOnly) {chainId : U64}
    (h : deployEvmTemplates vm chainId p assets = .ok p') : Undisturbed p p' := by
  induction assets generalizing p with
  | nil =>
    cases h
    exact Undisturbed.refl _
  | cons asset rest ih =>
    unfold deployEvmTemplates at h
    by_cases hcall : asset.assetId = callAssetId
    · rw [if_pos hcall] at h
      exact ih h
    · rw [if_neg hcall] at h
      dsimp only at h
      split at h
      · cases h
      · rename_i p₁ contractAddr success hdep
        obtain ⟨-, h⟩ := ite_error_eq_ok.1 h
        have hfund : Undisturbed p
            ((p.setBalance bridgeEvmAddress 100000000000).createAccount bridgeEvmAddress) := by
          refine ⟨fun a hb _ => ?_, fun _ _ => rfl, rfl⟩
          rw [getBalance_createAccount, getBalance_setBalance, Function.update_of_ne hb]
        have hseed : Undisturbed p₁ (p₁.seedAssetContractAddress asset.assetId contractAddr) :=
          ⟨fun a _ _ => getBalance_createAccount p₁ assetAddress a, fun _ _ => rfl, rfl⟩
        exact ((hfund.trans (undisturbed_deploy hvm hdep)).trans hseed).trans (ih h)

end Callchain.Chainspec

/-
# What the genesis root commits to

`compute_evm_state_root` hashes, account by account in the order of addresses, the
nonce, the balance and the hash of the code. Equal roots give equal nonces, balances and
codes, or a collision among the inputs that were hashed (`sameAccounts_of_root`).
Storage is not hashed, and all of the protocol's state is storage: two configurations
with different validators have one root (`other_validator_same_root`).

The storage is what the configuration lists, of every slot the last word
(`storageOf_executed`). Of revm it is taken that the storage of a contract depends on
what is deployed alone (`Vm.Deploys`).
-/
import Callchain.Chainspec.Invariants

namespace Callchain.Chainspec

open Asset Validator LastWrite

/-! ### Records of one length -/

theorem flatten_inj {n : ℕ} (hn : 0 < n) : ∀ {l l' : List Bytes}, (∀ x ∈ l, x.length = n) →
    (∀ x ∈ l', x.length = n) → l.flatten = l'.flatten → l = l'
  | [], [], _, _, _ => rfl
  | [], y :: ys, _, hl', h => by
    have hlen := congrArg List.length h
    rw [List.flatten_cons, List.length_append, hl' y List.mem_cons_self] at hlen
    simp at hlen
    omega
  | x :: xs, [], hl, _, h => by
    have hlen := congrArg List.length h
    rw [List.flatten_cons, List.length_append, hl x List.mem_cons_self] at hlen
    simp at hlen
    omega
  | x :: xs, y :: ys, hl, hl', h => by
    have hlen : x.length = y.length :=
      (hl x List.mem_cons_self).trans (hl' y List.mem_cons_self).symm
    obtain ⟨rfl, hrest⟩ := List.append_inj h hlen
    rw [flatten_inj hn (fun z hz => hl z (List.mem_cons_of_mem _ hz))
      (fun z hz => hl' z (List.mem_cons_of_mem _ hz)) hrest]

section
variable (K : Bytes → B256)

theorem accountBytes_length (a : Address) (account : Account) :
    (accountBytes K a account).length = 92 := by
  simp [accountBytes, toLeBytes, beBytes_length, B256.asSlice]

theorem beBytes_bitVec_inj {n : ℕ} {v w : BitVec (8 * n)} (h : beBytes n v.toNat = beBytes n w.toNat) :
    v = w := by
  have hlt : ∀ u : BitVec (8 * n), u.toNat < 256 ^ n := fun u => by
    rw [show 256 = 2 ^ 8 from rfl, ← pow_mul]
    exact u.isLt
  exact BitVec.eq_of_toNat_eq (beBytes_inj (hlt v) (hlt w) h)

variable {a : Address} {x : Account}

theorem accountBytes_inj {b : Address} {y : Account} (h : accountBytes K a x = accountBytes K b y) :
    a = b ∧ x.nonce = y.nonce ∧ x.balance = y.balance ∧ K x.code = K y.code := by
  have hle : ∀ v w : U64, toLeBytes 8 v.toNat = toLeBytes 8 w.toNat → v = w := fun v w hvw =>
    beBytes_bitVec_inj (List.reverse_injective hvw)
  obtain ⟨h, hcode⟩ := List.append_inj h (by simp [toLeBytes, beBytes_length])
  obtain ⟨h, hbal⟩ := List.append_inj h (by simp [toLeBytes, beBytes_length])
  obtain ⟨haddr, hnon⟩ := List.append_inj h (by simp [beBytes_length])
  exact ⟨beBytes_bitVec_inj haddr, hle _ _ hnon, beBytes_bitVec_inj hbal, beBytes_bitVec_inj hcode⟩

/-! ### Equal roots -/

def hashed (p : Provider) : List Bytes := rootData K p :: p.accounts.entries.map (·.2.code)

/-- No two of the inputs have one hash. -/
def NoCollision (inputs : List Bytes) : Prop := ∀ x ∈ inputs, ∀ y ∈ inputs, K x = K y → x = y

instance (inputs : List Bytes) : Decidable (NoCollision K inputs) :=
  inferInstanceAs (Decidable (∀ x ∈ inputs, ∀ y ∈ inputs, K x = K y → x = y))

variable {K} {p q : Provider}

theorem computeEvmStateRoot_congr (h : p.accounts.entries = q.accounts.entries) :
    computeEvmStateRoot K p = computeEvmStateRoot K q := by
  rw [computeEvmStateRoot, computeEvmStateRoot, rootData, rootData, h]

theorem rootData_ne_nil (h : p.accounts.entries ≠ []) : rootData K p ≠ [] := by
  intro hnil
  obtain ⟨e, he⟩ := List.exists_mem_of_ne_nil _ h
  have hsor := (sortByKey_perm (fun e : Σ _ : Address, Account => e.1.toNat) _).mem_iff.2 he
  have hlen := accountBytes_length K e.1 e.2
  rw [List.flatMap_eq_nil_iff.1 hnil e hsor] at hlen
  simp at hlen

theorem mem_of_rootData_eq (h : rootData K p = rootData K q) (hx : ⟨a, x⟩ ∈ p.accounts.entries) :
    ∃ y, ⟨a, y⟩ ∈ q.accounts.entries ∧ x.nonce = y.nonce ∧ x.balance = y.balance ∧
      K x.code = K y.code := by
  have hlen : ∀ l : List (Σ _ : Address, Account),
      ∀ bytes ∈ l.map (fun e => accountBytes K e.1 e.2), bytes.length = 92 := by
    intro l bytes hbyt
    obtain ⟨e, -, rfl⟩ := List.mem_map.1 hbyt
    exact accountBytes_length K e.1 e.2
  have hmap := flatten_inj (by norm_num) (hlen _) (hlen _) h
  have hmem : accountBytes K a x ∈
      (sortByKey (fun e : Σ _ : Address, Account => e.1.toNat) p.accounts.entries).map
        (fun e => accountBytes K e.1 e.2) :=
    List.mem_map_of_mem ((sortByKey_perm _ _).mem_iff.2 hx)
  rw [hmap] at hmem
  obtain ⟨⟨b, y⟩, hy, heq⟩ := List.mem_map.1 hmem
  obtain ⟨rfl, hnon, hbal, hcode⟩ := accountBytes_inj K heq
  exact ⟨y, (sortByKey_perm _ _).mem_iff.1 hy, hnon.symm, hbal.symm, hcode.symm⟩

theorem lookup_of_rootData_eq (h : rootData K p = rootData K q)
    (hcod : NoCollision K (hashed K p ++ hashed K q))
    (hx : p.accounts.lookup a = some x) : q.accounts.lookup a = some x := by
  have hmem : ⟨a, x⟩ ∈ p.accounts.entries := AList.mem_lookup_iff.1 hx
  obtain ⟨y, hy, hnon, hbal, hcode⟩ := mem_of_rootData_eq h hmem
  have heq : x = y := by
    have hsame : x.code = y.code :=
      hcod _ (List.mem_append_left _ (List.mem_cons_of_mem _ (List.mem_map_of_mem hmem))) _
        (List.mem_append_right _ (List.mem_cons_of_mem _ (List.mem_map_of_mem hy))) hcode
    obtain ⟨n, b, c⟩ := x
    cases hnon
    cases hbal
    cases hsame
    rfl
  rw [heq]
  exact AList.mem_lookup_iff.2 hy

theorem sameAccounts_of_root (hp : p.accounts.entries ≠ []) (hq : q.accounts.entries ≠ [])
    (hroot : computeEvmStateRoot K p = computeEvmStateRoot K q)
    (hfree : NoCollision K (hashed K p ++ hashed K q)) (a : Address) : p.entry a = q.entry a := by
  rw [computeEvmStateRoot, computeEvmStateRoot, if_neg (rootData_ne_nil hp),
    if_neg (rootData_ne_nil hq)] at hroot
  have hdata : rootData K p = rootData K q := hfree _ (List.mem_append_left _ List.mem_cons_self) _
      (List.mem_append_right _ List.mem_cons_self) hroot
  have hfree' : NoCollision K (hashed K q ++ hashed K p) := by
    intro x hx y hy
    rw [List.mem_append, or_comm, ← List.mem_append] at hx hy
    exact hfree x hx y hy
  have hloo : p.accounts.lookup a = q.accounts.lookup a := by
    refine Option.ext fun x => ⟨fun hx => ?_, fun hx => ?_⟩
    · exact lookup_of_rootData_eq hdata hfree hx
    · exact lookup_of_rootData_eq hdata.symm hfree' hx
  rw [Provider.entry, Provider.entry, hloo]

end

/-! ### The words of the contracts -/

/-- What is taken from revm of a deployment that succeeds: the storage it writes depends on
what is deployed alone, and the deployer's nonce counts it. -/
structure Vm.Deploys (vm : Vm) (created : Deployment → List (Slot × U256)) : Prop where
  storage : ∀ {p d r}, vm.executeTxDb p d = .ok r → r.success → ∀ s : Slot → U256,
    writeAll s (r.delta.flatMap (·.2.storage)) = writeAll s (created d)
  nonce : ∀ {p d r}, vm.executeTxDb p d = .ok r → r.success →
    (p.applyFromRevmState r.delta).getNonce d.deployer = d.nonce + 1

def deployments (chainId : U64) : U64 → List GenesisAsset → List Deployment
  | _, [] => []
  | nonce, asset :: rest =>
    if asset.assetId = callAssetId then deployments chainId nonce rest
    else
      { chainId, deployer := bridgeEvmAddress, nonce, asset, bridge := bridgeEvmAddress
        issuer := 0 } :: deployments chainId (nonce + 1) rest

def Vm.contractWord (vm : Vm) (d : Deployment) : U64 × U256 :=
  (d.asset.assetId, addressToU256 (vm.deriveCreateAddress d.deployer d.nonce))

variable (delta : List (Address × AccountDelta))

theorem applyFromRevmState_slots (p : Provider) :
    (p.applyFromRevmState delta).slots = writeAll p.slots (delta.flatMap (·.2.storage)) := by
  induction delta generalizing p with
  | nil => rfl
  | cons e rest ih =>
    have hrest := ih (p.applyAccount e.1 e.2)
    rw [List.flatMap_cons, writeAll_append]
    exact hrest

theorem applyFromRevmState_rest (p : Provider) :
    (p.applyFromRevmState delta).validators = p.validators ∧
      (p.applyFromRevmState delta).assetContract = p.assetContract := by
  induction delta generalizing p with
  | nil => exact ⟨rfl, rfl⟩
  | cons e rest ih => exact ih (p.applyAccount e.1 e.2)

theorem getNonce_applyFromRevmState_snoc (p : Provider) (a : Address) (d : AccountDelta) :
    (p.applyFromRevmState (delta ++ [(a, d)])).getNonce a = d.nonce := by
  have hent := entry_modify (p.applyFromRevmState delta) a a fun account =>
    { balance := d.balance, nonce := d.nonce, code := d.code.getD account.code }
  rw [if_pos rfl] at hent
  rw [Provider.applyFromRevmState, List.foldl_append]
  exact congrArg Account.nonce hent

section
variable {vm : Vm} {created : Deployment → List (Slot × U256)} {chainId : U64} {p p' : Provider}

theorem deployErc20Template_spec (hvm : vm.Deploys created) {asset : GenesisAsset}
    {contractAddr : Address}
    (h : deployErc20Template vm chainId p bridgeEvmAddress asset = .ok (p', contractAddr, true)) :
    let d : Deployment := ⟨chainId, bridgeEvmAddress, p.getNonce bridgeEvmAddress, asset,
      bridgeEvmAddress, 0⟩
    p'.slots = writeAll p.slots (created d) ∧ p'.validators = p.validators ∧
      p'.assetContract = p.assetContract ∧
      p'.getNonce bridgeEvmAddress = p.getNonce bridgeEvmAddress + 1 ∧
      contractAddr = vm.deriveCreateAddress d.deployer d.nonce := by
  intro d
  unfold deployErc20Template at h
  dsimp only at h
  split at h
  · cases h
  · rename_i result hres
    obtain ⟨rfl, rfl, hsuc⟩ : _ ∧ _ ∧ result.success = true := by simpa using h
    obtain ⟨hval, hcon⟩ := applyFromRevmState_rest result.delta p
    have hslo : (p.applyFromRevmState result.delta).slots = writeAll p.slots (created d) :=
      (applyFromRevmState_slots _ p).trans (hvm.storage hres hsuc p.slots)
    have hnon := hvm.nonce hres hsuc
    split_ifs
    · exact ⟨hslo, hval, hcon, hnon, rfl⟩
    · refine ⟨hslo, hval, hcon, ?_, rfl⟩
      rw [getNonce_setCode]
      exact hnon

structure Deployed (vm : Vm) (created : Deployment → List (Slot × U256)) (ds : List Deployment)
    (p p' : Provider) : Prop where
  slots : p'.slots = writeAll p.slots (ds.flatMap created)
  contracts : p'.assetContract = writeAll p.assetContract (ds.map vm.contractWord)
  validators : p'.validators = p.validators
  accounts : p.accounts.entries ≠ [] → p'.accounts.entries ≠ []

theorem deployEvmTemplates_writes (hvm : vm.Deploys created) {assets : List GenesisAsset}
    {nonce : U64} (hnon : p.getNonce bridgeEvmAddress = nonce)
    (h : deployEvmTemplates vm chainId p assets = .ok p') :
    Deployed vm created (deployments chainId nonce assets) p p' := by
  induction assets generalizing p nonce with
  | nil =>
    cases h
    exact ⟨rfl, rfl, rfl, id⟩
  | cons asset rest ih =>
    unfold deployEvmTemplates at h
    by_cases hcall : asset.assetId = callAssetId
    · rw [if_pos hcall] at h
      rw [deployments, if_pos hcall]
      exact ih hnon h
    · rw [if_neg hcall] at h
      dsimp only at h
      split at h
      · cases h
      · rename_i p₁ contractAddr success hdep
        obtain ⟨hsuc, h⟩ := ite_error_eq_ok.1 h
        obtain rfl : success = true := not_not.1 hsuc
        obtain ⟨hslo, hval, hcon, hnext, haddr⟩ := deployErc20Template_spec hvm hdep
        rw [getNonce_createAccount, getNonce_setBalance, hnon] at hslo hnext haddr
        have hsee : (p₁.seedAssetContractAddress asset.assetId contractAddr).getNonce
            bridgeEvmAddress = nonce + 1 :=
          (congrFun (getNonce_createAccount p₁ assetAddress) _).trans hnext
        have haft := ih hsee h
        rw [deployments, if_neg hcall]
        constructor
        case slots =>
          rw [haft.slots, List.flatMap_cons, writeAll_append]
          exact congrArg (writeAll · _) hslo
        case contracts =>
          rw [haft.contracts, List.map_cons, Vm.contractWord, ← haddr]
          exact congrArg (fun f => writeAll (Function.update f _ _) _) hcon
        case validators => exact haft.validators.trans hval
        case accounts => exact fun _ => haft.accounts (insert_entries_ne_nil _ _ _)

end

/-! ### The state of a configuration -/

def slotWords (created : Deployment → List (Slot × U256)) (g : Genesis) : List (Slot × U256) :=
  g.initialAssets.flatMap assetWords ++ escrowWords g.validators ++
    (deployments g.chainId 0 g.initialAssets).flatMap created

def contractWords (vm : Vm) (g : Genesis) : List (U64 × U256) :=
  (deployments g.chainId 0 g.initialAssets).map vm.contractWord

structure StorageOf (vm : Vm) (created : Deployment → List (Slot × U256)) (g : Genesis)
    (p : Provider) : Prop where
  slots : p.slots = writeAll (fun _ => 0) (slotWords created g)
  contracts : p.assetContract = writeAll (fun _ => 0) (contractWords vm g)
  validators : p.validators = enrolled {} 0 g.validators
  accounts : p.accounts.entries ≠ []

theorem storageOf_executed {K : Bytes → B256} {vm : Vm}
    {created : Deployment → List (Slot × U256)} (hvm : vm.Deploys created) {g : Genesis}
    {st : GenesisState} (h : Executed K vm g st) : StorageOf vm created g st.evmState := by
  obtain ⟨p₁, p₂, hass, hstak, hdepl⟩ := h.steps
  have hreg := registerAssets_spec hass
  have hsta := registerValidators_spec hstak
  have hnon : p₂.getNonce bridgeEvmAddress = 0 := by
    rw [hsta.nonces, hreg.nonces]
    rfl
  have hdep := deployEvmTemplates_writes hvm hnon hdepl
  constructor
  case slots =>
    rw [hdep.slots, hsta.slots, hreg.slots, slotWords, writeAll_append, writeAll_append]
    rfl
  case contracts =>
    rw [hdep.contracts, hsta.contracts, hreg.contracts]
    rfl
  case validators =>
    rw [hdep.validators, hsta.registry, hreg.validators]
    rfl
  case accounts => exact hdep.accounts (hsta.accounts h.validators)

/-! ### Validators of two configurations -/

def addresses (validators : List GenesisValidator) : List Address :=
  validators.map fun gv => addressOf gv.address

variable {vs vs' : List GenesisValidator}

theorem numbered_congr (h : addresses vs = addresses vs') (i : ℕ) :
    numbered i vs = numbered i vs' := by
  induction vs generalizing vs' i with
  | nil =>
    cases vs' with
    | nil => rfl
    | cons => simp [addresses] at h
  | cons gv rest ih =>
    cases vs' with
    | nil => simp [addresses] at h
    | cons =>
      obtain ⟨haddr, hrest⟩ := List.cons.inj h
      dsimp only at haddr
      rw [numbered, numbered, haddr, ih hrest]

theorem addresses_of_enrolled (hlen : vs.length < 2 ^ 64) (hlen' : vs'.length < 2 ^ 64)
    (h : enrolled {} 0 vs = enrolled {} 0 vs') : addresses vs = addresses vs' := by
  have hcou : ∀ l : List GenesisValidator,
      (enrolled {} 0 l).validatorCount = BitVec.ofNat 64 l.length := by
    intro l
    cases l with
    | nil => rfl
    | cons => simp [enrolled]
  have hleng : vs.length = vs'.length := by
    have heq := congrArg (fun v => v.validatorCount.toNat) h
    simp only [hcou, BitVec.toNat_ofNat] at heq
    rwa [Nat.mod_eq_of_lt hlen, Nat.mod_eq_of_lt hlen'] at heq
  refine List.ext_get (by simpa [addresses] using hleng) fun j hj hj' => ?_
  rw [addresses, List.length_map] at hj hj'
  have hids := congrFun (congrArg ValidatorStorage.validatorAddr h) (BitVec.ofNat 64 (0 + j + 1))
  have hnum := validatorAddr_numbered (i := 0) (fun _ => 0) hj (by omega)
  have hnum' := validatorAddr_numbered (i := 0) (fun _ => 0) hj' (by omega)
  have haddr := hnum.symm.trans (hids.trans hnum')
  simpa [addresses] using haddr

theorem enrolled_eq_iff (hlen : vs.length < 2 ^ 64) (hlen' : vs'.length < 2 ^ 64) :
    enrolled {} 0 vs = enrolled {} 0 vs' ↔ addresses vs = addresses vs' ∧
      writeAll (fun _ => 0) (stakes vs) = writeAll (fun _ => 0) (stakes vs') ∧
      writeAll (fun _ => 0) (pubkeys vs) = writeAll (fun _ => 0) (pubkeys vs') := by
  constructor
  · intro h
    exact ⟨addresses_of_enrolled hlen hlen' h, congrArg ValidatorStorage.stake h,
      congrArg ValidatorStorage.pubkey h⟩
  · rintro ⟨haddr, hsta, hkeys⟩
    have hleng : vs.length = vs'.length := by
      simpa [addresses] using congrArg List.length haddr
    have hemp : vs.isEmpty = vs'.isEmpty := by
      rw [Bool.eq_iff_iff, List.isEmpty_iff_length_eq_zero, List.isEmpty_iff_length_eq_zero, hleng]
    have hstat : statuses vs = statuses vs' := by
      have hmap := congrArg (List.map fun a => (a, (1 : BitVec 8))) haddr
      rwa [addresses, addresses, List.map_map, List.map_map] at hmap
    unfold enrolled
    rw [hsta, hkeys, hstat, numbered_congr haddr, hemp, hleng]

/-! ### Two configurations with one root -/

/-- The two have the same accounts, slots, contracts and validators. -/
structure SameState (p q : Provider) : Prop where
  accounts : ∀ a, p.entry a = q.entry a
  slots : p.slots = q.slots
  contracts : p.assetContract = q.assetContract
  validators : p.validators = q.validators

/-- The configurations list the same: the last word of every slot and contract, the
addresses of the validators, and the last stake and key of each. -/
structure SameListing (vm : Vm) (created : Deployment → List (Slot × U256)) (g g' : Genesis) :
    Prop where
  slots : writeAll (fun _ => 0) (slotWords created g) = writeAll (fun _ => 0) (slotWords created g')
  contracts : writeAll (fun _ => 0) (contractWords vm g) = writeAll (fun _ => 0) (contractWords vm g')
  addresses : addresses g.validators = addresses g'.validators
  stakes : writeAll (fun _ => 0) (stakes g.validators) = writeAll (fun _ => 0) (stakes g'.validators)
  pubkeys :
    writeAll (fun _ => 0) (pubkeys g.validators) = writeAll (fun _ => 0) (pubkeys g'.validators)

/-- **What the genesis root fixes.** Two configurations that are executed to one root, without a
collision among what was hashed, give every address the same nonce, balance and code. They give
the same state exactly if they list the same words and validators. -/
theorem genesis_root_iff (K : Bytes → B256) (vm : Vm) (created : Deployment → List (Slot × U256))
    (hvm : vm.Deploys created) (g g' : Genesis) (st st' : GenesisState)
    (hrun : execute K vm g = .ok st) (hrun' : execute K vm g' = .ok st')
    (hroot : st.stateRoot = st'.stateRoot)
    (hfree : NoCollision K (hashed K st.evmState ++ hashed K st'.evmState))
    (hlen : g.validators.length < 2 ^ 64) (hlen' : g'.validators.length < 2 ^ 64) :
    (∀ a, st.evmState.entry a = st'.evmState.entry a) ∧
      (SameState st.evmState st'.evmState ↔ SameListing vm created g g') := by
  have h := execute_ok hrun
  have h' := execute_ok hrun'
  have hsto := storageOf_executed hvm h
  have hsto' := storageOf_executed hvm h'
  have hacc : ∀ a, st.evmState.entry a = st'.evmState.entry a := by
    rw [h.root, h'.root] at hroot
    exact sameAccounts_of_root hsto.accounts hsto'.accounts hroot hfree
  refine ⟨hacc, ?_, ?_⟩
  · rintro ⟨-, hslo, hcon, hval⟩
    rw [hsto.slots, hsto'.slots] at hslo
    rw [hsto.contracts, hsto'.contracts] at hcon
    rw [hsto.validators, hsto'.validators, enrolled_eq_iff hlen hlen'] at hval
    exact ⟨hslo, hcon, hval.1, hval.2.1, hval.2.2⟩
  · rintro ⟨hslo, hcon, hadd, hsta, hkeys⟩
    refine ⟨hacc, ?_, ?_, ?_⟩
    · rw [hsto.slots, hsto'.slots, hslo]
    · rw [hsto.contracts, hsto'.contracts, hcon]
    · rw [hsto.validators, hsto'.validators, enrolled_eq_iff hlen hlen']
      exact ⟨hadd, hsta, hkeys⟩

def tokenWords (d : Deployment) : List (Slot × U256) :=
  [(.account (d.nonce.setWidth 160 + 0x1000) 0, d.asset.decimals.setWidth 256)]

theorem tokenVm_deploys : tokenVm.Deploys tokenWords where
  storage {p d r} h hsuc s := by
    unfold tokenVm at h
    dsimp only at h
    split at h <;> cases h
    · rfl
    · cases hsuc
  nonce {p d r} h hsuc := by
    unfold tokenVm at h
    dsimp only at h
    split at h <;> cases h
    · exact getNonce_applyFromRevmState_snoc _ p d.deployer _
    · cases hsuc

def lengthHash (b : Bytes) : B256 := BitVec.ofNat 256 b.length

def lowerCase : Genesis := configOf [(repeated 0x31, 500)] [(repeated 0x61, 30)] [(0x62, 7)]

/-- Another name, another time, addresses in upper case, and an entry of 0 before that of 30. -/
def upperCase : Genesis :=
  { configOf [(repeated 0x31, 500)] [(repeated 0x41, 0), (repeated 0x41, 30)] [(0x42, 7)] with
    chainName := [0x64]
    timestampMillis := 2 }

theorem writeAll_overwrite {κ ν : Type} [DecidableEq κ] (f : κ → ν) (ws ws' : List (κ × ν)) (k : κ)
    (v w : ν) : writeAll f (ws ++ (k, v) :: (k, w) :: ws') = writeAll f (ws ++ (k, w) :: ws') := by
  simp only [writeAll_append, writeAll_cons, Function.update_idem]

theorem upper_case_same_state : ∃ st st', execute lengthHash tokenVm lowerCase = .ok st ∧
      execute lengthHash tokenVm upperCase = .ok st' ∧ SameState st.evmState st'.evmState := by
  have hrun : execute lengthHash tokenVm lowerCase = .ok _ := rfl
  have hrun' : execute lengthHash tokenVm upperCase = .ok _ := rfl
  refine ⟨_, _, hrun, hrun', ?_⟩
  obtain ⟨-, hiff⟩ := genesis_root_iff lengthHash tokenVm tokenWords tokenVm_deploys _ _ _ _ hrun
    hrun' (by decide +kernel) (by decide +kernel) (by decide) (by decide)
  have hsta : stakes lowerCase.validators = stakes upperCase.validators := by decide +kernel
  have hkeys : pubkeys lowerCase.validators = pubkeys upperCase.validators := by decide +kernel
  -- the words of CALL come first, then the balance that the second entry overwrites
  have hlow : slotWords tokenWords lowerCase = (slotWords tokenWords lowerCase).take 12 ++
      (.balance 2 (addressOf (repeated 0x61)), 30) :: (slotWords tokenWords lowerCase).drop 13 := by
    decide +kernel
  have hupp : slotWords tokenWords upperCase = (slotWords tokenWords lowerCase).take 12 ++
      (.balance 2 (addressOf (repeated 0x61)), 0) :: (.balance 2 (addressOf (repeated 0x61)), 30) ::
        (slotWords tokenWords lowerCase).drop 13 := by decide +kernel
  refine hiff.2 ⟨?_, rfl, by decide +kernel, by rw [hsta], by rw [hkeys]⟩
  rw [hupp, writeAll_overwrite, ← hlow]

def otherValidator : Genesis :=
  configOf [(repeated 0x31, 500)] [(repeated 0x32, 30)] [(0x36, 9)]

/-- The state that a configuration is executed to does not depend on the hash. -/
def stateOf (g : Genesis) : Provider :=
  match execute (fun _ => 0) tokenVm g with
  | .ok st => st.evmState
  | .error _ => Provider.new

/-- The two have different validators and stakes, whatever the hash. -/
theorem other_validator_same_root :
    let p := stateOf separateHolders
    let q := stateOf otherValidator
    p.validators.validatorAddr 1 ≠ q.validators.validatorAddr 1 ∧
      p.slots (.balance callAssetId stakingEscrow) = 7 ∧
      q.slots (.balance callAssetId stakingEscrow) = 9 ∧
      ∀ K : Bytes → B256, ∃ st st', execute K tokenVm separateHolders = .ok st ∧
        execute K tokenVm otherValidator = .ok st' ∧ st.evmState = p ∧ st'.evmState = q ∧
        st.stateRoot = st'.stateRoot := by
  intro p q
  have hentries : p.accounts.entries = q.accounts.entries := by decide +kernel
  refine ⟨by decide +kernel, by decide +kernel, by decide +kernel, fun K => ?_⟩
  exact ⟨⟨_, p, _⟩, ⟨_, q, _⟩, rfl, rfl, rfl, rfl, computeEvmStateRoot_congr hentries⟩

end Callchain.Chainspec

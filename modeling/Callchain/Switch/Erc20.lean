/-
# Switching a token

An asset other than CALL is a token that the precompile calls in a nested transaction.
It is a parameter, and is taken to be a standard one: what a call returns is what it
did, and its state is in its own slots. Then an escrowed token (EVM-dominant asset)
backs every protocol balance that switching creates with the tokens the precompile
holds, and a wrapper (protocol-dominant asset) has its supply and the protocol balances
sum to what they did.

A contract can be that of several assets: a wrapper may be registered again as a token. So
the protocol balances are summed over the assets of a contract that are of one kind.
-/
import Callchain.Asset.Supply
import Callchain.Precompile.Static
import Callchain.Switch.Native
import Callchain.Switch.Token

namespace Callchain.Switch

open Precompile Asset
open Function (update update_of_ne)

def contractOf (s : Slot → U256) (id : U64) : Address :=
  u256ToAddress (s (.assetMeta id .evmContract))

def dominanceOf (s : Slot → U256) (id : U64) : U8 := u256ToU8 (s (.assetMeta id .dominance))

/-! ### The nested call -/

variable {evm : Evm Slot} {id : U64} {w w' : World Slot} {c : SwitchCall} {s t : Slot → U256}

variable (evm id) in
def Nested (wrapper escrowed : Bytes) (s t : Slot → U256) : Prop :=
  ∃ u r output, u.storage = s ∧
    evm u switchAddress (contractOf s id)
      (if dominanceOf s id = 1 then wrapper else escrowed) = .ok r ∧
    r.result = .success output ∧ (dominanceOf s id = 1 ∨ decodeAbiBool output = true) ∧
    t = applied r.state s

theorem settleErc20_outcome {dominance : U8} {r : EvmResult Slot} {u : Unit}
    (h : (settleErc20 dominance r).outcome evm false w = (w', .ok u)) :
    ∃ output, r.result = .success output ∧ (dominance = 1 ∨ decodeAbiBool output = true) ∧
      w'.storage = applied r.state w.storage := by
  unfold settleErc20 at h
  cases hr : r.result with rw [hr] at h
  | success output =>
    obtain ⟨w₁, ⟨⟩, hche, happ⟩ := outcome_bind_eq_ok.1 h
    obtain ⟨hbool, rfl⟩ := outcome_require_eq_ok.1 hche
    exact ⟨output, rfl, hbool, (applyStateChanges_outcome happ).1⟩
  | revert | halt => cases h

theorem readEvmContract_spec {a : Address} (h : (readEvmContract id).eval s = (t, .ok a)) :
    t = s ∧ a = contractOf s id := by
  obtain ⟨-, h⟩ := Access.eval_require_bind_eq_ok.1 h
  obtain ⟨hs, ha⟩ := Prod.mk.inj h
  exact ⟨hs.symm, (Except.ok.inj ha).symm⟩

theorem readDominance_spec {d : U8} (hid : id ≠ callAssetId)
    (h : (readDominance id).eval s = (t, .ok d)) : t = s ∧ d = dominanceOf s id := by
  unfold readDominance at h
  rw [if_neg hid] at h
  obtain ⟨hs, hd⟩ := Prod.mk.inj h
  exact ⟨hs.symm, (Except.ok.inj hd).symm⟩

variable {wrapper escrowed : Bytes}

theorem callErc20_nested (hid : id ≠ callAssetId) {u : Unit}
    (h : (callErc20 id wrapper escrowed).outcome evm false w = (w', .ok u)) :
    Nested evm id wrapper escrowed w.storage w'.storage := by
  obtain ⟨w₁, contract, hcon, hrest⟩ := outcome_bind_eq_ok.1 h
  obtain ⟨h₁, rfl⟩ := readEvmContract_spec (outcome_storageRef _ _ _ hcon).1
  obtain ⟨w₂, code, hcode, hrest⟩ := outcome_bind_eq_ok.1 hrest
  have h₂ : SameState w₁
      ((Prog.call (.codeGet (contractOf w.storage id))).outcome evm false w₁).1 :=
    (Prog.readOnly_call rfl).outcome
  rw [hcode] at h₂
  obtain ⟨w₃, ⟨⟩, hche, hrest⟩ := outcome_bind_eq_ok.1 hrest
  obtain ⟨-, rfl⟩ := outcome_require_eq_ok.1 hche
  obtain ⟨w₄, dominance, hdom, hrest⟩ := outcome_bind_eq_ok.1 hrest
  obtain ⟨h₄, rfl⟩ := readDominance_spec hid (outcome_storageRef _ _ _ hdom).1
  obtain ⟨w₅, r, hcall, hset⟩ := outcome_bind_eq_ok.1 hrest
  obtain ⟨hevm, h₅⟩ := executeEvmCall_outcome hcall
  obtain ⟨output, hres, hbool, happ⟩ := settleErc20_outcome hset
  have hs : w₂.storage = w.storage := h₂.storage.trans h₁
  rw [hs] at h₄ hevm hbool
  rw [h₅.storage, h₄] at happ
  exact ⟨w₄, r, output, h₄, hevm, hres, hbool, happ⟩

theorem Nested.frame (h : Nested evm id wrapper escrowed s t)
    (hc : Contained evm (contractOf s id)) {k : Slot}
    (hk : ∀ slot, k ≠ .account (contractOf s id) slot) : t k = s k := by
  obtain ⟨u, r, output, rfl, hevm, -, -, rfl⟩ := h
  exact hc u _ r hevm k hk

theorem step_static (hs : c.isStatic = true) : (step evm id w c).storage = w.storage := by
  unfold step
  rw [switch_eq]
  rcases (Precompile.Method.mutate 20000 (do c.handler id; return [] : Prog Slot Words)).call_static
      evm (p := .new { world := c.start w } c.gasLimit c.isStatic) hs with
    ⟨prog, gas, ops, q, -, hcomp, -, hj⟩ | ⟨hsame, -⟩
  · exact (congrArg (fun j => j.world.storage) hj).trans (hcomp.kept hs).storage
  · exact hsame.storage

theorem erc20_ok (hid : id ≠ callAssetId) (hs : c.isStatic = false) (h : Succeeds evm id w c) :
    (c.direction = .toEvm ∧ ∃ v : U256,
      v.toNat + c.amount.toNat = (w.storage (.balance id c.caller)).toNat ∧
      Nested evm id (encodeBridgeMint c.receiver c.amount) (encodeTransfer c.receiver c.amount)
        (update w.storage (.balance id c.caller) v) (step evm id w c).storage) ∨
    (c.direction = .toProtocol ∧ ∃ (s : Slot → U256) (v : U256),
      Nested evm id (encodeBridgeBurn c.caller c.amount)
        (encodeTransferFrom c.caller switchAddress c.amount) w.storage s ∧
      v.toNat = (s (.balance id c.receiver)).toNat + c.amount.toNat ∧
      (step evm id w c).storage = update s (.balance id c.receiver) v) := by
  have hout := switch_ok h
  unfold SwitchCall.handler at hout
  rw [hs] at hout
  cases hd : c.direction with
  | toEvm =>
    left
    rw [hd] at hout
    obtain ⟨w₁, w₂, hsame, hsub, hcre⟩ := switchToEvm_outcome hout
    obtain ⟨v, hsto, hv⟩ := subProtocolBal_spec (outcome_storageRef _ _ _ hsub).1
    rw [creditEvm, if_neg hid] at hcre
    have hnes := callErc20_nested hid hcre
    have hold : w₁.storage = w.storage := hsame.storage
    rw [hold] at hsto hv
    rw [hsto] at hnes
    exact ⟨rfl, v, hv, hnes⟩
  | toProtocol =>
    right
    rw [hd] at hout
    obtain ⟨w₁, w₂, hsame, hdeb, hadd⟩ := switchToProtocol_outcome hout
    obtain ⟨v, hsto, hv⟩ := addProtocolBal_spec (outcome_storageRef _ _ _ hadd).1
    rw [debitEvm, if_neg hid] at hdeb
    have hnes := callErc20_nested hid hdeb
    have hold : w₁.storage = w.storage := hsame.storage
    rw [hold] at hnes
    exact ⟨rfl, w₂.storage, v, hnes, hv, hsto⟩

/-! ### What a call preserves -/

variable {contract : Address} {wrapped : Bool} {x : U64}

/-- An asset of the contract, as a wrapper or as an escrowed token. -/
def IsOf (s : Slot → U256) (contract : Address) (wrapped : Bool) (id : U64) : Prop :=
  id ≠ callAssetId ∧ contractOf s id = contract ∧ (dominanceOf s id = 1 ↔ wrapped = true)

instance (s : Slot → U256) (contract : Address) (wrapped : Bool) (id : U64) :
    Decidable (IsOf s contract wrapped id) := inferInstanceAs (Decidable (_ ∧ _ ∧ _))

/-- The protocol balances of these assets. -/
def heldOf (s : Slot → U256) (contract : Address) (wrapped : Bool) : ℕ :=
  Ledger.total fun id : U64 => if IsOf s contract wrapped id then held s id else 0

def SameInfo (s t : Slot → U256) : Prop := ∀ id f, t (.assetMeta id f) = s (.assetMeta id f)

theorem SameInfo.isOf (h : SameInfo s t) :
    IsOf t contract wrapped id ↔ IsOf s contract wrapped id := by
  rw [IsOf, contractOf, dominanceOf, h, h]
  rfl

theorem heldOf_congr (h : SameInfo s t)
    (hheld : ∀ id, IsOf s contract wrapped id → held t id = held s id) :
    heldOf t contract wrapped = heldOf s contract wrapped := by
  refine Ledger.total_congr fun id => ?_
  by_cases hid : IsOf s contract wrapped id
  · rw [if_pos hid, if_pos (h.isOf.2 hid), hheld id hid]
  · rw [if_neg hid, if_neg (mt h.isOf.1 hid)]

theorem heldOf_moved (h : SameInfo s t) (hheld : ∀ id, id ≠ x → held t id = held s id)
    (hx : IsOf s contract wrapped x) :
    heldOf t contract wrapped + held s x = heldOf s contract wrapped + held t x := by
  have hagr := Ledger.total_of_agree
    (f := fun id : U64 => if IsOf s contract wrapped id then held s id else 0)
    (g := fun id : U64 => if IsOf t contract wrapped id then held t id else 0) x fun id hid => by
      by_cases hi : IsOf s contract wrapped id
      · rw [if_pos hi, if_pos (h.isOf.2 hi), hheld id hid]
      · rw [if_neg hi, if_neg (mt h.isOf.1 hi)]
  rw [if_pos hx, if_pos (h.isOf.2 hx)] at hagr
  exact hagr

/-- An asset that is the only one of its kind. -/
theorem heldOf_sole (h : IsOf s contract wrapped id)
    (hsole : ∀ id', IsOf s contract wrapped id' → id' = id) :
    heldOf s contract wrapped = held s id := by
  unfold heldOf Ledger.total
  rw [Finset.sum_eq_single id, if_pos h]
  · intro id' _ hne
    exact if_neg fun hid => hne (hsole id' hid)
  · exact fun hmem => absurd (Finset.mem_univ id) hmem

variable (token : StandardToken evm contract)

/-- The metadata stays; escrowed tokens back the protocol balances created, and the supply of
wrappers and their protocol balances sum to what they did. -/
structure Preserves (s t : Slot → U256) : Prop where
  info : SameInfo s t
  escrow : heldOf t contract false + token.balanceOf s switchAddress ≤
    heldOf s contract false + token.balanceOf t switchAddress
  supply : heldOf t contract true + token.totalSupply t =
    heldOf s contract true + token.totalSupply s

variable {token}

theorem Preserves.trans {v : Slot → U256} (h : Preserves token s t) (h' : Preserves token t v) :
    Preserves token s v := by
  have hesc := h.escrow
  have hesc' := h'.escrow
  have hsup := h.supply
  have hsup' := h'.supply
  exact ⟨fun id f => (h'.info id f).trans (h.info id f), by omega, by omega⟩

theorem preserves_of_frame (hinfo : SameInfo s t)
    (hheld : ∀ id, id ≠ callAssetId → contractOf s id = contract → held t id = held s id)
    (hacc : ∀ slot, t (.account contract slot) = s (.account contract slot)) :
    Preserves token s t := by
  obtain ⟨hbal, hsup⟩ := token.reads hacc
  have hkept : ∀ wrapped, heldOf t contract wrapped = heldOf s contract wrapped := fun _ =>
    heldOf_congr hinfo fun id h => hheld id h.1 h.2.1
  refine ⟨hinfo, ?_, ?_⟩
  · rw [hkept, hbal]
  · rw [hkept, hsup]

/-- The protocol balances of one asset of the contract have changed, and the token as much. -/
theorem preserves_of_moved (hx : x ≠ callAssetId) (hcon : contractOf s x = contract)
    (hinfo : SameInfo s t) (hheld : ∀ id, id ≠ x → held t id = held s id)
    (hesc : dominanceOf s x ≠ 1 → token.totalSupply t = token.totalSupply s ∧
      held t x + token.balanceOf s switchAddress ≤ held s x + token.balanceOf t switchAddress)
    (hsup : dominanceOf s x = 1 → held t x + token.totalSupply t = held s x + token.totalSupply s ∧
      token.balanceOf s switchAddress ≤ token.balanceOf t switchAddress) : Preserves token s t := by
  have hother : ∀ wrapped, ¬IsOf s contract wrapped x →
      heldOf t contract wrapped = heldOf s contract wrapped := fun _ hnot =>
    heldOf_congr hinfo fun id hid => hheld id fun he => hnot (he ▸ hid)
  by_cases hd : dominanceOf s x = 1
  · have hmov := heldOf_moved hinfo hheld ⟨hx, hcon, iff_of_true hd (Eq.refl true)⟩
    have hesc' := hother false fun h => Bool.false_ne_true (h.2.2.1 hd)
    obtain ⟨hs, hb⟩ := hsup hd
    exact ⟨hinfo, by omega, by omega⟩
  · have hmov := heldOf_moved hinfo hheld ⟨hx, hcon, iff_of_false hd Bool.false_ne_true⟩
    have hsup' := hother true fun h => hd (h.2.2.2 rfl)
    obtain ⟨hs, hb⟩ := hesc hd
    exact ⟨hinfo, by omega, by omega⟩

theorem held_update_of_ne {id' : U64} (h : id' ≠ id) (a : Address) (v : U256) :
    held (update s (.balance id a) v) id' = held s id' :=
  held_congr fun _ => update_of_ne (by simp [h]) _ _

theorem sameInfo_update (a : Address) (v : U256) : SameInfo s (update s (.balance id a) v) :=
  fun _ _ => update_of_ne (by simp) _ _

variable (token) in
theorem reads_update (id : U64) (s : Slot → U256) (a : Address) (v : U256) :
    token.balanceOf (update s (.balance id a) v) = token.balanceOf s ∧
      token.totalSupply (update s (.balance id a) v) = token.totalSupply s :=
  token.reads fun _ => update_of_ne (by simp) _ _

theorem Nested.held_eq (h : Nested evm id wrapper escrowed s t)
    (hc : Contained evm (contractOf s id)) (id' : U64) : held t id' = held s id' :=
  held_congr fun _ => h.frame hc (by simp)

variable {caller receiver : Address}

theorem toEvm_preserves {amount : U128} {v : U256} (hid : id ≠ callAssetId)
    (hcon : contractOf s id = contract) (hc : Contained evm contract)
    (hv : v.toNat + amount.toNat = (s (.balance id caller)).toNat)
    (h : Nested evm id (encodeBridgeMint receiver amount) (encodeTransfer receiver amount)
      (update s (.balance id caller) v) t) : Preserves token s t := by
  have hmeta : SameInfo s (update s (.balance id caller) v) := sameInfo_update caller v
  have hcon' : contractOf (update s (.balance id caller) v) id = contract := by
    rw [contractOf, hmeta]
    exact hcon
  have hdom : dominanceOf (update s (.balance id caller) v) id = dominanceOf s id := by
    rw [dominanceOf, hmeta, dominanceOf]
  have hheld := h.held_eq (hcon'.symm ▸ hc)
  have hded := held_update s id caller v
  have hself := hheld id
  obtain ⟨hbal, hsup⟩ := reads_update token id s caller v
  refine preserves_of_moved hid hcon (fun id' f => ?_) (fun id' hne => ?_) (fun hd => ?_)
    fun hd => ?_
  · rw [h.frame (hcon'.symm ▸ hc) (by simp), hmeta]
  · rw [hheld, held_update_of_ne hne]
  · obtain ⟨u, r, output, hu, hevm, hres, hbool, rfl⟩ := h
    rw [hdom] at hbool
    rw [hdom, if_neg hd, hcon'] at hevm
    obtain ⟨hmov, hsame⟩ := token.transfer hevm hres (hbool.resolve_left hd)
    rw [hu, hsup] at hsame
    rw [hu, hbal] at hmov
    have hle := hmov.sender_le
    exact ⟨hsame, by omega⟩
  · obtain ⟨u, r, output, hu, hevm, hres, -, rfl⟩ := h
    rw [hdom, if_pos hd, hcon'] at hevm
    obtain ⟨hmin, hnew⟩ := token.bridgeMint hevm hres
    rw [hu, hbal] at hmin
    rw [hu] at hnew
    refine ⟨by omega, ?_⟩
    rw [hmin, Function.update_apply]
    split_ifs with hrec
    · rw [hrec]
      omega
    · exact le_rfl

theorem toProtocol_preserves {amount : U128} {v : U256} (hid : id ≠ callAssetId)
    (hcon : contractOf s id = contract) (hc : Contained evm contract)
    (hcal : caller ≠ switchAddress)
    (h : Nested evm id (encodeBridgeBurn caller amount)
      (encodeTransferFrom caller switchAddress amount) s t)
    (hv : v.toNat = (t (.balance id receiver)).toNat + amount.toNat) :
    Preserves token s (update t (.balance id receiver) v) := by
  have hheld := h.held_eq (hcon.symm ▸ hc)
  have hadd := held_update t id receiver v
  have hself := hheld id
  obtain ⟨hbal, hsup⟩ := reads_update token id t receiver v
  refine preserves_of_moved hid hcon (fun id' f => ?_) (fun id' hne => ?_) (fun hd => ?_)
    fun hd => ?_
  · rw [update_of_ne (by simp), h.frame (hcon.symm ▸ hc) (by simp)]
  · rw [held_update_of_ne hne, hheld]
  · obtain ⟨u, r, output, rfl, hevm, hres, hbool, rfl⟩ := h
    rw [if_neg hd, hcon] at hevm
    obtain ⟨hmov, hsame⟩ := token.transferFrom hevm hres (hbool.resolve_left hd)
    have hrec := hmov.receiver_eq hcal
    rw [hsup, hbal]
    exact ⟨hsame, by omega⟩
  · obtain ⟨u, r, output, rfl, hevm, hres, -, rfl⟩ := h
    rw [if_pos hd, hcon] at hevm
    obtain ⟨hbur, hnew⟩ := token.bridgeBurn hevm hres
    rw [hsup, hbal, hbur, update_of_ne hcal.symm]
    exact ⟨by omega, le_rfl⟩

/-! ### Runs -/

variable (evm) in
def stepAll (w : World Slot) (x : U64 × SwitchCall) : World Slot := step evm x.1 w x.2

variable (evm) in
/-- The token of the asset changes its own slots only, and the precompile does not call
itself. -/
def Proper (s : Slot → U256) (x : U64 × SwitchCall) : Prop :=
  Contained evm (contractOf s x.1) ∧ x.2.caller ≠ switchAddress

theorem erc20_frame (hid : id ≠ callAssetId) (hs : c.isStatic = false) (h : Succeeds evm id w c)
    (hc : Contained evm (contractOf w.storage id)) {k : Slot} (hk : ∀ a, k ≠ .balance id a)
    (hslot : ∀ slot, k ≠ .account (contractOf w.storage id) slot) :
    (step evm id w c).storage k = w.storage k := by
  rcases erc20_ok hid hs h with ⟨-, v, -, hnes⟩ | ⟨-, s₁, v, hnes, -, hsto⟩
  · exact (hnes.frame hc hslot).trans (update_of_ne (hk _) _ _)
  · rw [hsto, update_of_ne (hk _)]
    exact hnes.frame hc hslot

theorem preserves_of_call (h : Succeeds evm callAssetId w c) :
    Preserves token w.storage (step evm callAssetId w c).storage := by
  have honly : ∃ holder, ∀ k, k ≠ .balance callAssetId holder →
      (step evm callAssetId w c).storage k = w.storage k := by
    have hmov := (native_moved h).2
    unfold Moved at hmov
    cases hd : c.direction with
    | toEvm | toProtocol =>
      rw [hd] at hmov
      exact ⟨_, hmov.1.storage⟩
  obtain ⟨holder, honly⟩ := honly
  exact preserves_of_frame (fun _ _ => honly _ (by simp))
    (fun _ hne _ => held_congr fun _ => honly _ (by simp [hne])) fun _ => honly _ (by simp)

theorem stepAll_preserves {x : U64 × SwitchCall} (hpro : Proper evm w.storage x) :
    Preserves token w.storage (stepAll evm w x).storage := by
  have hsame : (stepAll evm w x).storage = w.storage →
      Preserves token w.storage (stepAll evm w x).storage := by
    intro heq
    rw [heq]
    exact preserves_of_frame (fun _ _ => rfl) (fun _ _ _ => rfl) fun _ => rfl
  cases hs : x.2.isStatic with
  | true => exact hsame (step_static hs)
  | false =>
    by_cases h : Succeeds evm x.1 w x.2
    · unfold stepAll
      by_cases hcall : x.1 = callAssetId
      · rw [hcall] at h ⊢
        exact preserves_of_call h
      by_cases hcon : contractOf w.storage x.1 = contract
      · have hc : Contained evm contract := hcon ▸ hpro.1
        rcases erc20_ok hcall hs h with ⟨-, v, hv, hnes⟩ | ⟨-, s₁, v, hnes, hv, hsto⟩
        · exact toEvm_preserves hcall hcon hc hv hnes
        · rw [hsto]
          exact toProtocol_preserves hcall hcon hc hpro.2 hnes hv
      · -- another contract: neither the token nor its assets have changed
        have hkeep := fun k => erc20_frame (k := k) hcall hs h hpro.1
        refine preserves_of_frame (fun _ _ => hkeep _ (by simp) (by simp)) (fun id _ hid => ?_)
          fun _ => hkeep _ (by simp) (by simp [Ne.symm hcon])
        have hne : id ≠ x.1 := by
          rintro rfl
          exact hcon hid
        exact held_congr fun _ => hkeep _ (by simp [hne]) (by simp)
    · refine hsame ?_
      unfold stepAll
      rw [step_error h]
      rfl

theorem run_preserves : ∀ {calls : List (U64 × SwitchCall)} {w : World Slot},
    (∀ x ∈ calls, Proper evm w.storage x) →
      Preserves token w.storage (Run.run (stepAll evm) w calls).storage
  | [], _, _ => preserves_of_frame (fun _ _ => rfl) (fun _ _ _ => rfl) fun _ => rfl
  | x :: calls, w, hpro => by
    have hstep : Preserves token w.storage (stepAll evm w x).storage :=
      stepAll_preserves (hpro x List.mem_cons_self)
    refine hstep.trans (run_preserves fun y hy => ?_)
    -- the metadata stays, so the rest of the run is as proper as it was
    have hy' := hpro y (List.mem_cons_of_mem x hy)
    unfold Proper at hy' ⊢
    rwa [contractOf, hstep.info]

/-- Asset 2 is a wrapper, and its contract is registered again as asset 3. All wrappers are
still to be minted. -/
def tokenWorld : World Slot where
  storage k :=
    if k = .assetMeta 2 .hasErc20 ∨ k = .assetMeta 3 .hasErc20 ∨ k = .assetMeta 2 .dominance then 1
    else if k = .assetMeta 2 .evmContract ∨ k = .assetMeta 3 .evmContract then
      addressToU256 tokenContract
    else if k = .balance 2 0xA then 9
    else if k = .account tokenContract reserve then BitVec.allOnes 256
    else 0
  code _ := [1]

def switchCall (direction : Direction) (receiver : Address) (amount : U128) : SwitchCall where
  direction := direction
  caller := 0xA
  receiver := receiver
  amount := amount
  env := plainEnv
  gasLimit := 1000000
  isStatic := false
  warm _ := false
  original _ := 0

/-- Of 6 wrappers minted, 4 are escrowed, one of these is taken out again, and 2 are burned. -/
def sharedCalls : List (U64 × SwitchCall) :=
  [(2, switchCall .toEvm 0xA 6), (3, switchCall .toProtocol 0xA 4), (3, switchCall .toEvm 0xB 1),
    (2, switchCall .toProtocol 0xB 2)]

theorem isOf_tokenWorld {wrapped : Bool} {id : U64}
    (h : IsOf tokenWorld.storage tokenContract wrapped id) : id = if wrapped then 2 else 3 := by
  obtain ⟨-, hcon, hdom⟩ := h
  have hbound : id = 2 ∨ id = 3 := by
    by_contra hnot
    have hzero : tokenWorld.storage (.assetMeta id .evmContract) = 0 := by
      simpa [tokenWorld] using fun h => absurd h hnot
    rw [contractOf, hzero] at hcon
    exact absurd hcon (by decide)
  rcases hbound with rfl | rfl
  · rw [hdom.1 (by decide)]
    rfl
  · cases wrapped with
    | true => exact absurd (hdom.2 rfl) (by decide)
    | false => rfl

end Callchain.Switch

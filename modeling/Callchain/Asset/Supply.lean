/-
# Balances and supply of an asset

Every operation of `AssetStorage` on a registered asset moves its balances and its
supply together (`Moves`), and a registration starts an asset at nothing (`Registers`).
So after any operations from an empty storage, failed ones being reverted, the balances
of each asset sum to its supply, which its maximum bounds.
-/
import Callchain.Asset.Methods

namespace Callchain.Asset

open Ledger Access
open Function (update update_comm update_of_ne update_self)

/-- The operations of `AssetStorage`. -/
inductive AssetCall where
  | register (symbol name : Bytes) (decimals : U8) (maxSupply : U128) (issuer : Address)
      (registeredAt : U256)
  | registerErc20 (evmContract : Address) (symbol name : Bytes) (decimals : U8) (maxSupply : U128)
      (issuer : Address) (registeredAt : U256)
  | transfer (assetId : U64) (sender receiver : Address) (amount : U128)
  | batchTransfer (assetId : U64) (sender : Address) (recipients : List (Address × U128))
  | approve (assetId : U64) (owner spender : Address) (amount : U128)
  | transferFrom (assetId : U64) (spender sender receiver : Address) (amount : U128)
  | mint (assetId : U64) (caller receiver : Address) (amount : U128)
  | burn (assetId : U64) (caller sender : Address) (amount : U128)

def AssetCall.method : AssetCall → Method Unit
  | .register symbol name decimals maxSupply issuer registeredAt => do
    let _ ← Asset.register symbol name decimals maxSupply issuer registeredAt
  | .registerErc20 evmContract symbol name decimals maxSupply issuer registeredAt => do
    let _ ← Asset.registerErc20 evmContract symbol name decimals maxSupply issuer registeredAt
  | .transfer assetId sender receiver amount => Asset.transfer assetId sender receiver amount
  | .batchTransfer assetId sender recipients => Asset.batchTransfer assetId sender recipients
  | .approve assetId owner spender amount => Asset.approve assetId owner spender amount
  | .transferFrom assetId spender sender receiver amount =>
    Asset.transferFrom assetId spender sender receiver amount
  | .mint assetId caller receiver amount => Asset.mint assetId caller receiver amount
  | .burn assetId caller sender amount => Asset.burn assetId caller sender amount

/-- The asset an operation is on: a registration is on the one it allocates. -/
def AssetCall.asset (s : Slot → U256) : AssetCall → U64
  | .register .. => BitVec.ofNat 64 (nextId s)
  | .registerErc20 .. => BitVec.ofNat 64 (nextId s)
  | .transfer assetId .. => assetId
  | .batchTransfer assetId .. => assetId
  | .approve assetId .. => assetId
  | .transferFrom assetId .. => assetId
  | .mint assetId .. => assetId
  | .burn assetId .. => assetId

/-- An operation on a storage; a failed one is reverted. -/
def step (s : Slot → U256) (call : AssetCall) : Slot → U256 :=
  match call.method.eval s with
  | (t, .ok _) => t
  | (_, .error _) => s

def emptyStorage : Slot → U256 := fun _ => 0

def held (s : Slot → U256) (assetId : U64) : ℕ := total fun a => (s (.balance assetId a)).toNat

def supplyOf (s : Slot → U256) (assetId : U64) : ℕ :=
  (u256ToU128 (s (.assetMeta assetId .supply))).toNat

def maxSupplyOf (s : Slot → U256) (assetId : U64) : ℕ :=
  (u256ToU128 (s (.assetMeta assetId .maxSupply))).toNat

/-- `read_meta` finds the asset. -/
def Exists (s : Slot → U256) (assetId : U64) : Prop :=
  ¬ (u256ToAddress (s (.assetMeta assetId .issuer)) = 0 ∧
    string32 (s (.assetMeta assetId .symbol)) = [])

/-! ### What an operation on an asset does -/

/-- Balances and supply of one asset move alike; a supply only grows where the asset
exists, up to its maximum. -/
structure Moves (id : U64) (s t : Slot → U256) : Prop where
  frame : ∀ k, k.asset ≠ some id → t k = s k
  fields : ∀ f, f ≠ .supply → t (.assetMeta id f) = s (.assetMeta id f)
  kept : held t id + supplyOf s id = held s id + supplyOf t id
  capped : supplyOf t id ≤ supplyOf s id ∨
    Exists s id ∧ (maxSupplyOf s id = 0 ∨ supplyOf t id ≤ maxSupplyOf s id)

structure Registers (id : U64) (s t : Slot → U256) : Prop where
  id_eq : id.toNat = nextId s
  next : nextId t = nextId s + 1
  frame : ∀ k id', k.asset = some id' → id' ≠ id → t k = s k
  balance : ∀ a, t (.balance id a) = s (.balance id a)
  supply : t (.assetMeta id .supply) = 0

structure Shifts (id : U64) (s t : Slot → U256) : Prop where
  frame : ∀ k, (∀ a, k ≠ .balance id a) → t k = s k
  held : held t id = held s id

variable {s t : Slot → U256} {id : U64} {amount : U128} {u : Unit}

theorem Shifts.refl (id : U64) (s : Slot → U256) : Shifts id s s := ⟨fun _ _ => rfl, rfl⟩

theorem Shifts.trans {v : Slot → U256} (h : Shifts id s t) (h' : Shifts id t v) : Shifts id s v :=
  ⟨fun k hk => (h'.frame k hk).trans (h.frame k hk), h'.held.trans h.held⟩

theorem held_update (s : Slot → U256) (id : U64) (a : Address) (w : U256) :
    held (update s (.balance id a) w) id + (s (.balance id a)).toNat = held s id + w.toNat := by
  have hagr : ∀ b, b ≠ a → (update s (.balance id a) w (.balance id b)).toNat =
      (s (.balance id b)).toNat := by
    intro b hb
    rw [update_of_ne (by simp [hb])]
  have h := total_of_agree a hagr
  rwa [update_self] at h

theorem held_congr (h : ∀ a, t (.balance id a) = s (.balance id a)) : held t id = held s id :=
  total_congr fun a => by rw [h a]

variable {sender receiver issuer : Address} {symbol name : Bytes} {decimals : U8} {maxSupply : U128}
  {registeredAt : U256}

theorem transfer_shifts
    (h : (transfer id sender receiver amount).eval s = (t, .ok u)) : Shifts id s t := by
  rcases transfer_spec h with ⟨-, rfl⟩ | ⟨hne, w, w', rfl, hw, hw'⟩
  · exact .refl id t
  · refine ⟨fun k hk => ?_, ?_⟩
    · rw [update_of_ne (hk _), update_of_ne (hk _)]
    · have hrec := held_update (update s (.balance id sender) w) id receiver w'
      have hsen := held_update s id sender w
      rw [update_of_ne (by simp [Ne.symm hne])] at hrec
      omega

theorem batchTransfer_shifts : ∀ {recipients : List (Address × U128)}
    {s : Slot → U256}, (batchTransfer id sender recipients).eval s = (t, .ok u) → Shifts id s t
  | [], s, h => by
    obtain ⟨rfl, -⟩ := Prod.mk.inj h
    exact .refl id s
  | (receiver, amount) :: recipients, s, h => by
    obtain ⟨s', ⟨⟩, hfir, hrest⟩ := eval_bind_eq_ok.1 h
    exact (transfer_shifts hfir).trans (batchTransfer_shifts hrest)

theorem Shifts.moves (h : Shifts id s t) : Moves id s t := by
  have hsup : supplyOf t id = supplyOf s id := by
    rw [supplyOf, h.frame _ (by simp), supplyOf]
  refine ⟨fun k hk => h.frame k ?_, fun f _ => h.frame _ (by simp), ?_, .inl hsup.le⟩
  · rintro a rfl
    exact hk rfl
  · rw [h.held, hsup]

theorem Moves.writeAllowance (h : Moves id s t) (owner spender : Address) (w : U256) :
    Moves id s (update t (.allowance id owner spender) w) := by
  have hslot : ∀ k, k ≠ .allowance id owner spender →
      update t (.allowance id owner spender) w k = t k :=
    fun k hk => update_of_ne hk _ _
  refine ⟨fun k hk => ?_, fun f hf => ?_, ?_, ?_⟩
  · rw [hslot k (by rintro rfl; exact hk rfl), h.frame k hk]
  · rw [hslot _ (by simp), h.fields f hf]
  · exact h.kept
  · exact h.capped

theorem approve_moves {owner spender : Address}
    (h : (approve id owner spender amount).eval s = (t, .ok u)) : Moves id s t := by
  obtain ⟨s', info, hmeta, hwri⟩ := eval_bind_eq_ok.1 h
  rw [(readMeta_spec hmeta).1] at hwri
  obtain rfl := congrArg Prod.fst hwri
  exact (Shifts.refl id s).moves.writeAllowance owner spender _

theorem transferFrom_moves {spender : Address}
    (h : (transferFrom id spender sender receiver amount).eval s = (t, .ok u)) : Moves id s t := by
  obtain ⟨s', allowance, hread, hrest⟩ := eval_bind_eq_ok.1 h
  obtain ⟨-, rfl, -⟩ := readAllowance_eq_ok.1 hread
  obtain ⟨-, hrest⟩ := eval_require_bind_eq_ok.1 hrest
  obtain ⟨s', ⟨⟩, htra, hwri⟩ := eval_bind_eq_ok.1 hrest
  obtain rfl := congrArg Prod.fst hwri
  exact (transfer_shifts htra).moves.writeAllowance sender spender _

theorem moves_supply {a : Address} {w : U256} {v : U128}
    (hkept : w.toNat + supplyOf s id = (s (.balance id a)).toNat + v.toNat)
    (hcap : v.toNat ≤ supplyOf s id ∨
      Exists s id ∧ (maxSupplyOf s id = 0 ∨ v.toNat ≤ maxSupplyOf s id)) :
    Moves id s (update (update s (.balance id a) w) (.assetMeta id .supply) (u128ToU256 v)) := by
  have hsup : supplyOf (update (update s (.balance id a) w)
      (.assetMeta id .supply) (u128ToU256 v)) id = v.toNat := by
    rw [supplyOf, update_self, u256ToU128_u128ToU256]
  have hheld : held (update (update s (.balance id a) w)
      (.assetMeta id .supply) (u128ToU256 v)) id = held (update s (.balance id a) w) id :=
    held_congr fun b => update_of_ne (by simp) _ _
  have hbal := held_update s id a w
  refine ⟨fun k hk => ?_, fun f hf => ?_, ?_, ?_⟩
  · rw [update_of_ne (by rintro rfl; exact hk rfl), update_of_ne (by rintro rfl; exact hk rfl)]
  · rw [update_of_ne (by simp [hf]), update_of_ne (by simp)]
  · omega
  · rw [hsup]
    exact hcap

theorem mint_moves {caller : Address}
    (h : (mint id caller receiver amount).eval s = (t, .ok u)) : Moves id s t := by
  obtain ⟨s', info, hmeta, hrest⟩ := eval_bind_eq_ok.1 h
  obtain ⟨rfl, -, hmax, hsup, hexists⟩ := readMeta_spec hmeta
  obtain ⟨-, hrest⟩ := eval_require_bind_eq_ok.1 hrest
  obtain ⟨hsum, hrest⟩ := eval_require_bind_eq_ok.1 hrest
  obtain ⟨hcap, hrest⟩ := eval_require_bind_eq_ok.1 hrest
  obtain ⟨t', ⟨⟩, hadd, hsto⟩ := eval_bind_eq_ok.1 hrest
  obtain ⟨w, rfl, -, hw⟩ := addBalance_spec hadd
  obtain rfl := congrArg Prod.fst hsto
  have hnew : (info.supply + amount).toNat = supplyOf s' id + amount.toNat := by
    rw [BitVec.toNat_add, Nat.mod_eq_of_lt hsum, hsup, supplyOf]
  refine moves_supply (by omega) (.inr ⟨hexists, ?_⟩)
  rw [maxSupplyOf, ← hmax]
  rcases Nat.eq_zero_or_pos info.maxSupply.toNat with h0 | hpos
  · exact .inl h0
  · refine .inr (BitVec.le_def.1 (BitVec.not_lt.1 fun hlt => hcap ⟨?_, hlt⟩))
    exact BitVec.lt_def.2 hpos

theorem burn_moves {caller : Address}
    (h : (burn id caller sender amount).eval s = (t, .ok u)) : Moves id s t := by
  obtain ⟨s', left, hspe, hrest⟩ := eval_bind_eq_ok.1 h
  obtain rfl := spendAllowance_state hspe
  obtain ⟨t', ⟨⟩, hded, hrest⟩ := eval_bind_eq_ok.1 hrest
  obtain ⟨w, rfl, hw⟩ := deductBalance_spec hded
  obtain ⟨t', ⟨⟩, hwri, hrest⟩ := eval_bind_eq_ok.1 hrest
  obtain ⟨hle, hsto⟩ := eval_require_bind_eq_ok.1 hrest
  obtain rfl := congrArg Prod.fst hsto
  have hmov : amount ≤ u256ToU128 (s' (.assetMeta id .supply)) →
      Moves id s' (update (update s' (.balance id sender) w)
        (.assetMeta id .supply) (u128ToU256 (u256ToU128 (s' (.assetMeta id .supply)) - amount))) := by
    intro hle
    have hsub : (u256ToU128 (s' (.assetMeta id .supply)) - amount).toNat + amount.toNat =
        supplyOf s' id := by
      rw [BitVec.toNat_sub_of_le hle]
      exact Nat.sub_add_cancel (BitVec.le_def.1 hle)
    exact moves_supply (by omega) (.inl (by omega))
  cases left with obtain rfl := congrArg Prod.fst hwri
  | none => exact hmov hle
  | some allowance =>
    -- the allowance is written before the supply
    have hcomm := (hmov hle).writeAllowance sender caller (u128ToU256 allowance)
    rw [update_comm (by simp)] at hcomm
    exact hcomm

theorem registers_base {s' : Slot → U256} (hall : allocateAssetId.eval s = (s', .ok id))
    (hbase : (writeBaseMeta id symbol name decimals maxSupply issuer registeredAt).eval s' =
      (t, .ok u)) : Registers id s t := by
  obtain ⟨hid, hnext, w, rfl⟩ := allocateAssetId_spec hall
  obtain ⟨hsup, -, hfra, -⟩ := writeBaseMeta_spec hbase
  refine ⟨hid, ?_, fun k id' hk hne => ?_, fun a => ?_, hsup⟩
  · rw [nextId, hfra _ (by simp)]
    exact hnext
  · have hoth : ∀ f, k ≠ .assetMeta id f := by
      rintro f rfl
      exact hne (Option.some.inj hk).symm
    rw [hfra k hoth, update_of_ne (by rintro rfl; cases hk)]
  · rw [hfra _ (by simp), update_of_ne (by simp)]

theorem Registers.put (h : Registers id s t) {k : Slot}
    (hk : (∃ f, f ≠ .supply ∧ k = .assetMeta id f) ∨ ∃ c, k = .erc20Binding c) (w : U256) :
    Registers id s (update t k w) := by
  have hslot : ∀ k', (∀ f, f ≠ MetaField.supply → k' ≠ .assetMeta id f) →
      (∀ c, k' ≠ .erc20Binding c) → update t k w k' = t k' := by
    intro k' hmeta hbin
    rcases hk with ⟨f, hf, rfl⟩ | ⟨c, rfl⟩
    · exact update_of_ne (hmeta f hf) _ _
    · exact update_of_ne (hbin c) _ _
  refine ⟨h.id_eq, ?_, fun k' id' hk' hne => ?_, fun a => ?_, ?_⟩
  · rw [nextId, hslot _ (by simp) (by simp)]
    exact h.next
  · rw [hslot k' ?_ ?_, h.frame k' id' hk' hne]
    · rintro f - rfl
      exact hne (Option.some.inj hk').symm
    · rintro c rfl
      cases hk'
  · rw [hslot _ (by simp) (by simp), h.balance]
  · rw [hslot _ (fun f hf => by simp [hf.symm]) (by simp), h.supply]

theorem register_registers
    (h : (register symbol name decimals maxSupply issuer registeredAt).eval s = (t, .ok id)) :
    Registers id s t := by
  obtain ⟨-, hrest⟩ := eval_require_bind_eq_ok.1 h
  obtain ⟨s', id', hall, hrest⟩ := eval_bind_eq_ok.1 hrest
  obtain ⟨t', ⟨⟩, hbase, hsto⟩ := eval_bind_eq_ok.1 hrest
  obtain ⟨rfl, hid⟩ := Prod.mk.inj hsto
  cases hid
  exact (registers_base hall hbase).put (.inl ⟨.hasErc20, by simp, rfl⟩) _

theorem registerErc20_registers {evmContract : Address}
    (h : (registerErc20 evmContract symbol name decimals maxSupply issuer registeredAt).eval s =
      (t, .ok id)) : Registers id s t := by
  obtain ⟨-, hrest⟩ := eval_require_bind_eq_ok.1 h
  obtain ⟨-, hrest⟩ := eval_require_bind_eq_ok.1 hrest
  obtain ⟨s', id', hall, hrest⟩ := eval_bind_eq_ok.1 hrest
  obtain ⟨t', ⟨⟩, hbase, hsto⟩ := eval_bind_eq_ok.1 hrest
  obtain ⟨rfl, hid⟩ := Prod.mk.inj hsto
  cases hid
  exact (((registers_base hall hbase).put (.inl ⟨.hasErc20, by simp, rfl⟩) _).put
    (.inl ⟨.evmContract, by simp, rfl⟩) _).put (.inr ⟨evmContract, rfl⟩) _

theorem method_effect (call : AssetCall) (h : call.method.eval s = (t, .ok u)) :
    Registers (call.asset s) s t ∨ Moves (call.asset s) s t := by
  cases call with
  | register =>
    obtain ⟨t', id, hreg, hret⟩ := eval_bind_eq_ok.1 h
    obtain rfl := congrArg Prod.fst hret
    have hr := register_registers hreg
    rw [AssetCall.asset, ← hr.id_eq, BitVec.ofNat_toNat]
    exact .inl hr
  | registerErc20 =>
    obtain ⟨t', id, hreg, hret⟩ := eval_bind_eq_ok.1 h
    obtain rfl := congrArg Prod.fst hret
    have hr := registerErc20_registers hreg
    rw [AssetCall.asset, ← hr.id_eq, BitVec.ofNat_toNat]
    exact .inl hr
  | transfer => exact .inr (transfer_shifts h).moves
  | batchTransfer => exact .inr (batchTransfer_shifts h).moves
  | approve => exact .inr (approve_moves h)
  | transferFrom => exact .inr (transferFrom_moves h)
  | mint => exact .inr (mint_moves h)
  | burn => exact .inr (burn_moves h)

/-! ### Over any operations -/

/-- **Balances and supply agree**: the balances of an asset sum to its supply, which keeps to
the maximum, and one that is not registered has neither metadata nor supply. -/
structure Inv (s : Slot → U256) : Prop where
  sum : ∀ id, held s id = supplyOf s id
  capped : ∀ id, maxSupplyOf s id ≠ 0 → supplyOf s id ≤ maxSupplyOf s id
  fresh : ∀ id : U64, id.toNat = 0 ∨ nextId s ≤ id.toNat →
    s (.assetMeta id .issuer) = 0 ∧ s (.assetMeta id .symbol) = 0 ∧ supplyOf s id = 0

theorem nextId_pos (s : Slot → U256) : 0 < nextId s := by
  unfold nextId
  split_ifs with h
  · exact Nat.one_pos
  · exact Nat.pos_of_ne_zero fun h0 => h (BitVec.eq_of_toNat_eq h0)

theorem Inv.empty : Inv emptyStorage where
  sum _ := total_eq_zero fun _ => rfl
  capped _ h := absurd rfl h
  fresh _ _ := ⟨rfl, rfl, rfl⟩

theorem not_exists_of_fresh (hiss : s (.assetMeta id .issuer) = 0)
    (hsym : s (.assetMeta id .symbol) = 0) : ¬ Exists s id := by
  rw [Exists, hiss, hsym]
  decide

theorem same_of_frame (h : ∀ k, k.asset = some id → t k = s k) :
    held t id = held s id ∧ supplyOf t id = supplyOf s id ∧ maxSupplyOf t id = maxSupplyOf s id := by
  refine ⟨held_congr fun a => h _ rfl, ?_, ?_⟩
  · rw [supplyOf, h _ rfl, supplyOf]
  · rw [maxSupplyOf, h _ rfl, maxSupplyOf]

theorem Inv.of_frame (id : U64) (hs : Inv s)
    (hoth : ∀ id', id' ≠ id → ∀ k, k.asset = some id' → t k = s k)
    (hnext : nextId s ≤ nextId t) (hsum : held t id = supplyOf t id)
    (hcap : maxSupplyOf t id ≠ 0 → supplyOf t id ≤ maxSupplyOf t id)
    (hnew : id.toNat = 0 ∨ nextId t ≤ id.toNat → t (.assetMeta id .issuer) = 0 ∧
      t (.assetMeta id .symbol) = 0 ∧ supplyOf t id = 0) : Inv t := by
  refine ⟨fun id' => ?_, fun id' => ?_, fun id' hfre => ?_⟩ <;>
    rcases eq_or_ne id' id with rfl | hid
  · exact hsum
  · obtain ⟨hheld, hsup, -⟩ := same_of_frame (hoth id' hid)
    rw [hheld, hsup, hs.sum]
  · exact hcap
  · obtain ⟨-, hsup, hmax⟩ := same_of_frame (hoth id' hid)
    rw [hmax, hsup]
    exact hs.capped id'
  · exact hnew hfre
  · obtain ⟨-, hsup, -⟩ := same_of_frame (hoth id' hid)
    rw [hoth id' hid _ rfl, hoth id' hid _ rfl, hsup]
    exact hs.fresh id' (hfre.imp_right hnext.trans)

theorem Inv.moves (hs : Inv s) (h : Moves id s t) : Inv t := by
  have hnext : nextId t = nextId s := by rw [nextId, h.frame _ (by simp [Slot.asset]), nextId]
  have hmax : maxSupplyOf t id = maxSupplyOf s id := by
    rw [maxSupplyOf, h.fields _ (by simp), maxSupplyOf]
  refine hs.of_frame id (fun id' hne k hk => ?_) hnext.ge ?_ (fun hne0 => ?_) fun hfre => ?_
  · exact h.frame k fun hid => hne (Option.some.inj (hk.symm.trans hid))
  · have hkept := h.kept
    have hsum := hs.sum id
    omega
  · rw [hmax] at hne0 ⊢
    rcases h.capped with hle | ⟨-, h0 | hle⟩
    · exact hle.trans (hs.capped id hne0)
    · exact absurd h0 hne0
    · exact hle
  · rw [hnext] at hfre
    obtain ⟨hiss, hsym, hzero⟩ := hs.fresh id hfre
    refine ⟨(h.fields _ (by simp)).trans hiss, (h.fields _ (by simp)).trans hsym, ?_⟩
    rcases h.capped with hle | ⟨hexists, -⟩
    · omega
    · exact absurd hexists (not_exists_of_fresh hiss hsym)

theorem Inv.registers (hs : Inv s) (h : Registers id s t) : Inv t := by
  have hzero : supplyOf t id = 0 := by
    rw [supplyOf, h.supply]
    rfl
  have hnext := h.next
  refine hs.of_frame id (fun id' hne k hk => h.frame k id' hk hne) (by omega) ?_ (fun _ => ?_)
    fun hfre => ?_
  · -- the id was free, so nobody held anything of it
    rw [hzero, held_congr h.balance, hs.sum, (hs.fresh id (.inr h.id_eq.ge)).2.2]
  · rw [hzero]
    exact Nat.zero_le _
  · have hid := h.id_eq
    have hpos := nextId_pos s
    omega

theorem Inv.step (hs : Inv s) (call : AssetCall) : Inv (step s call) := by
  unfold Asset.step
  rcases h : call.method.eval s with ⟨t, e | u⟩
  · exact hs
  · rcases method_effect call h with hr | hm
    · exact hs.registers hr
    · exact hs.moves hm

theorem step_frame (s : Slot → U256) (call : AssetCall) {k : Slot} (hk : k.asset = some id)
    (hne : id ≠ call.asset s) : step s call k = s k := by
  unfold step
  rcases h : call.method.eval s with ⟨t, e | u⟩
  · rfl
  · rcases method_effect call h with hr | hm
    · exact hr.frame k id hk hne
    · exact hm.frame k fun hid => hne (Option.some.inj (hk.symm.trans hid))

/-- **Balances sum to the supply.** Any operations from an empty storage leave the balances of
every asset with its supply as their sum and the supply within its maximum, and the next one
changes no balance, supply or allowance of another asset. -/
theorem balances_sum_to_supply (calls : List AssetCall) :
    let s := Run.run step emptyStorage calls
    (∀ id, held s id = supplyOf s id) ∧
      (∀ id, maxSupplyOf s id ≠ 0 → supplyOf s id ≤ maxSupplyOf s id) ∧
      ∀ call id, id ≠ call.asset s → (∀ a, step s call (.balance id a) = s (.balance id a)) ∧
        supplyOf (step s call) id = supplyOf s id ∧
        ∀ owner spender, step s call (.allowance id owner spender) =
          s (.allowance id owner spender) := by
  intro s
  have hinv : Inv s := Run.invariant_mem (fun s call _ hs => hs.step call) Inv.empty
  refine ⟨hinv.sum, hinv.capped, fun call id hne => ⟨fun a => ?_, ?_, fun owner spender => ?_⟩⟩
  · exact step_frame s call rfl hne
  · rw [supplyOf, step_frame s call rfl hne, supplyOf]
  · exact step_frame s call rfl hne

/-- An asset of at most 100 is registered, minted in full, moved and burnt; one
more than that is not minted. -/
example :
    let s := Run.run step emptyStorage
      [.register [67] [67] 6 100 0xA 0, .mint 1 0xA 0xB 100, .mint 1 0xA 0xB 1,
        .batchTransfer 1 0xB [(0xC, 30), (0xB, 5), (0xC, 1)], .approve 1 0xC 0xA 20,
        .burn 1 0xA 0xC 11]
    (s (.balance 1 0xB) = 69 ∧ s (.balance 1 0xC) = 20) ∧
      (supplyOf s 1 = 89 ∧ s (.allowance 1 0xC 0xA) = 9) := by
  decide

end Callchain.Asset

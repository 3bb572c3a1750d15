/-
# Tokens the switch precompile calls

What is assumed of a token: it does what its return value says, reads its state off its
own slots and changes no others. `plainToken` is one: it moves tokens between balances, out
of a reserve when it mints and back into it when it burns.
-/
import Callchain.Switch.Precompile

namespace Callchain.Switch

open Precompile Asset
open BitVec (ofNat ofNat_toNat setWidth_eq toNat_ofNat)
open Function (Injective update update_comp_eq_of_injective update_comp_eq_of_notMem_range
  update_eq_self update_idem update_of_ne update_self)

/-! ### What is assumed -/

/-- `n` has moved from `a` to `b`. -/
def Transferred {ι : Type*} [DecidableEq ι] (f g : ι → ℕ) (a b : ι) (n : ℕ) : Prop :=
  n ≤ f a ∧ g = update (update f a (f a - n)) b (update f a (f a - n) b + n)

/-- A token under `contract` that does what it returns, in calls of the switch
precompile, with its state read off the slots of the contract. -/
structure StandardToken (evm : Evm Slot) (contract : Address) where
  balanceOf : (Slot → U256) → Address → ℕ
  totalSupply : (Slot → U256) → ℕ
  reads : ∀ {s t : Slot → U256},
    (∀ slot, t (.account contract slot) = s (.account contract slot)) →
      balanceOf t = balanceOf s ∧ totalSupply t = totalSupply s
  transfer : ∀ {w : World Slot} {receiver : Address} {amount : U128} {r : EvmResult Slot}
    {output : Bytes}, evm w switchAddress contract (encodeTransfer receiver amount) = .ok r →
    r.result = .success output → decodeAbiBool output = true →
      Transferred (balanceOf w.storage) (balanceOf (applied r.state w.storage)) switchAddress
        receiver amount.toNat ∧ totalSupply (applied r.state w.storage) = totalSupply w.storage
  transferFrom : ∀ {w : World Slot} {sender receiver : Address} {amount : U128}
    {r : EvmResult Slot} {output : Bytes},
    evm w switchAddress contract (encodeTransferFrom sender receiver amount) = .ok r →
    r.result = .success output → decodeAbiBool output = true →
      Transferred (balanceOf w.storage) (balanceOf (applied r.state w.storage)) sender receiver
        amount.toNat ∧ totalSupply (applied r.state w.storage) = totalSupply w.storage
  bridgeMint : ∀ {w : World Slot} {receiver : Address} {amount : U128} {r : EvmResult Slot}
    {output : Bytes}, evm w switchAddress contract (encodeBridgeMint receiver amount) = .ok r →
    r.result = .success output →
      balanceOf (applied r.state w.storage) =
        update (balanceOf w.storage) receiver (balanceOf w.storage receiver + amount.toNat) ∧
      totalSupply (applied r.state w.storage) = totalSupply w.storage + amount.toNat
  bridgeBurn : ∀ {w : World Slot} {sender : Address} {amount : U128} {r : EvmResult Slot}
    {output : Bytes}, evm w switchAddress contract (encodeBridgeBurn sender amount) = .ok r →
    r.result = .success output →
      balanceOf (applied r.state w.storage) =
        update (balanceOf w.storage) sender (balanceOf w.storage sender - amount.toNat) ∧
      totalSupply (applied r.state w.storage) + amount.toNat = totalSupply w.storage

/-- A call of the contract changes no slots but its own. -/
def Contained (evm : Evm Slot) (contract : Address) : Prop :=
  ∀ w data r, evm w switchAddress contract data = .ok r →
    ∀ k, (∀ slot, k ≠ .account contract slot) → applied r.state w.storage k = w.storage k

section Transferred

variable {ι : Type*} [DecidableEq ι] {f g : ι → ℕ} {a b : ι} {n : ℕ}

theorem Transferred.sender_le (h : Transferred f g a b n) : f a ≤ g a + n := by
  obtain ⟨hle, rfl⟩ := h
  by_cases hab : a = b
  · subst hab
    rw [update_self, update_self]
    omega
  · rw [update_of_ne hab, update_self]
    omega

theorem Transferred.receiver_eq (h : Transferred f g a b n) (hab : a ≠ b) : g b = f b + n := by
  obtain ⟨-, rfl⟩ := h
  rw [update_self, update_of_ne hab.symm]

theorem Transferred.sender_eq (h : Transferred f g a b n) (hab : a ≠ b) : g a + n = f a := by
  obtain ⟨hle, rfl⟩ := h
  rw [update_of_ne hab, update_self, Nat.sub_add_cancel hle]

theorem Transferred.other (h : Transferred f g a b n) {x : ι} (ha : x ≠ a) (hb : x ≠ b) :
    g x = f x := by
  rw [h.2, update_of_ne hb, update_of_ne ha]

variable {κ : Type*} [DecidableEq κ] {e : κ → ι} {x y : κ}

theorem Transferred.comp (he : Injective e) (h : Transferred f g (e x) (e y) n) :
    Transferred (f ∘ e) (g ∘ e) x y n := by
  obtain ⟨hle, rfl⟩ := h
  refine ⟨hle, ?_⟩
  rw [update_comp_eq_of_injective _ he, ← update_comp_eq_of_injective f he]
  rfl

theorem Transferred.comp_receiver (he : Injective e) (ha : a ∉ Set.range e)
    (h : Transferred f g a (e y) n) : g ∘ e = update (f ∘ e) y (f (e y) + n) := by
  obtain ⟨-, rfl⟩ := h
  rw [update_comp_eq_of_injective _ he, update_comp_eq_of_notMem_range _ _ ha,
    update_of_ne fun h => ha ⟨y, h⟩]

theorem Transferred.comp_sender (he : Injective e) (hb : b ∉ Set.range e)
    (h : Transferred f g (e x) b n) : g ∘ e = update (f ∘ e) x (f (e x) - n) := by
  obtain ⟨-, rfl⟩ := h
  rw [update_comp_eq_of_notMem_range _ _ hb, update_comp_eq_of_injective _ he]

end Transferred

/-! ### A plain token -/

def argument (data : Bytes) (i : ℕ) : ℕ := beValue ((data.drop (4 + 32 * i)).take 32)

def addressArg (data : Bytes) (i : ℕ) : Address := BitVec.ofNat 160 (argument data i)

theorem encodeAddress_length (a : Address) : (encodeAddress a).length = 32 := by
  simp [encodeAddress, beBytes_length]

theorem encodeAmount_length (n : U128) : (encodeAmount n).length = 32 := beBytes_length _ _

theorem beValue_replicate_append (n : ℕ) (bs : Bytes) :
    beValue (List.replicate n 0 ++ bs) = beValue bs := by
  induction n with
  | zero => rfl
  | succ n ih =>
    rw [List.replicate_succ, List.cons_append, beValue, ih]
    simp

theorem beValue_encodeAddress (a : Address) : beValue (encodeAddress a) = a.toNat := by
  have hlt : a.toNat < 256 ^ 20 := a.isLt
  rw [encodeAddress, beValue_replicate_append, beValue_beBytes, Nat.mod_eq_of_lt hlt]

theorem beValue_encodeAmount (n : U128) : beValue (encodeAmount n) = n.toNat := by
  have hlt : n.toNat < 256 ^ 32 := lt_trans n.isLt (by norm_num)
  rw [encodeAmount, beValue_beBytes, Nat.mod_eq_of_lt hlt]

theorem argument_append {sel word : Bytes} (rest : Bytes) (hsel : sel.length = 4)
    (hword : word.length = 32) :
    argument (sel ++ word ++ rest) 0 = beValue word ∧
      ∀ i, argument (sel ++ word ++ rest) (i + 1) = beValue ((rest.drop (32 * i)).take 32) := by
  constructor
  · rw [argument, List.append_assoc, List.drop_left' hsel, List.take_left' hword]
  · intro i
    have hdrop : 4 + 32 * (i + 1) = (sel ++ word).length + 32 * i := by
      rw [List.length_append]
      omega
    rw [argument, hdrop, ← List.drop_drop, List.drop_left]

def tokenContract : Address := 0xC0DE

/-- The slot of what is still to be minted. Balances are in the slots of their addresses. -/
def reserve : U256 := BitVec.ofNat 256 (2 ^ 200)

/-- The slots a call moves tokens between, and how many. -/
def decodeCall (data : Bytes) : Option (U256 × U256 × ℕ) :=
  if data.take 4 = [0xa9, 0x05, 0x9c, 0xbb] then
    some (addressToU256 switchAddress, addressToU256 (addressArg data 0), argument data 1)
  else if data.take 4 = [0x23, 0xb8, 0x72, 0xdd] then
    some (addressToU256 (addressArg data 0), addressToU256 (addressArg data 1), argument data 2)
  else if data.take 4 = [0x8c, 0x2a, 0x99, 0x3e] then
    some (reserve, addressToU256 (addressArg data 0), argument data 1)
  else if data.take 4 = [0x74, 0xf4, 0xf5, 0x47] then
    some (addressToU256 (addressArg data 0), reserve, argument data 1)
  else none

section Decode

variable (sel : Bytes) (a b : Address) (n : U128)

theorem arguments_two (hsel : sel.length = 4) :
    addressArg (sel ++ encodeAddress a ++ encodeAmount n) 0 = a ∧
      argument (sel ++ encodeAddress a ++ encodeAmount n) 1 = n.toNat := by
  obtain ⟨hfir, hnext⟩ := argument_append (encodeAmount n) hsel (encodeAddress_length a)
  refine ⟨?_, ?_⟩
  · rw [addressArg, hfir, beValue_encodeAddress, ofNat_toNat, setWidth_eq]
  · rw [hnext 0, List.drop_zero, List.take_of_length_le (encodeAmount_length n).le,
      beValue_encodeAmount]

theorem arguments_three (hsel : sel.length = 4) :
    addressArg (sel ++ encodeAddress a ++ encodeAddress b ++ encodeAmount n) 0 = a ∧
      addressArg (sel ++ encodeAddress a ++ encodeAddress b ++ encodeAmount n) 1 = b ∧
      argument (sel ++ encodeAddress a ++ encodeAddress b ++ encodeAmount n) 2 = n.toNat := by
  obtain ⟨hfir, hnext⟩ := argument_append (encodeAddress b ++ encodeAmount n) hsel
    (encodeAddress_length a)
  rw [List.append_assoc (sel ++ encodeAddress a)]
  refine ⟨?_, ?_, ?_⟩
  · rw [addressArg, hfir, beValue_encodeAddress, ofNat_toNat, setWidth_eq]
  · rw [addressArg, hnext 0, List.drop_zero, List.take_left' (encodeAddress_length b),
      beValue_encodeAddress, ofNat_toNat, setWidth_eq]
  · rw [hnext 1, List.drop_left' (encodeAddress_length b),
      List.take_of_length_le (encodeAmount_length n).le, beValue_encodeAmount]

theorem decodeCall_transfer : decodeCall (encodeTransfer a n) =
    some (addressToU256 switchAddress, addressToU256 a, n.toNat) := by
  have hsel : (encodeTransfer a n).take 4 = [0xa9, 0x05, 0x9c, 0xbb] := rfl
  obtain ⟨hadd, hamo⟩ := arguments_two [0xa9, 0x05, 0x9c, 0xbb] a n rfl
  rw [decodeCall, if_pos hsel, encodeTransfer, hadd, hamo]

theorem decodeCall_transferFrom : decodeCall (encodeTransferFrom a b n) =
    some (addressToU256 a, addressToU256 b, n.toNat) := by
  have hsel : (encodeTransferFrom a b n).take 4 = [0x23, 0xb8, 0x72, 0xdd] := rfl
  obtain ⟨hsen, hrec, hamo⟩ := arguments_three [0x23, 0xb8, 0x72, 0xdd] a b n rfl
  rw [decodeCall, hsel, if_neg (by decide), if_pos rfl, encodeTransferFrom, hsen, hrec, hamo]

theorem decodeCall_bridgeMint :
    decodeCall (encodeBridgeMint a n) = some (reserve, addressToU256 a, n.toNat) := by
  have hsel : (encodeBridgeMint a n).take 4 = [0x8c, 0x2a, 0x99, 0x3e] := rfl
  obtain ⟨hadd, hamo⟩ := arguments_two [0x8c, 0x2a, 0x99, 0x3e] a n rfl
  rw [decodeCall, hsel, if_neg (by decide), if_neg (by decide), if_pos rfl, encodeBridgeMint,
    hadd, hamo]

theorem decodeCall_bridgeBurn :
    decodeCall (encodeBridgeBurn a n) = some (addressToU256 a, reserve, n.toNat) := by
  have hsel : (encodeBridgeBurn a n).take 4 = [0x74, 0xf4, 0xf5, 0x47] := rfl
  obtain ⟨hadd, hamo⟩ := arguments_two [0x74, 0xf4, 0xf5, 0x47] a n rfl
  rw [decodeCall, hsel, if_neg (by decide), if_neg (by decide), if_neg (by decide), if_pos rfl,
    encodeBridgeBurn, hadd, hamo]

end Decode

def tokenValue (s : Slot → U256) (k : U256) : ℕ := (s (.account tokenContract k)).toNat

/-- A slot to be written: its value after and before. -/
def put (s : Slot → U256) (k : U256) (n : ℕ) : Slot × U256 × U256 :=
  (.account tokenContract k, BitVec.ofNat 256 n, s (.account tokenContract k))

/-- The slots a move writes; none where it is refused. -/
def moveWrites (s : Slot → U256) (k l : U256) (n : ℕ) : Option (List (Slot × U256 × U256)) :=
  if tokenValue s k < n then none
  else if k = l then some []
  else if 2 ^ 256 ≤ tokenValue s l + n then none
  else some [put s k (tokenValue s k - n), put s l (tokenValue s l + n)]

/-- The token, called by the precompile; every other call reverts. -/
def tokenOnly : Evm Slot := fun w caller contract data =>
  if caller = switchAddress ∧ contract = tokenContract then
    match (decodeCall data).bind fun (k, l, n) => moveWrites w.storage k l n with
    | some writes =>
      .ok ⟨.success (beBytes 32 1), 0, [⟨tokenContract, true, writes, 0, 0⟩], []⟩
    | none => .ok ⟨.revert [], 0, [], []⟩
  else .ok ⟨.revert [], 0, [], []⟩

variable {s : Slot → U256} {writes : List (Slot × U256 × U256)} {k l : U256} {n : ℕ}

theorem appliedSlots_put {t : Slot → U256} {rest : List (Slot × U256 × U256)}
    (h : t (.account tokenContract k) = s (.account tokenContract k)) :
    appliedSlots (put s k n :: rest) t =
      appliedSlots rest (update t (.account tokenContract k) (ofNat 256 n)) := by
  rw [put, appliedSlots]
  split_ifs with heq
  · rw [heq, ← h, update_eq_self]
  · rfl

theorem tokenValue_lt (s : Slot → U256) (k : U256) : tokenValue s k < 2 ^ 256 := BitVec.isLt _

theorem tokenValue_update (s : Slot → U256) (k : U256) (h : n < 2 ^ 256) :
    tokenValue (update s (.account tokenContract k) (ofNat 256 n)) =
      update (tokenValue s) k n := by
  funext x
  by_cases hx : x = k
  · rw [hx, tokenValue, update_self, update_self, toNat_ofNat, Nat.mod_eq_of_lt h]
  · rw [tokenValue, update_of_ne fun he => hx (Slot.account.inj he).2, update_of_ne hx, tokenValue]

theorem moveWrites_spec (h : moveWrites s k l n = some writes) :
    Transferred (tokenValue s) (tokenValue (appliedSlots writes s)) k l n := by
  have hlt := tokenValue_lt s k
  unfold moveWrites at h
  split_ifs at h with hless hself hover
  · cases h
    subst hself
    have hsum : tokenValue s k - n + n = tokenValue s k := Nat.sub_add_cancel (Nat.not_lt.1 hless)
    refine ⟨Nat.not_lt.1 hless, ?_⟩
    rw [appliedSlots, update_self, update_idem, hsum, update_eq_self]
  · cases h
    have hne : Slot.account tokenContract l ≠ .account tokenContract k :=
      fun he => hself (Slot.account.inj he).2.symm
    refine ⟨Nat.not_lt.1 hless, ?_⟩
    rw [appliedSlots_put rfl, appliedSlots_put (update_of_ne hne _ _), appliedSlots,
      tokenValue_update _ _ (Nat.not_le.1 hover), tokenValue_update _ _ (by omega),
      update_of_ne (Ne.symm hself)]

theorem tokenOnly_success {w : World Slot} {data output : Bytes} {r : EvmResult Slot}
    (hdec : decodeCall data = some (k, l, n))
    (h : tokenOnly w switchAddress tokenContract data = .ok r) (hr : r.result = .success output) :
    Transferred (tokenValue w.storage) (tokenValue (applied r.state w.storage)) k l n := by
  rw [tokenOnly, hdec, Option.bind_some] at h
  cases hmov : moveWrites w.storage k l n with simp only [hmov] at h
  | none =>
    cases h
    exact nomatch hr
  | some writes =>
    cases h
    exact moveWrites_spec hmov

theorem toNat_addressToU256 (a : Address) : (addressToU256 a).toNat = a.toNat := by
  rw [addressToU256, BitVec.toNat_setWidth, Nat.mod_eq_of_lt (by omega)]

theorem addressToU256_injective : Injective addressToU256 := by
  intro a b h
  rw [← BitVec.toNat_inj, toNat_addressToU256, toNat_addressToU256] at h
  exact BitVec.eq_of_toNat_eq h

theorem reserve_ne (a : Address) : reserve ≠ addressToU256 a := by
  intro h
  rw [← BitVec.toNat_inj, toNat_addressToU256, reserve, toNat_ofNat] at h
  omega

theorem reserve_notMem : reserve ∉ Set.range addressToU256 :=
  fun ⟨a, ha⟩ => reserve_ne a ha.symm

def plainToken : StandardToken tokenOnly tokenContract where
  balanceOf s := tokenValue s ∘ addressToU256
  totalSupply s := 2 ^ 256 - 1 - tokenValue s reserve
  reads {s t} h := by
    have hval : tokenValue t = tokenValue s := funext fun k => congrArg BitVec.toNat (h k)
    rw [hval]
    exact ⟨rfl, rfl⟩
  transfer h hr _ := by
    have hmov := tokenOnly_success (decodeCall_transfer _ _) h hr
    refine ⟨hmov.comp addressToU256_injective, ?_⟩
    rw [hmov.other (reserve_ne _) (reserve_ne _)]
  transferFrom h hr _ := by
    have hmov := tokenOnly_success (decodeCall_transferFrom _ _ _) h hr
    refine ⟨hmov.comp addressToU256_injective, ?_⟩
    rw [hmov.other (reserve_ne _) (reserve_ne _)]
  bridgeMint {w _ _ _ _} h hr := by
    have hlt := tokenValue_lt w.storage reserve
    have hmov := tokenOnly_success (decodeCall_bridgeMint _ _) h hr
    have hres := hmov.sender_eq (reserve_ne _)
    refine ⟨hmov.comp_receiver addressToU256_injective reserve_notMem, ?_⟩
    omega
  bridgeBurn {w _ _ r _} h hr := by
    have hlt := tokenValue_lt (applied r.state w.storage) reserve
    have hmov := tokenOnly_success (decodeCall_bridgeBurn _ _) h hr
    have hres := hmov.receiver_eq (reserve_ne _).symm
    refine ⟨hmov.comp_sender addressToU256_injective reserve_notMem, ?_⟩
    omega

theorem appliedSlots_of_ne {k : Slot} : ∀ {slots : List (Slot × U256 × U256)} {s : Slot → U256},
    (∀ x ∈ slots, k ≠ x.1) → appliedSlots slots s k = s k
  | [], _, _ => rfl
  | (k', present, original) :: slots, s, h => by
    rw [appliedSlots, appliedSlots_of_ne fun x hx => h x (List.mem_cons_of_mem _ hx)]
    split_ifs
    · rfl
    · exact update_of_ne (h _ List.mem_cons_self) _ _

theorem moveWrites_slots (h : moveWrites s k l n = some writes) :
    ∀ x ∈ writes, ∃ slot, x.1 = .account tokenContract slot := by
  unfold moveWrites at h
  split_ifs at h
  · cases h
    exact fun x hx => nomatch hx
  · cases h
    intro x hx
    rcases List.mem_pair.1 hx with rfl | rfl
    · exact ⟨_, rfl⟩
    · exact ⟨_, rfl⟩

theorem contained_tokenOnly : Contained tokenOnly tokenContract := by
  intro w data r h k hk
  rw [tokenOnly] at h
  cases hbind : (decodeCall data).bind fun (k, l, n) => moveWrites w.storage k l n with
    simp only [hbind] at h
  | none =>
    cases h
    rfl
  | some =>
    cases h
    obtain ⟨_, -, hmov⟩ := Option.bind_eq_some_iff.1 hbind
    refine appliedSlots_of_ne fun x hx he => ?_
    obtain ⟨slot, hslot⟩ := moveWrites_slots hmov x hx
    exact hk slot (he.trans hslot)

end Callchain.Switch

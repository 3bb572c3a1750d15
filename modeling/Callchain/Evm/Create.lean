/-
# The address of a created contract

`derive_create_address` encodes the list of the deployer and the nonce by hand. A nonce
of one byte goes in with its high bit set, where the encoding has the byte itself or a
header before it. So the address is the one that revm creates at for all nonces but 1 to
255.
-/
import Callchain.Evm.Revm
import Callchain.Lib.Rlp

namespace Callchain.Evm

/-- The encoded list of a deployer and an encoded nonce. -/
def createList (deployer : Address) (nonce : Bytes) : Bytes :=
  Rlp.encodeList (Rlp.encodeBytes (beBytes 20 deployer.toNat) ++ nonce)

/-- Where revm creates: the last 20 bytes of the hash of the list, with the bytes of the
nonce after its leading zeros. -/
def createAddress (H : Host) (deployer : Address) (nonce : U64) : Address :=
  (H.keccak256 (createList deployer
    (Rlp.encodeBytes ((beBytes 8 nonce.toNat).dropWhile (· = 0))))).truncate 160

def rlpNonce (nb : Bytes) : Bytes :=
  match nb with
  | [] => [0x80]
  | [b] => [0x80 ||| b]
  | _ => (0x80 ||| UInt8.ofNat nb.length) :: nb

section Encoding

variable {deployer : Address}

theorem createList_eq {x : Bytes} (hx : x.length ≤ 9) : createList deployer x =
    (0xc0 ||| UInt8.ofNat (x.length + 21)) ::
      (0x80 ||| 20) :: (beBytes 20 deployer.toNat ++ x) := by
  have hor : ∀ k < 31, UInt8.ofNat (0xC0 + k) = 0xc0 ||| UInt8.ofNat k := by decide
  have haddr : Rlp.encodeBytes (beBytes 20 deployer.toNat) =
      (0x80 ||| 20) :: beBytes 20 deployer.toNat := by
    rw [Rlp.encodeBytes, beBytes_length, if_neg (by omega), Rlp.header_short (by omega)]
    rfl
  have hlen : (Rlp.encodeBytes (beBytes 20 deployer.toNat) ++ x).length = x.length + 21 := by
    rw [haddr, List.length_append, List.length_cons, beBytes_length, Nat.add_comm]
  rw [createList, Rlp.encodeList, hlen, Rlp.header_short (by omega), hor _ (by omega), haddr]
  rfl

theorem rlpNonce_length {nb : Bytes} (h : nb.length ≤ 8) : (rlpNonce nb).length ≤ 9 := by
  unfold rlpNonce
  split
  · exact Nat.one_le_ofNat
  · exact Nat.one_le_ofNat
  · exact Nat.succ_le_succ h

theorem createList_rlpNonce_iff : ∀ {nb : Bytes}, nb.length ≤ 8 →
    (createList deployer (rlpNonce nb) = createList deployer (Rlp.encodeBytes nb) ↔ nb.length ≠ 1)
  | [], _ => iff_of_true rfl (by simp)
  | [b], _ => by
    have hor : ∀ b : UInt8,
        (Rlp.encodeBytes [b]).length ≤ 9 ∧ [0x80 ||| b] ≠ Rlp.encodeBytes [b] := by
      decide +kernel
    refine iff_of_false (fun heq => ?_) (by simp)
    rw [createList_eq (by simp [rlpNonce]), createList_eq (hor b).1] at heq
    exact (hor b).2 (List.append_cancel_left (List.cons.inj (List.cons.inj heq).2).2)
  | b :: b' :: rest, h => by
    have hor : ∀ k ≤ 8, UInt8.ofNat (0x80 + k) = 0x80 ||| UInt8.ofNat k := by decide
    refine iff_of_true (congrArg (createList deployer) ?_) (by simp)
    rw [Rlp.encodeBytes, if_neg (by simp), Rlp.header_short (by omega), hor _ h]
    rfl

end Encoding

section Nonce

variable (nonce : U64)

theorem nonceBytes_eq : nonceBytes nonce = (beBytes 8 nonce.toNat).dropWhile (· = 0) := by
  unfold nonceBytes
  split_ifs with h0
  · rw [h0]
    rfl
  · rfl

theorem nonceBytes_length_le : (nonceBytes nonce).length ≤ 8 := by
  rw [nonceBytes_eq]
  exact (List.dropWhile_sublist _).length_le.trans (beBytes_length 8 _).le

theorem nonceBytes_length_ne_one_iff :
    (nonceBytes nonce).length ≠ 1 ↔ nonce.toNat = 0 ∨ 256 ≤ nonce.toNat := by
  have hsmall : ∀ n < 256, ((beBytes 8 n).dropWhile (· = 0)).length ≠ 1 ↔ n = 0 := by
    decide +kernel
  by_cases hlt : nonce.toNat < 256
  · rw [nonceBytes_eq, hsmall _ hlt]
    omega
  · refine iff_of_true (fun hone => ?_) (.inr (not_lt.1 hlt))
    have hval := beValue_lt (nonceBytes nonce)
    have hfit : nonce.toNat < 256 ^ 8 := nonce.isLt
    rw [hone, nonceBytes_eq, beValue_dropWhile, beValue_beBytes, Nat.mod_eq_of_lt hfit] at hval
    exact hlt hval

theorem deriveCreateAddress_eq (H : Host) (deployer : Address) :
    deriveCreateAddress H deployer nonce =
      (H.keccak256 (createList deployer (rlpNonce (nonceBytes nonce)))).truncate 160 := by
  have hnonce := rlpNonce_length (nonceBytes_length_le nonce)
  have hlen : ((0x80 ||| 20) :: beBytes 20 deployer.toNat ++ rlpNonce (nonceBytes nonce)).length =
      (rlpNonce (nonceBytes nonce)).length + 21 := by
    rw [List.length_append, List.length_cons, beBytes_length, Nat.add_comm]
  rw [createList_eq hnonce, ← hlen]
  exact congrArg (fun list => (H.keccak256 list).truncate 160) (if_pos (hlen.trans_lt (by omega)))

end Nonce

/-- **The created address.** The created address is that of the encoded list, whatever the hash,
exactly for the nonce 0 and for nonces of two bytes and more. -/
theorem create_address_iff (H : Host) (deployer : Address) (nonce : U64) :
    (∀ keccak256, deriveCreateAddress { H with keccak256 } deployer nonce =
        createAddress { H with keccak256 } deployer nonce) ↔
      nonce.toNat = 0 ∨ 256 ≤ nonce.toNat := by
  simp only [deriveCreateAddress_eq, createAddress, ← nonceBytes_eq]
  rw [← nonceBytes_length_ne_one_iff, ← createList_rlpNonce_iff (nonceBytes_length_le nonce)]
  constructor
  · intro h
    by_contra hne
    -- a hash that tells the two lists apart
    have heq := h fun list =>
      if list = createList deployer (rlpNonce (nonceBytes nonce)) then 1 else 0
    rw [if_pos rfl, if_neg (Ne.symm hne)] at heq
    exact absurd heq (by decide)
  · intro h keccak256
    rw [h]

/-- The nonce 1 is hashed as `0x81`. -/
theorem create_address_at_nonce_one : deriveCreateAddress (Reference.host fun _ => none) 7 1 ≠
    createAddress (Reference.host fun _ => none) 7 1 := by
  decide +kernel

end Callchain.Evm

/-
# The proof verifier of the Ethereum light client

`verify_mpt_proof` walks a list of encoded nodes along the nibbles of a key: every node
must hash to the reference its parent holds, a leaf ends the walk with its value, an
extension or branch leads to the next reference. The node encoding is read by
`parse_rlp_list` and `compact_decode`; `Header::decode` (`alloy_rlp`), which only guards
the items that are lists, and `keccak256` are parameters.
-/
import Callchain.Lib.Trie

namespace Callchain.LightClient

open Rlp Mpt
open UInt8 (ofNat)
open List (cons_append length_append length_cons take_left)

/-- The last constructor is not of the source: it stands for a call that does not return
(a slice whose start is behind its end panics). -/
inductive MptError
  | invalidRlp
  | proofIncomplete
  | nodeHashMismatch (expected actual : B256)
  | invalidNode
  | noReturn
  deriving DecidableEq

/-- The source's nibbles are `u8`s, and all below 16. -/
def bytesToNibbles (bytes : Bytes) : List Nibble := nibbles bytes

def compactDecode : Bytes → Except MptError (Bool × List Nibble)
  | [] => .error .invalidNode
  | first :: data =>
    let high := hi first
    let low := lo first
    if low.val = 0 then
      -- even: the type is the high nibble
      if high.val = 0 then .ok (false, nibbles data)
      else if high.val = 2 then .ok (true, nibbles data)
      else .error .invalidNode
    else
      -- odd: the type is the low nibble, the first nibble of the path the high one
      if low.val = 1 then .ok (false, high :: nibbles data)
      else if low.val = 3 then .ok (true, high :: nibbles data)
      else .error .invalidNode

/-- The slice `data[start..stop]`; a slice whose start is behind its end panics. -/
def slice (data : Bytes) (start stop : ℕ) : Except MptError Bytes :=
  if stop < start then .error .noReturn else .ok ((data.drop start).take (stop - start))

/-- The first item and the bytes it takes. A string is returned without its header, a
list with it. Sums of `usize` wrap. -/
def decodeOneRlpItem (headerDecode : Bytes → Bool) (data : Bytes) :
    Except MptError (Bytes × ℕ) :=
  match data with
  | [] => .error .invalidRlp
  | b :: tail =>
    let first := b.toNat
    if first < 0x80 then .ok ([b], 1)
    else if first < 0xB8 then
      let len := first - 0x80
      if 1 + len > data.length then .error .invalidRlp
      else .ok (tail.take len, 1 + len)
    else if first < 0xC0 then
      let lenOfLen := first - 0xB7
      if 1 + lenOfLen > data.length then .error .invalidRlp
      else
        let len := beValue (tail.take lenOfLen)
        let total := (1 + lenOfLen + len) % 2 ^ 64
        if total > data.length then .error .invalidRlp
        else do
          let item ← slice data (1 + lenOfLen) total
          .ok (item, total)
    else if headerDecode data then
      if first < 0xF8 then
        let total := 1 + (first - 0xC0)
        if total > data.length then .error .invalidRlp else .ok (data.take total, total)
      else
        let lenOfLen := first - 0xF7
        if 1 + lenOfLen > data.length then .error .invalidRlp
        else
          -- the length of the length is not counted
          let total := (1 + beValue (tail.take lenOfLen)) % 2 ^ 64
          if total > data.length then .error .invalidRlp else .ok (data.take total, total)
    else .error .invalidRlp

/-- The `while` loop of `parse_rlp_list`. Every item but one of no bytes, at
which the source would stay forever, takes at least one. -/
def parseItems (headerDecode : Bytes → Bool) : ℕ → Bytes → Except MptError (List Bytes)
  | _, [] => .ok []
  | 0, _ :: _ => .error .noReturn
  | fuel + 1, b :: data => do
    let (item, consumed) ← decodeOneRlpItem headerDecode (b :: data)
    let items ← parseItems headerDecode fuel ((b :: data).drop consumed)
    .ok (item :: items)

def parseRlpList (headerDecode : Bytes → Bool) (data : Bytes) : Except MptError (List Bytes) :=
  match data with
  | [] => .error .invalidRlp
  | b :: tail =>
    let first := b.toNat
    if first < 0xC0 then .error .invalidRlp
    else if first < 0xF8 then
      let listLen := first - 0xC0
      if listLen = 0 ∨ 1 + listLen ≠ data.length then .error .invalidRlp
      else parseItems headerDecode tail.length tail
    else
      let lenOfLen := first - 0xF7
      if 1 + lenOfLen > data.length then .error .invalidRlp
      else if (1 + lenOfLen + beValue (tail.take lenOfLen)) % 2 ^ 64 ≠ data.length then
        .error .invalidRlp
      else parseItems headerDecode (tail.drop lenOfLen).length (tail.drop lenOfLen)

def extractChildRef (keccak : Bytes → B256) (data : Bytes) : B256 :=
  if data.length = 32 then B256.fromSlice data
  else if data.length = 34 ∧ data.take 2 = [0xb8, 0x20] then B256.fromSlice (data.drop 2)
  else keccak data

/-- A turn of `verify_mpt_proof` after the check of the hash: it stops with a result, or
goes on with the rest of the path and the next reference. -/
inductive WalkStep
  | stop (result : Option Bytes)
  | next (remaining : List Nibble) (expected : B256)
  deriving DecidableEq

/-- The `match` on the items of a node. -/
def walkStep (keccak : Bytes → B256) (remaining : List Nibble) :
    List Bytes → Except MptError WalkStep
  | [pathItem, item] => do
    let (isLeaf, nodeKey) ← compactDecode pathItem
    if isLeaf then
      if nodeKey <+: remaining then .ok (.stop (some item)) else .ok (.stop none)
    else
      if nodeKey <+: remaining then
        .ok (.next (remaining.drop nodeKey.length) (extractChildRef keccak item))
      else .ok (.stop none)
  | items =>
    if items.length = 17 then
      match remaining with
      | [] => .ok (.stop (some (items.getD 16 [])))
      | n :: rest =>
        let childRef := items.getD n.val []
        if childRef = [] ∨ childRef = [0x80] then .ok (.stop none)
        else .ok (.next rest (extractChildRef keccak childRef))
    else .error .invalidNode

def nodeStep (keccak : Bytes → B256) (headerDecode : Bytes → Bool) (remaining : List Nibble)
    (node : Bytes) : Except MptError WalkStep := do
  let items ← parseRlpList headerDecode node
  walkStep keccak remaining items

/-- The loop of `verify_mpt_proof`. -/
def verifyNodes (keccak : Bytes → B256) (headerDecode : Bytes → Bool) :
    B256 → List Nibble → List Bytes → Except MptError (Option Bytes)
  | _, _, [] => .ok none
  | expected, remaining, node :: proof =>
    if keccak node ≠ expected then .error (.nodeHashMismatch expected (keccak node))
    else
      match nodeStep keccak headerDecode remaining node with
      | .error e => .error e
      | .ok (.stop result) => .ok result
      | .ok (.next remaining expected) =>
        verifyNodes keccak headerDecode expected remaining proof

def verifyMptProof (keccak : Bytes → B256) (headerDecode : Bytes → Bool) (rootHash : B256)
    (keyBytes : Bytes) (proof : List Bytes) : Except MptError (Option Bytes) :=
  if proof = [] then .ok none
  else verifyNodes keccak headerDecode rootHash (bytesToNibbles keyBytes) proof

/-! ### Reading canonical encodings -/

variable {dec : Bytes → Bool}

/-- `e` is an encoded item that the verifier reads as `item`, whatever follows. -/
def Reads (headerDecode : Bytes → Bool) (e item : Bytes) : Prop :=
  e ≠ [] ∧ ∀ rest, (e ++ rest).length < 2 ^ 64 →
    decodeOneRlpItem headerDecode (e ++ rest) = .ok (item, e.length)

theorem slice_append (a b rest : Bytes) :
    slice (a ++ (b ++ rest)) a.length (a.length + b.length) = .ok b := by
  rw [slice, if_neg (by omega), List.drop_left, Nat.add_sub_cancel_left, take_left]

theorem decodeOneRlpItem_single {b : UInt8} (h : b.toNat < 0x80) (rest : Bytes) :
    decodeOneRlpItem dec (b :: rest) = .ok ([b], 1) := by
  simp only [decodeOneRlpItem, if_pos h]

theorem decodeOneRlpItem_shortBytes {b : Bytes} (h : b.length < 56) (rest : Bytes) :
    decodeOneRlpItem dec (ofNat (0x80 + b.length) :: (b ++ rest)) = .ok (b, 1 + b.length) := by
  have hf : (ofNat (0x80 + b.length)).toNat = 0x80 + b.length := toNat_ofNat_of_lt (by omega)
  have hlen : ¬ 1 + b.length > (ofNat (0x80 + b.length) :: (b ++ rest)).length := by
    simp only [length_cons, length_append]
    omega
  simp only [decodeOneRlpItem, hf]
  rw [if_neg (by omega), if_pos (by omega), Nat.add_sub_cancel_left, if_neg hlen, take_left]

theorem decodeOneRlpItem_longBytes {b rest : Bytes} (h : 56 ≤ b.length)
    (hsize : 1 + byteLen b.length + b.length + rest.length < 2 ^ 64) : decodeOneRlpItem dec
        (ofNat (0xB7 + byteLen b.length) :: (lengthBytes b.length ++ (b ++ rest))) =
      .ok (b, 1 + byteLen b.length + b.length) := by
  have h8 : byteLen b.length ≤ 8 := byteLen_le_eight (by omega)
  have h1 : 1 ≤ byteLen b.length := by unfold byteLen; omega
  have hf : (ofNat (0xB7 + byteLen b.length)).toNat = 0xB7 + byteLen b.length :=
    toNat_ofNat_of_lt (by omega)
  have htake : (lengthBytes b.length ++ (b ++ rest)).take (byteLen b.length) =
      lengthBytes b.length := List.take_left' (lengthBytes_length _)
  have htot : (1 + byteLen b.length + b.length) % 2 ^ 64 = 1 + byteLen b.length + b.length :=
    Nat.mod_eq_of_lt (by omega)
  have hlen : (ofNat (0xB7 + byteLen b.length) ::
      (lengthBytes b.length ++ (b ++ rest))).length =
        1 + byteLen b.length + b.length + rest.length := by
    simp only [length_cons, length_append, lengthBytes_length]
    omega
  have hsli := slice_append
    (ofNat (0xB7 + byteLen b.length) :: lengthBytes b.length) b rest
  rw [length_cons, lengthBytes_length, cons_append, Nat.add_comm (byteLen _)] at hsli
  simp only [decodeOneRlpItem, hf]
  rw [if_neg (by omega), if_neg (by omega), if_pos (by omega), Nat.add_sub_cancel_left,
    if_neg (by omega), htake, beValue_lengthBytes, htot, if_neg (by omega), hsli]
  rfl

theorem reads_encodeBytes (b : Bytes) : Reads dec (encodeBytes b) b := by
  refine ⟨encodeBytes_ne_nil b, fun rest hsize => ?_⟩
  unfold encodeBytes at hsize ⊢
  split_ifs at hsize ⊢ with h1
  · obtain ⟨hlen, hv⟩ := h1
    obtain ⟨x, rfl⟩ := List.length_eq_one_iff.1 hlen
    exact decodeOneRlpItem_single (by simpa [beValue] using hv) rest
  · rw [List.append_assoc] at hsize ⊢
    rcases Nat.lt_or_ge b.length 56 with hs | hl
    · rw [header_short hs, List.singleton_append, decodeOneRlpItem_shortBytes hs]
      simp [Nat.add_comm]
    · rw [header_long hl] at hsize ⊢
      simp only [cons_append, length_cons, length_append,
        lengthBytes_length] at hsize
      rw [cons_append, decodeOneRlpItem_longBytes hl (by omega)]
      simp [Nat.add_comm, Nat.add_left_comm]

/-- `Header::decode` is taken to accept a list of up to 55 bytes that is all there. -/
def AcceptsShortLists (headerDecode : Bytes → Bool) : Prop :=
  ∀ (n : ℕ) (tail : Bytes), n < 56 → n ≤ tail.length →
    headerDecode (UInt8.ofNat (0xC0 + n) :: tail) = true

theorem reads_encodeList (hhd : AcceptsShortLists dec) {payload : Bytes}
    (h : payload.length < 56) : Reads dec (encodeList payload) (encodeList payload) := by
  rw [encodeList, header_short h, List.singleton_append]
  refine ⟨List.cons_ne_nil _ _, fun rest _ => ?_⟩
  have hf : (ofNat (0xC0 + payload.length)).toNat = 0xC0 + payload.length :=
    toNat_ofNat_of_lt (by omega)
  have hdec : dec (ofNat (0xC0 + payload.length) :: (payload ++ rest)) = true :=
    hhd _ _ h (by simp)
  have hlen : ¬ 1 + payload.length >
      (ofNat (0xC0 + payload.length) :: (payload ++ rest)).length := by
    simp only [length_cons, length_append]
    omega
  have htake : (ofNat (0xC0 + payload.length) :: (payload ++ rest)).take
      (1 + payload.length) = ofNat (0xC0 + payload.length) :: payload := by
    rw [Nat.add_comm 1, List.take_succ_cons, take_left]
  simp only [cons_append, decodeOneRlpItem, hf]
  rw [if_neg (by omega), if_neg (by omega), if_neg (by omega), if_pos hdec, if_pos (by omega),
    Nat.add_sub_cancel_left, if_neg hlen, htake, length_cons, Nat.add_comm 1]

theorem parseItems_flatten {es items : List Bytes} (h : List.Forall₂ (Reads dec) es items) :
    ∀ fuel, es.flatten.length ≤ fuel → es.flatten.length < 2 ^ 64 →
      parseItems dec fuel es.flatten = .ok items := by
  induction h with
  | nil => intro fuel _ _; cases fuel <;> rfl
  | @cons e item es items he _ ih =>
    intro fuel hfuel hsize
    obtain ⟨hne, hread⟩ := he
    obtain ⟨b, tail, rfl⟩ := List.exists_cons_of_ne_nil hne
    rw [List.flatten_cons] at hfuel hsize ⊢
    have hdec := hread es.flatten hsize
    simp only [length_append, length_cons] at hfuel hsize
    obtain ⟨fuel, rfl⟩ : ∃ k, fuel = k + 1 := ⟨fuel - 1, by omega⟩
    have hrest := ih fuel (by omega) (by omega)
    rw [cons_append] at hdec ⊢
    rw [parseItems, hdec]
    have hdrop : (b :: (tail ++ es.flatten)).drop (b :: tail).length = es.flatten := by
      rw [length_cons, List.drop_succ_cons, List.drop_left]
    simp only [bind, Except.bind, hdrop, hrest]

theorem parseRlpList_encodeList {es items : List Bytes} (h : List.Forall₂ (Reads dec) es items)
    (hne : es.flatten ≠ []) (hsize : (encodeList es.flatten).length < 2 ^ 64) :
    parseRlpList dec (encodeList es.flatten) = .ok items := by
  have hpos : 0 < es.flatten.length := List.length_pos_iff.2 hne
  have hle : es.flatten.length < 2 ^ 64 := lt_of_le_of_lt (length_le_encodeList _) hsize
  have hite := parseItems_flatten h es.flatten.length le_rfl hle
  generalize es.flatten = payload at *
  rcases Nat.lt_or_ge payload.length 56 with hs | hl
  · have hf : (ofNat (0xC0 + payload.length)).toNat = 0xC0 + payload.length :=
      toNat_ofNat_of_lt (by omega)
    rw [encodeList, header_short hs, List.singleton_append]
    simp only [parseRlpList, hf]
    rw [if_neg (by omega), if_pos (by omega), if_neg, hite]
    rw [length_cons]
    omega
  · have h8 : byteLen payload.length ≤ 8 := byteLen_le_eight hle
    have h1 : 1 ≤ byteLen payload.length := by unfold byteLen; omega
    have hf : (ofNat (0xF7 + byteLen payload.length)).toNat =
        0xF7 + byteLen payload.length := toNat_ofNat_of_lt (by omega)
    have htake : (lengthBytes payload.length ++ payload).take (byteLen payload.length) =
        lengthBytes payload.length := List.take_left' (lengthBytes_length _)
    have hdrop : (lengthBytes payload.length ++ payload).drop (byteLen payload.length) =
        payload := List.drop_left' (lengthBytes_length _)
    rw [encodeList, header_long hl] at hsize ⊢
    simp only [cons_append, length_cons, length_append, lengthBytes_length] at hsize
    simp only [cons_append, parseRlpList, hf, Nat.add_sub_cancel_left, htake, hdrop,
      beValue_lengthBytes, length_cons, length_append, lengthBytes_length]
    rw [if_neg (by omega), if_neg (by omega), if_neg (by omega), if_neg (by omega), hite]

end Callchain.LightClient

/-
# The nodes of a trie as the verifier reads them

A turn of the loop of `verify_mpt_proof` at the encoding of a node is a function of that
node and of the rest of the key. `compact_decode` takes the type of an odd path from the
low nibble of the first byte, where the hex-prefix form has the first nibble of the
path. An odd path that starts with the nibble of its own type is read right, one that
starts with that of the other type is read as a node of that type, and any other is an
error.
-/
import Callchain.LightClient.Verifier

namespace Callchain.LightClient

open Rlp Mpt

variable {keccak : Bytes → B256} {dec : Bytes → Bool}

/-! ### Paths -/

def typeNibble (leaf : Bool) : Nibble := ⟨2 * leaf.toNat + 1, by cases leaf <;> decide⟩

/-- The paths `compact_decode` reads right. -/
def Readable (leaf : Bool) (path : List Nibble) : Prop :=
  path.length % 2 = 0 ∨ path.head? = some (typeNibble leaf)

instance (leaf : Bool) (path : List Nibble) : Decidable (Readable leaf path) :=
  inferInstanceAs (Decidable (_ ∨ _))

theorem hi_lo_even (leaf : Bool) : (hi (UInt8.ofNat (32 * leaf.toNat))).val = 2 * leaf.toNat ∧
    (lo (UInt8.ofNat (32 * leaf.toNat))).val = 0 := by
  cases leaf <;> decide

theorem hi_lo_odd (leaf : Bool) (n : Nibble) :
    hi (UInt8.ofNat (32 * leaf.toNat + 16 + n.val)) = typeNibble leaf ∧
      lo (UInt8.ofNat (32 * leaf.toNat + 16 + n.val)) = n := by
  have hl : leaf.toNat ≤ 1 := by cases leaf <;> decide
  have hv : (UInt8.ofNat (32 * leaf.toNat + 16 + n.val)).toNat = 32 * leaf.toNat + 16 + n.val :=
    toNat_ofNat_of_lt (by omega)
  constructor
  · apply Fin.ext
    simp only [hi, hv, typeNibble]
    omega
  · apply Fin.ext
    simp only [lo, hv]
    omega

variable {leaf : Bool} {t : Trie} {path : List Nibble}

theorem compactDecode_even (h : path.length % 2 = 0) :
    compactDecode (hexPrefix leaf path) = .ok (leaf, path) := by
  obtain ⟨hhi, hlo⟩ := hi_lo_even leaf
  rw [hexPrefix_even h]
  simp only [compactDecode, hhi, hlo, nibbles_packPairs h]
  cases leaf <;> rfl

/-- An odd path is read by its first nibble: it gives the type, and the type
gives the first nibble. -/
theorem compactDecode_odd (leaf other : Bool) {rest : List Nibble} (h : rest.length % 2 = 0) :
    compactDecode (hexPrefix leaf (typeNibble other :: rest)) =
      .ok (other, typeNibble leaf :: rest) := by
  obtain ⟨hhi, hlo⟩ := hi_lo_odd leaf (typeNibble other)
  rw [hexPrefix_odd h]
  simp only [compactDecode, hhi, hlo, nibbles_packPairs h]
  cases other <;> rfl

theorem compactDecode_readable (h : Readable leaf path) :
    compactDecode (hexPrefix leaf path) = .ok (leaf, path) := by
  rcases Nat.mod_two_eq_zero_or_one path.length with he | ho
  · exact compactDecode_even he
  · have hhead : path.head? = some (typeNibble leaf) := h.resolve_left (by omega)
    obtain ⟨rest, rfl⟩ := List.head?_eq_some_iff.1 hhead
    rw [List.length_cons] at ho
    exact compactDecode_odd leaf leaf (by omega)

theorem compactDecode_unreadable (h : ¬ Readable leaf path) :
    compactDecode (hexPrefix leaf path) = .error .invalidNode ∨
      ∃ rest, path = typeNibble (!leaf) :: rest ∧
        compactDecode (hexPrefix leaf path) = .ok (!leaf, typeNibble leaf :: rest) ∧
        hexPrefix (!leaf) (typeNibble leaf :: rest) ≠ hexPrefix leaf path := by
  obtain ⟨hodd, hhead⟩ := not_or.1 h
  rcases path with _ | ⟨n, rest⟩
  · simp at hodd
  rw [List.length_cons] at hodd
  have hrest : rest.length % 2 = 0 := by omega
  have hne : n ≠ typeNibble leaf := fun he => hhead (by rw [he]; rfl)
  by_cases hn : n = typeNibble (!leaf)
  · refine .inr ⟨rest, by rw [hn], by rw [hn]; exact compactDecode_odd leaf (!leaf) hrest, ?_⟩
    rw [hn, hexPrefix_odd hrest, hexPrefix_odd hrest]
    intro he
    have hb := congrArg UInt8.toNat (List.cons.inj he).1
    cases leaf <;> exact absurd hb (by decide)
  · left
    obtain ⟨hhi, hlo⟩ := hi_lo_odd leaf n
    have h1 : n.val ≠ 1 := by
      intro hv
      cases leaf
      · exact hne (Fin.ext hv)
      · exact hn (Fin.ext hv)
    have h3 : n.val ≠ 3 := by
      intro hv
      cases leaf
      · exact hn (Fin.ext hv)
      · exact hne (Fin.ext hv)
    rw [hexPrefix_odd hrest]
    simp only [compactDecode, hhi, hlo]
    by_cases h0 : n.val = 0
    · rw [if_pos h0]
      cases leaf <;> rfl
    · rw [if_neg h0, if_neg h1, if_neg h3]

/-! ### Nodes -/

def childItem (keccak : Bytes → B256) : Trie → Bytes
  | .empty => []
  | t =>
    if (t.encode keccak).length < 32 then t.encode keccak
    else (keccak (t.encode keccak)).asSlice

theorem childItem_of_ne_empty (h : t ≠ .empty) : childItem keccak t =
    if (t.encode keccak).length < 32 then t.encode keccak
    else (keccak (t.encode keccak)).asSlice := by
  cases t with
  | empty => exact absurd rfl h
  | _ => rfl

variable (keccak) in
theorem encode_eq_encodeList (h : t ≠ .empty) :
    ∃ payload, t.encode keccak = encodeList payload := by
  cases t with
  | empty => exact absurd rfl h
  | _ => exact ⟨_, rfl⟩

theorem reads_ref (hhd : AcceptsShortLists dec) (t : Trie) :
    Reads dec (ref keccak (t.encode keccak)) (childItem keccak t) := by
  by_cases h : t = .empty
  · subst h
    exact reads_encodeBytes []
  · rw [childItem_of_ne_empty h, ref]
    obtain ⟨payload, he⟩ := encode_eq_encodeList keccak h
    split_ifs with hlen
    · have hp : payload.length < 56 := by
        have := length_le_encodeList payload
        rw [he] at hlen
        omega
      rw [he]
      exact reads_encodeList hhd hp
    · exact reads_encodeBytes _

theorem extractChildRef_childItem (h : t ≠ .empty) :
    extractChildRef keccak (childItem keccak t) = keccak (t.encode keccak) := by
  rw [childItem_of_ne_empty h, extractChildRef]
  split_ifs with hlen h32 h34 h32 h34
  · omega
  · omega
  · rfl
  · exact B256.fromSlice_asSlice _
  · exact absurd (B256.asSlice_length _) h32
  · exact absurd (B256.asSlice_length _) h32

theorem encodeList_head_ne (payload : Bytes) (h : payload.length < 56) :
    encodeList payload ≠ [0x80] := by
  rw [encodeList, header_short h]
  intro he
  have hb := congrArg UInt8.toNat (List.cons.inj he).1
  simp at hb
  omega

theorem childItem_ne (h : t ≠ .empty) :
    ¬ (childItem keccak t = [] ∨ childItem keccak t = [0x80]) := by
  obtain ⟨payload, he⟩ := encode_eq_encodeList keccak h
  rw [childItem_of_ne_empty h]
  split_ifs with hlen
  · have hp : payload.length < 56 := by
      have := length_le_encodeList payload
      rw [he] at hlen
      omega
    rw [he]
    rintro (h0 | h0)
    · rw [encodeList, header_short hp] at h0
      simp at h0
    · exact encodeList_head_ne payload hp h0
  · have h32 : (keccak (t.encode keccak)).asSlice.length = 32 := B256.asSlice_length _
    rintro (h0 | h0)
    · rw [h0] at h32
      simp at h32
    · rw [h0] at h32
      simp at h32

/-- A string of a size that a `Vec<u8>` can have. -/
abbrev Sized (e : Bytes) : Prop := e.length < 2 ^ 64

theorem parseRlpList_two {a b x y : Bytes} (ha : Reads dec a x)
    (hb : Reads dec b y) (hsize : Sized (encodeList (a ++ b))) :
    parseRlpList dec (encodeList (a ++ b)) = .ok [x, y] := by
  have hflat : [a, b].flatten = a ++ b := by simp
  have hne : [a, b].flatten ≠ [] := by simp [ha.1]
  have h := parseRlpList_encodeList (.cons ha (.cons hb .nil)) hne (by rw [hflat]; exact hsize)
  rwa [hflat] at h

theorem parseRlpList_branch (hhd : AcceptsShortLists dec) {children : Nibble → Trie}
    {value : Bytes} (hsize : Sized ((Trie.branch children value).encode keccak)) :
    parseRlpList dec ((Trie.branch children value).encode keccak) =
      .ok (List.ofFn (fun n => childItem keccak (children n)) ++ [value]) := by
  set es := List.ofFn (fun n => ref keccak ((children n).encode keccak)) ++ [encodeBytes value]
    with hes
  have hrea : List.Forall₂ (Reads dec) es
      (List.ofFn (fun n => childItem keccak (children n)) ++ [value]) := by
    refine List.rel_append ?_ (.cons (reads_encodeBytes value) .nil)
    rw [List.forall₂_iff_get]
    refine ⟨by simp, fun i h1 h2 => ?_⟩
    simp only [List.get_eq_getElem, List.getElem_ofFn]
    exact reads_ref hhd _
  have hflat : (Trie.branch children value).encode keccak = encodeList es.flatten := by
    rw [List.flatten_append, List.flatten_singleton]
    rfl
  have hne : es.flatten ≠ [] := by
    rw [List.flatten_append, List.flatten_singleton]
    intro h0
    exact encodeBytes_ne_nil value (List.append_eq_nil_iff.1 h0).2
  rw [hflat] at hsize ⊢
  exact parseRlpList_encodeList hrea hne hsize

variable {r : List Nibble}

theorem nodeStep_of_parse {node : Bytes} {items : List Bytes}
    (h : parseRlpList dec node = .ok items) :
    nodeStep keccak dec r node = walkStep keccak r items := by
  rw [nodeStep, h]
  rfl

theorem verifyNodes_cons (r : List Nibble) (node : Bytes) (proof : List Bytes) :
    verifyNodes keccak dec (keccak node) r (node :: proof) = match nodeStep keccak dec r node with
      | .error e => .error e
      | .ok (.stop result) => .ok result
      | .ok (.next r expected) => verifyNodes keccak dec expected r proof := by
  exact if_neg (not_not.2 rfl)

theorem walkStep_two {r path : List Nibble} {pathItem item : Bytes} {isLeaf : Bool}
    (h : compactDecode pathItem = .ok (isLeaf, path)) :
    walkStep keccak r [pathItem, item] = .ok (if ¬ path <+: r then .stop none
        else if isLeaf then .stop (some item)
        else .next (r.drop path.length) (extractChildRef keccak item)) := by
  simp only [walkStep, h, bind, Except.bind]
  by_cases hp : path <+: r
  · cases isLeaf <;> simp [hp]
  · cases isLeaf <;> simp [hp]

theorem walkStep_two_error {pathItem item : Bytes} {e : MptError}
    (h : compactDecode pathItem = .error e) : walkStep keccak r [pathItem, item] = .error e := by
  simp only [walkStep, h, bind, Except.bind]

theorem walkStep_branch {items : Nibble → Bytes} {value : Bytes} :
    walkStep keccak r (List.ofFn items ++ [value]) = match r with
      | [] => .ok (.stop (some value))
      | n :: rest =>
        if items n = [] ∨ items n = [0x80] then .ok (.stop none)
        else .ok (.next rest (extractChildRef keccak (items n))) := by
  have hlen : (List.ofFn items ++ [value]).length = 17 := by simp
  have hval : (List.ofFn items ++ [value]).getD 16 [] = value := by
    simp
  have hitem : ∀ n : Nibble, (List.ofFn items ++ [value]).getD n.val [] = items n := by
    intro n
    rw [List.getD_eq_getElem?_getD, List.getElem?_append_left (by simp), List.getElem?_ofFn,
      dif_pos n.isLt]
    rfl
  generalize hes : List.ofFn items ++ [value] = es at *
  rcases es with _ | ⟨a, _ | ⟨b, _ | ⟨c, es⟩⟩⟩
  · simp at hlen
  · simp at hlen
  · simp at hlen
  · cases r with
    | nil => simp only [walkStep, if_pos hlen, hval]
    | cons => simp only [walkStep, if_pos hlen, hitem]

/-! ### What a turn of the loop does at a node of a trie -/

section Step
variable (hhd : AcceptsShortLists dec) {r path : List Nibble}

theorem nodeStep_empty : nodeStep keccak dec r (Trie.empty.encode keccak) =
    .error .invalidRlp := rfl

variable {value : Bytes} {children : Nibble → Trie}

theorem parseRlpList_leaf (hsize : Sized ((Trie.leaf path value).encode keccak)) :
    parseRlpList dec ((Trie.leaf path value).encode keccak) = .ok [hexPrefix true path, value] :=
  parseRlpList_two (reads_encodeBytes _) (reads_encodeBytes _) hsize

include hhd in
theorem parseRlpList_ext {child : Trie} (hsize : Sized ((Trie.ext path child).encode keccak)) :
    parseRlpList dec ((Trie.ext path child).encode keccak) =
      .ok [hexPrefix false path, childItem keccak child] :=
  parseRlpList_two (reads_encodeBytes _) (reads_ref hhd _) hsize

variable (dec) in
theorem nodeStep_leaf (hsize : Sized ((Trie.leaf path value).encode keccak))
    (hr : Readable true path) : nodeStep keccak dec r ((Trie.leaf path value).encode keccak) =
      .ok (.stop (if path <+: r then some value else none)) := by
  rw [nodeStep_of_parse (parseRlpList_leaf hsize), walkStep_two (compactDecode_readable hr)]
  by_cases hp : path <+: r <;> simp [hp]

include hhd in
theorem nodeStep_ext {child : Trie} (hsize : Sized ((Trie.ext path child).encode keccak))
    (hr : Readable false path) (hc : child ≠ .empty) :
    nodeStep keccak dec r ((Trie.ext path child).encode keccak) =
      .ok (if ¬ path <+: r then .stop none
        else .next (r.drop path.length) (keccak (child.encode keccak))) := by
  rw [nodeStep_of_parse (parseRlpList_ext hhd hsize), walkStep_two (compactDecode_readable hr),
    extractChildRef_childItem hc]
  rfl

/-- A node whose path is misread is an error, or is taken for one of the other type with
a path that no key of it goes through. -/
theorem nodeStep_misread {leaf : Bool} {node item : Bytes}
    (hpar : parseRlpList dec node = .ok [hexPrefix leaf path, item]) (hr : ¬ Readable leaf path) :
    nodeStep keccak dec r node = .error .invalidNode ∨ ∃ rest, path = typeNibble (!leaf) :: rest ∧
        compactDecode (hexPrefix leaf path) = .ok (!leaf, typeNibble leaf :: rest) ∧
        hexPrefix (!leaf) (typeNibble leaf :: rest) ≠ hexPrefix leaf path ∧
        (¬ typeNibble leaf :: rest <+: r → nodeStep keccak dec r node = .ok (.stop none)) := by
  rw [nodeStep_of_parse hpar]
  rcases compactDecode_unreadable hr with he | ⟨rest, hpath, hdec, hne⟩
  · exact .inl (walkStep_two_error he)
  · exact .inr ⟨rest, hpath, hdec, hne, fun hp => by rw [walkStep_two hdec, if_pos hp]⟩

include hhd in
theorem nodeStep_branch_nil (hsize : Sized ((Trie.branch children value).encode keccak)) :
    nodeStep keccak dec [] ((Trie.branch children value).encode keccak) =
      .ok (.stop (some value)) := by
  rw [nodeStep_of_parse (parseRlpList_branch hhd hsize), walkStep_branch]

include hhd in
theorem nodeStep_branch_empty {n : Nibble}
    (hsize : Sized ((Trie.branch children value).encode keccak)) (hc : children n = .empty) :
    nodeStep keccak dec (n :: r) ((Trie.branch children value).encode keccak) =
      .ok (.stop none) := by
  rw [nodeStep_of_parse (parseRlpList_branch hhd hsize), walkStep_branch]
  simp only [hc, childItem, true_or, if_true]

include hhd in
theorem nodeStep_branch_child {n : Nibble}
    (hsize : Sized ((Trie.branch children value).encode keccak)) (hc : children n ≠ .empty) :
    nodeStep keccak dec (n :: r) ((Trie.branch children value).encode keccak) =
      .ok (.next r (keccak ((children n).encode keccak))) := by
  rw [nodeStep_of_parse (parseRlpList_branch hhd hsize), walkStep_branch]
  simp only [if_neg (childItem_ne hc), extractChildRef_childItem hc]

end Step

end Callchain.LightClient

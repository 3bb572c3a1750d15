/-
# Merkle-Patricia tries

A trie maps paths of nibbles to byte strings through leaves, extensions and branches. A
node is encoded as a list of items: the hex-prefix form of its path and the value or the
child of a leaf or extension, the sixteen children and the value of a branch. A child
stands in its parent by its encoding if that is shorter than 32 bytes and by its digest
otherwise; `digest` is arbitrary here.
-/
import Callchain.Lib.Rlp

namespace Callchain.Mpt

open Rlp

abbrev Nibble := Fin 16

def hi (b : UInt8) : Nibble := ⟨b.toNat / 16, by have := b.toNat_lt; omega⟩

def lo (b : UInt8) : Nibble := ⟨b.toNat % 16, by omega⟩

def nibbles (bs : Bytes) : List Nibble := bs.flatMap fun b => [hi b, lo b]

@[simp] theorem nibbles_cons (b : UInt8) (bs : Bytes) :
    nibbles (b :: bs) = hi b :: lo b :: nibbles bs := rfl

def pack (h l : Nibble) : UInt8 := UInt8.ofNat (16 * h.val + l.val)

theorem pack_toNat (h l : Nibble) : (pack h l).toNat = 16 * h.val + l.val :=
  toNat_ofNat_of_lt (by have := h.isLt; have := l.isLt; omega)

@[simp] theorem hi_pack (h l : Nibble) : hi (pack h l) = h := by
  apply Fin.ext
  simp only [hi, pack_toNat]
  omega

@[simp] theorem lo_pack (h l : Nibble) : lo (pack h l) = l := by
  apply Fin.ext
  simp only [lo, pack_toNat]
  omega

/-- Two nibbles a byte; a last single nibble is dropped. -/
def packPairs : List Nibble → Bytes
  | a :: b :: rest => pack a b :: packPairs rest
  | _ => []

theorem nibbles_packPairs : ∀ {path : List Nibble}, path.length % 2 = 0 →
    nibbles (packPairs path) = path
  | [], _ => rfl
  | [_], h => by simp at h
  | a :: b :: rest, h => by
    have hrest : rest.length % 2 = 0 := by
      simp only [List.length_cons] at h
      omega
    rw [packPairs, nibbles_cons, hi_pack, lo_pack, nibbles_packPairs hrest]

/-- The hex-prefix form of a path: the high nibble of the first byte is twice the leaf
flag plus the parity of the path, the low nibble the first one of an odd path. -/
def hexPrefix (leaf : Bool) : List Nibble → Bytes
  | [] => [UInt8.ofNat (32 * leaf.toNat)]
  | n :: rest =>
    if rest.length % 2 = 0 then UInt8.ofNat (32 * leaf.toNat + 16 + n.val) :: packPairs rest
    else UInt8.ofNat (32 * leaf.toNat) :: packPairs (n :: rest)

theorem hexPrefix_even {leaf : Bool} : ∀ {path : List Nibble}, path.length % 2 = 0 →
    hexPrefix leaf path = UInt8.ofNat (32 * leaf.toNat) :: packPairs path
  | [], _ => rfl
  | n :: rest, h => by
    rw [hexPrefix, if_neg]
    rw [List.length_cons] at h
    omega

theorem hexPrefix_odd {leaf : Bool} {n : Nibble} {rest : List Nibble} (h : rest.length % 2 = 0) :
    hexPrefix leaf (n :: rest) = UInt8.ofNat (32 * leaf.toNat + 16 + n.val) :: packPairs rest :=
  if_pos h

inductive Trie
  | empty
  | leaf (path : List Nibble) (value : Bytes)
  | ext (path : List Nibble) (child : Trie)
  | branch (children : Nibble → Trie) (value : Bytes)

/-- The item a child of encoding `e` is in its parent. -/
def ref (digest : Bytes → B256) (e : Bytes) : Bytes :=
  if e.length < 32 then e else encodeBytes (digest e).asSlice

namespace Trie

def lookup : Trie → List Nibble → Option Bytes
  | empty, _ => none
  | leaf path value, key => if key = path then some value else none
  | ext path child, key => if path <+: key then child.lookup (key.drop path.length) else none
  | branch _ value, [] => if value = [] then none else some value
  | branch children _, n :: key => (children n).lookup key

@[simp] theorem lookup_leaf (path key : List Nibble) (value : Bytes) :
    (leaf path value).lookup key = if key = path then some value else none := rfl

variable (value : Bytes)

theorem lookup_leaf_of_not {path key : List Nibble} (h : ¬ path <+: key) :
    (leaf path value).lookup key = none := by
  rw [lookup_leaf, if_neg]
  rintro rfl
  exact h List.prefix_rfl

theorem lookup_ext_append (path rest : List Nibble) (child : Trie) :
    (ext path child).lookup (path ++ rest) = child.lookup rest := by
  rw [lookup, if_pos (List.prefix_append path rest), List.drop_left]

theorem lookup_ext_of_not {path key : List Nibble} (child : Trie) (h : ¬ path <+: key) :
    (ext path child).lookup key = none := if_neg h

variable (children : Nibble → Trie)

@[simp] theorem lookup_branch_nil :
    (branch children value).lookup [] = if value = [] then none else some value := rfl

@[simp] theorem lookup_branch_cons (n : Nibble)
    (key : List Nibble) : (branch children value).lookup (n :: key) = (children n).lookup key := rfl

def WellFormed : Trie → Prop
  | empty => True
  | leaf _ _ => True
  | ext _ child => (∃ children value, child = branch children value) ∧ child.WellFormed
  | branch children _ => ∀ n, (children n).WellFormed

variable (digest : Bytes → B256)

def encode : Trie → Bytes
  | empty => encodeBytes []
  | leaf path value => encodeList (encodeBytes (hexPrefix true path) ++ encodeBytes value)
  | ext path child =>
    encodeList (encodeBytes (hexPrefix false path) ++ ref digest child.encode)
  | branch children value =>
    encodeList ((List.ofFn fun n => ref digest (children n).encode).flatten ++ encodeBytes value)

/-- `e` is the encoding of a node of the trie, an empty one included. -/
def HasNode (e : Bytes) : Trie → Prop
  | empty => e = empty.encode digest
  | leaf path value => e = (leaf path value).encode digest
  | ext path child => e = (ext path child).encode digest ∨ child.HasNode e
  | branch children value =>
    e = (branch children value).encode digest ∨ ∃ n, (children n).HasNode e

theorem HasNode.self (t : Trie) : t.HasNode digest (t.encode digest) := by
  cases t with
  | empty | leaf => rfl
  | ext | branch => exact .inl rfl

end Trie
end Callchain.Mpt

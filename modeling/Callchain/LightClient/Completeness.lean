/-
# The proofs that the verifier accepts

A trie answers for a key by the list of its nodes on the key's path. The verifier gives
the trie's answer for that list exactly if the path is read as it was written
(`Answered`): the paths of its nodes are, the key ends with the leaf that it meets, and
a branch that the key ends at has a value. A path that is misread as one of the other
type can still lead to the right answer for a key that the trie does not have.

Every node of the path is an entry of its own, also one that is embedded in its parent:
the verifier takes the reference to such a node as the hash of the next entry.
-/
import Callchain.LightClient.Inclusion

namespace Callchain.LightClient

open Rlp Mpt

variable {keccak : Bytes → B256} {headerDecode : Bytes → Bool}

/-- The proof an honest prover sends: the nodes along the path. -/
def pathNodes (keccak : Bytes → B256) : Trie → List Nibble → List Bytes
  | .empty, _ => []
  | .leaf path value, _ => [(Trie.leaf path value).encode keccak]
  | .ext path child, r => (Trie.ext path child).encode keccak ::
    if path <+: r then pathNodes keccak child (r.drop path.length) else []
  | .branch children value, [] => [(Trie.branch children value).encode keccak]
  | .branch children value, n :: r =>
    (Trie.branch children value).encode keccak :: pathNodes keccak (children n) r

/-- The verifier answers as the trie does, though it may misread a path. -/
def Answered : Trie → List Nibble → Prop
  | .empty, _ => True
  | .leaf path _, r =>
    if Readable true path then path <+: r → r = path
    else path.head? = some (typeNibble false) ∧ r ≠ path
  | .ext path child, r =>
    if Readable false path then path <+: r → Answered child (r.drop path.length)
    else path.head? = some (typeNibble true) ∧ ¬ typeNibble false :: path.tail <+: r ∧
      (path <+: r → child.lookup (r.drop path.length) = none)
  | .branch _ value, [] => value ≠ []
  | .branch children _, n :: r => Answered (children n) r

variable {path r : List Nibble}

theorem compactDecode_of_head {leaf : Bool} (h : ¬ Readable leaf path)
    (hhead : path.head? = some (typeNibble (!leaf))) :
    compactDecode (hexPrefix leaf path) = .ok (!leaf, typeNibble leaf :: path.tail) := by
  obtain ⟨rest, rfl⟩ := List.head?_eq_some_iff.1 hhead
  have hodd := (not_or.1 h).1
  rw [List.length_cons] at hodd
  exact compactDecode_odd leaf (!leaf) (by omega)

theorem compactDecode_of_head_ne {leaf : Bool} (h : ¬ Readable leaf path)
    (hhead : path.head? ≠ some (typeNibble (!leaf))) :
    compactDecode (hexPrefix leaf path) = .error .invalidNode := by
  rcases compactDecode_unreadable h with he | ⟨rest, rfl, -, -⟩
  · exact he
  · exact absurd rfl hhead

variable {node pathItem item : Bytes}

theorem verifyNodes_two_error {proof : List Bytes}
    {e : MptError} (hpar : parseRlpList headerDecode node = .ok [pathItem, item])
    (hdec : compactDecode pathItem = .error e) :
    verifyNodes keccak headerDecode (keccak node) r (node :: proof) = .error e := by
  rw [verifyNodes_cons, nodeStep_of_parse hpar, walkStep_two_error hdec]

theorem verifyNodes_two {proof : List Bytes}
    {isLeaf : Bool} (hpar : parseRlpList headerDecode node = .ok [pathItem, item])
    (hdec : compactDecode pathItem = .ok (isLeaf, path)) :
    verifyNodes keccak headerDecode (keccak node) r (node :: proof) = if ¬ path <+: r then .ok none
      else if isLeaf then .ok (some item)
      else verifyNodes keccak headerDecode (extractChildRef keccak item) (r.drop path.length)
        proof := by
  rw [verifyNodes_cons, nodeStep_of_parse hpar, walkStep_two hdec]
  by_cases hp : path <+: r
  · cases isLeaf <;> simp [hp]
  · simp [hp]

theorem verifyNodes_leaf_iff {value : Bytes}
    (hsize : Sized ((Trie.leaf path value).encode keccak)) :
    verifyNodes keccak headerDecode (keccak ((Trie.leaf path value).encode keccak)) r
        [(Trie.leaf path value).encode keccak] = .ok ((Trie.leaf path value).lookup r) ↔
      Answered (.leaf path value) r := by
  have hpar : parseRlpList headerDecode _ = _ := parseRlpList_leaf hsize
  rw [Answered]
  by_cases hread : Readable true path
  · rw [if_pos hread, verifyNodes_two hpar (compactDecode_readable hread)]
    by_cases hp : path <+: r
    · by_cases hr : r = path <;> simp [hp, hr]
    · have hne : r ≠ path := fun he => hp (he ▸ List.prefix_rfl)
      simp [hp, hne]
  · rw [if_neg hread]
    by_cases hhead : path.head? = some (typeNibble false)
    · -- taken for an extension, below which the proof has no node
      rw [verifyNodes_two hpar (compactDecode_of_head hread hhead)]
      by_cases hr : r = path <;> simp [hhead, hr, verifyNodes]
    · rw [verifyNodes_two_error hpar (compactDecode_of_head_ne hread hhead)]
      simp [hhead]

theorem verifyNodes_ext_iff (hhd : AcceptsShortLists headerDecode)
    {child : Trie} (hne : child ≠ .empty) (hsize : Sized ((Trie.ext path child).encode keccak))
    (ih : ∀ rest, r = path ++ rest →
      (verifyNodes keccak headerDecode (keccak (child.encode keccak)) rest
        (pathNodes keccak child rest) = .ok (child.lookup rest) ↔ Answered child rest)) :
    verifyNodes keccak headerDecode (keccak ((Trie.ext path child).encode keccak)) r
        (pathNodes keccak (.ext path child) r) = .ok ((Trie.ext path child).lookup r) ↔
      Answered (.ext path child) r := by
  have hpar := parseRlpList_ext hhd hsize
  rw [Answered, pathNodes]
  by_cases hread : Readable false path
  · rw [if_pos hread, verifyNodes_two hpar (compactDecode_readable hread),
      extractChildRef_childItem hne]
    by_cases hp : path <+: r
    · obtain ⟨rest, rfl⟩ := hp
      simpa [Trie.lookup_ext_append] using ih rest rfl
    · simp [hp, Trie.lookup_ext_of_not child hp]
  · rw [if_neg hread]
    by_cases hhead : path.head? = some (typeNibble true)
    · rw [verifyNodes_two hpar (compactDecode_of_head hread hhead)]
      by_cases hp : typeNibble false :: path.tail <+: r
      · -- taken for a leaf of another key
        obtain ⟨rest, rfl⟩ := List.head?_eq_some_iff.1 hhead
        have hoth : ¬ typeNibble true :: rest <+: r := not_both_prefixes hp
        have hnone := Trie.lookup_ext_of_not child hoth
        rw [if_neg (not_not.2 hp), hnone]
        exact iff_of_false (by simp) fun h => h.2.1 hp
      · simp [hp, hhead, Trie.lookup, eq_comm]
    · rw [verifyNodes_two_error hpar (compactDecode_of_head_ne hread hhead)]
      simp [hhead]

theorem verifyNodes_pathNodes_iff (hhd : AcceptsShortLists headerDecode) {t : Trie}
    (hwf : t.WellFormed) (hsz : ∀ x ∈ pathNodes keccak t r, Sized x) :
    verifyNodes keccak headerDecode (keccak (t.encode keccak)) r (pathNodes keccak t r) =
      .ok (t.lookup r) ↔ Answered t r := by
  induction t generalizing r with
  | empty => exact iff_of_true rfl trivial
  | leaf => exact verifyNodes_leaf_iff (hsz _ List.mem_cons_self)
  | ext path child ih =>
    obtain ⟨⟨cs, w, hchi⟩, hwf⟩ := hwf
    refine verifyNodes_ext_iff hhd (by rw [hchi]; simp) (hsz _ List.mem_cons_self) ?_
    rintro rest rfl
    refine ih hwf fun x hx => hsz x (List.mem_cons_of_mem _ ?_)
    rwa [if_pos (List.prefix_append _ _), List.drop_left]
  | branch children value ih =>
    cases r with
    | nil =>
      rw [pathNodes, verifyNodes_cons, nodeStep_branch_nil hhd (hsz _ List.mem_cons_self), Answered]
      by_cases hv : value = [] <;> simp [hv]
    | cons n =>
      have hsize := hsz _ List.mem_cons_self
      rw [pathNodes, verifyNodes_cons, Answered, Trie.lookup_branch_cons]
      by_cases hc : children n = .empty
      · rw [nodeStep_branch_empty hhd hsize hc, hc]
        exact iff_of_true rfl trivial
      · rw [nodeStep_branch_child hhd hsize hc]
        exact ih n (hwf n) fun x hx => hsz x (List.mem_cons_of_mem _ hx)

/-- **Honest proofs are read.** For the nodes on the path of a key the verifier gives the trie's
own answer exactly if the path lets it. -/
theorem verifyMptProof_pathNodes_iff (hhd : AcceptsShortLists headerDecode) {t : Trie}
    (hwf : t.WellFormed) {keyBytes : Bytes}
    (hsz : ∀ x ∈ pathNodes keccak t (bytesToNibbles keyBytes), Sized x) :
    verifyMptProof keccak headerDecode (keccak (t.encode keccak)) keyBytes
        (pathNodes keccak t (bytesToNibbles keyBytes)) = .ok (t.lookup (bytesToNibbles keyBytes)) ↔
      Answered t (bytesToNibbles keyBytes) := by
  rw [← verifyNodes_pathNodes_iff hhd hwf hsz, verifyMptProof]
  by_cases hp : pathNodes keccak t (bytesToNibbles keyBytes) = []
  · rw [hp]
    exact Iff.rfl
  · rw [if_neg hp]

theorem verifyMptProof_pathNodes_iff_at_branch :
    verifyMptProof plainHash acceptAll (plainHash ((oddLeaf true).encode plainHash)) [0x03]
      (pathNodes plainHash (oddLeaf true) (bytesToNibbles [0x03])) =
        .ok ((oddLeaf true).lookup (bytesToNibbles [0x03])) := by
  have hpath : pathNodes plainHash (oddLeaf true) (bytesToNibbles [0x03]) = oddLeafProof true := by
    decide
  refine (verifyMptProof_pathNodes_iff acceptAll_acceptsShortLists (oddLeaf_wellFormed true)
    (hpath ▸ oddLeaf_sized true)).2 ?_
  show Answered (.leaf [typeNibble true] [0x07]) [typeNibble true]
  rw [Answered, if_pos (by decide)]
  exact fun _ => rfl

def twoLeaves : Trie :=
  .branch (fun n => if n.val ≤ 1 then .leaf [typeNibble false] [0x07] else .empty) []

theorem twoLeaves_unanswered :
    verifyMptProof plainHash acceptAll (plainHash (twoLeaves.encode plainHash)) [0x01]
        (pathNodes plainHash twoLeaves (bytesToNibbles [0x01])) = .ok none ∧
      twoLeaves.lookup (bytesToNibbles [0x01]) = some [0x07] := by
  decide

end Callchain.LightClient

/-
# What the result of a proof walk says about the trie

The nodes a walk accepts are the trie's own, as long as `keccak256` does not collide on
them. So an answer `Some(v)` is the trie's own exactly if every path on the walk is read
as it was written, the leaf at its end is the whole rest of the key and the value slot
of a branch at its end is not empty.
-/
import Callchain.LightClient.Nodes

namespace Callchain.LightClient

open Rlp Mpt

variable {keccak : Bytes → B256} {headerDecode : Bytes → Bool}

/-- No entry of the proof has the hash of a node of the trie unless it is that node. -/
def CollisionFree (keccak : Bytes → B256) (t : Trie) (proof : List Bytes) : Prop :=
  ∀ e, t.HasNode keccak e → ∀ x ∈ proof, keccak x = keccak e → x = e

variable {t : Trie} {node : Bytes} {proof : List Bytes} {path r : List Nibble}
  {result : Option Bytes}

theorem CollisionFree.head (h : CollisionFree keccak t (node :: proof))
    (hk : keccak node = keccak (t.encode keccak)) : node = t.encode keccak :=
  h _ (Trie.HasNode.self keccak t) node List.mem_cons_self hk

theorem CollisionFree.child {child : Trie}
    (h : CollisionFree keccak (.ext path child) (node :: proof)) :
    CollisionFree keccak child proof :=
  fun e he x hx hk => h e (Or.inr he) x (List.mem_cons_of_mem _ hx) hk

theorem CollisionFree.children {children : Nibble → Trie} {value : Bytes}
    (h : CollisionFree keccak (.branch children value) (node :: proof))
    (n : Nibble) : CollisionFree keccak (children n) proof :=
  fun e he x hx hk => h e (Or.inr ⟨n, he⟩) x (List.mem_cons_of_mem _ hx) hk

theorem verifyNodes_head (hcf : CollisionFree keccak t (node :: proof))
    (h : verifyNodes keccak headerDecode (keccak (t.encode keccak)) r (node :: proof) =
      .ok result) : node = t.encode keccak := by
  apply hcf.head
  by_contra hne
  rw [verifyNodes, if_pos hne] at h
  exact absurd h (by simp)

/-! ### The walk -/

/-- Every path on the way to the key is one that `compact_decode` reads right. -/
def PathReadable : Trie → List Nibble → Prop
  | .empty, _ => True
  | .leaf path _, _ => Readable true path
  | .ext path child, r => Readable false path ∧ PathReadable child (r.drop path.length)
  | .branch _ _, [] => True
  | .branch children _, n :: r => PathReadable (children n) r

inductive Walk (keccak : Bytes → B256) (headerDecode : Bytes → Bool) :
    Trie → List Nibble → List Bytes → Option Bytes → Prop
  /-- The proof has no further node. -/
  | out (t : Trie) (r : List Nibble) : Walk keccak headerDecode t r [] none
  | leaf {path r : List Nibble} {value node : Bytes} {proof : List Bytes}
      (parsed : parseRlpList headerDecode node = .ok [hexPrefix true path, value])
      (readable : Readable true path) (through : path <+: r)
      (turn : nodeStep keccak headerDecode r node = .ok (.stop (some value))) :
      Walk keccak headerDecode (.leaf path value) r (node :: proof) (some value)
  | ext {path rest : List Nibble} {child : Trie} {node item : Bytes} {proof : List Bytes}
      {result : Option Bytes} {expected : B256}
      (parsed : parseRlpList headerDecode node = .ok [hexPrefix false path, item])
      (readable : Readable false path)
      (turn : nodeStep keccak headerDecode (path ++ rest) node = .ok (.next rest expected))
      (below : Walk keccak headerDecode child rest proof result) :
      Walk keccak headerDecode (.ext path child) (path ++ rest) (node :: proof) result
  /-- The key leaves the trie at the node. -/
  | aside {t : Trie} {r : List Nibble} {node : Bytes} {proof : List Bytes}
      (absent : t.lookup r = none) : Walk keccak headerDecode t r (node :: proof) none
  /-- The path of a leaf or an extension is misread, and no key of the node goes
  through what is read. -/
  | misread {t : Trie} {path r : List Nibble} {isLeaf : Bool} {node pathItem item : Bytes}
      {proof : List Bytes} {result : Option Bytes}
      (parsed : parseRlpList headerDecode node = .ok [pathItem, item])
      (decoded : compactDecode pathItem = .ok (isLeaf, path))
      (differs : hexPrefix isLeaf path ≠ pathItem) (hidden : ¬ PathReadable t r)
      (absent : result ≠ none → t.lookup r = none) :
      Walk keccak headerDecode t r (node :: proof) result
  /-- The key ends at a branch. -/
  | value {children : Nibble → Trie} {items : Nibble → Bytes} {value node : Bytes}
      {proof : List Bytes}
      (parsed : parseRlpList headerDecode node = .ok (List.ofFn items ++ [value]))
      (turn : nodeStep keccak headerDecode [] node = .ok (.stop (some value))) :
      Walk keccak headerDecode (.branch children value) [] (node :: proof) (some value)
  | branch {children : Nibble → Trie} {items : Nibble → Bytes} {n : Nibble} {rest : List Nibble}
      {value node : Bytes} {proof : List Bytes} {result : Option Bytes} {expected : B256}
      (parsed : parseRlpList headerDecode node = .ok (List.ofFn items ++ [value]))
      (turn : nodeStep keccak headerDecode (n :: rest) node = .ok (.next rest expected))
      (below : Walk keccak headerDecode (children n) rest proof result) :
      Walk keccak headerDecode (.branch children value) (n :: rest) (node :: proof) result

theorem not_both_prefixes {leaf : Bool} {p q : List Nibble}
    (h : typeNibble leaf :: p <+: r) : ¬ typeNibble (!leaf) :: q <+: r := by
  rintro ⟨s, rfl⟩
  obtain ⟨t, ht⟩ := h
  rw [List.cons_append, List.cons_append, List.cons.injEq] at ht
  exact absurd ht.1 (by cases leaf <;> decide)

theorem walk_misread {leaf : Bool} {item : Bytes}
    (hpar : parseRlpList headerDecode node = .ok [hexPrefix leaf path, item])
    (hr : ¬ Readable leaf path) (hidden : ¬ PathReadable t r)
    (hlook : ¬ path <+: r → t.lookup r = none)
    (h : verifyNodes keccak headerDecode (keccak node) r (node :: proof) = .ok result) :
    Walk keccak headerDecode t r (node :: proof) result := by
  rw [verifyNodes_cons] at h
  rcases nodeStep_misread (r := r) hpar hr with he | ⟨rest, hpath, hdec, hne, hstop⟩
  · rw [he] at h
    simp at h
  · refine .misread hpar hdec hne hidden fun hres => hlook ?_
    have hp : typeNibble leaf :: rest <+: r := by
      by_contra hp
      rw [hstop hp] at h
      exact hres (by simpa using h.symm)
    rw [hpath]
    exact not_both_prefixes hp

theorem walk_of_verifyNodes (hhd : AcceptsShortLists headerDecode) :
    ∀ (proof : List Bytes) (t : Trie) (r : List Nibble), t.WellFormed →
      CollisionFree keccak t proof → (∀ x ∈ proof, Sized x) →
      verifyNodes keccak headerDecode (keccak (t.encode keccak)) r proof = .ok result →
      Walk keccak headerDecode t r proof result
  | [], t, r, _, _, _, h => by
    obtain rfl : none = result := by simpa [verifyNodes] using h
    exact .out t r
  | node :: proof, t, r, hwf, hcf, hsz, h => by
    obtain rfl : node = t.encode keccak := verifyNodes_head hcf h
    have hsize : Sized (t.encode keccak) := hsz _ List.mem_cons_self
    have hsz' : ∀ x ∈ proof, Sized x := fun x hx => hsz x (List.mem_cons_of_mem _ hx)
    -- by the node of the trie the walk is at
    cases t with
    | empty =>
      rw [verifyNodes_cons, nodeStep_empty] at h
      simp at h
    | leaf path value =>
      have hpar : parseRlpList headerDecode ((Trie.leaf path value).encode keccak) =
          .ok [hexPrefix true path, value] := parseRlpList_leaf hsize
      by_cases hr : Readable true path
      · have hstep := nodeStep_leaf headerDecode (r := r) hsize hr
        rw [verifyNodes_cons, hstep] at h
        by_cases hp : path <+: r
        · rw [if_pos hp] at hstep h
          obtain rfl : some value = result := by simpa using h
          exact .leaf hpar hr hp hstep
        · rw [if_neg hp] at h
          obtain rfl : none = result := by simpa using h
          exact .aside (Trie.lookup_leaf_of_not value hp)
      · exact walk_misread hpar hr hr (Trie.lookup_leaf_of_not value) h
    | ext path child =>
      obtain ⟨⟨cs, w, hchi⟩, hwf'⟩ := hwf
      have hne : child ≠ .empty := by rw [hchi]; simp
      have hpar := parseRlpList_ext hhd hsize
      by_cases hr : Readable false path
      · have hstep := nodeStep_ext (r := r) hhd hsize hr hne
        rw [verifyNodes_cons, hstep] at h
        by_cases hp : path <+: r
        · obtain ⟨rest, rfl⟩ := hp
          rw [if_neg (not_not.2 (List.prefix_append _ _)), List.drop_left] at hstep h
          exact .ext hpar hr hstep
            (walk_of_verifyNodes hhd proof child rest hwf' hcf.child hsz' h)
        · rw [if_pos hp] at h
          obtain rfl : none = result := by simpa using h
          exact .aside (Trie.lookup_ext_of_not child hp)
      · exact walk_misread hpar hr (fun hread => hr hread.1) (Trie.lookup_ext_of_not child) h
    | branch children value =>
      have hpar := parseRlpList_branch hhd hsize
      rw [verifyNodes_cons] at h
      cases r with
      | nil =>
        have hstep := nodeStep_branch_nil hhd hsize
        rw [hstep] at h
        obtain rfl : some value = result := by simpa using h
        exact .value hpar hstep
      | cons n rest =>
        by_cases hc : children n = .empty
        · rw [nodeStep_branch_empty hhd hsize hc] at h
          obtain rfl : none = result := by simpa using h
          exact .aside (by rw [Trie.lookup_branch_cons, hc]; rfl)
        · have hstep := nodeStep_branch_child (r := rest) hhd hsize hc
          rw [hstep] at h
          exact .branch hpar hstep
            (walk_of_verifyNodes hhd proof (children n) rest (hwf n) (hcf.children n) hsz' h)

/-! ### Inclusion -/

/-- The path item of the node is the hex-prefix form of what is read from it, a leaf is
the whole rest of the key, and a branch that ends the walk has a value. -/
def ExactNode (headerDecode : Bytes → Bool) (r : List Nibble) (node : Bytes) : Prop :=
  match parseRlpList headerDecode node with
  | .error _ => True
  | .ok [pathItem, _] =>
    match compactDecode pathItem with
    | .error _ => True
    | .ok (isLeaf, path) => hexPrefix isLeaf path = pathItem ∧ (isLeaf = true → r = path)
  | .ok items => r = [] → items.getD 16 [] ≠ []

/-- Every node that the walk visits is exact. -/
def ExactWalk (keccak : Bytes → B256) (headerDecode : Bytes → Bool) :
    List Nibble → List Bytes → Prop
  | _, [] => True
  | r, node :: proof => ExactNode headerDecode r node ∧
    match nodeStep keccak headerDecode r node with
    | .ok (.next r _) => ExactWalk keccak headerDecode r proof
    | _ => True

theorem exactWalk_stop (h : nodeStep keccak headerDecode r node = .ok (.stop result)) :
    ExactWalk keccak headerDecode r (node :: proof) ↔ ExactNode headerDecode r node := by
  rw [ExactWalk, h]
  exact Iff.of_eq (and_true _)

theorem exactWalk_next {r' : List Nibble} {expected : B256}
    (h : nodeStep keccak headerDecode r node = .ok (.next r' expected)) :
    ExactWalk keccak headerDecode r (node :: proof) ↔
      ExactNode headerDecode r node ∧ ExactWalk keccak headerDecode r' proof := by
  rw [ExactWalk, h]

theorem exactNode_two {pathItem item : Bytes} {isLeaf : Bool}
    (hp : parseRlpList headerDecode node = .ok [pathItem, item])
    (hd : compactDecode pathItem = .ok (isLeaf, path)) : ExactNode headerDecode r node ↔
      hexPrefix isLeaf path = pathItem ∧ (isLeaf = true → r = path) := by
  rw [ExactNode, hp]
  simp only [hd]

theorem exactNode_branch {items : Nibble → Bytes} {value : Bytes}
    (hp : parseRlpList headerDecode node = .ok (List.ofFn items ++ [value])) :
    ExactNode headerDecode r node ↔ (r = [] → value ≠ []) := by
  have hlen : (List.ofFn items ++ [value]).length = 17 := by simp
  have hval : (List.ofFn items ++ [value]).getD 16 [] = value := by
    simp
  rw [ExactNode, hp]
  generalize List.ofFn items ++ [value] = es at *
  rcases es with _ | ⟨a, _ | ⟨b, _ | ⟨c, es⟩⟩⟩
  · simp at hlen
  · simp at hlen
  · simp at hlen
  · simp only [hval]

/-- If the walk along `r` ends with the value `v`, then `v` is the trie's value at `r`
exactly if every node of the walk is exact. -/
theorem Walk.lookup_iff (h : Walk keccak headerDecode t r proof result) {v : Bytes}
    (hv : result = some v) : t.lookup r = some v ↔ ExactWalk keccak headerDecode r proof := by
  induction h with
  | out | aside => exact absurd hv (by simp)
  | leaf parsed readable through turn =>
    cases hv
    rw [exactWalk_stop turn, exactNode_two parsed (compactDecode_readable readable)]
    simp
  | ext parsed readable turn below ih =>
    rw [exactWalk_next turn, exactNode_two parsed (compactDecode_readable readable),
      Trie.lookup_ext_append]
    simpa using ih hv
  | misread parsed decoded differs hidden absent =>
    refine iff_of_false (fun hlook => ?_) fun hexact => ?_
    · rw [absent (by simp [hv])] at hlook
      exact absurd hlook (by simp)
    · exact differs ((exactNode_two parsed decoded).1 hexact.1).1
  | @value children items value node proof parsed turn =>
    obtain rfl := Option.some.inj hv
    rw [exactWalk_stop turn, exactNode_branch parsed]
    by_cases hemp : value = [] <;> simp [hemp]
  | branch parsed turn below ih =>
    rw [exactWalk_next turn, exactNode_branch parsed]
    simpa using ih hv

/-- **Inclusion is sound.** An answer `Some(v)` of `verify_mpt_proof` is the answer of the trie
under the root exactly if every node of the walk is exact. -/
theorem verifyMptProof_some_iff (hhd : AcceptsShortLists headerDecode) {t : Trie}
    (hwf : t.WellFormed) {rootHash : B256} (hroot : keccak (t.encode keccak) = rootHash)
    {keyBytes : Bytes} {proof : List Bytes} (hcf : CollisionFree keccak t proof)
    (hsz : ∀ x ∈ proof, Sized x) {v : Bytes}
    (h : verifyMptProof keccak headerDecode rootHash keyBytes proof = .ok (some v)) :
    t.lookup (bytesToNibbles keyBytes) = some v ↔
      ExactWalk keccak headerDecode (bytesToNibbles keyBytes) proof := by
  subst hroot
  unfold verifyMptProof at h
  split_ifs at h with hp
  · simp at h
  · exact (walk_of_verifyNodes hhd proof t _ hwf hcf hsz h).lookup_iff rfl

/-- A stand-in for `keccak256` on short strings. -/
def plainHash (bs : Bytes) : B256 := BitVec.ofNat 256 (beValue bs)

def acceptAll (_ : Bytes) : Bool := true

theorem acceptAll_acceptsShortLists : AcceptsShortLists acceptAll := fun _ _ _ _ => rfl

def oneLeaf : Trie := .leaf (bytesToNibbles [0x80]) [0x01]

theorem oneLeaf_collisionFree (proof : List Bytes) (h : ∀ x ∈ proof, x = oneLeaf.encode plainHash) :
    CollisionFree plainHash oneLeaf proof :=
  fun _ he x hx _ => (h x hx).trans he.symm

/-- A branch over one leaf, whose path is one nibble: that of a leaf, which is read right, or
that of an extension. -/
def oddLeaf (leaf : Bool) : Trie :=
  .branch (fun n => if n.val = 0 then .leaf [typeNibble leaf] [0x07] else .empty) []

def oddLeafProof (leaf : Bool) : List Bytes :=
  [(oddLeaf leaf).encode plainHash, (Trie.leaf [typeNibble leaf] [0x07]).encode plainHash]

theorem oddLeaf_wellFormed (leaf : Bool) : (oddLeaf leaf).WellFormed := by
  intro n
  dsimp only
  split_ifs <;> trivial

theorem oddLeaf_collisionFree (leaf : Bool) :
    CollisionFree plainHash (oddLeaf leaf) (oddLeafProof leaf) := by
  have hnode : ∀ e, (oddLeaf leaf).HasNode plainHash e →
      e ∈ oddLeafProof leaf ∨ e = Trie.empty.encode plainHash := by
    rintro e (he | ⟨n, he⟩)
    · exact .inl (List.mem_cons.2 (.inl he))
    · dsimp only at he
      by_cases hn : n.val = 0
      · rw [if_pos hn] at he
        exact .inl (List.mem_cons_of_mem _ (List.mem_singleton.2 he))
      · rw [if_neg hn] at he
        exact .inr he
  intro e he x hx hk
  have hall : ∀ e ∈ Trie.empty.encode plainHash :: oddLeafProof leaf, ∀ x ∈ oddLeafProof leaf,
      plainHash x = plainHash e → x = e := by cases leaf <;> decide
  exact hall e (by rcases hnode e he with h | h <;> simp [h]) x hx hk

theorem oddLeaf_sized (leaf : Bool) : ∀ x ∈ oddLeafProof leaf, Sized x := by
  cases leaf <;> decide

theorem verifyMptProof_some_iff_at_branch :
    ExactWalk plainHash acceptAll (bytesToNibbles [0x03]) (oddLeafProof true) :=
  (verifyMptProof_some_iff (v := [0x07]) acceptAll_acceptsShortLists (oddLeaf_wellFormed true) rfl
    (oddLeaf_collisionFree true) (oddLeaf_sized true) (by decide)).1 (by decide)

/-- The leaf of the one key `80` answers for the key `80 42`. -/
theorem leaf_answers_for_longer_key :
    verifyMptProof plainHash acceptAll (plainHash (oneLeaf.encode plainHash)) [0x80, 0x42]
        [oneLeaf.encode plainHash] = .ok (some [0x01]) ∧
      oneLeaf.lookup (bytesToNibbles [0x80, 0x42]) = none ∧
      CollisionFree plainHash oneLeaf [oneLeaf.encode plainHash] :=
  ⟨by decide, by decide, oneLeaf_collisionFree _ (List.forall_mem_singleton.2 rfl)⟩

/-! ### Exclusion -/

def RunsOut (keccak : Bytes → B256) (headerDecode : Bytes → Bool) :
    List Nibble → List Bytes → Prop
  | _, [] => True
  | r, node :: proof =>
    match nodeStep keccak headerDecode r node with
    | .ok (.next r _) => RunsOut keccak headerDecode r proof
    | _ => False

/-- The key is in the trie, at or below a node whose path is misread. -/
def Hidden (t : Trie) (r : List Nibble) : Prop := t.lookup r ≠ none ∧ ¬ PathReadable t r

/-- The walk along a key that the trie has, with paths that are read right, can
answer `None` only by running out of nodes. -/
theorem Walk.runsOut (h : Walk keccak headerDecode t r proof result) (hnone : result = none)
    (hlook : t.lookup r ≠ none) (hread : PathReadable t r) :
    RunsOut keccak headerDecode r proof := by
  induction h with
  | out => trivial
  | leaf | value => exact absurd hnone (by simp)
  | aside absent => exact absurd absent hlook
  | misread parsed decoded differs hidden => exact absurd hread hidden
  | ext parsed readable turn below ih =>
    rw [RunsOut, turn]
    rw [Trie.lookup_ext_append] at hlook
    obtain ⟨-, hread⟩ := hread
    rw [List.drop_left] at hread
    exact ih hnone hlook hread
  | branch parsed turn below ih =>
    rw [RunsOut, turn]
    exact ih hnone hlook hread

/-- **Exclusion is sound.** An answer `None` is of a walk that does not run out of nodes, along a
key that the trie does not have, exactly if the walk does not run out and the key is not hidden
below a misread path. -/
theorem verifyMptProof_none_iff (hhd : AcceptsShortLists headerDecode) {t : Trie}
    (hwf : t.WellFormed) {rootHash : B256} (hroot : keccak (t.encode keccak) = rootHash)
    {keyBytes : Bytes} {proof : List Bytes} (hcf : CollisionFree keccak t proof)
    (hsz : ∀ x ∈ proof, Sized x)
    (h : verifyMptProof keccak headerDecode rootHash keyBytes proof = .ok none) :
    (t.lookup (bytesToNibbles keyBytes) = none ∧
        ¬ RunsOut keccak headerDecode (bytesToNibbles keyBytes) proof) ↔
      (¬ RunsOut keccak headerDecode (bytesToNibbles keyBytes) proof ∧
        ¬ Hidden t (bytesToNibbles keyBytes)) := by
  subst hroot
  constructor
  · rintro ⟨habs, hout⟩
    exact ⟨hout, fun hh => hh.1 habs⟩
  · rintro ⟨hout, hhid⟩
    refine ⟨?_, hout⟩
    unfold verifyMptProof at h
    split_ifs at h with hp
    · subst hp
      exact absurd trivial hout
    · by_contra hlook
      have hread : PathReadable t (bytesToNibbles keyBytes) := by
        by_contra hr
        exact hhid ⟨hlook, hr⟩
      exact hout ((walk_of_verifyNodes hhd proof t _ hwf hcf hsz h).runsOut rfl hlook hread)

/-- The key 04 leads to the leaf of 03, whose path differs. -/
theorem verifyMptProof_none_iff_at_branch : (oddLeaf true).lookup (bytesToNibbles [0x04]) = none ∧
      ¬ RunsOut plainHash acceptAll (bytesToNibbles [0x04]) (oddLeafProof true) :=
  (verifyMptProof_none_iff acceptAll_acceptsShortLists (oddLeaf_wellFormed true) rfl
    (oddLeaf_collisionFree true) (oddLeaf_sized true) (by decide)).2
    ⟨fun h => h, fun h => h.1 rfl⟩

/-- The empty proof answers that the one key of a trie is absent, and so do the nodes
down to a leaf with a misread path. -/
theorem none_for_present_keys :
    (verifyMptProof plainHash acceptAll (plainHash (oneLeaf.encode plainHash)) [0x80] [] =
        .ok none ∧
      oneLeaf.lookup (bytesToNibbles [0x80]) = some [0x01] ∧ CollisionFree plainHash oneLeaf []) ∧
    (verifyMptProof plainHash acceptAll (plainHash ((oddLeaf false).encode plainHash)) [0x01]
        (oddLeafProof false) = .ok none ∧
      (oddLeaf false).lookup (bytesToNibbles [0x01]) = some [0x07] ∧
      CollisionFree plainHash (oddLeaf false) (oddLeafProof false)) :=
  ⟨⟨by decide, by decide, oneLeaf_collisionFree _ (by simp)⟩,
    by decide, by decide, oddLeaf_collisionFree false⟩

end Callchain.LightClient

/-
# The tree of commitments

`insert_commitment` stores the nodes above a new commitment, each hashed with the
node on its left or with an empty one on its right. What is left of that path is
complete, so its end is the Merkle root of all commitments so far (`grow_spec`).
A root that the pool takes is therefore one that a wallet can prove its notes
against, and it has time to: the ring keeps a root for 256 insertions.
-/
import Callchain.Lib.Merkle
import Callchain.Shielded.Path
import Callchain.Shielded.Solvency

namespace Callchain.Shielded

open Merkle CommitmentTree

variable {hash : List Fp → Fp} {leaf : ℕ → Bytes32} {n : ℕ}

theorem ofNat_inj {m k : ℕ} (hm : m < 2 ^ 64) (hk : k < 2 ^ 64) :
    BitVec.ofNat 64 m = BitVec.ofNat 64 k ↔ m = k := by
  rw [← BitVec.toNat_inj, BitVec.toNat_ofNat, BitVec.toNat_ofNat, Nat.mod_eq_of_lt hm,
    Nat.mod_eq_of_lt hk]

section Ring

variable {cms : List Bytes32} {t : CommitmentTree} {cm root : Bytes32} {block : U64}

theorem append_ring (hash : List Fp → Fp) (cm : Bytes32) (block : U64)
    (hlt : t.rootHistoryCount.toNat + 1 < 2 ^ 64) :
    t.root = 0 ∧ (t.append hash cm block).rootHistory = t.rootHistory ∧
        (t.append hash cm block).rootHistoryCount.toNat = t.rootHistoryCount.toNat ∨
      (t.append hash cm block).rootHistory = Function.update t.rootHistory
          (BitVec.ofNat 64 (t.rootHistoryCount.toNat % 256)) t.root ∧
        (t.append hash cm block).rootHistoryCount.toNat = t.rootHistoryCount.toNat + 1 := by
  simp only [append, insertCommitment, recordRootHistory]
  split_ifs with hroot hmax
  · exact .inl ⟨hroot, rfl, rfl⟩
  · rw [hmax] at hlt
    exact absurd hlt (by decide)
  · exact .inr ⟨rfl, BitVec.toNat_add_of_lt hlt⟩

structure Fits (cms : List Bytes32) (t : CommitmentTree) : Prop where
  count : t.count.toNat = cms.length
  ring : t.rootHistoryCount.toNat ≤ cms.length
  room : cms.length ≤ 1000000

theorem Fits.append (hroom : t.count < maxCommitments) (h : Fits cms t) :
    Fits (cms ++ [cm]) (t.append hash cm block) := by
  obtain ⟨hcount, hring, -⟩ := h
  have hlt : t.count.toNat < 1000000 := hroom
  have hnew := append_ring hash cm block (show t.rootHistoryCount.toNat + 1 < 2 ^ 64 by omega)
  constructor <;> rw [List.length_append, List.length_singleton]
  · rw [count_append, BitVec.toNat_add_of_lt (by simp; omega)]
    simp [hcount]
  · omega
  · omega

theorem fits_run (hash : List Fp → Fp) (verify : Verify) {s : Pool} (hempty : s.tree = {})
    (calls : List Call) : Fits (notes hash verify s calls) (reached hash verify s calls).tree :=
  run_induct Fits.append (hempty ▸ ⟨rfl, Nat.le_refl 0, Nat.zero_le _⟩) calls

/-- The root is that of the tree, or in the ring with at most `m` entries from it on. -/
def Kept (root : Bytes32) (m : ℕ) (t : CommitmentTree) : Prop :=
  root = t.root ∨ ∃ c < t.rootHistoryCount.toNat, t.rootHistoryCount.toNat ≤ c + m ∧
    t.rootHistory (BitVec.ofNat 64 (c % 256)) = root

theorem Kept.append {m : ℕ} (hm : m < 256) (hroot : root ≠ 0)
    (hlt : t.rootHistoryCount.toNat + 1 < 2 ^ 64) (h : Kept root m t) :
    Kept root (m + 1) (t.append hash cm block) := by
  right
  rcases append_ring hash cm block hlt with
    ⟨hzero, hring, hcount⟩ | ⟨hring, hcount⟩
  · obtain rfl | ⟨c, hc, hle, hval⟩ := h
    · exact absurd hzero hroot
    · exact ⟨c, by omega, by omega, hring ▸ hval⟩
  · rw [hring, hcount]
    obtain rfl | ⟨c, hc, hle, hval⟩ := h
    · exact ⟨_, Nat.lt_succ_self _, by omega, Function.update_self ..⟩
    · -- fewer than 256 later entries do not come round to its slot
      refine ⟨c, by omega, by omega, ?_⟩
      rw [Function.update_of_ne (mt (ofNat_inj (by omega) (by omega)).1 (by omega)), hval]

theorem Kept.valid {m : ℕ} (hm : m ≤ 256) (h : Kept root m t) : t.isValidRoot root := by
  unfold isValidRoot
  split_ifs with heq
  · rfl
  · obtain rfl | ⟨c, hc, hle, hval⟩ := h
    · exact absurd rfl heq
    · rw [List.any_eq_true]
      unfold maxRootHistory
      generalize t.rootHistoryCount.toNat = n at hc hle
      by_cases hfull : n ≤ 256
      · exact ⟨c, by simp; omega, by simp [hfull, ← hval, Nat.mod_eq_of_lt (hc.trans_le hfull)]⟩
      · refine ⟨c - (n - 256), by simp; omega, ?_⟩
        simp only [if_neg hfull, ← hval]
        rw [show n - 256 + (c - (n - 256)) = c by omega, decide_eq_true rfl]

end Ring

/-! ### The nodes -/

abbrev treeNode (hash : List Fp → Fp) (leaf : ℕ → Bytes32) : ℕ → ℕ → Bytes32 :=
  Merkle.node (poseidonHashPair hash) leaf

theorem emptyHash_eq : ∀ l, emptyHash hash l = empty (poseidonHashPair hash) 0 l
  | 0 => rfl
  | l + 1 => by rw [emptyHash, empty, emptyHash_eq l]

theorem ofNat_shiftRight {m : ℕ} (hm : m < 2 ^ 64) :
    BitVec.ofNat 64 m >>> 1 = BitVec.ofNat 64 (m / 2) := by
  apply BitVec.eq_of_toNat_eq
  simp only [BitVec.toNat_ushiftRight, BitVec.toNat_ofNat, Nat.shiftRight_eq_div_pow]
  omega

/-- The table has the nodes left of the last leaf, and below level `l` those above it. -/
def Stored (hash : List Fp → Fp) (leaf : ℕ → Bytes32) (n l : ℕ) (table : ℕ → U64 → Bytes32) : Prop :=
  ∀ k < 32, ∀ i, i < n / 2 ^ k ∨ k < l ∧ i = n / 2 ^ k →
    table k (BitVec.ofNat 64 i) = treeNode hash leaf k i

section Insert

variable (hn : n < 2 ^ 64)
include hn

theorem Stored.update {l : ℕ} {table : ℕ → U64 → Bytes32} (h : Stored hash leaf n l table) :
    Stored hash leaf n (l + 1) (Function.update table l (Function.update (table l)
      (BitVec.ofNat 64 (n / 2 ^ l)) (treeNode hash leaf l (n / 2 ^ l)))) := by
  intro k hk i hi
  have hm : n / 2 ^ k < 2 ^ 64 := (Nat.div_le_self _ _).trans_lt hn
  by_cases hl : k = l
  · subst hl
    rw [Function.update_self]
    by_cases heq : i = n / 2 ^ k
    · rw [heq, Function.update_self]
    · rw [Function.update_of_ne (mt (ofNat_inj (by omega) hm).1 heq)]
      exact h k hk i (.inl (by omega))
  · rw [Function.update_of_ne hl]
    exact h k hk i (by omega)

/-- The loop stores the nodes above the last leaf and ends with the root. -/
theorem insertLevels_spec (he : ∀ i, n < i → leaf i = 0) :
    ∀ {fuel l : ℕ} {table : ℕ → U64 → Bytes32}, l + fuel = 32 → Stored hash leaf n l table →
      let out := insertLevels hash fuel l (BitVec.ofNat 64 (n / 2 ^ l))
        (treeNode hash leaf l (n / 2 ^ l)) table
      out.2 = treeNode hash leaf 32 (n / 2 ^ 32) ∧ Stored hash leaf n 32 out.1
  | 0, l, table, hl, hs => by
    obtain rfl : l = 32 := hl
    exact ⟨rfl, hs⟩
  | fuel + 1, l, table, hl, hs => by
    have hm : n / 2 ^ l < 2 ^ 64 := (Nat.div_le_self _ _).trans_lt hn
    have hs' := hs.update hn
    have hleft := hs' l (by omega) (n / 2 ^ l - 1)
    have hpar : (if BitVec.ofNat 64 (n / 2 ^ l) &&& 1 = 0
        then poseidonHashPair hash (treeNode hash leaf l (n / 2 ^ l)) (emptyHash hash l)
        else poseidonHashPair hash (Function.update table l (Function.update (table l)
          (BitVec.ofNat 64 (n / 2 ^ l)) (treeNode hash leaf l (n / 2 ^ l))) l
            (BitVec.ofNat 64 (n / 2 ^ l) - 1)) (treeNode hash leaf l (n / 2 ^ l))) =
        treeNode hash leaf (l + 1) (n / 2 ^ (l + 1)) := by
      have hand : BitVec.ofNat 64 (n / 2 ^ l) &&& 1 = 0 ↔ n / 2 ^ l % 2 = 0 := by
        rw [← BitVec.toNat_inj]
        simp [Nat.and_one_is_mod]
      rw [treeNode, node_succ_div he l, emptyHash_eq]
      generalize n / 2 ^ l = m at hleft hand ⊢
      simp only [hand]
      split_ifs with heven
      · rfl
      · have hsub : BitVec.ofNat 64 m - 1 = BitVec.ofNat 64 (m - 1) :=
          BitVec.ofNat_sub_ofNat_of_le m 1 (by decide) (by omega)
        rw [hsub, hleft (by omega)]
    rw [insertLevels, ofNat_shiftRight hm, ← div_succ]
    dsimp only
    rw [hpar]
    exact insertLevels_spec he (by omega) hs'

end Insert

theorem grow_spec {cms : List Bytes32} (hlen : cms.length ≤ 2 ^ 32) :
    Stored hash (cms.getD · 0) cms.length 0 (grow hash cms).node ∧
      (grow hash cms).count = BitVec.ofNat 64 cms.length ∧
      (cms ≠ [] → (grow hash cms).root = treeNode hash (cms.getD · 0) 32 0) := by
  induction cms using List.reverseRecOn with
  | nil => exact ⟨fun k _ i hi => by simp at hi, rfl, fun h => absurd rfl h⟩
  | append_singleton cms cm ih =>
    rw [List.length_append, List.length_singleton] at hlen ⊢
    obtain ⟨hsto, hcount, -⟩ := ih (by omega)
    have hold : Stored hash ((cms ++ [cm]).getD · 0) cms.length 0 (grow hash cms).node := by
      intro k hk i hi
      rw [hsto k hk i hi, getD_concat, treeNode, treeNode, node_update_of_ne (by omega)]
    have hspec := insertLevels_spec (show cms.length < 2 ^ 64 by omega)
      (fun i hi => by grind) (Nat.zero_add 32) hold
    have hcm : treeNode hash ((cms ++ [cm]).getD · 0) 0 cms.length = cm := by simp [Merkle.node]
    rw [pow_zero, Nat.div_one, ← hcount, hcm, Nat.div_eq_of_lt (by omega)] at hspec
    rw [grow_append]
    refine ⟨fun k hk i hi => ?_, ?_, fun _ => hspec.1⟩
    · rw [node_append]
      refine hspec.2 k hk i ?_
      rw [Nat.succ_div] at hi
      split_ifs at hi <;> omega
    · rw [count_append, hcount, BitVec.ofNat_add]
      rfl

/-- Each commitment has a path that `verify_poseidon_proof` accepts. -/
def Opens (hash : List Fp → Fp) (root : Bytes32) (cms : List Bytes32) : Prop :=
  ∀ cm ∈ cms, ∃ path : List (Bytes32 × Bool),
    path.length = 32 ∧ verifyPoseidonProof hash root cm path = true

/-- **Valid roots have paths.** In every run from the empty tree, a root that the pool takes is
that of the tree of the commitments up to some one, and each of them has a path of 32 siblings to
it. -/
theorem valid_root_has_paths (verify : Verify) (s : Pool) (calls : List Call)
    (hempty : s.tree = {}) {root : Bytes32}
    (hvalid : (reached hash verify s calls).tree.isValidRoot root) :
    ∃ earlier : List Bytes32, earlier <+: notes hash verify s calls ∧
      (earlier = [] ∧ root = 0 ∨ root = treeNode hash (earlier.getD · 0) 32 0) ∧
      Opens hash root earlier := by
  obtain ⟨earlier, hpre, rfl⟩ := (grown_run hempty).valid hvalid
  have hle : earlier.length ≤ 2 ^ 32 := by
    have hroom := (fits_run hash verify hempty calls).room
    have hlen := hpre.length_le
    omega
  refine ⟨earlier, hpre, ?_, fun cm hcm => ?_⟩
  · by_cases hnil : earlier = []
    · subst hnil
      exact .inl ⟨rfl, rfl⟩
    · exact .inr ((grow_spec hle).2.2 hnil)
  · obtain ⟨i, hlt, hi⟩ := List.getElem_of_mem hcm
    refine ⟨siblings (poseidonHashPair hash) (earlier.getD · 0) 32 0 i, length_siblings, ?_⟩
    have hclimb := climb_siblings (h := poseidonHashPair hash) (earlier.getD · 0) 32 0 i
    rw [Nat.div_eq_of_lt (by omega)] at hclimb
    rw [(grow_spec hle).2.2 (List.ne_nil_of_mem hcm)]
    refine decide_eq_true (Eq.trans ?_ hclimb)
    rw [Merkle.node, List.getD_eq_getElem _ _ hlt, hi]
    rfl

theorem root_of_two_deposits_has_paths : ∃ earlier : List Bytes32,
    earlier <+: notes List.sum noteVerifier fundedPool [depositOf 5, depositOf 6] ∧
      (earlier = [] ∧ (11 : Bytes32) = 0 ∨ 11 = treeNode List.sum (earlier.getD · 0) 32 0) ∧
      Opens List.sum 11 earlier :=
  valid_root_has_paths noteVerifier fundedPool [depositOf 5, depositOf 6] rfl (by decide +kernel)

/-- **A root stays valid.** A root that is not zero stays valid for the next 256 insertions,
whatever calls make them. -/
theorem root_stays_valid (verify : Verify) (s : Pool) (calls later : List Call)
    (hempty : s.tree = {}) (hroot : (reached hash verify s calls).tree.root ≠ 0)
    (hlen : (notes hash verify (reached hash verify s calls) later).length ≤ 256) :
    (reached hash verify (reached hash verify s calls) later).tree.isValidRoot
      (reached hash verify s calls).tree.root := by
  have hfits := fits_run hash verify hempty calls
  generalize reached hash verify s calls = s₁ at *
  generalize notes hash verify s calls = old at *
  let P (cms : List Bytes32) (t : CommitmentTree) : Prop :=
    Fits (old ++ cms) t ∧ (cms.length ≤ 256 → Kept s₁.tree.root cms.length t)
  have hrun : P (notes hash verify s₁ later) (reached hash verify s₁ later).tree := by
    refine run_induct (fun {cms t cm block} hroom h => ?_)
      ⟨by simpa using hfits, fun _ => .inl rfl⟩ later
    obtain ⟨hfit, hkept⟩ := h
    refine ⟨by simpa using hfit.append hroom, fun hle => ?_⟩
    rw [List.length_append, List.length_singleton] at hle ⊢
    refine (hkept (by omega)).append (by omega) hroot ?_
    have hring := hfit.ring
    have hmax := hfit.room
    omega
  exact (hrun.2 hlen).valid hlen

theorem root_after_second_deposit : (reached List.sum noteVerifier
      (reached List.sum noteVerifier fundedPool [depositOf 5]) [depositOf 6]).tree.isValidRoot
    (reached List.sum noteVerifier fundedPool [depositOf 5]).tree.root :=
  root_stays_valid noteVerifier fundedPool [depositOf 5] [depositOf 6] rfl (by decide +kernel)
    (by decide +kernel)

end Callchain.Shielded

/-
# What pruning keeps

Pruning is to keep the headers at the anchor and at the finalized block. The one that
`advance_anchor` does keeps them, but the hash of the new anchor is the caller's and is
not compared with the header. `prune_headers` keeps what is above the lower of the two
numbers, and no less than the caller asks.
-/
import Callchain.LightClient.Chain

namespace Callchain.LightClient

open Run EthLightClient

variable {keccak : Bytes → B256} {s : EthLightClient}

/-- The blocks whose headers pruning is to keep. -/
def EthLightClient.Protected (s : EthLightClient) (n : ℕ) : Prop :=
  n = s.genesis.anchorBlock ∨ ∃ hash, s.finalizedBlock = some (n, hash)

/-- What is asked of a call: the new anchor has the hash it was given, and the
headers of the protected blocks stay where headers are pruned. -/
def PrunesWell (s : EthLightClient) : HeaderOp → Prop
  | .advanceAnchor block hash => ∀ t, s.advanceAnchor block hash = .ok t →
    (t.verifiedHeaders block).map (·.blockHash) = some hash ∧
      ∀ n, t.Protected n → t.verifiedHeaders n = s.verifiedHeaders n
  | .pruneHeaders beforeBlock => ∀ n, s.Protected n →
    (s.pruneHeaders beforeBlock).verifiedHeaders n = s.verifiedHeaders n
  | _ => True

/-- An anchor that can be set has the hash of the stored header; and headers are pruned
from below a protected block that is stored, and only if it is above the other one (or
at `u64::MAX`, where the sum wraps). -/
def PruneGuard (s : EthLightClient) : HeaderOp → Prop
  | .advanceAnchor block hash => ∀ h, s.verifiedHeaders block = some h →
    s.isConsensusVerified block = false → h.blockHash = hash
  | .pruneHeaders beforeBlock => ∀ n, s.Protected n → s.Stored n →
    beforeBlock ≤ n ∧ (s.minKeep + 1) % 2 ^ 64 ≤ n
  | _ => True

theorem EthLightClient.Protected.minKeep_le {n : ℕ} (h : s.Protected n) : s.minKeep ≤ n := by
  unfold EthLightClient.minKeep
  rcases h with rfl | ⟨hash, hf⟩
  · exact min_le_left _ _
  · rw [hf]
    exact min_le_right _ _

theorem retainFrom_eq_iff {m n : ℕ} :
    (s.retainFrom m).verifiedHeaders n = s.verifiedHeaders n ↔ (s.Stored n → m ≤ n) := by
  simp only [EthLightClient.retainFrom]
  by_cases hm : m ≤ n
  · simp [hm]
  · cases hn : s.verifiedHeaders n with
    | none => simp [EthLightClient.Stored, hn]
    | some => simp [EthLightClient.Stored, hn, hm]

theorem advanceAnchor_eq_ok {t : EthLightClient} {block : ℕ} {hash : B256} :
    s.advanceAnchor block hash = .ok t ↔ s.Stored block ∧ s.isConsensusVerified block = false ∧
      t = (s.setAnchor block hash).retainFrom (s.setAnchor block hash).minKeep := by
  unfold EthLightClient.advanceAnchor EthLightClient.Stored EthLightClient.isConsensusVerified
  cases hv : s.verifiedHeaders block with
  | none => simp
  | some =>
    cases hf : s.finalizedBlock with
    | none => simp [eq_comm]
    | some f => by_cases hb : block ≤ f.1 <;> simp [Option.filter, hb, eq_comm]

theorem setAnchor_kept {block n : ℕ} {hash : B256} (h : (s.setAnchor block hash).Protected n) :
    ((s.setAnchor block hash).retainFrom (s.setAnchor block hash).minKeep).verifiedHeaders n =
      s.verifiedHeaders n :=
  retainFrom_eq_iff.2 fun _ => EthLightClient.Protected.minKeep_le h

theorem prunesWell_iff (s : EthLightClient) (op : HeaderOp) : PrunesWell s op ↔ PruneGuard s op := by
  cases op with
  | advanceAnchor block hash =>
    have hkept : ((s.setAnchor block hash).retainFrom (s.setAnchor block hash).minKeep).verifiedHeaders
        block = s.verifiedHeaders block := setAnchor_kept (Or.inl rfl)
    constructor
    · intro hwell h hh hopen
      obtain ⟨hhash, -⟩ := hwell _ (advanceAnchor_eq_ok.2 ⟨⟨h, hh⟩, hopen, rfl⟩)
      rw [hkept, hh] at hhash
      exact Option.some.inj hhash
    · intro hgua t ht
      obtain ⟨⟨h, hh⟩, hopen, rfl⟩ := advanceAnchor_eq_ok.1 ht
      refine ⟨?_, fun n hn => setAnchor_kept hn⟩
      rw [hkept, hh, Option.map_some, hgua h hh hopen]
  | pruneHeaders =>
    refine forall₂_congr fun n _ => ?_
    rw [EthLightClient.pruneHeaders, retainFrom_eq_iff, max_le_iff]
  | submitHeader _ | handleReorg _ | setFinalizedBlock _ _ => exact Iff.rfl

/-- **Pruning keeps the anchor.** In every run each call does what is asked of it exactly if it is
guarded in the state that it meets. -/
theorem pruned_runs_iff (keccak : Bytes → B256) (s : EthLightClient) (ops : List HeaderOp) :
    Along (headerStep keccak) PrunesWell s ops ↔ Along (headerStep keccak) PruneGuard s ops := by
  have hsame : PrunesWell = PruneGuard :=
    funext fun s => funext fun op => propext (prunesWell_iff s op)
  rw [hsame]

def anchored : EthLightClient := .init ⟨7, 5, 0⟩

theorem anchor_lost :
    ¬ PrunesWell anchored (.advanceAnchor 5 8) ∧ ¬ PrunesWell anchored (.pruneHeaders 0) := by
  constructor
  · intro h
    obtain ⟨hhash, -⟩ := h _ (advanceAnchor_eq_ok.2 ⟨⟨_, rfl⟩, rfl, rfl⟩)
    exact absurd hhash (by decide)
  · intro h
    exact absurd (h 5 (Or.inl rfl)) (by decide)

end Callchain.LightClient

/-
# The finalized block and the header chain

The finalized block is a number and a hash that `set_finalized_block` stores and that
nothing compares with the verified headers. Where the hash is that of the header kept at
the number, every header at or below it is on the chain that ends in the hash, and no
submission touches it.
-/
import Callchain.LightClient.Chain

namespace Callchain.LightClient

open Run EthLightClient

variable {keccak : Bytes → B256} {s : EthLightClient}

def FinalInv (s : EthLightClient) : Prop :=
  ∀ n hash b, s.finalizedBlock = some (n, hash) → b ≤ n → s.Stored b →
    ∃ h, s.verifiedHeaders n = some h ∧ h.blockHash = hash

/-- The header at `b` and the `k` above it are linked, and the last has the hash. -/
def OnChain (keccak : Bytes → B256) (s : EthLightClient) : ℕ → ℕ → B256 → Prop
  | 0, b, hash => ∃ h, s.verifiedHeaders b = some h ∧ h.blockHash = hash
  | k + 1, b, hash => ∃ h g, s.verifiedHeaders b = some h ∧ s.verifiedHeaders (b + 1) = some g ∧
    Linked keccak b h g ∧ OnChain keccak s k (b + 1) hash

theorem ChainInv.onChain (hI : ChainInv keccak s) {n : ℕ} {last : EthHeader}
    (hn : s.verifiedHeaders n = some last) : ∀ (k b : ℕ), b + k = n → s.Stored b →
      OnChain keccak s k b last.blockHash
  | 0, b, hbn, _ => by
    obtain rfl : b = n := by omega
    exact ⟨last, hn, rfl⟩
  | k + 1, b, hbn, ⟨h, hh⟩ => by
    obtain ⟨g, hg⟩ := hI.interval b (b + 1) n ⟨h, hh⟩ ⟨last, hn⟩ (by omega) (by omega)
    exact ⟨h, g, hh, hg, hI.linked b h g hh hg, hI.onChain hn k (b + 1) (by omega) ⟨g, hg⟩⟩

theorem insertHeader_kept {n b : ℕ} {h g : EthHeader} (hfree : s.verifiedHeaders n = none)
    (hb : s.verifiedHeaders b = some g) : (s.insertHeader n h).verifiedHeaders b = some g := by
  have hne : b ≠ n := by
    rintro rfl
    rw [hfree] at hb
    exact absurd hb (by simp)
  exact (insertAt_of_ne h hne).trans hb

theorem FinalInv.insert (hF : FinalInv s) {n : ℕ} {h : EthHeader}
    (hfree : s.verifiedHeaders n = none) (hbel : s.Stored (n - 1)) :
    FinalInv (s.insertHeader n h) := by
  intro m hash b hfin hbm ⟨g, hg⟩
  have hold : ∃ b' ≤ m, s.Stored b' := by
    by_cases hbn : b = n
    · exact ⟨n - 1, by omega, hbel⟩
    · exact ⟨b, hbm, g, (insertAt_of_ne h hbn).symm.trans hg⟩
  obtain ⟨b', hb'm, hb'⟩ := hold
  obtain ⟨f, hf, hhash⟩ := hF m hash b' hfin hb'm hb'
  exact ⟨f, insertHeader_kept hfree hf, hhash⟩

theorem FinalInv.retainFrom (hF : FinalInv s) (n : ℕ) : FinalInv (s.retainFrom n) := by
  intro m hash b hfin hbm ⟨g, hg⟩
  obtain ⟨hnb, hg'⟩ := retainFrom_some.1 hg
  obtain ⟨f, hf, hhash⟩ := hF m hash b hfin hbm ⟨g, hg'⟩
  exact ⟨f, retainFrom_some.2 ⟨by omega, hf⟩, hhash⟩

theorem flushBuffer_final (hI : ChainInv keccak s) (hB : BufferLinked keccak s)
    (hF : FinalInv s) : FinalInv s.flushBuffer := by
  have h := flushBuffer_induction
    (P := fun s' => ChainInv keccak s' ∧ BufferLinked keccak s' ∧ FinalInv s')
    (fun s' n h ⟨hI, hB, hF⟩ hnext => by
      refine ⟨hI.takeBuffered hB hnext, hB.takeBuffered hI hnext, ?_⟩
      rcases takeBuffered_cases hI hB hnext with he | ⟨p, hfree, hp, -, he⟩
      · rw [he]
        exact hF
      · rw [he]
        have hF' : FinalInv (s'.dropBuffered n) := hF
        exact hF'.insert hfree ⟨p, hp⟩)
    ⟨hI, hB, hF⟩
  exact h.2.2

/-- The condition on a call: that of the chain, and a finalized hash is that of
the header kept at the number, if any header is kept at or below it. -/
def FinalSound (keccak : Bytes → B256) (s : EthLightClient) : HeaderOp → Prop
  | .setFinalizedBlock n hash => (∃ b ≤ n, s.Stored b) →
    ∃ h, s.verifiedHeaders n = some h ∧ h.blockHash = hash
  | op => Sound keccak s op

theorem FinalSound.sound {op : HeaderOp} (h : FinalSound keccak s op) : Sound keccak s op := by
  cases op with
  | submitHeader | handleReorg => exact h
  | _ => trivial

def HeaderOp.IsSubmission : HeaderOp → Prop
  | .submitHeader _ | .handleReorg _ => True
  | _ => False

theorem exists_finalized {b : ℕ} (h : s.isConsensusVerified b = true) :
    ∃ n hash, s.finalizedBlock = some (n, hash) ∧ b ≤ n := by
  unfold isConsensusVerified at h
  cases hfin : s.finalizedBlock with
  | none => rw [hfin] at h; simp at h
  | some f => rw [hfin] at h; exact ⟨f.1, f.2, rfl, by simpa using h⟩

theorem reorg_final (hI : ChainInv keccak s) (hF : FinalInv s) {h : EthHeader} {n fork : ℕ}
    {parentHash : B256} (hr : ReorgLinked keccak s h) (hn : h.number = .ok n)
    (hp : h.parentHash = .ok parentHash) (hf : s.forkPoint parentHash = some fork)
    (hopen : s.isConsensusVerified fork = false) : FinalInv ((s.unwind fork).insertHeader n h) ∧
      ∀ b g, s.isConsensusVerified b = true → s.verifiedHeaders b = some g →
        ((s.unwind fork).insertHeader n h).verifiedHeaders b = some g := by
  obtain ⟨-, hlt, hfree, p, -, hp', -⟩ := hr.unwound hn hp hf hopen hI
  have hv := unwind_verifiedHeaders hI hlt
  have hbel : ∀ m hash, s.finalizedBlock = some (m, hash) → m < fork := by
    intro m hash hfin
    simpa [isConsensusVerified, hfin] using hopen
  have hF' : FinalInv (s.unwind fork) := by
    rintro m hash b hfin hbm ⟨g, hg⟩
    have hm := hbel m hash hfin
    rw [hv, if_pos (by omega)] at hg
    obtain ⟨f, hf', hhash⟩ := hF m hash b hfin hbm ⟨g, hg⟩
    exact ⟨f, by rw [hv, if_pos (by omega), hf'], hhash⟩
  refine ⟨hF'.insert hfree ⟨p, hp'⟩, fun b g hb hg => ?_⟩
  apply insertHeader_kept hfree
  obtain ⟨m, hash, hfin, hbm⟩ := exists_finalized hb
  have hm := hbel m hash hfin
  rw [hv, if_pos (by omega), hg]

theorem FinalInv.step (hI : ChainInv keccak s) (hF : FinalInv s) {op : HeaderOp}
    (hs : FinalSound keccak s op) : FinalInv (headerStep keccak s op) ∧
      (op.IsSubmission → ∀ b g, s.isConsensusVerified b = true → s.verifiedHeaders b = some g →
        (headerStep keccak s op).verifiedHeaders b = some g) := by
  have heff := HeaderEffect.of_step keccak s op
  generalize headerStep keccak s op = s' at heff
  cases heff with
  | failed | buffered => exact ⟨hF, fun _ b g _ hg => hg⟩
  | @inserted h p n number above free stored links hash =>
    have hn : n - 1 + 1 = n := by omega
    have hI' := hI.insert free stored ⟨by rw [hn]; exact number, hash, links⟩
    have hF' : FinalInv (s.insertHeader n h) := hF.insert free ⟨p, stored⟩
    exact ⟨flushBuffer_final hI' ((hs n p number stored).1 links) hF',
      fun _ b g _ hg => flushBuffer_kept (insertHeader_kept free hg)⟩
  | @reorgSubmitted h p n fork parentHash number stored parentOk differs found open_ =>
    have hr : ReorgLinked keccak s h := (hs n p number stored).2 fun he => by
      rw [parentOk, Except.ok.injEq] at he
      exact differs he
    exact absurd (hr.not_differs number parentOk found open_ stored) differs
  | @reorged h n fork parentHash number parentOk found open_ =>
    obtain ⟨hF', hkept⟩ := reorg_final hI hF hs number parentOk found open_
    exact ⟨hF', fun _ => hkept⟩
  | finalized n hash =>
    refine ⟨fun m hash' b hfin hbm hb => ?_, fun hsub => absurd hsub (by simp [HeaderOp.IsSubmission])⟩
    obtain ⟨rfl, rfl⟩ : n = m ∧ hash = hash' := by
      simpa [setFinalizedBlock] using hfin
    exact hs ⟨b, hbm, hb⟩
  | @advanced block hash n =>
    have hF' : FinalInv (s.setAnchor block hash) := hF
    exact ⟨hF'.retainFrom n, fun hsub => absurd hsub (by simp [HeaderOp.IsSubmission])⟩
  | pruned _ n =>
    exact ⟨hF.retainFrom n, fun hsub => absurd hsub (by simp [HeaderOp.IsSubmission])⟩

/-- **Finality.** Along every run whose calls all meet the condition, a header that counts as
consensus-verified is on the chain that ends in the finalized hash, and a further submission that
meets the condition leaves it in place. -/
theorem finalized_on_chain (genesis : GenesisState) (ops : List HeaderOp)
    (h : Along (headerStep keccak) (FinalSound keccak) (.init genesis) ops) :
    (∀ b, (run (headerStep keccak) (.init genesis) ops).isConsensusVerified b = true →
      (run (headerStep keccak) (.init genesis) ops).Stored b →
      ∃ n hash, (run (headerStep keccak) (.init genesis) ops).finalizedBlock = some (n, hash) ∧
        b ≤ n ∧ OnChain keccak (run (headerStep keccak) (.init genesis) ops) (n - b) b hash) ∧
    ∀ op : HeaderOp, op.IsSubmission →
      FinalSound keccak (run (headerStep keccak) (.init genesis) ops) op → ∀ b hd,
      (run (headerStep keccak) (.init genesis) ops).isConsensusVerified b = true →
      (run (headerStep keccak) (.init genesis) ops).verifiedHeaders b = some hd →
      (run (headerStep keccak) (.init genesis) (ops ++ [op])).verifiedHeaders b = some hd := by
  have hinv : ChainInv keccak (run (headerStep keccak) (.init genesis) ops) ∧
      FinalInv (run (headerStep keccak) (.init genesis) ops) :=
    invariant (I := fun s => ChainInv keccak s ∧ FinalInv s)
      (fun s op hs hsou => ⟨hs.1.step hsou.sound, (hs.2.step hs.1 hsou).1⟩) h
      ⟨chainInv_init genesis, fun n hash b hfin => by
        simp [init, initWithBeaconConfig] at hfin⟩
  simp only [run_append, run_cons, run_nil]
  generalize run (headerStep keccak) (.init genesis) ops = s at *
  obtain ⟨hI, hF⟩ := hinv
  refine ⟨fun b hb hst => ?_, fun op hsub hs => (hF.step hI hs).2 hsub⟩
  obtain ⟨n, hash, hfin, hbn⟩ := exists_finalized hb
  obtain ⟨last, hlast, hhash⟩ := hF n hash b hfin hbn hst
  refine ⟨n, hash, hfin, hbn, ?_⟩
  rw [← hhash]
  exact hI.onChain hlast (n - b) b (by omega) hst

theorem finalized_on_chain_over_gap :
    OnChain plainHash (run (headerStep plainHash) (.init anchorZero)
      [.submitHeader secondHeader, .submitHeader firstHeader,
        .setFinalizedBlock 2 secondHeader.blockHash]) 2 0 secondHeader.blockHash := by
  obtain ⟨hsecond, hfirst, -⟩ := gapClosed_sound
  have h2 : (run (headerStep plainHash) (.init anchorZero) gapClosed).verifiedHeaders 2 =
      some secondHeader := by decide
  have hsound : Along (headerStep plainHash) (FinalSound plainHash) (.init anchorZero)
      [.submitHeader secondHeader, .submitHeader firstHeader,
        .setFinalizedBlock 2 secondHeader.blockHash] :=
    ⟨hsecond, hfirst, fun _ => ⟨secondHeader, h2, rfl⟩, trivial⟩
  obtain ⟨n, hash, hfin, -, hcha⟩ := (finalized_on_chain anchorZero _ hsound).1 0 (by decide)
    ⟨⟨[], 5⟩, by decide⟩
  obtain ⟨rfl, rfl⟩ : 2 = n ∧ secondHeader.blockHash = hash := by
    simpa [headerStep, setFinalizedBlock] using hfin
  exact hcha

def lowHeader : EthHeader := ⟨headerRlp firstHeader.blockHash 0, 9⟩

/-- Any hash can be finalized at the number of a verified header, and a
reorganisation above the true finalized block replaces it. -/
theorem finalized_header_differs : ((run (headerStep plainHash) (.init anchorZero)
        [.submitHeader firstHeader, .setFinalizedBlock 1 0]).isConsensusVerified 1 = true ∧
      (run (headerStep plainHash) (.init anchorZero)
        [.submitHeader firstHeader, .setFinalizedBlock 1 0]).verifiedHeaders 1 = some firstHeader ∧
      firstHeader.blockHash ≠ 0) ∧ ((run (headerStep plainHash) (.init anchorZero)
        [.submitHeader firstHeader, .setFinalizedBlock 0 5]).isConsensusVerified 0 = true ∧
      (run (headerStep plainHash) (.init anchorZero)
        [.submitHeader firstHeader, .setFinalizedBlock 0 5]).verifiedHeaders 0 = some ⟨[], 5⟩ ∧
      (run (headerStep plainHash) (.init anchorZero)
        [.submitHeader firstHeader, .setFinalizedBlock 0 5, .handleReorg lowHeader]).verifiedHeaders
        0 = some lowHeader) := by
  refine ⟨⟨by decide, by decide, by decide⟩, by decide, by decide, by decide⟩

end Callchain.LightClient

/-
# A source transaction credited twice

The mark that a source transaction has been processed is the height of the deposit, and
`is_processed` counts it for the retention period only; a height of zero is no mark. No
call takes the mark away, and a deposit that finds one only succeeds above it, so two
credits of one source transaction are more than a retention period apart, unless the
first was made at height zero (`redeposit_after_retention`).
-/
import Callchain.Bridge.Calls
import Callchain.Lib.Run

namespace Callchain.Bridge
namespace Precompile

open LightClient Asset Validator Run

/-- The source transaction that a successful deposit credits, and the block. -/
def credited (B : Build) (s : Store) (call : BridgeCall) : List (B256 × U64) :=
  match call with
  | .externalDeposit _ _ sourceTxHash _ _ _ _ blockHeight =>
    if (exec B s call).2.isOk then [(sourceTxHash, blockHeight)] else []
  | _ => []

/-- With a retention of `r` blocks, the source transaction may be credited at
the height: it has no mark, or one that has lapsed. -/
def MayCredit (r : ℕ) (s : Store) (d : B256 × U64) : Prop :=
  s.bridge.processed d.1 = 0 ∨ r < d.2.toNat - (s.bridge.processed d.1).toNat

variable {B : Build} {reverting : Bool} {s t : Store} {call : BridgeCall}

theorem isProcessed_eq_false {b : BridgeStorage} {txHash : B256} {now : U64} :
    b.isProcessed txHash now = false ↔ b.processed txHash = 0 ∨
      b.readProcessedRetentionBlocks.toNat < now.toNat - (b.processed txHash).toNat := by
  unfold BridgeStorage.isProcessed
  dsimp only
  split_ifs with h
  · exact iff_of_true rfl (Or.inl h)
  · rw [decide_eq_false_iff_not, not_le]
    exact ⟨Or.inr, fun hor => hor.resolve_left h⟩

theorem checkDeposit_mayCredit {sourceChain : U64} {origin : Address} {src : B256} {aid : U64}
    {recipient : Address} {amount : U128} {height : U64} {p : U64 × U128}
    (h : checkDeposit s sourceChain origin src aid recipient amount height = .ok p) :
    MayCredit s.bridge.readProcessedRetentionBlocks.toNat s (src, height) := by
  unfold checkDeposit at h
  cases hp : s.bridge.isProcessed src height with
  | true =>
    rw [hp] at h
    simp only [↓reduceIte] at h
    split_ifs at h
  | false => exact isProcessed_eq_false.1 hp

theorem Effect.processed (h : Effect B s call t (.ok ())) :
    t.bridge.processed = s.bridge.processed ∨
      ∃ d, MayCredit s.bridge.readProcessedRetentionBlocks.toNat s d ∧
        t.bridge.processed = Function.update s.bridge.processed d.1 d.2 := by
  cases h with
  | deposited hche _ _ htot =>
    obtain ⟨-, rfl⟩ := addTotalDeposits_eq_ok.1 htot
    exact .inr ⟨(_, _), checkDeposit_mayCredit hche, rfl⟩
  | withdrawn _ _ _ htot =>
    obtain ⟨-, rfl⟩ := addTotalWithdrawals_eq_ok.1 htot
    exact .inl (recordWithdrawUsed_frame ..).2
  | upheld _ _ _ _ htot =>
    obtain ⟨-, rfl⟩ := subTotalDeposits_eq_ok.1 htot
    exact .inl rfl
  | _ => exact .inl rfl

theorem mem_credited (reverting : Bool) {d : B256 × U64} (h : d ∈ credited B s call) :
    MayCredit s.bridge.readProcessedRetentionBlocks.toNat s d ∧
      (step B reverting s call).bridge.processed d.1 = d.2 := by
  cases call with
  | externalDeposit sourceChain sourceContract sourceTxHash assetId recipient amount validator
      blockHeight =>
    unfold credited at h
    split_ifs at h with hok
    swap
    · cases h
    obtain rfl := List.mem_singleton.1 h
    rcases step_effect B reverting s (.externalDeposit sourceChain sourceContract sourceTxHash
      assetId recipient amount validator blockHeight) with ⟨-, hfail⟩ | heff
    · rw [hok] at hfail
      cases hfail
    generalize step B reverting s _ = t at heff
    cases heff with
    | deposited hche =>
      exact ⟨checkDeposit_mayCredit hche, Function.update_self ..⟩
  | _ => cases h

theorem mayCredit_of_step {r : ℕ} {d : B256 × U64}
    (hr : s.bridge.readProcessedRetentionBlocks.toNat = r)
    (h : MayCredit r (step B reverting s call) d) : MayCredit r s d := by
  have hpro : (step B reverting s call).bridge.processed = s.bridge.processed ∨
      ∃ d, MayCredit r s d ∧ (step B reverting s call).bridge.processed =
        Function.update s.bridge.processed d.1 d.2 := by
    rcases step_effect B reverting s call with ⟨hb, -⟩ | heff
    · rw [hb]
      exact .inl rfl
    · rw [← hr]
      exact heff.processed
  rcases hpro with hsame | ⟨d', hmay, hmark⟩
  · rwa [MayCredit, hsame] at h
  · rw [MayCredit, hmark] at h
    by_cases hd : d.1 = d'.1
    · -- the mark was replaced by one above it
      rw [hd, Function.update_self] at h
      rw [MayCredit, hd]
      rcases hmay with hmay | hmay
      · exact .inl hmay
      · rcases h with h | h
        · have hzero : d'.2.toNat = 0 := congrArg BitVec.toNat h
          omega
        · exact .inr (by omega)
    · rwa [Function.update_of_ne hd] at h

/-- **No replay within the retention.** In every run, two credits of one source transaction are
more than the retention period apart, unless the first was made at height zero. -/
theorem redeposit_after_retention (B : Build) (reverting : Bool) (s : Store)
    (calls : List BridgeCall) :
    (collect (step B reverting) (credited B) s calls).Pairwise fun d d' => d.1 = d'.1 → d.2 ≠ 0 →
        s.bridge.readProcessedRetentionBlocks.toNat < d'.2.toNat - d.2.toNat := by
  have hcon : ∀ u : Store, u.bridge.config = s.bridge.config →
      u.bridge.readProcessedRetentionBlocks = s.bridge.readProcessedRetentionBlocks := by
    intro u hu
    rw [BridgeStorage.readProcessedRetentionBlocks, hu]
    rfl
  have halo : Along (step B reverting) (fun u _ => u.bridge.config = s.bridge.config) s calls :=
    along_of_invariant (fun u call hu => (step_config B reverting u call).trans hu) rfl
  refine (collect_pairwise (MayCredit s.bridge.readProcessedRetentionBlocks.toNat)
    ?_ ?_ ?_ ?_ halo).1
  · intro u call _
    unfold credited
    split
    · split_ifs
      · exact List.pairwise_singleton ..
      · exact List.Pairwise.nil
    · exact List.Pairwise.nil
  · intro u call hu d hd
    rw [← hcon u hu]
    exact (mem_credited reverting hd).1
  · intro u call hu d hd d' hlat he hne
    have hmark := (mem_credited reverting hd).2
    rw [MayCredit, ← he, hmark] at hlat
    exact hlat.resolve_left hne
  · intro u call d hu h
    exact mayCredit_of_step (by rw [hcon u hu]) h

def openBridge : Store where
  bridge := { config := { authorizedContract := fun _ _ => 1 } }
  assets := { issuer := fun _ => 1 }

def depositAt (blockHeight : U64) : BridgeCall := .externalDeposit 1 2 7 1 5 100 9 blockHeight

/-- With the default retention, the source transaction is credited again after it. -/
theorem credited_twice : collect (step plainBuild true) (credited plainBuild) openBridge
        [depositAt 1, depositAt 4838402] = [(7, 1), (7, 4838402)] ∧
      (run (step plainBuild true) openBridge
        [depositAt 1, depositAt 4838402]).assets.balance 1 5 = 200 := by
  decide

end Precompile
end Callchain.Bridge

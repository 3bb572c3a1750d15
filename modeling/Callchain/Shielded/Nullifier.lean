/-
# Nullifiers are used once, until they are pruned

A withdrawal or a transfer is accepted only if its nullifiers are not marked as spent,
and marks them. So a nullifier is accepted once (`accepted_nodup`), as long as pruning
finds nothing to prune, which is what `Idle` says of the state before a call. Pruning
takes the mark from a nullifier a note window after it was spent, while its note is
still in the tree, and then it is accepted again (`pruned_spent_again`).
-/
import Callchain.Shielded.Storage

namespace Callchain.Shielded

/-! ### Marking and pruning -/

namespace NullifierSet

variable {ns : NullifierSet} {nullifier x : Bytes32} {nullifiers : List Bytes32} {block : U64}

/-- Pruning at `block` would find nothing to prune: the log is empty, or its
oldest entry has not expired. -/
def Idle (ns : NullifierSet) (block : U64) : Prop := ns.count = 0 ∨ ¬ ns.Expired (ns.log 0) block

instance : Decidable (ns.Idle block) := by unfold Idle; infer_instance

theorem window_pos (ns : NullifierSet) : 0 < ns.window.toNat := by
  unfold window
  split_ifs with h
  · decide
  · exact Nat.pos_of_ne_zero fun h0 => h (BitVec.eq_of_toNat_eq h0)

theorem pruneExpired_of_idle (h : ns.Idle block) : ns.pruneExpired block = (ns, 0) := by
  have hloop : ∀ fuel ≤ ns.count.toNat, pruneLoop block fuel 0 ns = (ns, 0) := by
    intro fuel hfuel
    cases fuel with
    | zero => rfl
    | succ =>
      rcases h with h0 | hne
      · rw [h0] at hfuel
        exact absurd hfuel (by simp)
      · rw [pruneLoop, if_neg hne]
  have hpos : ¬ (0 : U64) > 0 := by decide
  unfold pruneExpired
  rw [hloop _ (min_le_left _ _)]
  simp only [if_neg hpos]

theorem spent_mark : (ns.mark nullifier block).spent x = true ↔ x = nullifier ∨ ns.spent x = true := by
  by_cases h : x = nullifier
  · simp [mark, h]
  · simp [mark, h]

theorem spent_markAll :
    (ns.markAll nullifiers block).spent x = true ↔ x ∈ nullifiers ∨ ns.spent x = true := by
  induction nullifiers generalizing ns with
  | nil => simp [markAll]
  | cons nf nfs ih =>
    have hstep : (ns.markAll (nf :: nfs) block) = (ns.mark nf block).markAll nfs block := rfl
    rw [hstep, ih, spent_mark, List.mem_cons]
    tauto

theorem idle_mark (h : ns.Idle block) : (ns.mark nullifier block).Idle block := by
  right
  rintro ⟨hne, hle⟩
  have hw : (ns.mark nullifier block).window = ns.window := rfl
  have hpos := window_pos ns
  rw [hw] at hle
  by_cases heq : (ns.mark nullifier block).log 0 = nullifier
  · -- the oldest entry is the one marked now
    have hh : (ns.mark nullifier block).height ((ns.mark nullifier block).log 0) = block := by
      rw [heq]
      simp [mark]
    rw [hh] at hle
    omega
  · have hcou : ns.count ≠ 0 := by
      intro h0
      apply heq
      simp [mark, h0]
    have hlog : (ns.mark nullifier block).log 0 = ns.log 0 := Function.update_of_ne hcou.symm _ _
    rw [hlog] at heq hne hle
    have hh : (ns.mark nullifier block).height (ns.log 0) = ns.height (ns.log 0) :=
      Function.update_of_ne heq _ _
    rw [hh] at hne hle
    exact (h.resolve_left hcou) ⟨hne, hle⟩

theorem idle_markAll (h : ns.Idle block) : (ns.markAll nullifiers block).Idle block := by
  induction nullifiers generalizing ns with
  | nil => exact h
  | cons nf nfs ih => exact ih (idle_mark h)

end NullifierSet

/-! ### One call -/

/-- Deposits do not look for expired nullifiers. -/
def Call.prunes (c : Call) : Bool :=
  match c.op with
  | .deposit _ _ _ => false
  | _ => true

/-- A call that prunes finds nothing to prune. -/
def Quiet (s : Pool) (c : Call) : Prop := c.prunes → s.nullifiers.Idle c.block

instance (s : Pool) (c : Call) : Decidable (Quiet s c) := by unfold Quiet; infer_instance

section Step

variable (hash : List Fp → Fp) (verify : Verify) (reverting : Bool) {s : Pool} {c : Call}

/-- A quiet call keeps the nullifiers or marks its own; if it succeeds, they are marked,
and were different and unspent. -/
theorem exec_nullifiers (hqui : Quiet s c) : ((exec hash verify s c).1.nullifiers = s.nullifiers ∨
      (exec hash verify s c).1.nullifiers = s.nullifiers.markAll c.nullifiers c.block) ∧
    ((exec hash verify s c).2.isOk →
      (exec hash verify s c).1.nullifiers = s.nullifiers.markAll c.nullifiers c.block ∧
      c.nullifiers.Nodup ∧ ∀ nf ∈ c.nullifiers, s.nullifiers.spent nf = false) := by
  have heff : Effect hash verify s c (exec hash verify s c) := exec_effect c
  generalize exec hash verify s c = out at heff ⊢
  cases heff with
  | failed h => exact ⟨h, fun h => by cases h⟩
  | deposited hop _ _ hn =>
    rw [Call.nullifiers_deposit hop]
    exact ⟨.inl hn, fun _ => ⟨hn, List.nodup_nil, by simp⟩⟩
  | withdrawn hop _ _ hspe _ hn =>
    have hidle := hqui (by rw [Call.prunes, hop])
    rw [NullifierSet.pruneExpired_of_idle (NullifierSet.idle_markAll hidle)] at hn
    rw [Call.nullifiers_withdraw hop]
    exact ⟨.inr hn, fun _ => ⟨hn, List.nodup_singleton _, by simpa using hspe⟩⟩
  | transferred hop _ _ hnod hspe _ hn =>
    have hidle := hqui (by rw [Call.prunes, hop])
    rw [NullifierSet.pruneExpired_of_idle (NullifierSet.idle_markAll hidle)] at hn
    rw [Call.nullifiers_transfer hop]
    exact ⟨.inr hn, fun _ => ⟨hn, hnod, hspe⟩⟩
  | pruned hop _ hn =>
    have hidle := hqui (by rw [Call.prunes, hop])
    rw [NullifierSet.pruneExpired_of_idle hidle] at hn
    rw [Call.nullifiers_pruneNullifiers hop]
    exact ⟨.inl hn, fun _ => ⟨hn, List.nodup_nil, by simp⟩⟩

theorem step_of_succeeds (h : Succeeds hash verify s c) :
    step hash verify reverting s c = (exec hash verify s c).1 := by
  rw [step, h]
  simp

theorem spent_step (hqui : Quiet s c) {nf : Bytes32} (h : s.nullifiers.spent nf) :
    (step hash verify reverting s c).nullifiers.spent nf := by
  unfold step
  split_ifs
  · exact h
  · rcases (exec_nullifiers hash verify hqui).1 with he | he
    · rw [he]
      exact h
    · rw [he, NullifierSet.spent_markAll]
      exact .inr h

theorem spent_of_step (hqui : Quiet s c) {nf : Bytes32}
    (h : (step hash verify reverting s c).nullifiers.spent nf = false) :
    s.nullifiers.spent nf = false := by
  by_contra hne
  have hspe := spent_step hash verify reverting hqui (Bool.eq_true_of_not_eq_false hne)
  rw [h] at hspe
  cases hspe

theorem accepted_spec (hqui : Quiet s c) :
    (accepted hash verify s c).Nodup ∧ ∀ nf ∈ accepted hash verify s c,
      nf ∈ c.nullifiers ∧ s.nullifiers.spent nf = false ∧
        (step hash verify reverting s c).nullifiers.spent nf := by
  unfold accepted
  split_ifs with hok
  · obtain ⟨hmar, hnod, hfree⟩ := (exec_nullifiers hash verify hqui).2 hok
    refine ⟨hnod, fun nf hnf => ⟨hnf, hfree nf hnf, ?_⟩⟩
    rw [step_of_succeeds hash verify reverting hok, hmar, NullifierSet.spent_markAll]
    exact .inl hnf
  · exact ⟨List.nodup_nil, fun nf hnf => absurd hnf List.not_mem_nil⟩

/-- The nullifiers that a successful call shows the verifier. -/
def seen (s : Pool) (c : Call) : List Fp :=
  if Succeeds hash verify s c then (c.statement.map seenNullifiers).getD [] else []

theorem seen_eq : seen hash verify s c = (accepted hash verify s c).map bytesToFp := by
  unfold seen accepted Call.nullifiers
  split_ifs
  · cases c.statement with
    | none => rfl
    | some statement => exact seenNullifiers_eq statement
  · rfl

end Step

/-! ### Runs -/

section Runs

variable (hash : List Fp → Fp) (verify : Verify) (reverting : Bool) (s : Pool) (calls : List Call)

/-- **No nullifier twice.** No nullifier is accepted twice, as long as no call of the run finds an
expired one to prune. Failed calls may be taken back or not. -/
theorem accepted_nodup (h : Run.Along (step hash verify reverting) Quiet s calls) :
    (Run.collect (step hash verify reverting) (accepted hash verify) s calls).Nodup := by
  have hspec := fun s c => accepted_spec hash verify reverting (s := s) (c := c)
  refine (Run.collect_nodup (fun s nf => s.nullifiers.spent nf = false)
    (fun s c hc => (hspec s c hc).1) (fun s c hc nf hnf => ((hspec s c hc).2 nf hnf).2.1)
    (fun s c hc nf hnf => ?_) (fun s c nf hc => spent_of_step hash verify reverting hc) h).1
  rw [((hspec s c hc).2 nf hnf).2.2]
  decide

/-- **No statement twice.** What the verifier sees is distinct over a run, if moreover the
nullifiers presented are canonical. -/
theorem seen_nodup (h : Run.Along (step hash verify reverting)
      (fun s c => Quiet s c ∧ ∀ nf ∈ c.nullifiers, Canonical nf) s calls) :
    (Run.collect (step hash verify reverting) (seen hash verify) s calls).Nodup := by
  have hspec := fun s c => accepted_spec hash verify reverting (s := s) (c := c)
  -- an element is free as long as its canonical string is unspent
  refine (Run.collect_nodup (fun s x => s.nullifiers.spent (fpToBytes x) = false)
    (fun s c hc => ?_) (fun s c hc x hx => ?_) (fun s c hc x hx => ?_)
    (fun s c x hc => spent_of_step hash verify reverting hc.1) h).1
  · obtain ⟨hnod, hmem⟩ := hspec s c hc.1
    rw [seen_eq]
    exact hnod.map_on fun x hx y hy => bytesToFp_inj (hc.2 x (hmem x hx).1) (hc.2 y (hmem y hy).1)
  · obtain ⟨nf, hnf, rfl⟩ := List.mem_map.1 (seen_eq hash verify ▸ hx)
    obtain ⟨hcall, hfree, -⟩ := (hspec s c hc.1).2 nf hnf
    rw [fpToBytes_bytesToFp (hc.2 nf hcall)]
    exact hfree
  · obtain ⟨nf, hnf, rfl⟩ := List.mem_map.1 (seen_eq hash verify ▸ hx)
    obtain ⟨hcall, -, hspe⟩ := (hspec s c hc.1).2 nf hnf
    rw [fpToBytes_bytesToFp (hc.2 nf hcall), hspe]
    decide

end Runs

/-! ### Pruned nullifiers and equivalent strings -/

def emptyPool : Pool := { balance := fun _ _ => 0 }

def withdrawal (nullifier : Bytes32) (block : U64) : Call :=
  { op := .withdraw 1 7 10 nullifier 0, proofData := [1], caller := 7, block := block }

theorem withdrawals_nodup : Run.Along (step List.sum (fun _ _ _ => .ok true) false) Quiet emptyPool
      [withdrawal 5 1, withdrawal 6 2] ∧ Run.collect (step List.sum (fun _ _ _ => .ok true) false)
      (accepted List.sum fun _ _ _ => .ok true) emptyPool [withdrawal 5 1, withdrawal 6 2] = [5, 6] ∧
    (Run.collect (step List.sum (fun _ _ _ => .ok true) false)
      (accepted List.sum fun _ _ _ => .ok true) emptyPool [withdrawal 5 1, withdrawal 6 2]).Nodup := by
  have h : Run.Along (step List.sum (fun _ _ _ => .ok true) false) Quiet emptyPool
      [withdrawal 5 1, withdrawal 6 2] := ⟨by decide +kernel, by decide +kernel, trivial⟩
  exact ⟨h, by decide +kernel, accepted_nodup _ _ _ _ _ h⟩

/-- The withdrawal of nullifier 6 at block 100801 prunes nullifier 5, spent at block 1;
the next call of the block spends 5 once more. -/
theorem pruned_spent_again : ∃ calls : List Call, calls.Pairwise (fun c d => c.block ≤ d.block) ∧
    ∀ reverting, Run.collect (step List.sum (fun _ _ _ => .ok true) reverting)
      (accepted List.sum fun _ _ _ => .ok true) emptyPool calls = [5, 6, 5] :=
  ⟨[withdrawal 5 1, withdrawal 6 100801, withdrawal 5 100801], by decide +kernel, by decide +kernel⟩

def oneStatement : Keys := fun _ => some fun circuit proof instances =>
  circuit = .withdraw ∧ proof = [1] ∧
    instances = Shielded.instances (.withdraw 5 1 10 0 7)

def twoStatements : Keys := fun _ => some fun circuit proof instances =>
  circuit = .withdraw ∧ proof = [1] ∧ (instances = Shielded.instances (.withdraw 5 1 10 0 7) ∨
    instances = Shielded.instances (.withdraw 6 1 10 0 7))

theorem two_statements_once : Run.Along (step List.sum (verifyShieldedProof twoStatements) false)
      (fun s c => Quiet s c ∧ ∀ nf ∈ c.nullifiers, Canonical nf) emptyPool
      [withdrawal 5 1, withdrawal 6 1] ∧
    Run.collect (step List.sum (verifyShieldedProof twoStatements) false)
      (seen List.sum (verifyShieldedProof twoStatements)) emptyPool
      [withdrawal 5 1, withdrawal 6 1] = [5, 6] ∧
    (Run.collect (step List.sum (verifyShieldedProof twoStatements) false)
      (seen List.sum (verifyShieldedProof twoStatements)) emptyPool
      [withdrawal 5 1, withdrawal 6 1]).Nodup := by
  have h : Run.Along (step List.sum (verifyShieldedProof twoStatements) false)
      (fun s c => Quiet s c ∧ ∀ nf ∈ c.nullifiers, Canonical nf) emptyPool
      [withdrawal 5 1, withdrawal 6 1] :=
    ⟨⟨by decide +kernel, List.forall_mem_singleton.2 (by decide +kernel)⟩,
      ⟨by decide +kernel, List.forall_mem_singleton.2 (by decide +kernel)⟩, trivial⟩
  exact ⟨h, by decide +kernel, seen_nodup _ _ _ _ _ h⟩

/-- The nullifier 5 and the string of 5 plus the prime stand for the same element, and
nothing is pruned in between. -/
theorem same_statement_twice : ∃ calls : List Call,
    Run.Along (step List.sum (verifyShieldedProof oneStatement) false) Quiet emptyPool calls ∧
    Run.collect (step List.sum (verifyShieldedProof oneStatement) false)
      (accepted List.sum (verifyShieldedProof oneStatement)) emptyPool calls =
        [5, 5 + BitVec.ofNat 256 pallas] ∧
    Run.collect (step List.sum (verifyShieldedProof oneStatement) false)
      (seen List.sum (verifyShieldedProof oneStatement)) emptyPool calls = [5, 5] :=
  ⟨[withdrawal 5 1, withdrawal (5 + BitVec.ofNat 256 pallas) 1],
    ⟨by decide +kernel, by decide +kernel, trivial⟩, by decide +kernel, by decide +kernel⟩

end Callchain.Shielded

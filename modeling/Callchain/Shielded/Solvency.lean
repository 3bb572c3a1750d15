/-
# The pool pays out what was paid in

With an ideal verifier, the pool is a vault of notes (`Lib/Vault`): a note is a
commitment of the tree, unspent as long as its nullifier is not marked. A withdrawal or
a transfer is proved against a root that the tree had at some earlier point
(`Grown.valid`), so the notes it spends are in the tree; their nullifiers were not
marked, so they are unspent. Each call is one move of the vault (`vault_step`), and so
the pool is solvent at every point of a run (`withdrawn_le_deposited`), as long as
pruning takes no mark away. Once it does, a note is withdrawn a second time
(`pruned_withdrawn_again`).
-/
import Callchain.Lib.Vault
import Callchain.Shielded.Nullifier

namespace Callchain.Shielded

/-! ### The tree grows by its commitments -/

namespace CommitmentTree

variable (hash : List Fp → Fp)

/-- The tree of a list of commitments; the block of an insertion is recorded only. -/
def grow (commitments : List Bytes32) : CommitmentTree :=
  commitments.foldl (fun t commitment => t.append hash commitment 0) {}

structure Grown (commitments : List Bytes32) (t : CommitmentTree) : Prop where
  node : t.node = (grow hash commitments).node
  root : t.root = (grow hash commitments).root
  count : t.count = (grow hash commitments).count
  ring : ∀ i < min t.rootHistoryCount.toNat maxRootHistory, ∃ earlier, earlier <+: commitments ∧
    t.rootHistory (BitVec.ofNat 64 i) = (grow hash earlier).root

variable {hash} {t : CommitmentTree} {commitments : List Bytes32} {commitment : Bytes32} {block : U64}

theorem node_recordRootHistory : t.recordRootHistory.node = t.node := by
  unfold recordRootHistory
  split
  · rfl
  · rfl

theorem count_recordRootHistory : t.recordRootHistory.count = t.count := by
  unfold recordRootHistory
  split
  · rfl
  · rfl

theorem ring_recordRootHistory {i : ℕ}
    (h : i < min t.recordRootHistory.rootHistoryCount.toNat maxRootHistory) :
    t.recordRootHistory.rootHistory (BitVec.ofNat 64 i) = t.root ∨
      i < min t.rootHistoryCount.toNat maxRootHistory ∧
        t.recordRootHistory.rootHistory (BitVec.ofNat 64 i) = t.rootHistory (BitVec.ofNat 64 i) := by
  unfold recordRootHistory at h ⊢
  by_cases hroot : t.root = 0
  · rw [if_pos hroot] at h ⊢
    exact .inr ⟨h, rfl⟩
  · rw [if_neg hroot] at h ⊢
    by_cases hi : BitVec.ofNat 64 i = BitVec.ofNat 64 (t.rootHistoryCount.toNat % maxRootHistory)
    · left
      dsimp only
      rw [hi, Function.update_self]
    · right
      refine ⟨?_, Function.update_of_ne hi _ _⟩
      have hne : i ≠ t.rootHistoryCount.toNat % maxRootHistory := fun he => hi (by rw [he])
      dsimp only at h
      split_ifs at h with hmax
      · exact h
      · -- a ring that is not full grew by the slot that was written
        have hcou : (t.rootHistoryCount + 1).toNat ≤ t.rootHistoryCount.toNat + 1 := by
          exact Nat.mod_le _ _
        unfold maxRootHistory at h hne ⊢
        omega

theorem node_append : (t.append hash commitment block).node =
    (insertLevels hash 32 0 t.count commitment t.node).1 := node_recordRootHistory

theorem root_append : (t.append hash commitment block).root =
    (insertLevels hash 32 0 t.count commitment t.node).2 := rfl

theorem count_append : (t.append hash commitment block).count = t.count + 1 :=
  congrArg (· + 1) count_recordRootHistory

theorem grow_append : grow hash (commitments ++ [commitment]) =
    (grow hash commitments).append hash commitment 0 := by
  rw [grow, List.foldl_append]
  rfl

theorem grown_empty : Grown hash [] {} := ⟨rfl, rfl, rfl, fun i hi => absurd hi (by simp)⟩

theorem Grown.append (h : Grown hash commitments t) :
    Grown hash (commitments ++ [commitment]) (t.append hash commitment block) := by
  refine ⟨?_, ?_, ?_, fun i hi => ?_⟩
  · rw [grow_append, node_append, node_append, h.node, h.count]
  · rw [grow_append, root_append, root_append, h.node, h.count]
  · rw [grow_append, count_append, count_append, h.count]
  · rcases ring_recordRootHistory hi with hroot | ⟨hlt, hkept⟩
    · exact ⟨commitments, List.prefix_append _ _, hroot.trans h.root⟩
    · obtain ⟨earlier, hpre, hear⟩ := h.ring i hlt
      exact ⟨earlier, hpre.trans (List.prefix_append _ _), hkept.trans hear⟩

theorem Grown.valid (h : Grown hash commitments t) {root : Bytes32} (hvalid : t.isValidRoot root) :
    ∃ earlier, earlier <+: commitments ∧ root = (grow hash earlier).root := by
  unfold isValidRoot at hvalid
  split_ifs at hvalid with hroot
  · exact ⟨commitments, List.prefix_rfl, hroot.trans h.root⟩
  · obtain ⟨i, hi, he⟩ := List.any_eq_true.1 hvalid
    rw [List.mem_range] at hi
    split_ifs at he with hcou
    · obtain ⟨earlier, hpre, hear⟩ := h.ring i hi
      exact ⟨earlier, hpre, (of_decide_eq_true he).symm.trans hear⟩
    · have hlt : (t.rootHistoryCount.toNat - maxRootHistory + i) % maxRootHistory <
          min t.rootHistoryCount.toNat maxRootHistory := by
        have hmod := Nat.mod_lt (t.rootHistoryCount.toNat - maxRootHistory + i)
          (show 0 < maxRootHistory by decide)
        omega
      obtain ⟨earlier, hpre, hear⟩ := h.ring _ hlt
      exact ⟨earlier, hpre, (of_decide_eq_true he).symm.trans hear⟩

end CommitmentTree

/-! ### The pool as a vault -/

/-- What commitments open to: the value, the asset and the nullifier of the
note; and the commitments that a root opens to. -/
structure Openings where
  value : Bytes32 → ℕ
  asset : Bytes32 → U64
  nullifier : Bytes32 → Bytes32
  leaves : Bytes32 → Set Bytes32

/-- An accepted proof tells the truth about the notes it opens. -/
structure Ideal (verify : Verify) (o : Openings) : Prop where
  deposit : ∀ {proofData keyVersion commitment amount assetId},
    verify proofData keyVersion (.deposit commitment amount assetId) = .ok true →
    o.value commitment = amount.toNat ∧ o.asset commitment = assetId
  withdraw : ∀ {proofData keyVersion nullifier assetId amount merkleRoot target},
    verify proofData keyVersion (.withdraw nullifier assetId amount merkleRoot target) = .ok true →
    ∃ note ∈ o.leaves merkleRoot, o.nullifier note = nullifier ∧ o.value note = amount.toNat ∧
      o.asset note = assetId
  transfer : ∀ {proofData keyVersion nullifiers commitments assetId merkleRoot},
    verify proofData keyVersion (.transfer nullifiers commitments assetId merkleRoot) = .ok true →
    ∃ notes : List Bytes32, (∀ note ∈ notes, note ∈ o.leaves merkleRoot ∧ o.asset note = assetId) ∧
      notes.map o.nullifier = nullifiers ∧ (∀ commitment ∈ commitments, o.asset commitment = assetId) ∧
      (commitments.map o.value).sum = (notes.map o.value).sum

variable (hash : List Fp → Fp) (verify : Verify) (o : Openings)

/-- The root of a tree has no leaves but the tree's commitments. -/
def Binding (commitments : List Bytes32) : Prop :=
  ∀ earlier, earlier <+: commitments →
    ∀ note ∈ o.leaves (CommitmentTree.grow hash earlier).root, note ∈ earlier

def inserted (s : Pool) (c : Call) : List Bytes32 :=
  if Succeeds hash verify s c then (c.statement.map Statement.commitments).getD [] else []

def depositedBy (assetId : U64) (s : Pool) (c : Call) : ℕ :=
  match c.op with
  | .deposit asset amount _ => if Succeeds hash verify s c ∧ asset = assetId then amount.toNat else 0
  | _ => 0

def withdrawnBy (assetId : U64) (s : Pool) (c : Call) : ℕ :=
  match c.op with
  | .withdraw asset _ amount _ _ => if Succeeds hash verify s c ∧ asset = assetId then amount.toNat else 0
  | _ => 0

section Runs

variable (s : Pool)

abbrev reached (calls : List Call) : Pool := Run.run (step hash verify true) s calls

def notes (calls : List Call) : List Bytes32 :=
  Run.collect (step hash verify true) (inserted hash verify) s calls

def deposited (calls : List Call) (assetId : U64) : ℕ :=
  Run.tally (step hash verify true) (depositedBy hash verify assetId) s calls

def withdrawn (calls : List Call) (assetId : U64) : ℕ :=
  Run.tally (step hash verify true) (withdrawnBy hash verify assetId) s calls

/-- The vault that a run has come to: a note is unspent as long as its nullifier is not
marked. -/
def vault (calls : List Call) : Vault.State Bytes32 U64 where
  unspent := (notes hash verify s calls).toFinset.filter fun note =>
    (reached hash verify s calls).nullifiers.spent (o.nullifier note) = false
  deposited := deposited hash verify s calls
  withdrawn := withdrawn hash verify s calls

variable {hash verify o s} {calls : List Call} {c : Call}

theorem reached_snoc : reached hash verify s (calls ++ [c]) =
    step hash verify true (reached hash verify s calls) c := Run.run_append _ _ _ _

theorem notes_snoc : notes hash verify s (calls ++ [c]) =
    notes hash verify s calls ++ inserted hash verify (reached hash verify s calls) c :=
  Run.collect_snoc _ _ _ _

theorem deposited_snoc (aid : U64) : deposited hash verify s (calls ++ [c]) aid =
    deposited hash verify s calls aid +
      depositedBy hash verify aid (reached hash verify s calls) c :=
  Run.tally_snoc _ _ _ _

theorem withdrawn_snoc (aid : U64) : withdrawn hash verify s (calls ++ [c]) aid =
    withdrawn hash verify s calls aid +
      withdrawnBy hash verify aid (reached hash verify s calls) c :=
  Run.tally_snoc _ _ _ _

theorem mem_unspent {note : Bytes32} : note ∈ (vault hash verify o s calls).unspent ↔
    note ∈ notes hash verify s calls ∧
      (reached hash verify s calls).nullifiers.spent (o.nullifier note) = false := by
  rw [vault, Finset.mem_filter, List.mem_toFinset]

end Runs

/-! ### One call is one move -/

section Step

variable {hash verify o} {s : Pool} {c : Call}

theorem step_of_fails (h : Succeeds hash verify s c = false) : step hash verify true s c = s := by
  rw [step, h]
  rfl

theorem inserted_of_fails (h : Succeeds hash verify s c = false) : inserted hash verify s c = [] := by
  rw [inserted, h]
  rfl

theorem inserted_of_succeeds (h : Succeeds hash verify s c) :
    inserted hash verify s c = (c.statement.map Statement.commitments).getD [] := if_pos h

theorem amounts_of_fails (aid : U64) (h : Succeeds hash verify s c = false) :
    depositedBy hash verify aid s c = 0 ∧ withdrawnBy hash verify aid s c = 0 := by
  unfold depositedBy withdrawnBy
  cases c.op with
  | deposit | withdraw => simp [h]
  | transfer | pruneNullifiers => exact ⟨rfl, rfl⟩

theorem depositedBy_deposit (h : Succeeds hash verify s c) {aid asset : U64} {amount : U128}
    {commitment : Bytes32} (hop : c.op = .deposit aid amount commitment) :
    depositedBy hash verify asset s c = (Pi.single aid amount.toNat : U64 → ℕ) asset := by
  rw [depositedBy, hop, Pi.single_apply]
  simp only [h, true_and, eq_comm]

theorem withdrawnBy_withdraw (h : Succeeds hash verify s c) {aid asset : U64} {target : Address}
    {amount : U128} {nullifier root : Bytes32}
    (hop : c.op = .withdraw aid target amount nullifier root) :
    withdrawnBy hash verify asset s c = (Pi.single aid amount.toNat : U64 → ℕ) asset := by
  rw [withdrawnBy, hop, Pi.single_apply]
  simp only [h, true_and, eq_comm]

theorem inserted_step :
    Inserted hash c.block (inserted hash verify s c) s.tree (step hash verify true s c).tree := by
  cases hok : Succeeds hash verify s c with
  | false =>
    rw [step_of_fails hok, inserted_of_fails hok]
    exact .nil
  | true =>
    rw [step_of_succeeds hash verify true hok, inserted_of_succeeds hok]
    have heff : Effect hash verify s c (exec hash verify s c) := exec_effect c
    unfold Succeeds at hok
    generalize exec hash verify s c = out at heff hok ⊢
    cases heff with
    | failed => cases hok
    | deposited hop _ hins | transferred hop _ _ _ _ hins =>
      rw [Call.statement, hop]
      exact hins
    | withdrawn hop _ _ _ htree | pruned hop htree =>
      rw [Call.statement, hop, htree]
      exact .nil

end Step

section Induct

variable {hash} {P : List Bytes32 → CommitmentTree → Prop}
  (happ : ∀ {cms : List Bytes32} {t : CommitmentTree} {cm : Bytes32} {block : U64},
    t.count < maxCommitments → P cms t → P (cms ++ [cm]) (t.append hash cm block))
include happ

theorem inserted_induct {block : U64} {cms : List Bytes32} {t t' : CommitmentTree}
    (hins : Inserted hash block cms t t') : ∀ {old : List Bytes32}, P old t → P (old ++ cms) t' := by
  induction hins with
  | nil => simp
  | cons _ hroom _ ih =>
    intro old h
    rw [List.append_cons]
    exact ih (happ hroom h)

/-- What an insertion keeps below the limit, every run keeps. -/
theorem run_induct {verify : Verify} {s : Pool} (h : P [] s.tree) (calls : List Call) :
    P (notes hash verify s calls) (reached hash verify s calls).tree := by
  induction calls using List.reverseRecOn with
  | nil => exact h
  | append_singleton calls c ih =>
    rw [notes_snoc, reached_snoc]
    exact inserted_induct happ inserted_step ih

end Induct

section Runs

variable {hash verify o} {s : Pool} {calls : List Call} {c : Call}

theorem grown_run (hempty : s.tree = {}) : CommitmentTree.Grown hash (notes hash verify s calls)
    (reached hash verify s calls).tree :=
  run_induct (fun _ => CommitmentTree.Grown.append) (hempty ▸ CommitmentTree.grown_empty) calls

theorem mem_unspent_snoc (hquiet : Quiet (reached hash verify s calls) c)
    (hok : Succeeds hash verify (reached hash verify s calls) c) {note : Bytes32}
    (h : note ∈ (vault hash verify o s (calls ++ [c])).unspent) :
    o.nullifier note ∉ c.nullifiers ∧ (note ∈ (vault hash verify o s calls).unspent ∨
        note ∈ inserted hash verify (reached hash verify s calls) c) := by
  obtain ⟨hmem, hspe⟩ := mem_unspent.1 h
  rw [reached_snoc, step_of_succeeds hash verify true hok,
    ((exec_nullifiers hash verify hquiet).2 hok).1, Bool.eq_false_iff, Ne,
    NullifierSet.spent_markAll, not_or] at hspe
  rw [notes_snoc, List.mem_append] at hmem
  refine ⟨hspe.1, hmem.imp_left fun hold => mem_unspent.2 ⟨hold, ?_⟩⟩
  exact Bool.eq_false_iff.2 hspe.2

theorem unspent_of_leaf (hempty : s.tree = {}) (hbind : Binding hash o (notes hash verify s calls))
    {root note : Bytes32} (hvalid : (reached hash verify s calls).tree.isValidRoot root)
    (hleaf : note ∈ o.leaves root)
    (hspe : (reached hash verify s calls).nullifiers.spent (o.nullifier note) = false) :
    note ∈ (vault hash verify o s calls).unspent := by
  obtain ⟨earlier, hpre, rfl⟩ := (grown_run hempty).valid hvalid
  exact mem_unspent.2 ⟨hpre.subset (hbind earlier hpre note hleaf), hspe⟩

theorem vault_exchange (ins outs : Finset Bytes32)
    (hamo : ∀ assetId, depositedBy hash verify assetId (reached hash verify s calls) c = 0 ∧
      withdrawnBy hash verify assetId (reached hash verify s calls) c = 0)
    (hins : ins ⊆ (vault hash verify o s calls).unspent)
    (hwor : Vault.worth o.value o.asset outs ≤ Vault.worth o.value o.asset ins)
    (huns : (vault hash verify o s (calls ++ [c])).unspent ⊆
      ((vault hash verify o s calls).unspent \ ins) ∪ outs) :
    Vault.Step o.value o.asset (vault hash verify o s calls) (vault hash verify o s (calls ++ [c])) := by
  refine .transfer ins outs hins hwor huns (funext fun assetId => ?_) (funext fun assetId => ?_)
  · exact (deposited_snoc assetId).trans (by rw [(hamo assetId).1]; rfl)
  · exact (withdrawn_snoc assetId).trans (by rw [(hamo assetId).2]; rfl)

section Accepted

variable {aid : U64} {amount : U128} (hideal : Ideal verify o)
  (hquiet : Quiet (reached hash verify s calls) c)
  (hok : Succeeds hash verify (reached hash verify s calls) c)
include hideal hquiet hok

theorem vault_deposit {commitment : Bytes32} (hop : c.op = .deposit aid amount commitment)
    (hpro : verify c.proofData c.keyVersion (.deposit commitment amount aid) = .ok true) :
    Vault.Step o.value o.asset (vault hash verify o s calls) (vault hash verify o s (calls ++ [c])) := by
  obtain ⟨hval, hass⟩ := hideal.deposit hpro
  refine .deposit commitment (fun note hnote => ?_) (funext fun asset => ?_) (funext fun asset => ?_)
  · have hnew := (mem_unspent_snoc hquiet hok hnote).2
    rw [inserted_of_succeeds hok, Call.statement, hop] at hnew
    exact Finset.mem_insert.2 (hnew.symm.imp_left List.mem_singleton.1)
  · refine (deposited_snoc asset).trans ?_
    rw [depositedBy_deposit hok hop, hval, hass]
    rfl
  · refine (withdrawn_snoc asset).trans ?_
    rw [withdrawnBy, hop]
    rfl

variable {root : Bytes32} (hempty : s.tree = {})
  (hbind : Binding hash o (notes hash verify s calls))
  (hvalid : (reached hash verify s calls).tree.isValidRoot root)
include hempty hbind hvalid

theorem vault_withdraw {target : Address} {nullifier : Bytes32}
    (hop : c.op = .withdraw aid target amount nullifier root)
    (hpro : verify c.proofData c.keyVersion (.withdraw nullifier aid amount root target) = .ok true)
    (hspe : (reached hash verify s calls).nullifiers.spent nullifier = false) :
    Vault.Step o.value o.asset (vault hash verify o s calls) (vault hash verify o s (calls ++ [c])) := by
  obtain ⟨note, hleaf, rfl, hval, hass⟩ := hideal.withdraw hpro
  have huns := unspent_of_leaf hempty hbind hvalid hleaf hspe
  refine .withdraw note huns (fun other hoth => ?_) (funext fun asset => ?_)
    (funext fun asset => ?_)
  · obtain ⟨hnf, hold⟩ := mem_unspent_snoc hquiet hok hoth
    rw [inserted_of_succeeds hok, Call.statement, hop] at hold
    rw [Call.nullifiers_withdraw hop, List.mem_singleton] at hnf
    exact Finset.mem_erase.2 ⟨fun he => hnf (by rw [he]), hold.resolve_right List.not_mem_nil⟩
  · refine (deposited_snoc asset).trans ?_
    rw [depositedBy, hop]
    rfl
  · refine (withdrawn_snoc asset).trans ?_
    rw [withdrawnBy_withdraw hok hop, hval, hass]
    rfl

theorem vault_transfer {nullifiers cms : List Bytes32}
    (hop : c.op = .transfer aid nullifiers cms root)
    (hpro : verify c.proofData c.keyVersion (.transfer nullifiers cms aid root) = .ok true)
    (hnod : nullifiers.Nodup)
    (hspe : ∀ nf ∈ nullifiers, (reached hash verify s calls).nullifiers.spent nf = false) :
    Vault.Step o.value o.asset (vault hash verify o s calls) (vault hash verify o s (calls ++ [c])) := by
  obtain ⟨ins, hins, rfl, houts, hsum⟩ := hideal.transfer hpro
  refine vault_exchange ins.toFinset cms.toFinset (fun asset => ?_) (fun note hnote => ?_) ?_
    fun note hnote => ?_
  · rw [depositedBy, withdrawnBy, hop]
    exact ⟨rfl, rfl⟩
  · rw [List.mem_toFinset] at hnote
    exact unspent_of_leaf hempty hbind hvalid (hins note hnote).1 (hspe _ (List.mem_map_of_mem hnote))
  · -- different nullifiers, so different notes, and no value is counted twice
    rw [Vault.worth_toFinset hnod.of_map fun note hnote => (hins note hnote).2, ← hsum]
    exact Vault.worth_toFinset_le houts
  · obtain ⟨hnf, hold⟩ := mem_unspent_snoc hquiet hok hnote
    rw [inserted_of_succeeds hok, Call.statement, hop] at hold
    rw [Call.nullifiers_transfer hop] at hnf
    rw [Finset.mem_union, Finset.mem_sdiff, List.mem_toFinset, List.mem_toFinset]
    exact hold.imp_left fun hold => ⟨hold, fun hin => hnf (List.mem_map_of_mem hin)⟩

end Accepted

theorem vault_step (hideal : Ideal verify o) (hempty : s.tree = {})
    (hbind : Binding hash o (notes hash verify s calls))
    (hquiet : Quiet (reached hash verify s calls) c) :
    Vault.Step o.value o.asset (vault hash verify o s calls) (vault hash verify o s (calls ++ [c])) := by
  cases hok : Succeeds hash verify (reached hash verify s calls) c with
  | false =>
    refine vault_exchange ∅ ∅ (fun assetId => amounts_of_fails assetId hok) (Finset.empty_subset _)
      le_rfl fun note hnote => ?_
    rw [mem_unspent, notes_snoc, reached_snoc, inserted_of_fails hok, step_of_fails hok,
      List.append_nil, ← mem_unspent] at hnote
    simpa using hnote
  | true =>
    have heff : Effect hash verify (reached hash verify s calls) c
      (exec hash verify (reached hash verify s calls) c) := exec_effect c
    have hres : (exec hash verify (reached hash verify s calls) c).2.isOk := hok
    generalize exec hash verify (reached hash verify s calls) c = out at heff hres
    cases heff with
    | failed => cases hres
    | deposited hop hpro => exact vault_deposit hideal hquiet hok hop hpro
    | withdrawn hop hvalid hpro hspe =>
      exact vault_withdraw hideal hquiet hok hempty hbind hvalid hop hpro hspe
    | transferred hop hvalid hpro hnod hspe =>
      exact vault_transfer hideal hquiet hok hempty hbind hvalid hop hpro hnod hspe
    | pruned hop =>
      refine vault_exchange ∅ ∅ (fun asset => ?_) (Finset.empty_subset _) le_rfl fun note hnote => ?_
      · rw [depositedBy, withdrawnBy, hop]
        exact ⟨rfl, rfl⟩
      · have hold := (mem_unspent_snoc hquiet hok hnote).2
        rw [inserted_of_succeeds hok, Call.statement, hop] at hold
        simpa using hold.resolve_right List.not_mem_nil

theorem Binding.mono {cms commitments' : List Bytes32} (h : Binding hash o cms)
    (hpre : commitments' <+: cms) : Binding hash o commitments' :=
  fun earlier hear => h earlier (hear.trans hpre)

theorem vault_solvent (hideal : Ideal verify o) (hempty : s.tree = {})
    (hquiet : Run.Along (step hash verify true) Quiet s calls) :
    Binding hash o (notes hash verify s calls) →
      Vault.Solvent o.value o.asset (vault hash verify o s calls) := by
  refine hquiet.snoc_induction (P := fun calls => Binding hash o (notes hash verify s calls) →
    Vault.Solvent o.value o.asset (vault hash verify o s calls)) (fun _ => le_rfl)
    fun calls c hc ih hbind => ?_
  rw [notes_snoc] at hbind
  have hbef := hbind.mono (List.prefix_append _ _)
  exact (vault_step hideal hempty hbef hc).solvent (ih hbef)

end Runs

/-- **The pool is solvent.** At every point of a run from the empty tree in which no call finds an
expired nullifier to prune, for every asset, no more was withdrawn than deposited. The verifier is
ideal, and the roots of the run open to what was in the tree. -/
theorem withdrawn_le_deposited (s : Pool) (calls : List Call) (hideal : Ideal verify o)
    (hempty : s.tree = {}) (hbind : Binding hash o (notes hash verify s calls))
    (hquiet : Run.Along (step hash verify true) Quiet s calls) (n : ℕ) (assetId : U64) :
    withdrawn hash verify s (calls.take n) assetId ≤ deposited hash verify s (calls.take n) assetId := by
  have hpre : notes hash verify s (calls.take n) <+: notes hash verify s calls := by
    have happ : notes hash verify s (calls.take n ++ calls.drop n) =
      notes hash verify s (calls.take n) ++ _ := Run.collect_append _ _ _ _
    rw [List.take_append_drop] at happ
    exact ⟨_, happ.symm⟩
  have hsol := vault_solvent hideal hempty (hquiet.take n) (hbind.mono hpre)
  calc withdrawn hash verify s (calls.take n) assetId
      ≤ withdrawn hash verify s (calls.take n) assetId +
          Vault.worth o.value o.asset (vault hash verify o s (calls.take n)).unspent assetId :=
        Nat.le_add_right _ _
    _ ≤ deposited hash verify s (calls.take n) assetId := hsol assetId

/-! ### A note withdrawn twice -/

/-- Every note is worth 10 of asset 1, and its commitment is its nullifier;
the tree of 5 and 6 is known by its root. -/
def twoNotes : Openings where
  value _ := 10
  asset _ := 1
  nullifier note := note
  leaves merkleRoot := {note | merkleRoot = 11 ∧ (note = 5 ∨ note = 6)}

def noteVerifier : Verify := fun _ _ statement =>
  match statement with
  | .deposit _ amount assetId => .ok (amount = 10 ∧ assetId = 1)
  | .withdraw nullifier assetId amount merkleRoot _ =>
    .ok ((merkleRoot = 11 ∧ (nullifier = 5 ∨ nullifier = 6)) ∧ amount = 10 ∧ assetId = 1)
  | .transfer _ _ _ _ => .ok false

theorem ideal_noteVerifier : Ideal noteVerifier twoNotes where
  deposit h := by
    obtain ⟨rfl, rfl⟩ := of_decide_eq_true (Except.ok.inj h)
    exact ⟨rfl, rfl⟩
  withdraw h := by
    obtain ⟨hleaf, rfl, rfl⟩ := of_decide_eq_true (Except.ok.inj h)
    exact ⟨_, hleaf, rfl, rfl, rfl⟩
  transfer h := absurd (Except.ok.inj h) Bool.false_ne_true

theorem binding_twoNotes : Binding List.sum twoNotes [5, 6] := by
  intro earlier hpre note hnote
  have hroo : ∀ earlier ∈ List.inits [(5 : Bytes32), 6],
      (CommitmentTree.grow List.sum earlier).root = 11 → earlier = [5, 6] := by decide +kernel
  rw [hroo earlier ((List.mem_inits _ _).2 hpre) hnote.1]
  rcases hnote.2 with rfl | rfl
  · exact List.mem_cons_self
  · exact List.mem_cons_of_mem _ List.mem_cons_self

def fundedPool : Pool := { balance := fun _ _ => 20 }

def depositOf (commitment : Bytes32) : Call :=
  { op := .deposit 1 10 commitment, proofData := [1], caller := 7, block := 1 }

def withdrawalOf (nullifier : Bytes32) (block : U64) : Call :=
  { op := .withdraw 1 7 10 nullifier 11, proofData := [1], caller := 7, block := block }

theorem two_notes_solvent : notes List.sum noteVerifier fundedPool
      [depositOf 5, depositOf 6, withdrawalOf 5 1, withdrawalOf 6 2] = [5, 6] ∧
    withdrawn List.sum noteVerifier fundedPool
      ([depositOf 5, depositOf 6, withdrawalOf 5 1, withdrawalOf 6 2].take 4) 1 = 20 ∧
    withdrawn List.sum noteVerifier fundedPool
      ([depositOf 5, depositOf 6, withdrawalOf 5 1, withdrawalOf 6 2].take 4) 1 ≤
    deposited List.sum noteVerifier fundedPool
      ([depositOf 5, depositOf 6, withdrawalOf 5 1, withdrawalOf 6 2].take 4) 1 := by
  have hnot : notes List.sum noteVerifier fundedPool
      [depositOf 5, depositOf 6, withdrawalOf 5 1, withdrawalOf 6 2] = [5, 6] := by decide +kernel
  have hquiet : Run.Along (step List.sum noteVerifier true) Quiet fundedPool
      [depositOf 5, depositOf 6, withdrawalOf 5 1, withdrawalOf 6 2] :=
    ⟨by decide +kernel, by decide +kernel, by decide +kernel, by decide +kernel, trivial⟩
  exact ⟨hnot, by decide +kernel, withdrawn_le_deposited _ _ _ fundedPool _ ideal_noteVerifier rfl
    (hnot ▸ binding_twoNotes) hquiet 4 1⟩

/-- The withdrawal of note 6 at block 100801 prunes the nullifier of note 5, which was
withdrawn at block 1, and the next call withdraws note 5 once more. -/
theorem pruned_withdrawn_again : ∃ (hash : List Fp → Fp) (verify : Verify) (o : Openings) (s : Pool)
    (calls : List Call), Ideal verify o ∧ s.tree = {} ∧ Binding hash o (notes hash verify s calls) ∧
      calls.Pairwise (fun c d => c.block ≤ d.block) ∧
      withdrawn hash verify s calls 1 = 30 ∧ deposited hash verify s calls 1 = 20 := by
  refine ⟨List.sum, noteVerifier, twoNotes, fundedPool,
    [depositOf 5, depositOf 6, withdrawalOf 5 1, withdrawalOf 6 100801, withdrawalOf 5 100801],
    ideal_noteVerifier, rfl, ?_, by decide +kernel, by decide +kernel, by decide +kernel⟩
  have hnot : notes List.sum noteVerifier fundedPool [depositOf 5, depositOf 6, withdrawalOf 5 1,
      withdrawalOf 6 100801, withdrawalOf 5 100801] = [5, 6] := by decide +kernel
  exact hnot ▸ binding_twoNotes

end Callchain.Shielded

/-
# Pruning

A node forgets old blocks by layers (`storage/src/prune`): `maybe_prune` drops traces,
receipts and bodies, each below a boundary of its own, with their rows in the database.
The rows of a trace are those of the block, so a block is lost as soon as its trace is
(`pruning_retains_iff`).

Heights are only compared, and subtracted with saturation, so they are natural numbers
here.
-/
import Callchain.Storage.Snapshot
import Callchain.Lib.Run

namespace Callchain.Storage

inductive NodeMode | validator | full | light | archive

structure PruneConfig where
  snapshotKeep : ℕ := 3
  pruneInterval : ℕ := 10000
  keepRecent : ℕ := 50000
  keepBlockBody : ℕ := 100000
  keepReceipt : ℕ := 1000000
  nodeMode : NodeMode := .full

inductive Table | consensusBlocks | blockHashByHeight | receipts | consensusState
  deriving DecidableEq

abbrev Database := Option (Table → ℕ → Option Bytes)

def Database.row (db : Database) (t : Table) (h : ℕ) : Option Bytes := db.bind (· t h)

/-- `db_del` of each key in each of the tables. -/
def Database.del (db : Database) (tables : List Table) (keys : Finset ℕ) : Database :=
  db.map fun d t h => if t ∈ tables ∧ h ∈ keys then none else d t h

@[simp] theorem Database.row_del (db : Database) {tables : List Table} {keys : Finset ℕ} {t : Table}
    {h : ℕ} : (db.del tables keys).row t h = if t ∈ tables ∧ h ∈ keys then none else db.row t h := by
  cases db <;> simp [row, del]

/-- What is tracked by height and pruned below a boundary. -/
inductive Layer | executionTraces | receipts | blockBodies
  deriving DecidableEq

/-- The tables that the pruning of a layer deletes from. -/
@[simp] def Layer.tables : Layer → List Table
  | .executionTraces | .blockBodies => [.consensusBlocks, .blockHashByHeight]
  | .receipts => [.receipts]

/-- `PruneState` and the database. Of what is tracked the code only uses the height. -/
structure PruneState where
  tracked : Layer → Finset ℕ
  snapshots : List StateSnapshot
  sorted : snapshots.Pairwise (·.height.toNat ≤ ·.height.toNat)
  db : Database

theorem sorted_orderedInsert {x : StateSnapshot} : ∀ {l : List StateSnapshot},
    l.Pairwise (·.height.toNat ≤ ·.height.toNat) →
    (l.orderedInsert (·.height.toNat < ·.height.toNat) x).Pairwise (·.height.toNat ≤ ·.height.toNat)
  | [], _ => List.pairwise_singleton ..
  | y :: l, hs => by
    obtain ⟨hy, hl⟩ := List.pairwise_cons.1 hs
    rw [List.orderedInsert]
    split_ifs with hlt
    · refine hs.cons fun z hz => ?_
      rcases List.mem_cons.1 hz with rfl | hz
      · exact hlt.le
      · exact hlt.le.trans (hy z hz)
    · refine (sorted_orderedInsert hl).cons fun z hz => ?_
      rcases (List.mem_orderedInsert _).1 hz with rfl | hz
      · exact not_lt.1 hlt
      · exact hy z hz

namespace PruneState

variable (s : PruneState) (h : ℕ)

def add (l : Layer) : PruneState :=
  { s with tracked := Function.update s.tracked l (insert h (s.tracked l)) }

/-- The new snapshot goes before the first one that is higher. -/
def addSnapshot (x : StateSnapshot) : PruneState :=
  { s with
    snapshots := s.snapshots.orderedInsert (·.height.toNat < ·.height.toNat) x
    sorted := sorted_orderedInsert s.sorted }

@[simp] def prune (l : Layer) (boundary : ℕ) : PruneState :=
  let toPrune := (s.tracked l).filter (· < boundary)
  { s with
    tracked := Function.update s.tracked l (s.tracked l \ toPrune)
    db := s.db.del l.tables toPrune }

@[simp] def pruneExecutionTraces : ℕ → PruneState := s.prune .executionTraces

@[simp] def pruneReceipts : ℕ → PruneState := s.prune .receipts

@[simp] def pruneBlockBodies : ℕ → PruneState := s.prune .blockBodies

/-- The oldest are popped while there are more than `keep`. -/
@[simp] def pruneOldSnapshots (keep : ℕ) : PruneState :=
  let n := s.snapshots.length - keep
  { s with
    snapshots := s.snapshots.drop n
    sorted := s.sorted.sublist (List.drop_sublist ..)
    db := s.db.del [.consensusState] ((s.snapshots.take n).map (·.height.toNat)).toFinset }

/-- The calls of `maybe_prune`, with the heights and snapshots to keep. -/
@[simp] def pruneLayers (recent receipt body keep : ℕ) : PruneState :=
  (((s.pruneExecutionTraces (h - recent)).pruneReceipts (h - receipt)).pruneBlockBodies
    (h - body)).pruneOldSnapshots keep

def maybePrune (config : PruneConfig) : PruneState :=
  match config.nodeMode with
  | .archive => s
  | .light => s.pruneLayers h 1000 1000 1000 1
  | .full | .validator =>
    if config.pruneInterval ∣ h then s.pruneLayers h config.keepRecent config.keepReceipt
      config.keepBlockBody config.snapshotKeep else s

end PruneState

inductive PruneOp
  | add (l : Layer) (h : ℕ)
  | addSnapshot (x : StateSnapshot)
  | wrote (db : Database)
  | maybePrune (h : ℕ)

variable (config : PruneConfig) (h : ℕ) (s t : PruneState)

/-- What is recorded, what the node writes to its database, and the calls. -/
def PruneState.step : PruneOp → PruneState
  | .add l h => s.add h l
  | .addSnapshot x => s.addSnapshot x
  | .wrote db => { s with db := db }
  | .maybePrune h => s.maybePrune h config

/-- What a call at height `h` has to keep. -/
structure Retained : Prop where
  blocks : ∀ b, h - config.keepBlockBody ≤ b → (s.db.row .consensusBlocks b).isSome →
    t.db.row .consensusBlocks b = s.db.row .consensusBlocks b ∧
      t.db.row .blockHashByHeight b = s.db.row .blockHashByHeight b
  receipts : ∀ b, h - config.keepReceipt ≤ b → (b ∈ s.tracked .receipts → b ∈ t.tracked .receipts) ∧
    t.db.row .receipts b = s.db.row .receipts b
  snapshots : s.snapshots.drop (s.snapshots.length - config.snapshotKeep) <:+ t.snapshots

/-- No stored block within `keep_block_body` has a trace beyond `keep_recent`. -/
def Spared : Prop :=
  config.pruneInterval ∣ h → ∀ b ∈ s.tracked .executionTraces, h - config.keepBlockBody ≤ b →
    b < h - config.keepRecent → s.db.row .consensusBlocks b = none

variable {config h s}

theorem retained_iff (hmode : config.nodeMode = .full ∨ config.nodeMode = .validator) :
    Retained config h s (s.maybePrune h config) ↔ Spared config h s := by
  have hprune : s.maybePrune h config = if config.pruneInterval ∣ h then s.pruneLayers h
      config.keepRecent config.keepReceipt config.keepBlockBody config.snapshotKeep else s := by
    unfold PruneState.maybePrune
    rcases hmode with hm | hm <;> rw [hm]
  rw [hprune, Spared]
  by_cases hdvd : config.pruneInterval ∣ h
  · rw [if_pos hdvd]
    simp only [hdvd, forall_const]
    constructor
    · intro hr b hb hbody hrec
      by_contra hne
      have hrow := (hr.blocks b hbody (Option.isSome_iff_ne_none.2 hne)).1
      simp [hb, hrec] at hrow
      exact hne hrow.symm
    · intro hspared
      refine ⟨fun b hbody hsome => ?_, fun b hrec => ?_, List.suffix_refl _⟩
      · have htrace : b ∈ s.tracked .executionTraces → ¬ b < h - config.keepRecent := fun hb hlt => by
          simp [hspared b hb hbody hlt] at hsome
        constructor <;> simp +contextual [not_lt.2 hbody, htrace]
      · simp [not_lt.2 hrec]
  · rw [if_neg hdvd]
    simp only [hdvd, false_imp_iff, iff_true]
    exact ⟨fun _ _ _ => ⟨rfl, rfl⟩, fun _ _ => ⟨id, rfl⟩, List.drop_suffix ..⟩

/-- **Pruning keeps what is recent.** The calls of a run keep what they have to exactly if none of
them meets a trace that is old on a block that is not. -/
theorem pruning_retains_iff (config : PruneConfig)
    (hmode : config.nodeMode = .full ∨ config.nodeMode = .validator) (s : PruneState)
    (ops : List PruneOp) :
    Run.Along (PruneState.step config)
        (fun s op => ∀ h, op = .maybePrune h → Retained config h s (s.step config op)) s ops ↔
      Run.Along (PruneState.step config) (fun s op => ∀ h, op = .maybePrune h → Spared config h s)
        s ops := by
  induction ops generalizing s with
  | nil => rfl
  | cons op ops ih =>
    rw [Run.Along, Run.Along, ih]
    refine and_congr_left fun _ => forall₂_congr fun h hop => ?_
    subst hop
    exact retained_iff hmode

def oneBlock : PruneState :=
  ⟨fun _ => {120000}, [], .nil, some fun _ h => if h = 120000 then some [1] else none⟩

theorem pruning_retains_recent :
    Run.Along (PruneState.step {}) (fun s op => ∀ h, op = .maybePrune h →
      Retained {} h s (s.step {} op)) oneBlock [.maybePrune 170000] := by
  refine (pruning_retains_iff {} (.inl rfl) _ _).2 ⟨fun h hop => ?_, trivial⟩
  cases hop
  unfold Spared
  decide

/-- The block is within its 100000, but its trace is beyond its 50000. -/
theorem block_lost_with_trace : 200000 - ({} : PruneConfig).keepBlockBody ≤ 120000 ∧
    oneBlock.db.row .consensusBlocks 120000 = some [1] ∧
    (oneBlock.maybePrune 200000 {}).db.row .consensusBlocks 120000 = none := by
  decide

/-! ### Missed calls -/

theorem pruneLayers_absorbs {h' : ℕ} (hle : h ≤ h') (recent receipt body keep : ℕ) :
    (s.pruneLayers h recent receipt body keep).pruneLayers h' recent receipt body keep =
      s.pruneLayers h' recent receipt body keep := by
  obtain ⟨tracked, snapshots, sorted, db⟩ := s
  have hdrop : snapshots.length - (snapshots.length - keep) - keep = 0 := by omega
  simp only [PruneState.pruneLayers, PruneState.pruneExecutionTraces, PruneState.pruneReceipts,
    PruneState.pruneBlockBodies, PruneState.pruneOldSnapshots, PruneState.prune,
    PruneState.mk.injEq, List.length_drop, hdrop, List.drop_zero, List.take_zero]
  refine ⟨?_, trivial, ?_⟩
  · funext l
    ext b
    cases l <;> simp <;> grind
  · cases db with
    | none => rfl
    | some d =>
      simp only [Database.del, Option.map_some]
      congr 1
      funext t b
      cases t <;> simp <;> grind

theorem maybePrune_absorbs {h' : ℕ} (hdue : config.pruneInterval ∣ h') (hle : h ≤ h') :
    (s.maybePrune h config).maybePrune h' config = s.maybePrune h' config := by
  unfold PruneState.maybePrune
  cases config.nodeMode with
  | archive => rfl
  | light => exact pruneLayers_absorbs hle ..
  | full | validator =>
    simp only [hdue, if_true]
    split_ifs
    · exact pruneLayers_absorbs hle ..
    · rfl

/-- **Missed calls are made up for.** After a call that is due it makes no difference which calls
were made at the heights up to it, and which were missed. -/
theorem missed_calls_made_up (config : PruneConfig) (s : PruneState) {h : ℕ}
    (hdue : config.pruneInterval ∣ h) (heights : List ℕ) (hle : ∀ k ∈ heights, k ≤ h) :
    (Run.run (PruneState.step config) s (heights.map .maybePrune)).maybePrune h config =
      s.maybePrune h config := by
  induction heights generalizing s with
  | nil => rfl
  | cons k heights ih =>
    rw [List.map_cons, Run.run_cons, ih _ fun j hj => hle j (List.mem_cons_of_mem _ hj)]
    exact maybePrune_absorbs hdue (hle k List.mem_cons_self)

theorem missed_call_at_170000 :
    (Run.run (PruneState.step {}) oneBlock [.maybePrune 170000]).maybePrune 200000 {} =
      oneBlock.maybePrune 200000 {} :=
  missed_calls_made_up {} oneBlock (by decide) [170000] (by decide)

end Callchain.Storage

/-
# A vault of notes

Value goes into a vault as notes and comes out when a note is spent. The state is the
set of unspent notes, with the totals put in and taken out so far, for each asset. A
move puts a note in, takes one out, or exchanges notes for others that are worth no
more. Notes may get lost in a move; they never appear otherwise. So what was taken out
and what is still there is never more than what was put in (`Step.solvent`).
-/
import Mathlib

namespace Callchain.Vault

variable {ν α : Type*} [DecidableEq ν] [DecidableEq α]

structure State (ν α : Type*) where
  unspent : Finset ν
  deposited : α → ℕ
  withdrawn : α → ℕ

variable (value : ν → ℕ) (asset : ν → α)

def worth (notes : Finset ν) : α → ℕ := ∑ n ∈ notes, Pi.single (asset n) (value n)

inductive Step (v v' : State ν α) : Prop
  | deposit (n : ν) : v'.unspent ⊆ insert n v.unspent →
      v'.deposited = v.deposited + Pi.single (asset n) (value n) → v'.withdrawn = v.withdrawn → Step v v'
  | withdraw (n : ν) : n ∈ v.unspent → v'.unspent ⊆ v.unspent.erase n → v'.deposited = v.deposited →
      v'.withdrawn = v.withdrawn + Pi.single (asset n) (value n) → Step v v'
  | transfer (ins outs : Finset ν) : ins ⊆ v.unspent → worth value asset outs ≤ worth value asset ins →
      v'.unspent ⊆ (v.unspent \ ins) ∪ outs → v'.deposited = v.deposited →
      v'.withdrawn = v.withdrawn → Step v v'

def Solvent (v : State ν α) : Prop := v.withdrawn + worth value asset v.unspent ≤ v.deposited

variable {value asset}

omit [DecidableEq ν] in
theorem worth_mono {S T : Finset ν} (h : S ⊆ T) : worth value asset S ≤ worth value asset T :=
  Finset.sum_le_sum_of_subset h

theorem worth_insert_le (n : ν) (S : Finset ν) :
    worth value asset (insert n S) ≤ Pi.single (asset n) (value n) + worth value asset S := by
  by_cases hn : n ∈ S
  · rw [Finset.insert_eq_of_mem hn]
    exact le_add_self
  · exact (Finset.sum_insert hn).le

theorem worth_erase {n : ν} {S : Finset ν} (h : n ∈ S) :
    Pi.single (asset n) (value n) + worth value asset (S.erase n) = worth value asset S :=
  Finset.add_sum_erase S (fun m => (Pi.single (asset m) (value m) : α → ℕ)) h

theorem worth_sdiff {S T : Finset ν} (h : S ⊆ T) :
    worth value asset (T \ S) + worth value asset S = worth value asset T :=
  Finset.sum_sdiff h

theorem worth_union_le (S T : Finset ν) :
    worth value asset (S ∪ T) ≤ worth value asset S + worth value asset T := by
  have h : worth value asset (S ∪ T) + worth value asset (S ∩ T) =
      worth value asset S + worth value asset T := Finset.sum_union_inter
  rw [← h]
  exact le_self_add

/-! ### Notes of one asset -/

theorem worth_toFinset {a : α} {notes : List ν} (hnod : notes.Nodup)
    (h : ∀ n ∈ notes, asset n = a) :
    worth value asset notes.toFinset = Pi.single a (notes.map value).sum := by
  induction notes with
  | nil => simp [worth]
  | cons n notes ih =>
    obtain ⟨hn, hnod⟩ := List.nodup_cons.1 hnod
    have htail := ih hnod fun m hm => h m (List.mem_cons_of_mem n hm)
    have hnew : n ∉ notes.toFinset := by rwa [List.mem_toFinset]
    calc worth value asset (n :: notes).toFinset
        = Pi.single (asset n) (value n) + worth value asset notes.toFinset := by
          rw [List.toFinset_cons]
          exact Finset.sum_insert hnew
      _ = Pi.single a ((n :: notes).map value).sum := by
          rw [h n List.mem_cons_self, htail, List.map_cons, List.sum_cons, Pi.single_add]

theorem worth_toFinset_le {a : α} {notes : List ν} (h : ∀ n ∈ notes, asset n = a) :
    worth value asset notes.toFinset ≤ Pi.single a (notes.map value).sum := by
  have hset : notes.toFinset = notes.dedup.toFinset :=
    List.toFinset_eq_iff_perm_dedup.2 (by rw [List.dedup_idem])
  rw [hset, worth_toFinset notes.nodup_dedup fun n hn => h n (List.mem_dedup.1 hn)]
  exact Pi.single_mono a (((List.dedup_sublist notes).map value).sum_le_sum fun _ _ => Nat.zero_le _)

/-! ### Solvency -/

theorem Step.solvent {v v' : State ν α} (h : Step value asset v v') (hv : Solvent value asset v) :
    Solvent value asset v' := by
  cases h with
  | deposit n hu hd hw =>
    calc v'.withdrawn + worth value asset v'.unspent
        ≤ v.withdrawn + (Pi.single (asset n) (value n) + worth value asset v.unspent) := by
          rw [hw]
          exact add_le_add_right ((worth_mono hu).trans (worth_insert_le n _)) _
      _ = (v.withdrawn + worth value asset v.unspent) + Pi.single (asset n) (value n) := by
          rw [add_left_comm, add_comm]
      _ ≤ v'.deposited := by
          rw [hd]
          exact add_le_add_left hv _
  | withdraw n hn hu hd hw =>
    calc v'.withdrawn + worth value asset v'.unspent
        ≤ v.withdrawn + (Pi.single (asset n) (value n) + worth value asset (v.unspent.erase n)) := by
          rw [hw, add_assoc]
          exact add_le_add_right (add_le_add_right (worth_mono hu) _) _
      _ = v.withdrawn + worth value asset v.unspent := by rw [worth_erase hn]
      _ ≤ v'.deposited := by rw [hd]; exact hv
  | transfer ins outs hins hwor hu hd hw =>
    have hle : worth value asset v'.unspent ≤ worth value asset v.unspent :=
      calc worth value asset v'.unspent
          ≤ worth value asset (v.unspent \ ins) + worth value asset outs :=
            (worth_mono hu).trans (worth_union_le _ _)
        _ ≤ worth value asset (v.unspent \ ins) + worth value asset ins := add_le_add_right hwor _
        _ = worth value asset v.unspent := worth_sdiff hins
    calc v'.withdrawn + worth value asset v'.unspent
        ≤ v.withdrawn + worth value asset v.unspent := by
          rw [hw]
          exact add_le_add_right hle _
      _ ≤ v'.deposited := by rw [hd]; exact hv

end Callchain.Vault

/-
# Writes, of which the last one counts

A map that is written entry by entry holds, at each key, what was written there
last. `writeAll` is the map after a list of writes. What it holds at the keys of one
kind depends on the writes to these keys alone (`writeAll_comp`), and its values add
up to what was written exactly if no write that counts for something is written over
(`total_writeAll_eq_iff`).
-/
import Callchain.Lib.Ledger
import Mathlib.Algebra.GroupWithZero.Nat
import Mathlib.Data.List.Induction

namespace Callchain.LastWrite

open Function (update update_of_ne update_self)

variable {κ ι ν μ : Type*} [DecidableEq κ]

def writeAll (f : κ → ν) (ws : List (κ × ν)) : κ → ν :=
  ws.foldl (fun f w => update f w.1 w.2) f

theorem writeAll_cons (f : κ → ν) (w : κ × ν) (ws : List (κ × ν)) :
    writeAll f (w :: ws) = writeAll (update f w.1 w.2) ws := rfl

theorem writeAll_append (f : κ → ν) (ws ws' : List (κ × ν)) :
    writeAll f (ws ++ ws') = writeAll (writeAll f ws) ws' := List.foldl_append

theorem writeAll_snoc (f : κ → ν) (ws : List (κ × ν)) (k : κ) (v : ν) :
    writeAll f (ws ++ [(k, v)]) = update (writeAll f ws) k v := writeAll_append f ws _

variable {f : κ → ν} {ws : List (κ × ν)} {k : κ}

theorem writeAll_of_notMem (h : k ∉ ws.map Prod.fst) : writeAll f ws k = f k := by
  induction ws generalizing f with
  | nil => rfl
  | cons w ws ih =>
    rw [List.map_cons, List.mem_cons, not_or] at h
    rw [writeAll_cons, ih h.2, update_of_ne h.1]

/-- A write that no later one of its key follows. -/
def IsLast (ws : List (κ × ν)) (w : κ × ν) : Prop :=
  ∃ before after, ws = before ++ w :: after ∧ w.1 ∉ after.map Prod.fst

omit [DecidableEq κ] in
theorem IsLast.mem {w : κ × ν} (h : IsLast ws w) : w ∈ ws := by
  obtain ⟨before, after, rfl, -⟩ := h
  exact List.mem_append_right _ List.mem_cons_self

theorem writeAll_of_isLast {v : ν} (h : IsLast ws (k, v)) : writeAll f ws k = v := by
  obtain ⟨before, after, rfl, haft⟩ := h
  rw [writeAll_append, writeAll_cons, writeAll_of_notMem haft, update_self]

theorem exists_isLast (h : k ∈ ws.map Prod.fst) : ∃ v, IsLast ws (k, v) := by
  induction ws with
  | nil => simp at h
  | cons w ws ih =>
    by_cases hrest : k ∈ ws.map Prod.fst
    · obtain ⟨v, before, after, heq, haft⟩ := ih hrest
      exact ⟨v, w :: before, after, by rw [heq, List.cons_append], haft⟩
    · rw [List.map_cons, List.mem_cons] at h
      have hk : k = w.1 := h.resolve_right hrest
      exact ⟨w.2, [], ws, by rw [hk]; rfl, hrest⟩

theorem writeAll_eq_iff {v : ν}
    (h : k ∈ ws.map Prod.fst) : writeAll f ws k = v ↔ IsLast ws (k, v) := by
  refine ⟨?_, writeAll_of_isLast⟩
  rintro rfl
  obtain ⟨v, hlast⟩ := exists_isLast h
  rwa [writeAll_of_isLast hlast]

theorem writeAll_map (g : ν → μ) (f : κ → ν) (ws : List (κ × ν)) (k : κ) :
    g (writeAll f ws k) = writeAll (fun k => g (f k)) (ws.map fun w => (w.1, g w.2)) k := by
  induction ws generalizing f with
  | nil => rfl
  | cons w ws ih =>
    rw [writeAll_cons, ih, List.map_cons, writeAll_cons]
    congr 1
    funext j
    by_cases hj : j = w.1
    · subst hj
      rw [update_self, update_self]
    · rw [update_of_ne hj, update_of_ne hj]

theorem writeAll_comp [DecidableEq ι] {e : ι → κ} {π : κ → Option ι}
    (hπ : ∀ k i, π k = some i ↔ e i = k) (f : κ → ν) (ws : List (κ × ν)) (i : ι) :
    writeAll f ws (e i) =
      writeAll (fun i => f (e i)) (ws.filterMap fun w => (π w.1).map fun i => (i, w.2)) i := by
  induction ws generalizing f with
  | nil => rfl
  | cons w ws ih =>
    rw [writeAll_cons, ih, List.filterMap_cons]
    cases hw : π w.1 with
    | none =>
      have hne : ∀ j, e j ≠ w.1 := fun j hj => by simp [(hπ w.1 j).2 hj] at hw
      congr 1
      funext j
      rw [update_of_ne (hne j)]
    | some j =>
      simp only [Option.map_some]
      rw [writeAll_cons]
      congr 1
      funext j'
      have hj := (hπ w.1 j).1 hw
      by_cases hj' : j' = j
      · rw [hj', hj, update_self, update_self]
      · have hne : e j' ≠ w.1 := by
          intro heq
          have hsome := (hπ w.1 j').2 heq
          rw [hw] at hsome
          exact hj' (Option.some.inj hsome).symm
        rw [update_of_ne hne, update_of_ne hj']

/-! ### Sums -/

section
variable [Fintype κ]

theorem total_writeAll_snoc (ws : List (κ × ℕ)) (w : κ × ℕ) :
    Ledger.total (writeAll (fun _ => 0) (ws ++ [w])) + writeAll (fun _ => 0) ws w.1 =
      Ledger.total (writeAll (fun _ => 0) ws) + w.2 := by
  rw [writeAll_snoc]
  exact Ledger.total_update _ w.1 w.2

theorem total_writeAll_le (ws : List (κ × ℕ)) :
    Ledger.total (writeAll (fun _ => 0) ws) ≤ (ws.map Prod.snd).sum := by
  induction ws using List.reverseRecOn with
  | nil =>
    have hzero : Ledger.total (writeAll (fun _ : κ => 0) []) = 0 := Ledger.total_eq_zero fun _ => rfl
    rw [hzero]
    exact Nat.zero_le _
  | append_singleton ws w =>
    have hstep := total_writeAll_snoc ws w
    rw [List.map_append, List.sum_append, List.map_singleton, List.sum_singleton]
    omega

omit [Fintype κ] in
theorem zero_of_writeAll_eq_zero {ws : List (κ × ℕ)} {w : κ × ℕ}
    (hpai : ws.Pairwise fun w w' => w.1 = w'.1 → w.2 = 0) (hw : w ∈ ws)
    (hzero : writeAll (fun _ => 0) ws w.1 = 0) : w.2 = 0 := by
  obtain ⟨v, hlast⟩ := exists_isLast (List.mem_map_of_mem hw)
  rw [writeAll_of_isLast hlast] at hzero
  obtain ⟨before, after, rfl, haft⟩ := hlast
  rcases List.mem_append.1 hw with hbef | hw
  · exact (List.pairwise_append.1 hpai).2.2 w hbef _ List.mem_cons_self rfl
  · rcases List.mem_cons.1 hw with heq | hmem
    · rw [heq]
      exact hzero
    · exact absurd (List.mem_map_of_mem hmem) haft

theorem total_writeAll_eq_iff (ws : List (κ × ℕ)) :
    Ledger.total (writeAll (fun _ => 0) ws) = (ws.map Prod.snd).sum ↔
      ws.Pairwise fun w w' => w.1 = w'.1 → w.2 = 0 := by
  induction ws using List.reverseRecOn with
  | nil =>
    have hzero : Ledger.total (writeAll (fun _ : κ => 0) []) = 0 := Ledger.total_eq_zero fun _ => rfl
    exact iff_of_true hzero List.Pairwise.nil
  | append_singleton ws w ih =>
    have hle := total_writeAll_le ws
    have hstep := total_writeAll_snoc ws w
    rw [List.map_append, List.sum_append, List.map_singleton, List.sum_singleton,
      List.pairwise_append]
    -- the step keeps the sum exactly if it writes over a zero
    have hspl : Ledger.total (writeAll (fun _ => 0) (ws ++ [w])) = (ws.map Prod.snd).sum + w.2 ↔
        Ledger.total (writeAll (fun _ => 0) ws) = (ws.map Prod.snd).sum ∧
          writeAll (fun _ => 0) ws w.1 = 0 := by
      constructor
      · intro h
        omega
      · intro h
        omega
    rw [hspl, ih]
    refine ⟨?_, ?_⟩
    · rintro ⟨hpai, hzero⟩
      refine ⟨hpai, List.pairwise_singleton _ _, fun a ha b hb hab => ?_⟩
      rw [List.mem_singleton.1 hb] at hab
      rw [← hab] at hzero
      exact zero_of_writeAll_eq_zero hpai ha hzero
    · rintro ⟨hpai, -, hlast⟩
      refine ⟨hpai, ?_⟩
      by_cases hmem : w.1 ∈ ws.map Prod.fst
      · obtain ⟨v, hv⟩ := exists_isLast hmem
        rw [writeAll_of_isLast hv]
        exact hlast _ hv.mem w (List.mem_singleton.2 rfl) rfl
      · rw [writeAll_of_notMem hmem]

end

end Callchain.LastWrite

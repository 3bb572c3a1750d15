/-
# A stable sort by a key

`sortByKey` leaves entries of equal key in the order they came. So the keys of the
result depend on the entries alone, not on their order (`map_key_sortByKey_of_perm`),
but the entries kept by a filter come out the same for every order exactly when no two
of them have one key (`sortByKey_filter_map_perm_iff`).
-/
import Mathlib.Data.List.Pairwise
import Mathlib.Data.List.Sort

namespace Callchain

variable {α β κ : Type*} [LinearOrder κ] (key : α → κ)

def sortByKey (l : List α) : List α := l.insertionSort fun a b => key a ≤ key b

local instance totalKeyLe : Std.Total fun a b : α => key a ≤ key b := ⟨fun a b => le_total (key a) (key b)⟩

local instance symmKeyNe : Std.Symm fun a b : α => key a ≠ key b := ⟨fun _ _ h => h.symm⟩

local instance transKeyLe : IsTrans α fun a b => key a ≤ key b := ⟨fun _ _ _ => le_trans⟩

theorem sortByKey_perm (l : List α) : (sortByKey key l).Perm l := List.perm_insertionSort _ l

theorem sortByKey_pairwise (l : List α) :
    (sortByKey key l).Pairwise fun a b => key a ≤ key b := List.pairwise_insertionSort _ l

theorem sortByKey_map (g : β → α) (l : List β) :
    sortByKey key (l.map g) = (sortByKey (fun b => key (g b)) l).map g :=
  (List.map_insertionSort _ _ g l fun _ _ _ _ => Iff.rfl).symm

variable {key}

theorem map_key_sortByKey_of_perm {l l' : List α} (h : l'.Perm l) :
    (sortByKey key l').map key = (sortByKey key l).map key := by
  have hperm : (sortByKey key l').Perm (sortByKey key l) :=
    ((sortByKey_perm key l').trans h).trans (sortByKey_perm key l).symm
  have hsor : ∀ l, ((sortByKey key l).map key).Pairwise (· ≤ ·) := fun l =>
    List.pairwise_map.2 (sortByKey_pairwise key l)
  exact List.Perm.eq_of_pairwise (fun _ _ _ _ => le_antisymm) (hsor l') (hsor l)
    (hperm.map key)

theorem not_pair_sublist_swap {a b : β} : ∀ {l : List β}, l.Nodup → [a, b].Sublist l →
    ¬ [b, a].Sublist l
  | [], _, hab => by simp at hab
  | x :: l, hl, hab => by
    obtain ⟨hx, hl⟩ := List.nodup_cons.1 hl
    intro hba
    cases hab with
    | cons _ hab =>
      cases hba with
      | cons _ hba => exact not_pair_sublist_swap hl hab hba
      | cons_cons => exact hx (hab.subset (by simp))
    | cons_cons =>
      cases hba with
      | cons _ hba => exact hx (hba.subset (by simp))
      | cons_cons _ hba => exact hx (hba.subset (by simp))

/-- What a filter keeps of the sorted list, named by `f`, is the same for every
order of the entries exactly when the kept entries have different keys. -/
theorem sortByKey_filter_map_perm_iff {f : α → β} {p : α → Bool} {l : List α}
    (hl : (l.map f).Nodup) :
    (∀ l', l'.Perm l → ((sortByKey key l').filter p).map f = ((sortByKey key l).filter p).map f) ↔
      (l.filter p).Pairwise fun a b => key a ≠ key b := by
  constructor
  · intro h
    rw [List.pairwise_iff_forall_sublist]
    intro a b hab heq
    -- reversing the list turns the two entries around
    have hba : [b, a].Sublist (l.reverse.filter p) := by
      rw [List.filter_reverse]
      exact hab.reverse
    have hkept : ∀ {x y : α} {l : List α}, [x, y].Sublist (l.filter p) → key x ≤ key y →
        [f x, f y].Sublist (((sortByKey key l).filter p).map f) := by
      intro x y l hxy hle
      have hsor : [x, y].Sublist (sortByKey key l) :=
        List.pair_sublist_insertionSort hle (hxy.trans List.filter_sublist)
      have hp : ∀ z ∈ [x, y], p z = true := fun z hz => (List.mem_filter.1 (hxy.subset hz)).2
      have hfil := hsor.filter p
      rw [List.filter_eq_self.2 hp] at hfil
      exact hfil.map f
    have hnod : (((sortByKey key l).filter p).map f).Nodup :=
      ((List.filter_sublist.map f).nodup (((sortByKey_perm key l).map f).nodup_iff.2 hl))
    refine not_pair_sublist_swap hnod (hkept hab heq.le) ?_
    rw [← h l.reverse l.reverse_perm]
    exact hkept hba heq.ge
  · intro h l' hperm
    have hfil : ((sortByKey key l').filter p).Perm ((sortByKey key l).filter p) :=
      (((sortByKey_perm key l').trans hperm).trans (sortByKey_perm key l).symm).filter p
    have hdis : ((sortByKey key l).filter p).Pairwise fun a b => key a ≠ key b :=
      (((sortByKey_perm key l).filter p).pairwise_iff fun hab => hab.symm).2 h
    have hsor : ∀ l, ((sortByKey key l).filter p).Pairwise fun a b => key a ≤ key b := fun l =>
      (sortByKey_pairwise key l).filter p
    have hkept : (sortByKey key l').filter p = (sortByKey key l).filter p := by
      refine List.Perm.eq_of_pairwise ?_ (hsor l') (hsor l) hfil
      intro a b ha hb hab hba
      by_contra hne
      exact hdis.forall (hfil.mem_iff.1 ha) hb hne
        (le_antisymm hab hba)
    rw [hkept]

end Callchain

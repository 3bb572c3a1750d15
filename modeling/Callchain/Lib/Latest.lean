/-
# The latest entry of a timeline that meets a condition

A loop over a list that overwrites a value at every entry meeting a condition ends with
the value of the last such entry, or with the one it began with. Over a list in strictly
increasing order of a key that is the entry of the largest key (`latest_eq_iff`).
-/
import Mathlib.Data.List.Pairwise
import Mathlib.Order.Lattice

namespace Callchain.Latest

variable {α β κ : Type*}

section Fold

variable (f : α → β)

/-- The value `f` of the last entry that meets `p`, or else `d`. -/
def latest (p : α → Prop) [DecidablePred p] (d : β) : List α → β
  | [] => d
  | e :: es => latest p (if p e then f e else d) es

variable {f} {p q : α → Prop} [DecidablePred p] [DecidablePred q]

theorem latest_of_forall : ∀ {es : List α} {d : β}, (∀ e ∈ es, p e → f e = d) → latest f p d es = d
  | [], _, _ => rfl
  | e :: es, d, h => by
    have hhead : (if p e then f e else d) = d := ite_eq_right_iff.2 (h e List.mem_cons_self)
    rw [latest, hhead]
    exact latest_of_forall fun x hx => h x (List.mem_cons_of_mem _ hx)

theorem latest_of_none {es : List α} {d : β} (h : ∀ e ∈ es, ¬ p e) : latest f p d es = d :=
  latest_of_forall fun e he hp => absurd hp (h e he)

theorem latest_congr : ∀ {es : List α} {d : β}, (∀ e ∈ es, (p e ↔ q e)) →
    latest f p d es = latest f q d es
  | [], _, _ => rfl
  | e :: es, d, h => by
    have hhead : (if p e then f e else d) = if q e then f e else d :=
      if_congr (h e List.mem_cons_self) rfl rfl
    rw [latest, hhead]
    exact latest_congr fun x hx => h x (List.mem_cons_of_mem _ hx)

theorem latest_map {γ : Type*} (g : γ → α) : ∀ {es : List γ} {d : β},
    latest f p d (es.map g) = latest (fun e => f (g e)) (fun e => p (g e)) d es
  | [], _ => rfl
  | e :: es, d => by
    rw [List.map_cons]
    exact latest_map g

theorem latest_of_mem : ∀ {es : List α} {d d' : β}, (∃ e ∈ es, p e) →
    latest f p d es = latest f p d' es
  | [], _, _, h => by
    obtain ⟨_, hmem, _⟩ := h
    cases hmem
  | e :: es, d, d', h => by
    rw [latest, latest]
    by_cases he : p e
    · rw [if_pos he, if_pos he]
    · obtain ⟨x, hx, hpx⟩ := h
      rcases List.mem_cons.1 hx with rfl | hx
      · exact absurd hpx he
      · exact latest_of_mem ⟨x, hx, hpx⟩

theorem latest_latest : ∀ {es : List α} {d : β}, es.Pairwise (fun a b => q a → ¬ p b) →
    latest f q (latest f p d es) es = latest f (fun e => p e ∨ q e) d es
  | [], _, _ => rfl
  | e :: es, d, h => by
    obtain ⟨hhead, htail⟩ := List.pairwise_cons.1 h
    by_cases hq : q e
    · have hnone : ∀ x ∈ es, ¬ p x := fun x hx => hhead x hx hq
      rw [latest, if_pos hq, latest, if_pos (Or.inr hq)]
      exact latest_congr fun x hx => ⟨Or.inr, fun h => h.resolve_left (hnone x hx)⟩
    · have hor : (p e ∨ q e) ↔ p e := or_iff_left hq
      rw [latest, latest, latest, if_neg hq, if_congr hor rfl rfl]
      exact latest_latest htail

end Fold

section Keyed

variable [LinearOrder κ] (key : α → κ) (p : α → Prop)

/-- `e` is the entry of the largest key among those of `es` that meet `p`. -/
structure IsLatest (es : List α) (e : α) : Prop where
  mem : e ∈ es
  meets : p e
  last : ∀ x ∈ es, p x → key x ≤ key e

variable {key p} [DecidablePred p] {f : α → β}

theorem latest_of_isLatest {e : α} : ∀ {es : List α} {d : β},
    es.Pairwise (fun a b => key a < key b) → IsLatest key p es e → latest f p d es = f e
  | [], _, _, h => absurd h.mem List.not_mem_nil
  | x :: es, d, hs, h => by
    obtain ⟨hhead, htail⟩ := List.pairwise_cons.1 hs
    rw [latest]
    rcases List.mem_cons.1 h.mem with rfl | hmem
    · have hnone : ∀ y ∈ es, ¬ p y := fun y hy hpy =>
        absurd (h.last y (List.mem_cons_of_mem _ hy) hpy) (not_le.2 (hhead y hy))
      rw [latest_of_none hnone, if_pos h.meets]
    · exact latest_of_isLatest htail
        ⟨hmem, h.meets, fun y hy => h.last y (List.mem_cons_of_mem _ hy)⟩

theorem exists_isLatest : ∀ {es : List α}, es.Pairwise (fun a b => key a < key b) →
    (∃ e ∈ es, p e) → ∃ e, IsLatest key p es e
  | [], _, h => by
    obtain ⟨_, hmem, _⟩ := h
    cases hmem
  | x :: es, hs, h => by
    obtain ⟨hhead, htail⟩ := List.pairwise_cons.1 hs
    by_cases hrest : ∃ e ∈ es, p e
    · obtain ⟨e, he⟩ := exists_isLatest htail hrest
      refine ⟨e, List.mem_cons_of_mem _ he.mem, he.meets, fun y hy hpy => ?_⟩
      rcases List.mem_cons.1 hy with rfl | hy
      · exact (hhead e he.mem).le
      · exact he.last y hy hpy
    · obtain ⟨e, he, hpe⟩ := h
      rcases List.mem_cons.1 he with rfl | he
      · refine ⟨e, List.mem_cons_self, hpe, fun y hy hpy => ?_⟩
        rcases List.mem_cons.1 hy with rfl | hy
        · exact le_rfl
        · exact absurd ⟨y, hy, hpy⟩ hrest
      · exact absurd ⟨e, he, hpe⟩ hrest

theorem latest_eq_iff {es : List α} {d v : β} (hs : es.Pairwise fun a b => key a < key b) :
    latest f p d es = v ↔ (∃ e, IsLatest key p es e ∧ f e = v) ∨ (∀ e ∈ es, ¬ p e) ∧ d = v := by
  by_cases hex : ∃ e ∈ es, p e
  · obtain ⟨e, he⟩ := exists_isLatest hs hex
    rw [latest_of_isLatest hs he]
    constructor
    · intro hv
      exact .inl ⟨e, he, hv⟩
    · rintro (⟨e', he', hv⟩ | ⟨hnone, _⟩)
      · have hsame : f e = f e' :=
          (latest_of_isLatest (d := d) hs he).symm.trans (latest_of_isLatest hs he')
        rw [hsame, hv]
      · exact absurd he.meets (hnone e he.mem)
  · have hnone : ∀ e ∈ es, ¬ p e := fun e he hpe => hex ⟨e, he, hpe⟩
    rw [latest_of_none hnone]
    constructor
    · intro hv
      exact .inr ⟨hnone, hv⟩
    · rintro (⟨e, he, _⟩ | ⟨_, hv⟩)
      · exact absurd he.meets (hnone e he.mem)
      · exact hv

end Keyed

end Callchain.Latest

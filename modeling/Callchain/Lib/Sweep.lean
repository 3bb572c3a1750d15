/-
# Sweeps over a table

A sweep visits keys one after another, and a visit may fail the whole sweep. Where a
visit writes to the entry of its own key only, and every key is visited once, the entry
of a key comes out of the one visit to it, made in a state that still had the entry of
the start.
-/
import Mathlib.Data.List.Basic

namespace Callchain.Sweep

variable {σ κ β : Type*} (visit : σ → κ → Option σ)

/-- The state after visits to `keys` in order. -/
def sweep : List κ → σ → Option σ
  | [], s => some s
  | k :: keys, s => (visit s k).bind (sweep keys)

variable {visit}

theorem sweep_cons_eq_some {k : κ} {keys : List κ} {s t : σ} :
    sweep visit (k :: keys) s = some t ↔ ∃ u, visit s k = some u ∧ sweep visit keys u = some t :=
  Option.bind_eq_some_iff

theorem sweep_induction {P : σ → Prop} {keys : List κ} {s t : σ}
    (hvis : ∀ u k v, k ∈ keys → P u → visit u k = some v → P v)
    (hs : P s) (h : sweep visit keys s = some t) : P t := by
  induction keys generalizing s with
  | nil =>
    cases h
    exact hs
  | cons k keys ih =>
    obtain ⟨u, hu, h⟩ := sweep_cons_eq_some.1 h
    have hPu : P u := hvis s k u List.mem_cons_self hs hu
    exact ih (fun u' k' v hk => hvis u' k' v (List.mem_cons_of_mem _ hk)) hPu h

theorem sweep_of_stay {s : σ} :
    ∀ {keys : List κ}, (∀ k ∈ keys, visit s k = some s) → sweep visit keys s = some s
  | [], _ => rfl
  | k :: keys, h => by
    refine sweep_cons_eq_some.2 ⟨s, h k List.mem_cons_self, ?_⟩
    exact sweep_of_stay fun j hj => h j (List.mem_cons_of_mem _ hj)

/-- A sweep with more in its state than another one: what is more can be left
out at every visit, so at the end. -/
theorem sweep_map {τ : Type*} {visit' : τ → κ → Option τ} (f : τ → σ)
    (hvis : ∀ w k, (visit' w k).map f = visit (f w) k) (keys : List κ) (w : τ) :
    (sweep visit' keys w).map f = sweep visit keys (f w) := by
  induction keys generalizing w with
  | nil => rfl
  | cons k keys ih =>
    show ((visit' w k).bind (sweep visit' keys)).map f = (visit (f w) k).bind (sweep visit keys)
    rw [← hvis w k]
    cases visit' w k with
    | none => rfl
    | some v => exact ih v

section Entry

variable (entry : σ → κ → β)
  (hframe : ∀ s k t, visit s k = some t → ∀ j, j ≠ k → entry t j = entry s j)

include hframe

variable {keys : List κ}

theorem sweep_of_not_mem {s t : σ} (h : sweep visit keys s = some t) {j : κ}
    (hj : j ∉ keys) : entry t j = entry s j := by
  refine sweep_induction (P := fun u => entry u j = entry s j) ?_ rfl h
  intro u k v hk hu hv
  have hne : j ≠ k := fun hjk => hj (hjk ▸ hk)
  rw [hframe u k v hv j hne, hu]

theorem sweep_entry {s t : σ} (hnod : keys.Nodup)
    (h : sweep visit keys s = some t) {j : κ} (hj : j ∈ keys) :
    ∃ u v, entry u j = entry s j ∧ visit u j = some v ∧ entry t j = entry v j := by
  induction keys generalizing s with
  | nil => exact absurd hj List.not_mem_nil
  | cons k keys ih =>
    obtain ⟨hk, hnod⟩ := List.nodup_cons.1 hnod
    obtain ⟨u, hu, hrest⟩ := sweep_cons_eq_some.1 h
    by_cases hjk : j = k
    · subst hjk
      exact ⟨s, u, rfl, hu, sweep_of_not_mem entry hframe hrest hk⟩
    · have hj : j ∈ keys := (List.mem_cons.1 hj).resolve_left hjk
      obtain ⟨u', v, hu', hv, ht⟩ := ih hnod hrest hj
      exact ⟨u', v, hu'.trans (hframe s k u hu j hjk), hv, ht⟩

theorem sweep_induction_entry {P : σ → Prop} {s t : σ} (hnod : keys.Nodup)
    (hvis : ∀ u k v, P u → entry u k = entry s k → visit u k = some v → P v)
    (hs : P s) (h : sweep visit keys s = some t) : P t := by
  -- the keys still to be visited have their old entries
  have hrest : ∀ (rest : List κ) (u : σ), rest.Nodup → P u →
      (∀ j ∈ rest, entry u j = entry s j) → sweep visit rest u = some t → P t := by
    intro rest
    induction rest with
    | nil =>
      intro u _ hu _ hswe
      cases hswe
      exact hu
    | cons k rest ih =>
      intro u hnod hu hold hswe
      obtain ⟨hk, hnod⟩ := List.nodup_cons.1 hnod
      obtain ⟨v, hv, hswe⟩ := sweep_cons_eq_some.1 hswe
      refine ih v hnod (hvis u k v hu (hold k List.mem_cons_self) hv) ?_ hswe
      intro j hj
      have hjk : j ≠ k := fun hjk => hk (hjk ▸ hj)
      rw [hframe u k v hv j hjk, hold j (List.mem_cons_of_mem _ hj)]
  exact hrest keys s hnod hs (fun _ _ => rfl) h

/-- Where a visit fails for what the entry of its key is, a sweep gets to its
end exactly if no entry of the start makes it fail. -/
theorem sweep_isSome_iff (stops : β → Prop) (hsto : ∀ s k, visit s k = none ↔ stops (entry s k))
    {s : σ} (hnod : keys.Nodup) :
    (sweep visit keys s).isSome ↔ ∀ k ∈ keys, ¬ stops (entry s k) := by
  induction keys generalizing s with
  | nil => simp [sweep]
  | cons k keys ih =>
    obtain ⟨hk, hnod⟩ := List.nodup_cons.1 hnod
    rw [List.forall_mem_cons, ← hsto]
    cases hv : visit s k with
    | none => simp [sweep, hv]
    | some u =>
      have hold : ∀ j ∈ keys, entry u j = entry s j := fun j hj =>
        hframe s k u hv j fun hjk => hk (hjk ▸ hj)
      have hswe : sweep visit (k :: keys) s = sweep visit keys u := by simp [sweep, hv]
      rw [hswe, ih hnod]
      simp +contextual [hold]

end Entry

end Callchain.Sweep

/-
# Runs of a deterministic step

A component that takes one input after another is a function `step : σ → α → σ`, and its
run is the fold. A property of runs often holds as long as every step meets a condition
on the state before it and its input. `Along` says so, and the rules below carry
invariants and conserved quantities over such runs.
-/
import Mathlib.Data.List.Induction

namespace Callchain.Run

variable {σ α β : Type*} (step : σ → α → σ)

def run (s : σ) (xs : List α) : σ := xs.foldl step s

@[simp] theorem run_nil (s : σ) : run step s [] = s := rfl

@[simp] theorem run_cons (s : σ) (x : α) (xs : List α) :
    run step s (x :: xs) = run step (step s x) xs := rfl

theorem run_append (s : σ) (xs ys : List α) :
    run step s (xs ++ ys) = run step (run step s xs) ys := List.foldl_append

/-- Every step of the run over `xs` from `s` meets `C`. -/
def Along (C : σ → α → Prop) : σ → List α → Prop
  | _, [] => True
  | s, x :: xs => C s x ∧ Along C (step s x) xs

variable {step}

variable {C : σ → α → Prop} {s : σ} {xs : List α} {I : σ → Prop}

theorem Along.and {D : σ → α → Prop} : ∀ {s : σ} {xs : List α}, Along step C s xs →
    Along step D s xs → Along step (fun s x => C s x ∧ D s x) s xs
  | _, [], _, _ => trivial
  | _, _ :: _, ⟨hc, hcs⟩, ⟨hd, hds⟩ => ⟨⟨hc, hd⟩, hcs.and hds⟩

theorem along_append {ys : List α} : ∀ {s : σ} {xs : List α},
    Along step C s (xs ++ ys) ↔ Along step C s xs ∧ Along step C (run step s xs) ys
  | _, [] => ⟨fun h => ⟨trivial, h⟩, fun h => h.2⟩
  | _, _ :: _ => by
    rw [List.cons_append, Along, Along, along_append, run_cons, and_assoc]

theorem Along.take (n : ℕ) (h : Along step C s xs) : Along step C s (xs.take n) := by
  rw [← List.take_append_drop n xs] at h
  exact (along_append.1 h).1

/-- What holds of the empty run, and is kept when a step is added to a run, holds of
every run. -/
theorem Along.snoc_induction {P : List α → Prop} (hnil : P [])
    (hsnoc : ∀ xs x, C (run step s xs) x → P xs → P (xs ++ [x]))
    (h : Along step C s xs) : P xs := by
  induction xs using List.reverseRecOn with
  | nil => exact hnil
  | append_singleton xs x ih =>
    obtain ⟨hxs, hx⟩ := along_append.1 h
    exact hsnoc xs x hx.1 (ih hxs)

theorem invariant (hstep : ∀ s x, I s → C s x → I (step s x)) :
    ∀ {s : σ} {xs : List α}, Along step C s xs → I s → I (run step s xs)
  | _, [], _, hs => hs
  | _, _ :: _, ⟨hx, hxs⟩, hs => by
    rw [run_cons]
    exact invariant hstep hxs (hstep _ _ hs hx)

/-- A step with a ghost beside it: a value that the step does not read, and
that changes with the step. -/
def watched (step : σ → α → σ) (next : σ → α → β → β) (w : σ × β) (x : α) : σ × β :=
  (step w.1 x, next w.1 x w.2)

theorem watched_invariant {next : σ → α → β → β} {I : σ → β → Prop}
    (hstep : ∀ s b x, I s b → C s x → I (step s x) (next s x b)) {b : β} (h : Along step C s xs)
    (hs : I s b) : I (run step s xs) (run (watched step next) (s, b) xs).2 := by
  induction xs generalizing s b with
  | nil => exact hs
  | cons x xs ih =>
    exact ih h.2 (hstep s b x hs h.1)

theorem along_of_invariant (hstep : ∀ s x, I s → I (step s x)) :
    ∀ {s : σ} {xs : List α}, I s → Along step (fun s _ => I s) s xs
  | _, [], _ => trivial
  | _, _ :: _, hs => ⟨hs, along_of_invariant hstep (hstep _ _ hs)⟩

theorem along_of_forall {D : α → Prop} : ∀ {s : σ} {xs : List α}, (∀ x ∈ xs, D x) →
    Along step (fun _ x => D x) s xs
  | _, [], _ => trivial
  | _, x :: _, h =>
    ⟨h x List.mem_cons_self, along_of_forall fun y hy => h y (List.mem_cons_of_mem _ hy)⟩

theorem invariant_mem :
    ∀ {s : σ} {xs : List α}, (∀ s, ∀ x ∈ xs, I s → I (step s x)) → I s → I (run step s xs)
  | _, [], _, hs => hs
  | s, x :: xs, hstep, hs => by
    rw [run_cons]
    exact invariant_mem (fun s y hy => hstep s y (List.mem_cons_of_mem _ hy))
      (hstep s x List.mem_cons_self hs)

variable (step) in
/-- The sum of `f` over the steps of a run. -/
def tally (f : σ → α → ℕ) : σ → List α → ℕ
  | _, [] => 0
  | s, x :: xs => f s x + tally f (step s x) xs

theorem tally_snoc (f : σ → α → ℕ) (x : α) : ∀ (s : σ) (xs : List α),
    tally step f s (xs ++ [x]) = tally step f s xs + f (run step s xs) x
  | _, [] => (Nat.zero_add _).symm
  | s, y :: xs => by
    rw [List.cons_append, tally, tally, tally_snoc, run_cons, Nat.add_assoc]

/-- A measure that every step lowers by `f`, while the invariant lasts, is
lowered by the tally of `f` over a run. -/
theorem conserved {M : σ → ℕ} {f : σ → α → ℕ} (hinv : ∀ s x, I s → C s x → I (step s x))
    (hstep : ∀ s x, I s → C s x → M (step s x) + f s x = M s) :
    ∀ {s : σ} {xs : List α}, Along step C s xs → I s → M (run step s xs) + tally step f s xs = M s
  | _, [], _, _ => rfl
  | s, x :: xs, ⟨hx, hxs⟩, hs => by
    have h1 := hstep s x hs hx
    have h2 := conserved hinv hstep hxs (hinv s x hs hx)
    simp only [run_cons, tally]
    omega

theorem tally_add (f g : σ → α → ℕ) : ∀ (s : σ) (xs : List α),
    tally step (fun s x => f s x + g s x) s xs = tally step f s xs + tally step g s xs
  | _, [] => rfl
  | s, x :: xs => by
    simp only [tally, tally_add f g]
    omega

theorem bounded {M : σ → ℕ} {f g : σ → α → ℕ}
    (hstep : ∀ s x, C s x → f s x + M (step s x) ≤ M s + g s x) :
    ∀ {s : σ} {xs : List α}, Along step C s xs →
      tally step f s xs + M (run step s xs) ≤ M s + tally step g s xs
  | _, [], _ => by simp [tally]
  | s, x :: xs, ⟨hx, hxs⟩ => by
    have h1 := hstep s x hx
    have h2 := bounded hstep hxs
    simp only [run_cons, tally]
    omega

variable (step) in
/-- What every input of a run yields, in the order of the run. -/
def collect (f : σ → α → List β) : σ → List α → List β
  | _, [] => []
  | s, x :: xs => f s x ++ collect f (step s x) xs

variable (f : σ → α → List β)

theorem collect_append (ys : List α) : ∀ (s : σ) (xs : List α),
    collect step f s (xs ++ ys) = collect step f s xs ++ collect step f (run step s xs) ys
  | _, [] => rfl
  | s, x :: xs => by
    rw [List.cons_append, collect, collect, collect_append, run_cons, List.append_assoc]

theorem collect_snoc (x : α) (s : σ) (xs : List α) :
    collect step f s (xs ++ [x]) = collect step f s xs ++ f (run step s xs) x := by
  rw [collect_append, collect, collect, List.append_nil]

/-- If `R` holds between what a step yields and all that may be yielded after it
(`later`), it holds between any two things a run yields. -/
theorem collect_pairwise {f : σ → α → List β} {R : β → β → Prop} (later : σ → β → Prop)
    (hpair : ∀ s x, C s x → (f s x).Pairwise R) (hnow : ∀ s x, C s x → ∀ b ∈ f s x, later s b)
    (hnext : ∀ s x, C s x → ∀ a ∈ f s x, ∀ b, later (step s x) b → R a b)
    (hmono : ∀ s x b, C s x → later (step s x) b → later s b) :
    ∀ {s : σ} {xs : List α}, Along step C s xs →
      (collect step f s xs).Pairwise R ∧ ∀ b ∈ collect step f s xs, later s b
  | _, [], _ => ⟨List.Pairwise.nil, fun _ h => absurd h List.not_mem_nil⟩
  | s, x :: xs, ⟨hx, hxs⟩ => by
    obtain ⟨hrest, hlat⟩ := collect_pairwise later hpair hnow hnext hmono hxs
    refine ⟨List.pairwise_append.2 ⟨hpair s x hx, hrest, fun a ha b hb => ?_⟩, fun b hb => ?_⟩
    · exact hnext s x hx a ha b (hlat b hb)
    · rcases List.mem_append.1 hb with hb | hb
      · exact hnow s x hx b hb
      · exact hmono s x b hx (hlat b hb)

theorem collect_nodup {f : σ → α → List β} (free : σ → β → Prop)
    (hnod : ∀ s x, C s x → (f s x).Nodup) (hfree : ∀ s x, C s x → ∀ b ∈ f s x, free s b)
    (hused : ∀ s x, C s x → ∀ b ∈ f s x, ¬ free (step s x) b)
    (hmono : ∀ s x b, C s x → free (step s x) b → free s b) (h : Along step C s xs) :
    (collect step f s xs).Nodup ∧ ∀ b ∈ collect step f s xs, free s b := by
  refine collect_pairwise free hnod hfree ?_ hmono h
  intro s x hx a ha b hb hab
  exact hused s x hx a ha (hab ▸ hb)

end Callchain.Run

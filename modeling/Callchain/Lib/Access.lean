/-
# Programs over a keyed storage

A program that loads and stores words under keys, and may stop with an error, is a tree:
what it does next depends on the words it loads. Its meaning here is the plain one, on a
storage that is a function; another interpreter of the same tree may count, refuse or
drop accesses. Success is taken apart step by step with `eval_bind_eq_ok`.
-/
import Mathlib.Logic.Function.Basic

namespace Callchain

/-- Loads and stores of words `V` under keys `K`, with errors `ε`. -/
inductive Access (K V ε α : Type) where
  | pure (a : α)
  | throw (e : ε)
  | load (k : K) (next : V → Access K V ε α)
  | store (k : K) (v : V) (next : Access K V ε α)

namespace Access

variable {K V ε α β : Type}

def bind : Access K V ε α → (α → Access K V ε β) → Access K V ε β
  | .pure a, f => f a
  | .throw e, _ => .throw e
  | .load k next, f => .load k fun v => (next v).bind f
  | .store k v next, f => .store k v (next.bind f)

instance : Monad (Access K V ε) where
  pure := .pure
  bind := .bind

def get (k : K) : Access K V ε V := .load k .pure

def put (k : K) (v : V) : Access K V ε Unit := .store k v (.pure ())

def require (p : Prop) [Decidable p] (e : ε) : Access K V ε Unit :=
  if p then .pure () else .throw e

/-- Words are put only under keys of `P`, whatever the loads return. -/
def WritesIn (P : K → Prop) : Access K V ε α → Prop
  | .pure _ => True
  | .throw _ => True
  | .load _ next => ∀ v, (next v).WritesIn P
  | .store k _ next => P k ∧ next.WritesIn P

theorem WritesIn.bind {P : K → Prop} {f : α → Access K V ε β} : ∀ {p : Access K V ε α},
    p.WritesIn P → (∀ a, (f a).WritesIn P) → (p >>= f).WritesIn P
  | .pure a, _, hf => hf a
  | .throw _, _, _ => trivial
  | .load _ _, h, hf => fun v => (h v).bind hf
  | .store _ _ _, h, hf => ⟨h.1, h.2.bind hf⟩

theorem writesIn_get (P : K → Prop) (k : K) : (get k : Access K V ε V).WritesIn P :=
  fun _ => trivial

theorem writesIn_require (P : K → Prop) (p : Prop) [Decidable p] (e : ε) :
    (require p e : Access K V ε Unit).WritesIn P := by
  unfold require
  split <;> trivial

variable [DecidableEq K]

/-- The meaning on a storage: what is returned, and the storage after it. -/
def eval : Access K V ε α → (K → V) → (K → V) × Except ε α
  | .pure a, s => (s, .ok a)
  | .throw e, s => (s, .error e)
  | .load k next, s => (next (s k)).eval s
  | .store k v next, s => next.eval (Function.update s k v)

variable {s t : K → V} {p : Access K V ε α} {f : α → Access K V ε β}

theorem eval_bind : ∀ (p : Access K V ε α) (f : α → Access K V ε β) (s : K → V),
    (p >>= f).eval s = match p.eval s with
      | (t, .ok a) => (f a).eval t
      | (t, .error e) => (t, .error e)
  | .pure _, _, _ | .throw _, _, _ => rfl
  | .load k next, f, s => eval_bind (next (s k)) f s
  | .store k v next, f, s => eval_bind next f (Function.update s k v)

theorem eval_bind_eq_ok {b : β} :
    (p >>= f).eval s = (t, .ok b) ↔ ∃ u a, p.eval s = (u, .ok a) ∧ (f a).eval u = (t, .ok b) := by
  rw [eval_bind]
  rcases hp : p.eval s with ⟨u, e | a⟩
  · constructor
    · intro h
      exact nomatch congrArg Prod.snd h
    · rintro ⟨u', a, h, -⟩
      exact nomatch congrArg Prod.snd h
  · constructor
    · intro h
      exact ⟨u, a, rfl, h⟩
    · rintro ⟨u', a', h, ht⟩
      obtain ⟨rfl, ha⟩ := Prod.mk.inj h
      rw [← Except.ok.inj ha] at ht
      exact ht

@[simp] theorem eval_pure (a : α) : (Pure.pure a : Access K V ε α).eval s = (s, .ok a) := rfl

@[simp] theorem eval_throw (e : ε) : (throw e : Access K V ε α).eval s = (s, .error e) := rfl

@[simp] theorem eval_get (k : K) : (get k : Access K V ε V).eval s = (s, .ok (s k)) := rfl

@[simp] theorem eval_put (k : K) (v : V) :
    (put k v : Access K V ε Unit).eval s = (Function.update s k v, .ok ()) := rfl

theorem eval_get_bind (k : K) (f : V → Access K V ε β) :
    (get k >>= f).eval s = (f (s k)).eval s := rfl

theorem eval_put_bind (k : K) (v : V) (f : Unit → Access K V ε β) :
    (put k v >>= f).eval s = (f ()).eval (Function.update s k v) := rfl

theorem eval_require_eq_ok {q : Prop} [Decidable q] {e : ε} {u : Unit} :
    (require q e : Access K V ε Unit).eval s = (t, .ok u) ↔ q ∧ s = t := by
  by_cases hq : q
  · simp [require, eval, hq]
  · simp [require, hq]

theorem eval_require_bind_eq_ok {q : Prop} [Decidable q] {e : ε} {f : Unit → Access K V ε β}
    {b : β} : (require q e >>= f).eval s = (t, .ok b) ↔ q ∧ (f ()).eval s = (t, .ok b) := by
  rw [eval_bind_eq_ok]
  constructor
  · rintro ⟨u, ⟨⟩, h, hf⟩
    obtain ⟨hq, rfl⟩ := eval_require_eq_ok.1 h
    exact ⟨hq, hf⟩
  · rintro ⟨hq, hf⟩
    exact ⟨s, (), eval_require_eq_ok.2 ⟨hq, rfl⟩, hf⟩

end Access
end Callchain

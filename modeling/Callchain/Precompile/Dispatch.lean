/-
# The dispatch of a method

`dispatch::mutate` decodes the calldata, takes a checkpoint, runs the handler and
charges the base gas of the method; on any error it reverts to the checkpoint.
`dispatch::view` does without the checkpoint. The variants for methods that return
nothing are those at `Unit`.

Every mutating method has a base gas of at least 3000, so it cannot succeed after a load
that could not be paid, and what a success does is what the handler does with ample gas:
`mutate_eq_ok`.
-/
import Callchain.Precompile.Program

namespace Callchain.Precompile

open Budget

/-- `PrecompileOutput`, with the value before it is encoded. -/
structure Output (α : Type) where
  value : α
  gasUsed : ℕ
  gasRefunded : ℕ

variable {K : Type} [DecidableEq K] {α β ε ι : Type}

def Provider.fillPrecompileOutput (p : Provider K) (value : α) : Output α where
  value := value
  gasUsed := p.gasLimit - p.gasRemaining
  gasRefunded := p.gasRefunded

/-- The journal is again what it was, the gas is not. -/
def Provider.checkpointRevert (p : Provider K) (checkpoint : Journal K) : Provider K :=
  { p with journal := checkpoint }

def mutate (evm : Evm K) (decode : Bytes → Except PrecompileError ι) (gas : ℕ)
    (handler : ι → Prog K α) (calldata : Bytes) (p : Provider K) :
    Provider K × Except PrecompileError (Output α) :=
  match decode calldata with
  | .error e => (p, .error e)
  | .ok call =>
    match (handler call).run evm p with
    | (q, .ok value) =>
      match q.deductGas gas with
      | (r, .ok ()) => (r, .ok (r.fillPrecompileOutput value))
      | (r, .error _) => (r.checkpointRevert p.journal, .error .outOfGas)
    | (q, .error e) => (q.checkpointRevert p.journal, .error e)

def view (evm : Evm K) (decode : Bytes → Except PrecompileError ι) (gas : ℕ)
    (handler : ι → Prog K α) (calldata : Bytes) (p : Provider K) :
    Provider K × Except PrecompileError (Output α) :=
  match decode calldata with
  | .error e => (p, .error e)
  | .ok call =>
    match (handler call).run evm p with
    | (q, .error e) => (q, .error e)
    | (q, .ok value) =>
      match q.deductGas gas with
      | (r, .ok ()) => (r, .ok (r.fillPrecompileOutput value))
      | (r, .error e) => (r, .error e)

/-! ### What a handler does with ample gas, without the account of it -/

def Prog.outcome (evm : Evm K) (static : Bool) (prog : Prog K α) (w : World K) :
    World K × Except PrecompileError α :=
  ((prog.ample evm static w).world, (prog.ample evm static w).result)

section Outcome

variable {evm : Evm K} {static : Bool} {w w' : World K}

theorem Op.outcome (o : Op K) : (Prog.call o).outcome evm static w =
    ((o.ample evm static w).world, (o.ample evm static w).result) := by
  cases hr : (o.ample evm static w).result with
  | error =>
    rw [Prog.outcome, Prog.call, Prog.ample_op_error rfl hr]
    rfl
  | ok =>
    rw [Prog.outcome, Prog.call, Prog.ample_op_ok rfl hr]
    rfl

theorem outcome_op (o : Op K) (f : PrecompileError → PrecompileError)
    (next : o.Response → Prog K α) :
    (Prog.op o f next).outcome evm static w = match (o.ample evm static w).result with
      | .ok r => (next r).outcome evm static (o.ample evm static w).world
      | .error e => ((o.ample evm static w).world, .error (f e)) := by
  cases hr : (o.ample evm static w).result with
  | error => rw [Prog.outcome, Prog.ample_op_error rfl hr]
  | ok =>
    rw [Prog.outcome, Prog.ample_op_ok rfl hr]
    rfl

theorem outcome_bind (f : α → Prog K β) : ∀ (prog : Prog K α) (w : World K),
    (prog >>= f).outcome evm static w = match prog.outcome evm static w with
      | (u, .ok a) => (f a).outcome evm static u
      | (u, .error e) => (u, .error e)
  | .pure _, _ | .throw _, _ => rfl
  | .op o g next, w => by
    show (Prog.op o g fun r => next r >>= f).outcome evm static w = _
    rw [outcome_op, outcome_op]
    cases (o.ample evm static w).result with
    | error => rfl
    | ok r => exact outcome_bind f (next r) _

theorem outcome_bind_eq_ok {prog : Prog K α} {f : α → Prog K β} {b : β} :
    (prog >>= f).outcome evm static w = (w', .ok b) ↔
      ∃ u a, prog.outcome evm static w = (u, .ok a) ∧ (f a).outcome evm static u = (w', .ok b) := by
  rw [outcome_bind]
  rcases prog.outcome evm static w with ⟨u, e | a⟩
  · constructor
    · intro h
      exact nomatch congrArg Prod.snd h
    · rintro ⟨u', a, h, -⟩
      exact nomatch congrArg Prod.snd h
  · constructor
    · intro h
      exact ⟨u, a, rfl, h⟩
    · rintro ⟨u', a', h, ht⟩
      obtain ⟨rfl, ha⟩ := Prod.mk.inj h
      rw [← Except.ok.inj ha] at ht
      exact ht

theorem outcome_mapErr_eq_ok (f : PrecompileError → PrecompileError) {a : α} :
    ∀ {prog : Prog K α} {w : World K},
      (prog.mapErr f).outcome evm static w = (w', .ok a) ↔ prog.outcome evm static w = (w', .ok a)
  | .pure _, _ => Iff.rfl
  | .throw _, _ => iff_of_false error_ne_ok error_ne_ok
  | .op o g next, w => by
    rw [Prog.mapErr, outcome_op, outcome_op]
    cases (o.ample evm static w).result with
    | error => exact iff_of_false error_ne_ok error_ne_ok
    | ok => exact outcome_mapErr_eq_ok f

theorem outcome_require_eq_ok {c : Prop} [Decidable c] {e : PrecompileError} {u : Unit} :
    (Prog.require c e).outcome evm static w = (w', .ok u) ↔ c ∧ w = w' := by
  unfold Prog.require
  by_cases hc : c
  · rw [if_pos hc]
    constructor
    · intro h
      exact ⟨hc, congrArg Prod.fst h⟩
    · rintro ⟨-, rfl⟩
      rfl
  · rw [if_neg hc]
    constructor
    · intro h
      exact nomatch congrArg Prod.snd h
    · intro h
      exact absurd h.1 hc

theorem outcome_storageRef (mapErr : ε → PrecompileError) :
    ∀ (x : Access K U256 ε α) (w : World K) {w' : World K} {a : α},
      (Prog.storageRef mapErr x).outcome evm false w = (w', .ok a) →
        x.eval w.storage = (w'.storage, .ok a) ∧ w'.balance = w.balance ∧ w'.code = w.code
  | .pure _, w, w', a, h => by
    obtain ⟨rfl, ha⟩ := Prod.mk.inj h
    exact ⟨congrArg (Prod.mk w.storage) (congrArg Except.ok (Except.ok.inj ha)), rfl, rfl⟩
  | .throw _, _, _, _, h => nomatch congrArg Prod.snd h
  | .load k next, w, _, _, h => by
    exact outcome_storageRef mapErr (next (w.storage k)) (w.touch k) h
  | .store k v next, w, _, _, h => by
    exact outcome_storageRef mapErr next (w.write k v) h

end Outcome

/-! ### Programs that only read -/

def Op.readOnly : Op K → Bool
  | .load .. => true
  | .sload .. => true
  | .chargeGas .. => true
  | .codeGet .. => true
  | .executeEvmCall .. => true
  | _ => false

def Prog.ReadOnly : Prog K α → Prop
  | .pure _ => True
  | .throw _ => True
  | .op o _ next => o.readOnly = true ∧ ∀ r, (next r).ReadOnly

omit [DecidableEq K] in
theorem Prog.ReadOnly.bind {f : α → Prog K β} : ∀ {prog : Prog K α}, prog.ReadOnly →
    (∀ a, (f a).ReadOnly) → (prog >>= f).ReadOnly
  | .pure a, _, hf => hf a
  | .throw _, _, _ => trivial
  | .op _ _ _, h, hf => ⟨h.1, fun r => (h.2 r).bind hf⟩

omit [DecidableEq K] in
theorem Prog.ReadOnly.mapErr {f : PrecompileError → PrecompileError} : ∀ {prog : Prog K α},
    prog.ReadOnly → (prog.mapErr f).ReadOnly
  | .pure _, _ | .throw _, _ => trivial
  | .op _ _ _, h => ⟨h.1, fun r => (h.2 r).mapErr⟩

omit [DecidableEq K] in
theorem Prog.readOnly_call {o : Op K} (h : o.readOnly = true) : (Prog.call o).ReadOnly :=
  ⟨h, fun _ => trivial⟩

omit [DecidableEq K] in
theorem Prog.readOnly_require (c : Prop) [Decidable c] (e : PrecompileError) :
    (Prog.require c e : Prog K Unit).ReadOnly := by
  unfold Prog.require
  split <;> trivial

structure SameState (w w' : World K) : Prop where
  storage : w'.storage = w.storage
  balance : w'.balance = w.balance
  code : w'.code = w.code

omit [DecidableEq K] in
theorem SameState.refl (w : World K) : SameState w w := ⟨rfl, rfl, rfl⟩

omit [DecidableEq K] in
theorem SameState.trans {w w' w'' : World K} (h : SameState w w') (h' : SameState w' w'') :
    SameState w w'' :=
  ⟨h'.storage.trans h.storage, h'.balance.trans h.balance, h'.code.trans h.code⟩

theorem sameState_touchAll : ∀ (ks : List K) (w : World K), SameState w (w.touchAll ks)
  | [], w => .refl w
  | k :: ks, w => by
    have htou : SameState w (w.touch k) := ⟨rfl, rfl, rfl⟩
    exact htou.trans (sameState_touchAll ks _)

theorem Op.ample_sameState (evm : Evm K) (static : Bool) (w : World K) {o : Op K}
    (h : o.readOnly = true) : SameState w (o.ample evm static w).world := by
  cases o with
  | load | sload => exact ⟨rfl, rfl, rfl⟩
  | chargeGas | codeGet => exact .refl w
  | executeEvmCall caller contract data =>
    rw [Op.ample]
    cases evm w caller contract data with
    | error => exact .refl w
    | ok r => exact sameState_touchAll r.accessed w
  | _ => exact absurd h Bool.false_ne_true

theorem Prog.ReadOnly.outcome {evm : Evm K} {static : Bool} : ∀ {prog : Prog K α} {w : World K},
    prog.ReadOnly → SameState w (prog.outcome evm static w).1
  | .pure _, w, _ => .refl w
  | .throw _, w, _ => .refl w
  | .op o f next, w, h => by
    have ho := o.ample_sameState evm static w h.1
    rw [outcome_op]
    cases (o.ample evm static w).result with
    | error => exact ho
    | ok r => exact ho.trans (h.2 r).outcome

/-! ### Mutating methods -/

section Mutate

variable {evm : Evm K} {decode : Bytes → Except PrecompileError ι} {gas : ℕ}
  {handler : ι → Prog K α} {calldata : Bytes} {p q : Provider K}

theorem mutate_of_run {call : ι} {value : α} {r : Provider K} (hd : decode calldata = .ok call)
    (hrun : (handler call).run evm p = (r, .ok value)) (hle : gas ≤ r.gasRemaining) :
    ∃ out, mutate evm decode gas handler calldata p =
      ({ r with gasRemaining := r.gasRemaining - gas }, .ok out) ∧ out.value = value := by
  refine ⟨Provider.fillPrecompileOutput { r with gasRemaining := r.gasRemaining - gas } value,
    ?_, rfl⟩
  rw [mutate, hd]
  dsimp only
  rw [hrun]
  dsimp only
  rw [Provider.deductGas_of_le hle]

theorem mutate_cases {res : Except PrecompileError (Output α)}
    (h : mutate evm decode gas handler calldata p = (q, res)) :
    (∃ e, res = .error e ∧ q.journal = p.journal) ∨
    ∃ call r value, decode calldata = .ok call ∧ (handler call).run evm p = (r, .ok value) ∧
      gas ≤ r.gasRemaining := by
  rw [mutate] at h
  cases hd : decode calldata with rw [hd] at h
  | error e =>
    cases h
    exact .inl ⟨e, rfl, rfl⟩
  | ok call =>
    dsimp only at h
    rcases hrun : (handler call).run evm p with ⟨r, e | value⟩
    · rw [hrun] at h
      cases h
      exact .inl ⟨e, rfl, rfl⟩
    · rw [hrun] at h
      dsimp only at h
      rcases Nat.lt_or_ge r.gasRemaining gas with hlt | hle
      · rw [Provider.deductGas_of_lt hlt] at h
        cases h
        exact .inl ⟨_, rfl, rfl⟩
      · exact .inr ⟨call, r, value, rfl, hrun, hle⟩

/-- A failed call leaves the journal as it was, whatever its handler did. -/
theorem mutate_journal_of_error {e : PrecompileError}
    (h : mutate evm decode gas handler calldata p = (q, .error e)) : q.journal = p.journal := by
  rcases mutate_cases h with ⟨-, -, hj⟩ | ⟨call, r, value, hd, hrun, hle⟩
  · exact hj
  · obtain ⟨out, hout, -⟩ := mutate_of_run hd hrun hle
    exact nomatch congrArg Prod.snd (h.symm.trans hout)

theorem mutate_run_of_ok {out : Output α}
    (h : mutate evm decode gas handler calldata p = (q, .ok out)) :
    ∃ call r, decode calldata = .ok call ∧ (handler call).run evm p = (r, .ok out.value) ∧
      gas ≤ r.gasRemaining ∧ q.journal = r.journal := by
  rcases mutate_cases h with ⟨e, he, -⟩ | ⟨call, r, value, hd, hrun, hle⟩
  · exact nomatch he
  · obtain ⟨out', hout, rfl⟩ := mutate_of_run hd hrun hle
    obtain ⟨rfl, heq⟩ := Prod.mk.inj (h.symm.trans hout)
    cases heq
    exact ⟨call, r, hd, hrun, hle, rfl⟩

/-- A call that succeeds did what its handler does with ample gas: after a load that was
not paid, the base gas is not there. -/
theorem mutate_eq_ok {out : Output α} (hgas : coldSloadCost ≤ gas)
    (h : mutate evm decode gas handler calldata p = (q, .ok out)) :
    ∃ call, decode calldata = .ok call ∧
      (handler call).outcome evm p.isStatic p.journal.world = (q.journal.world, .ok out.value) := by
  obtain ⟨call, r, hd, hrun, hle, hj⟩ := mutate_run_of_ok h
  obtain ⟨-, hworld, hres⟩ := Prog.run_passed_of_ok hrun (hgas.trans hle)
  exact ⟨call, hd, by rw [Prog.outcome, ← hworld, ← hres, hj]⟩

end Mutate

end Callchain.Precompile

/-
# Handlers as programs of the provider

A handler is a program that calls the provider, one operation after another. The errors
of most operations it passes on with `?`; those of the storage it reaches through
`StorageRef` (`load`, `store`), and of an event emitted with `let _ =`, it never sees.
Handlers read neither the gas left nor whether the context is static, so one tree is run
with any gas and in any context.
-/
import Callchain.Precompile.Provider
import Callchain.Lib.Access
import Callchain.Lib.Budget

namespace Callchain.Precompile

open Budget

inductive Op (K : Type) where
  | load (k : K) (default : U256)
  | store (k : K) (v : U256)
  | tryEmitEvent (log : Log)
  | sload (k : K)
  | sstore (k : K) (v : U256)
  | emitEvent (log : Log)
  | chargeGas (gas : ℕ)
  | balanceAdd (a : Address) (amount : U256)
  | balanceSub (a : Address) (amount : U256)
  | codeGet (a : Address)
  | rawSstore (k : K) (v : U256)
  | executeEvmCall (caller contract : Address) (data : Bytes)

@[reducible] def Op.Response {K : Type} : Op K → Type
  | .load .. => U256
  | .sload .. => U256
  | .codeGet .. => Bytes
  | .executeEvmCall .. => EvmResult K
  | _ => Unit

/-- A handler. What an operation fails with goes through `mapErr` and out. -/
inductive Prog (K α : Type) where
  | pure (a : α)
  | throw (e : PrecompileError)
  | op (o : Op K) (mapErr : PrecompileError → PrecompileError) (next : o.Response → Prog K α)

variable {K : Type} {α β ε ι : Type}

namespace Prog

def bind : Prog K α → (α → Prog K β) → Prog K β
  | .pure a, f => f a
  | .throw e, _ => .throw e
  | .op o mapErr next, f => .op o mapErr fun r => (next r).bind f

instance : Monad (Prog K) where
  pure := .pure
  bind := .bind

/-- One operation, with `?`. -/
def call (o : Op K) : Prog K o.Response := .op o id .pure

def mapErr (f : PrecompileError → PrecompileError) : Prog K α → Prog K α
  | .pure a => .pure a
  | .throw e => .throw (f e)
  | .op o g next => .op o (f ∘ g) fun r => (next r).mapErr f

def require (p : Prop) [Decidable p] (e : PrecompileError) : Prog K Unit :=
  if p then .pure () else .throw e

/-- The methods of a storage, reached through `StorageRef`, with their errors
mapped. -/
def storageRef (mapErr : ε → PrecompileError) : Access K U256 ε α → Prog K α
  | .pure a => .pure a
  | .throw e => .throw (mapErr e)
  | .load k next => .op (.load k 0) id fun v => storageRef mapErr (next v)
  | .store k v next => .op (.store k v) id fun _ => storageRef mapErr next

end Prog

variable [DecidableEq K]

def Op.run (evm : Evm K) (p : Provider K) : (o : Op K) → Provider K × Except PrecompileError o.Response
  | .load k default => ((p.load k default).1, .ok (p.load k default).2)
  | .store k v => (p.store k v, .ok ())
  | .tryEmitEvent log => (p.tryEmitEvent log, .ok ())
  | .sload k => p.sload k
  | .sstore k v => p.sstore k v
  | .emitEvent log => p.emitEvent log
  | .chargeGas gas => p.deductGas gas
  | .balanceAdd a amount => p.balanceAdd a amount
  | .balanceSub a amount => p.balanceSub a amount
  | .codeGet a => p.codeGet a
  | .rawSstore k v => p.rawSstore k v
  | .executeEvmCall caller contract data => p.executeEvmCall evm caller contract data

def Prog.run (evm : Evm K) : Prog K α → Provider K → Provider K × Except PrecompileError α
  | .pure a, p => (p, .ok a)
  | .throw e, p => (p, .error e)
  | .op o mapErr next, p =>
    match o.run evm p with
    | (q, .ok r) => (next r).run evm q
    | (q, .error e) => (q, .error (mapErr e))

/-! ### With ample gas -/

structure Ample (K α : Type) where
  world : World K
  logs : List Log := []
  charges : List Charge := []
  result : Except PrecompileError α

/-- An operation with ample gas. What `StorageRef` hides may go unpaid, but not a load,
which answers with a default. -/
def Op.ample (evm : Evm K) (static : Bool) (w : World K) : (o : Op K) → Ample K o.Response
  | .load k _ =>
    { world := w.touch k, charges := [.must (w.sloadGas k)], result := .ok (w.storage k) }
  | .store k v =>
    if static then { world := w, result := .ok () }
    else { world := w.write k v, charges := [.may (w.sstoreGas k)], result := .ok () }
  | .tryEmitEvent log => { world := w, logs := [log], charges := [.may log.gas], result := .ok () }
  | .sload k =>
    { world := w.touch k, charges := [.must (w.sloadGas k)], result := .ok (w.storage k) }
  | .sstore k v =>
    if static then { world := w, result := .error (.other "static call cannot mutate state") }
    else { world := w.write k v, charges := [.must (w.sstoreGas k)], result := .ok () }
  | .emitEvent log => { world := w, logs := [log], charges := [.must log.gas], result := .ok () }
  | .chargeGas gas => { world := w, charges := [.must gas], result := .ok () }
  | .balanceAdd a amount =>
    if static then { world := w, result := .error (.other "static call cannot mutate balance") }
    else if 2 ^ 256 ≤ (w.balance a).toNat + amount.toNat then
      { world := w, result := .error (.other "balance overflow") }
    else
      { world := w.setBalance a (w.balance a + amount), charges := [.must warmStorageReadCost]
        result := .ok () }
  | .balanceSub a amount =>
    if static then { world := w, result := .error (.other "static call cannot mutate balance") }
    else if (w.balance a).toNat < amount.toNat then
      { world := w, result := .error (.other "insufficient native balance") }
    else
      { world := w.setBalance a (w.balance a - amount), charges := [.must warmStorageReadCost]
        result := .ok () }
  | .codeGet a => { world := w, charges := [.must warmStorageReadCost], result := .ok (w.code a) }
  | .rawSstore k v =>
    if static then { world := w, result := .error (.other "static call cannot mutate state") }
    else { world := w.write k v, result := .ok () }
  | .executeEvmCall caller contract data =>
    match evm w caller contract data with
    | .error e => { world := w, result := .error (.other ("evm call: " ++ e)) }
    | .ok r => { world := w.touchAll r.accessed, charges := [.must r.gasSpent], result := .ok r }

def Prog.ample (evm : Evm K) (static : Bool) : Prog K α → World K → Ample K α
  | .pure a, w => { world := w, result := .ok a }
  | .throw e, w => { world := w, result := .error e }
  | .op o mapErr next, w =>
    match o.ample evm static w with
    | ⟨w', logs, charges, .ok r⟩ =>
      let rest := (next r).ample evm static w'
      { rest with logs := logs ++ rest.logs, charges := charges ++ rest.charges }
    | ⟨w', logs, charges, .error e⟩ => ⟨w', logs, charges, .error (mapErr e)⟩

/-! ### What an operation does with the gas it has -/

/-- All charges are paid: the run is the one with ample gas. -/
structure Paid (p : Provider K) (a : Ample K α) (out : Provider K × Except PrecompileError α) :
    Prop where
  world : out.1.journal.world = a.world
  logs : out.1.journal.logs = p.journal.logs ++ a.logs
  gas : out.1.gasRemaining + total a.charges = p.gasRemaining
  static : out.1.isStatic = p.isStatic
  result : out.2 = a.result

/-- The charges pass and leave `g`: the run is the one with ample gas, but for
logs that were not paid. -/
structure Passed (p : Provider K) (a : Ample K α) (g : ℕ)
    (out : Provider K × Except PrecompileError α) : Prop where
  world : out.1.journal.world = a.world
  gas : out.1.gasRemaining = g
  static : out.1.isStatic = p.isStatic
  result : out.2 = a.result

/-- The gas does not last: an error, or a default from a load, for which less
than `COLD_SLOAD_COST` was left. -/
structure Short (p : Provider K) (out : Provider K × Except PrecompileError α) : Prop where
  gas : out.1.gasRemaining ≤ p.gasRemaining
  result : (∃ e, out.2 = .error e) ∨ out.1.gasRemaining < coldSloadCost

inductive Follows (p : Provider K) (a : Ample K α) (out : Provider K × Except PrecompileError α) :
    Prop
  | paid (le : total a.charges ≤ p.gasRemaining) (h : Paid p a out)
  | skipped (n : ℕ) (eq : a.charges = [.may n]) (lt : p.gasRemaining < n)
    (h : Passed p a p.gasRemaining out)
  | short (n : ℕ) (eq : a.charges = [.must n]) (lt : p.gasRemaining < n) (h : Short p out)

section Charge

variable {p : Provider K} {n : ℕ}

omit [DecidableEq K]

theorem Provider.deductGas_of_le (h : n ≤ p.gasRemaining) :
    p.deductGas n = ({ p with gasRemaining := p.gasRemaining - n }, .ok ()) := if_pos h

theorem Provider.deductGas_of_lt (h : p.gasRemaining < n) :
    p.deductGas n = (p, .error .outOfGas) := if_neg (Nat.not_le.2 h)

theorem Provider.setWorld_charge_of_le (w : World K) (a : α) (h : n ≤ p.gasRemaining) :
    (p.setWorld w).charge n a =
      ({ p.setWorld w with gasRemaining := p.gasRemaining - n }, .ok a) := by
  have hw : n ≤ (p.setWorld w).gasRemaining := h
  rw [charge, deductGas_of_le hw]
  rfl

theorem Provider.setWorld_charge_of_lt (w : World K) (a : α) (h : p.gasRemaining < n) :
    (p.setWorld w).charge n a = (p.setWorld w, .error .outOfGas) := by
  have hw : (p.setWorld w).gasRemaining < n := h
  rw [charge, deductGas_of_lt hw]

theorem total_must (n : ℕ) : total [.must n] = n := by
  rw [total_cons, total_nil, Charge.amount, Nat.add_zero]

theorem total_may (n : ℕ) : total [.may n] = n := by
  rw [total_cons, total_nil, Charge.amount, Nat.add_zero]

theorem Follows.uncharged (p : Provider K) (r : Except PrecompileError α) :
    Follows p { world := p.journal.world, result := r } (p, r) :=
  .paid (Nat.zero_le _) ⟨rfl, (List.append_nil _).symm, rfl, rfl, rfl⟩

theorem Follows.charge (p : Provider K) (w : World K) (n : ℕ) (a : α) :
    Follows p { world := w, charges := [.must n], result := .ok a } ((p.setWorld w).charge n a) := by
  rcases Nat.lt_or_ge p.gasRemaining n with hlt | hle
  · refine .short n rfl hlt ?_
    rw [Provider.setWorld_charge_of_lt w a hlt]
    exact ⟨Nat.le_refl _, .inl ⟨_, rfl⟩⟩
  · refine .paid ((total_must n).le.trans hle) ?_
    rw [Provider.setWorld_charge_of_le w a hle]
    refine ⟨rfl, (List.append_nil _).symm, ?_, rfl, rfl⟩
    show p.gasRemaining - n + total [.must n] = p.gasRemaining
    rw [total_must]
    omega

end Charge

variable (p : Provider K)

omit [DecidableEq K] in
theorem deductGas_follows (gas : ℕ) :
    Follows p { world := p.journal.world, charges := [.must gas], result := .ok () }
      (p.deductGas gas) := by
  have hcha : (p.setWorld p.journal.world).charge gas () = p.deductGas gas := by
    show p.charge gas () = p.deductGas gas
    rw [Provider.charge]
    rcases p.deductGas gas with ⟨q, e | ⟨⟩⟩
    · rfl
    · rfl
  rw [← hcha]
  exact .charge p _ _ _

theorem sload_follows (k : K) :
    Follows p { world := p.journal.world.touch k, charges := [.must (p.journal.world.sloadGas k)]
                result := .ok (p.journal.world.storage k) } (p.sload k) :=
  .charge p _ _ _

theorem load_follows (k : K) (default : U256) :
    Follows p { world := p.journal.world.touch k, charges := [.must (p.journal.world.sloadGas k)]
                result := .ok (p.journal.world.storage k) }
      ((p.load k default).1, .ok (p.load k default).2) := by
  rcases Nat.lt_or_ge p.gasRemaining (p.journal.world.sloadGas k) with hlt | hle
  · refine .short _ rfl hlt ?_
    have hload : p.load k default = (p.setWorld (p.journal.world.touch k), default) := by
      rw [Provider.load, Provider.sload, Provider.setWorld_charge_of_lt _ _ hlt]
    rw [hload]
    exact ⟨Nat.le_refl _, .inr (lt_of_lt_of_le hlt (World.sloadGas_le _ _))⟩
  · have hload : ((p.load k default).1, (.ok (p.load k default).2 : Except PrecompileError U256)) =
        p.sload k := by
      rw [Provider.load, Provider.sload, Provider.setWorld_charge_of_le _ _ hle]
    rw [hload]
    exact sload_follows p k

section

variable (p : Provider K) (k : K) (v : U256) (hs : p.isStatic = false)
include hs

theorem sstore_of_le (hle : p.journal.world.sstoreGas k ≤ p.gasRemaining) :
    Paid p { world := p.journal.world.write k v
             charges := [.must (p.journal.world.sstoreGas k)], result := .ok () } (p.sstore k v) := by
  have hgas : p.gasRemaining - p.journal.world.sstoreGas k +
      total [.must (p.journal.world.sstoreGas k)] = p.gasRemaining := by
    rw [total_must]
    omega
  have hw : p.journal.world.sstoreGas k ≤
      (p.setWorld (p.journal.world.write k v)).gasRemaining := hle
  rw [Provider.sstore, if_neg (by simp [hs])]
  dsimp only
  rw [Provider.deductGas_of_le hw]
  split_ifs
  · exact ⟨rfl, (List.append_nil _).symm, hgas, rfl, rfl⟩
  · exact ⟨rfl, (List.append_nil _).symm, hgas, rfl, rfl⟩

theorem sstore_of_lt (hlt : p.gasRemaining < p.journal.world.sstoreGas k) :
    p.sstore k v = (p.setWorld (p.journal.world.write k v), .error .outOfGas) := by
  have hw : (p.setWorld (p.journal.world.write k v)).gasRemaining <
      p.journal.world.sstoreGas k := hlt
  rw [Provider.sstore, if_neg (by simp [hs])]
  dsimp only
  rw [Provider.deductGas_of_lt hw]

theorem sstore_follows : Follows p
              { world := p.journal.world.write k v
                charges := [.must (p.journal.world.sstoreGas k)], result := .ok () }
      (p.sstore k v) := by
  rcases Nat.lt_or_ge p.gasRemaining (p.journal.world.sstoreGas k) with hlt | hle
  · rw [sstore_of_lt p k v hs hlt]
    exact .short _ rfl hlt ⟨Nat.le_refl _, .inl ⟨_, rfl⟩⟩
  · exact .paid ((total_must _).le.trans hle) (sstore_of_le p k v hs hle)

theorem store_follows : Follows p
              { world := p.journal.world.write k v
                charges := [.may (p.journal.world.sstoreGas k)], result := .ok () }
      (p.store k v, .ok ()) := by
  rw [Provider.store]
  rcases Nat.lt_or_ge p.gasRemaining (p.journal.world.sstoreGas k) with hlt | hle
  · rw [sstore_of_lt p k v hs hlt]
    exact .skipped _ rfl hlt ⟨rfl, rfl, rfl, rfl⟩
  · obtain ⟨hw, hl, hg, hst, -⟩ := sstore_of_le p k v hs hle
    exact .paid ((total_may _).le.trans hle) ⟨hw, hl, hg, hst, rfl⟩

end

variable (log : Log)

omit [DecidableEq K] in
theorem emitEvent_of_le (hle : log.gas ≤ p.gasRemaining) :
    p.emitEvent log = ({ p with gasRemaining := p.gasRemaining - log.gas
                                journal := { p.journal with logs := p.journal.logs ++ [log] } },
      .ok ()) := by
  rw [Provider.emitEvent, Provider.deductGas_of_le hle]

omit [DecidableEq K] in
theorem emitEvent_of_lt (hlt : p.gasRemaining < log.gas) :
    p.emitEvent log = (p, .error .outOfGas) := by
  rw [Provider.emitEvent, Provider.deductGas_of_lt hlt]

omit [DecidableEq K] in
theorem emitEvent_follows :
    Follows p { world := p.journal.world, logs := [log], charges := [.must log.gas]
                result := .ok () } (p.emitEvent log) := by
  rcases Nat.lt_or_ge p.gasRemaining log.gas with hlt | hle
  · rw [emitEvent_of_lt p log hlt]
    exact .short _ rfl hlt ⟨Nat.le_refl _, .inl ⟨_, rfl⟩⟩
  · rw [emitEvent_of_le p log hle]
    refine .paid ((total_must _).le.trans hle) ⟨rfl, rfl, ?_, rfl, rfl⟩
    show p.gasRemaining - log.gas + total [.must log.gas] = p.gasRemaining
    rw [total_must]
    omega

omit [DecidableEq K] in
theorem tryEmitEvent_follows :
    Follows p { world := p.journal.world, logs := [log], charges := [.may log.gas]
                result := .ok () } (p.tryEmitEvent log, .ok ()) := by
  rw [Provider.tryEmitEvent]
  rcases Nat.lt_or_ge p.gasRemaining log.gas with hlt | hle
  · rw [emitEvent_of_lt p log hlt]
    exact .skipped _ rfl hlt ⟨rfl, rfl, rfl, rfl⟩
  · rw [emitEvent_of_le p log hle]
    refine .paid ((total_may _).le.trans hle) ⟨rfl, rfl, ?_, rfl, rfl⟩
    show p.gasRemaining - log.gas + total [.may log.gas] = p.gasRemaining
    rw [total_may]
    omega

/-- One operation follows what it does with ample gas, skips a charge that may go
unpaid, or comes short. -/
theorem Op.run_follows (evm : Evm K) (p : Provider K) (o : Op K) :
    Follows p (o.ample evm p.isStatic p.journal.world) (o.run evm p) := by
  cases o with
  | load k default => exact load_follows p k default
  | store k v =>
    rw [Op.ample]
    split_ifs with hs
    · have hsto : p.store k v = p := by rw [Provider.store, Provider.sstore, if_pos hs]
      rw [Op.run, hsto]
      exact .uncharged p _
    · exact store_follows p k v (Bool.eq_false_iff.2 hs)
  | tryEmitEvent log => exact tryEmitEvent_follows p log
  | sload k => exact sload_follows p k
  | sstore k v =>
    rw [Op.ample]
    split_ifs with hs
    · rw [Op.run, Provider.sstore, if_pos hs]
      exact .uncharged p _
    · exact sstore_follows p k v (Bool.eq_false_iff.2 hs)
  | emitEvent log => exact emitEvent_follows p log
  | chargeGas gas => exact deductGas_follows p gas
  | balanceAdd =>
    rw [Op.run, Op.ample, Provider.balanceAdd]
    dsimp only
    split_ifs
    · exact .uncharged p _
    · exact .uncharged p _
    · exact .charge p _ _ _
  | balanceSub =>
    rw [Op.run, Op.ample, Provider.balanceSub]
    dsimp only
    split_ifs
    · exact .uncharged p _
    · exact .uncharged p _
    · exact .charge p _ _ _
  | codeGet => exact .charge p p.journal.world _ _
  | rawSstore =>
    rw [Op.run, Op.ample, Provider.rawSstore]
    split_ifs
    · exact .uncharged p _
    · exact .paid (Nat.zero_le _) ⟨rfl, (List.append_nil _).symm, rfl, rfl, rfl⟩
  | executeEvmCall caller contract data =>
    rw [Op.run, Op.ample, Provider.executeEvmCall]
    cases evm p.journal.world caller contract data with
    | error => exact .uncharged p _
    | ok => exact .charge p _ _ _

/-! ### What a program does with the gas it has -/

variable {a : Ample K α} {out : Provider K × Except PrecompileError α}

omit [DecidableEq K] in
theorem Follows.gas_le {p : Provider K} (h : Follows p a out) :
    out.1.gasRemaining ≤ p.gasRemaining := by
  cases h with
  | paid le h =>
    have := h.gas
    omega
  | skipped n eq lt h => exact h.gas.le
  | short n eq lt h => exact h.gas

omit [DecidableEq K] in
theorem Follows.paid_of_le {p : Provider K} (h : Follows p a out)
    (hle : total a.charges ≤ p.gasRemaining) : Paid p a out := by
  cases h with
  | paid le h => exact h
  | skipped n eq =>
    rw [eq, total_may] at hle
    omega
  | short n eq =>
    rw [eq, total_must] at hle
    omega

omit [DecidableEq K] in
theorem Follows.passed {p : Provider K} {g : ℕ} (h : Follows p a out)
    (hpass : settle p.gasRemaining a.charges = some g) : Passed p a g out := by
  cases h with
  | paid le h =>
    have hgas := h.gas
    rw [settle_of_total_le le, Option.some.injEq] at hpass
    exact ⟨h.world, by omega, h.static, h.result⟩
  | skipped n eq lt h =>
    rw [eq, settle, if_neg (Nat.not_le.2 lt), settle, Option.some.injEq] at hpass
    exact hpass ▸ h
  | short n eq lt =>
    rw [eq, settle, if_neg (Nat.not_le.2 lt)] at hpass
    cases hpass

omit [DecidableEq K] in
theorem Follows.short_of_none {p : Provider K} (h : Follows p a out)
    (hpass : settle p.gasRemaining a.charges = none) : Short p out := by
  cases h with
  | paid le =>
    rw [settle_of_total_le le] at hpass
    cases hpass
  | skipped n eq lt =>
    rw [eq, settle, if_neg (Nat.not_le.2 lt), settle] at hpass
    cases hpass
  | short n eq lt h => exact h

namespace Prog

variable {evm : Evm K} {o : Op K} {f : PrecompileError → PrecompileError}
  {next : o.Response → Prog K α} {p q : Provider K}

theorem run_op_ok {r : o.Response} (h : o.run evm p = (q, .ok r)) :
    (Prog.op o f next).run evm p = (next r).run evm q := by
  rw [run, h]

theorem run_op_error {e : PrecompileError} (h : o.run evm p = (q, .error e)) :
    (Prog.op o f next).run evm p = (q, .error (f e)) := by
  rw [run, h]

theorem run_gas_le (evm : Evm K) : ∀ (prog : Prog K α) (p : Provider K),
    (prog.run evm p).1.gasRemaining ≤ p.gasRemaining
  | .pure _, _ | .throw _, _ => Nat.le_refl _
  | .op o f next, p => by
    have hgas := (o.run_follows evm p).gas_le
    rcases hout : o.run evm p with ⟨q, e | r⟩
    · rw [run_op_error hout]
      rwa [hout] at hgas
    · rw [run_op_ok hout]
      rw [hout] at hgas
      exact (run_gas_le evm (next r) q).trans hgas

theorem short_of_op {out : Except PrecompileError o.Response} (hout : o.run evm p = (q, out))
    (h : Short p (q, out)) : Short p ((Prog.op o f next).run evm p) := by
  cases out with
  | error e =>
    rw [run_op_error hout]
    exact ⟨h.gas, .inl ⟨f e, rfl⟩⟩
  | ok r =>
    have hle := run_gas_le evm (next r) q
    rw [run_op_ok hout]
    refine ⟨hle.trans h.gas, .inr ?_⟩
    rcases h.result with ⟨e, he⟩ | hlt
    · exact nomatch he
    · exact lt_of_le_of_lt hle hlt

theorem ample_op_ok {static : Bool} {w : World K} {a : Ample K o.Response} {r : o.Response}
    (ha : o.ample evm static w = a) (hr : a.result = .ok r) :
    (Prog.op o f next).ample evm static w = { (next r).ample evm static a.world with
        logs := a.logs ++ ((next r).ample evm static a.world).logs
        charges := a.charges ++ ((next r).ample evm static a.world).charges } := by
  obtain ⟨w', logs, charges, result⟩ := a
  cases hr
  rw [ample, ha]

theorem ample_op_error {static : Bool} {w : World K} {a : Ample K o.Response}
    {e : PrecompileError} (ha : o.ample evm static w = a) (hr : a.result = .error e) :
    (Prog.op o f next).ample evm static w = ⟨a.world, a.logs, a.charges, .error (f e)⟩ := by
  obtain ⟨w', logs, charges, result⟩ := a
  cases hr
  rw [ample, ha]

theorem run_paid (evm : Evm K) : ∀ (prog : Prog K α) (p : Provider K),
    total (prog.ample evm p.isStatic p.journal.world).charges ≤ p.gasRemaining →
      Paid p (prog.ample evm p.isStatic p.journal.world) (prog.run evm p)
  | .pure _, _, _ | .throw _, _, _ => ⟨rfl, (List.append_nil _).symm, rfl, rfl, rfl⟩
  | .op o f next, p, hle => by
    have hf := o.run_follows evm p
    generalize ha : o.ample evm p.isStatic p.journal.world = a at hf
    rcases hout : o.run evm p with ⟨q, out⟩
    rw [hout] at hf
    cases hr : a.result with
    | error e =>
      rw [ample_op_error ha hr] at hle ⊢
      have hp := hf.paid_of_le hle
      obtain rfl : out = .error e := hp.result.trans hr
      rw [run_op_error hout]
      exact ⟨hp.world, hp.logs, hp.gas, hp.static, rfl⟩
    | ok r =>
      rw [ample_op_ok ha hr] at hle ⊢
      rw [total_append] at hle
      have hp := hf.paid_of_le ((Nat.le_add_right _ _).trans hle)
      obtain rfl : out = .ok r := hp.result.trans hr
      have hgas : q.gasRemaining + total a.charges = p.gasRemaining := hp.gas
      have hsta : q.isStatic = p.isStatic := hp.static
      have hwor : q.journal.world = a.world := hp.world
      have ih := run_paid evm (next r) q
      rw [hsta, hwor] at ih
      have ih := ih (by omega)
      rw [run_op_ok hout]
      refine ⟨ih.world, ?_, ?_, ih.static.trans hsta, ih.result⟩
      · rw [ih.logs, show q.journal.logs = p.journal.logs ++ a.logs from hp.logs, List.append_assoc]
      · have hrest := ih.gas
        rw [total_append]
        omega

/-- Where the charges pass a program does what it does with ample gas, but for logs;
else it fails or is left with less than a load costs. -/
theorem run_settle (evm : Evm K) : ∀ (prog : Prog K α) (p : Provider K),
    (∀ g, settle p.gasRemaining (prog.ample evm p.isStatic p.journal.world).charges = some g →
      Passed p (prog.ample evm p.isStatic p.journal.world) g (prog.run evm p)) ∧
    (settle p.gasRemaining (prog.ample evm p.isStatic p.journal.world).charges = none →
      Short p (prog.run evm p))
  | .pure _, _ | .throw _, _ => ⟨fun _ h => ⟨rfl, Option.some.inj h, rfl, rfl⟩, nofun⟩
  | .op o f next, p => by
    have hf := o.run_follows evm p
    generalize ha : o.ample evm p.isStatic p.journal.world = a at hf
    rcases hout : o.run evm p with ⟨q, out⟩
    rw [hout] at hf
    cases hr : a.result with
    | error e =>
      rw [ample_op_error ha hr]
      refine ⟨fun g hpass => ?_, fun hnone => short_of_op hout (hf.short_of_none hnone)⟩
      have hp := hf.passed hpass
      obtain rfl : out = .error e := hp.result.trans hr
      rw [run_op_error hout]
      exact ⟨hp.world, hp.gas, hp.static, rfl⟩
    | ok r =>
      simp only [ample_op_ok ha hr, settle_append]
      cases hg' : settle p.gasRemaining a.charges with
      | none => exact ⟨nofun, fun _ => short_of_op hout (hf.short_of_none hg')⟩
      | some g' =>
        have hp := hf.passed hg'
        obtain rfl : out = .ok r := hp.result.trans hr
        have hsta : q.isStatic = p.isStatic := hp.static
        have ih := run_settle evm (next r) q
        rw [hsta, show q.journal.world = a.world from hp.world,
          show q.gasRemaining = g' from hp.gas] at ih
        rw [run_op_ok hout]
        refine ⟨fun g hrest => ?_, fun hnone => ?_⟩
        · have ih := ih.1 g hrest
          exact ⟨ih.world, ih.gas, ih.static.trans hsta, ih.result⟩
        · have ih := ih.2 hnone
          exact ⟨ih.gas.trans hf.gas_le, ih.result⟩

theorem run_passed_of_ok {evm : Evm K} {prog : Prog K α} {p r : Provider K} {value : α}
    (hrun : prog.run evm p = (r, .ok value)) (hle : coldSloadCost ≤ r.gasRemaining) :
    settle p.gasRemaining (prog.ample evm p.isStatic p.journal.world).charges =
        some r.gasRemaining ∧ r.journal.world = (prog.ample evm p.isStatic p.journal.world).world ∧
      .ok value = (prog.ample evm p.isStatic p.journal.world).result := by
  have hset := prog.run_settle evm p
  rw [hrun] at hset
  cases hpass : settle p.gasRemaining (prog.ample evm p.isStatic p.journal.world).charges with
  | none =>
    rcases (hset.2 hpass).result with ⟨e, he⟩ | hlt
    · exact nomatch he
    · exact absurd hle (Nat.not_le.2 hlt)
  | some g =>
    have hp := hset.1 g hpass
    exact ⟨congrArg some hp.gas.symm, hp.world, hp.result⟩

end Prog

end Callchain.Precompile

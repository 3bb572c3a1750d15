/-
# What a program leaves alone

With any gas and in any context, a program that only reads leaves the slots, the
balances and the logs as they are, and one that writes only slots of some kind leaves
every other slot.
-/
import Callchain.Precompile.Dispatch

namespace Callchain.Precompile

variable {K : Type} [DecidableEq K] {α β : Type} (evm : Evm K) {p q : Provider K}

/-- Storage, balances and the static flag stay; gas and logs may change. -/
structure Kept (p q : Provider K) : Prop where
  storage : q.journal.world.storage = p.journal.world.storage
  balance : q.journal.world.balance = p.journal.world.balance
  static : q.isStatic = p.isStatic

structure Read (p q : Provider K) : Prop extends Kept p q where
  logs : q.journal.logs = p.journal.logs

section

omit [DecidableEq K]

theorem Kept.refl (p : Provider K) : Kept p p := ⟨rfl, rfl, rfl⟩

theorem Kept.trans {r : Provider K} (h : Kept p q) (h' : Kept q r) : Kept p r :=
  ⟨h'.storage.trans h.storage, h'.balance.trans h.balance, h'.static.trans h.static⟩

theorem Read.refl (p : Provider K) : Read p p := ⟨.refl p, rfl⟩

theorem Read.trans {r : Provider K} (h : Read p q) (h' : Read q r) : Read p r :=
  ⟨h.toKept.trans h'.toKept, h'.logs.trans h.logs⟩

theorem read_deductGas (p : Provider K) (gas : ℕ) : Read p (p.deductGas gas).1 := by
  unfold Provider.deductGas
  split_ifs
  · exact ⟨⟨rfl, rfl, rfl⟩, rfl⟩
  · exact .refl p

theorem read_charge (p : Provider K) (gas : ℕ) (a : α) : Read p (p.charge gas a).1 := by
  have h := read_deductGas p gas
  unfold Provider.charge
  rcases hq : p.deductGas gas with ⟨q, e | ⟨⟩⟩
  · rwa [hq] at h
  · rwa [hq] at h

theorem kept_emitEvent (p : Provider K) (log : Log) : Kept p (p.emitEvent log).1 := by
  have h := read_deductGas p log.gas
  unfold Provider.emitEvent
  rcases hq : p.deductGas log.gas with ⟨q, e | ⟨⟩⟩
  · rw [hq] at h
    exact h.toKept
  · rw [hq] at h
    exact ⟨h.storage, h.balance, h.static⟩

end

theorem read_sload (p : Provider K) (k : K) : Read p (p.sload k).1 :=
  Read.trans (q := p.setWorld (p.journal.world.touch k)) ⟨⟨rfl, rfl, rfl⟩, rfl⟩
    (read_charge _ _ _)

theorem Op.run_readOnly {o : Op K} (h : o.readOnly = true) : Read p (o.run evm p).1 := by
  cases o with
  | load k default =>
    have hload := read_sload p k
    show Read p (p.load k default).1
    unfold Provider.load
    rcases hq : p.sload k with ⟨q, e | v⟩
    · rwa [hq] at hload
    · rwa [hq] at hload
  | sload k => exact read_sload p k
  | chargeGas gas => exact read_deductGas p gas
  | codeGet => exact read_charge p _ _
  | executeEvmCall caller contract data =>
    show Read p (p.executeEvmCall evm caller contract data).1
    unfold Provider.executeEvmCall
    cases evm p.journal.world caller contract data with
    | error => exact .refl p
    | ok r =>
      have hsame := sameState_touchAll r.accessed p.journal.world
      exact Read.trans (q := p.setWorld (p.journal.world.touchAll r.accessed))
        ⟨⟨hsame.storage, hsame.balance, rfl⟩, rfl⟩ (read_charge _ _ _)
  | _ => exact nomatch h

theorem Prog.ReadOnly.run : ∀ {prog : Prog K α} {p : Provider K}, prog.ReadOnly →
    Read p (prog.run evm p).1
  | .pure _, p, _ => .refl p
  | .throw _, p, _ => .refl p
  | .op o f next, p, h => by
    have ho := Op.run_readOnly (p := p) evm h.1
    rcases hout : o.run evm p with ⟨q, e | r⟩
    · rw [Prog.run_op_error hout]
      rwa [hout] at ho
    · rw [Prog.run_op_ok hout]
      rw [hout] at ho
      exact ho.trans (h.2 r).run

/-! ### Sequences and storages -/

theorem Prog.run_bind (f : α → Prog K β) : ∀ (prog : Prog K α) (p : Provider K),
    (prog >>= f).run evm p = match prog.run evm p with
      | (q, .ok a) => (f a).run evm q
      | (q, .error e) => (q, .error e)
  | .pure _, _ | .throw _, _ => rfl
  | .op o g next, p => by
    show (Prog.op o g fun r => next r >>= f).run evm p = _
    rcases hout : o.run evm p with ⟨q, e | r⟩
    · rw [Prog.run_op_error hout, Prog.run_op_error hout]
    · rw [Prog.run_op_ok hout, Prog.run_op_ok hout]
      exact Prog.run_bind f (next r) q

omit [DecidableEq K] in
theorem readOnly_storageRef {ε : Type} (f : ε → PrecompileError) :
    ∀ {x : Access K U256 ε α}, x.WritesIn (fun _ => False) → (Prog.storageRef f x).ReadOnly
  | .pure _, _ | .throw _, _ => trivial
  | .load _ _, h => ⟨rfl, fun v => readOnly_storageRef f (h v)⟩
  | .store _ _ _, h => h.1.elim

end Callchain.Precompile

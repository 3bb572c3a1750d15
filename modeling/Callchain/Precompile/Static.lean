/-
# Calls in a static context

The provider refuses a write in a static context, operation by operation. A refusal that
the handler passes on (`balance_add`, `balance_sub`, `raw_sstore`, `sstore` with `?`)
ends the call; that of a store through `StorageRef` is dropped, and an event is not
refused at all. So no static call changes a slot or a balance, but one whose handler
comes to its end without an operation of the first kind succeeds, with its events in the
log list. A call is protected unless its handler so ends and made an operation that is no
read, and it is not if that was an event (`static_protection`).

A method is a view, which only reads; one that goes through `dispatch::mutate`; or one
that takes its checkpoint by itself, after checks that only read (`batchTransfer`, and
`deposit`, `withdraw` and `transfer` of the shielded pool).
-/
import Callchain.Precompile.Frame
import Callchain.Precompile.Gas
import Callchain.Switch.Precompile

namespace Callchain.Precompile

variable {K : Type} [DecidableEq K] {α β : Type} (evm : Evm K) {p q : Provider K}

/-! ### What a static context refuses -/

/-- An operation whose refusal the handler passes on. -/
def Op.guarded : Op K → Bool
  | .sstore .. => true
  | .balanceAdd .. => true
  | .balanceSub .. => true
  | .rawSstore .. => true
  | _ => false

theorem Op.run_guarded {o : Op K} (hs : p.isStatic = true) (h : o.guarded = true) :
    ∃ e, o.run evm p = (p, .error e) := by
  cases o with
  | sstore | balanceAdd | balanceSub | rawSstore => exact ⟨_, if_pos hs⟩
  | _ => cases h

theorem Op.run_static (o : Op K) (hs : p.isStatic = true) : Kept p (o.run evm p).1 := by
  cases hg : o.guarded with
  | true =>
    obtain ⟨e, he⟩ := Op.run_guarded evm hs hg
    rw [he]
    exact .refl p
  | false =>
    cases hr : o.readOnly with
    | true => exact (Op.run_readOnly evm hr).toKept
    | false =>
      -- what is left is a store through `StorageRef`, or an event
      cases o with
      | store k v =>
        have hsto : p.store k v = p := by rw [Provider.store, Provider.sstore, if_pos hs]
        show Kept p (p.store k v)
        rw [hsto]
        exact .refl p
      | tryEmitEvent log => exact kept_emitEvent p log
      | emitEvent log => exact kept_emitEvent p log
      | sstore | balanceAdd | balanceSub | rawSstore => exact absurd hg.symm Bool.false_ne_true
      | _ => exact absurd hr.symm Bool.false_ne_true

theorem Prog.run_static : ∀ {prog : Prog K α} {p : Provider K}, p.isStatic = true →
    Kept p (prog.run evm p).1
  | .pure _, p, _ => .refl p
  | .throw _, p, _ => .refl p
  | .op o f next, p, hs => by
    have ho := o.run_static evm hs
    rcases hout : o.run evm p with ⟨q, e | r⟩
    · rw [Prog.run_op_error hout]
      rwa [hout] at ho
    · rw [Prog.run_op_ok hout]
      rw [hout] at ho
      exact ho.trans (Prog.run_static (ho.static.trans hs))

/-! ### Methods -/

variable (K α) in
inductive Method : Type 1 where
  | view (gas : ℕ) (handler : Prog K α) (readOnly : handler.ReadOnly)
  | mutate (gas : ℕ) (handler : Prog K α)
  /-- With a checkpoint of its own. -/
  | checked {β : Type} (checks : Prog K β) (readOnly : checks.ReadOnly) (handler : β → Prog K α)

def Method.call (p : Provider K) :
    Method K α → Provider K × Except PrecompileError (Output α)
  | .view gas handler _ => Precompile.view evm (fun _ => .ok ()) gas (fun () => handler) [] p
  | .mutate gas handler => Precompile.mutate evm (fun _ => .ok ()) gas (fun () => handler) [] p
  | .checked checks _ handler =>
    match checks.run evm p with
    | (q, .error e) => (q, .error e)
    | (q, .ok b) =>
      match (handler b).run evm q with
      | (r, .error e) => (r.checkpointRevert q.journal, .error e)
      | (r, .ok value) => (r, .ok (r.fillPrecompileOutput value))

variable (K α) in
/-- A custom precompile: the selector and the arguments choose the method. -/
abbrev CustomPrecompile := Bytes → Except PrecompileError (Method K α)

def CustomPrecompile.call (precompile : CustomPrecompile K α) (calldata : Bytes)
    (p : Provider K) : Provider K × Except PrecompileError (Output α) :=
  match precompile calldata with
  | .error e => (p, .error e)
  | .ok m => m.call evm p

def Method.mutating : Method K α → Option (Prog K α × ℕ)
  | .view .. => none
  | .mutate gas handler => some (handler, gas)
  | .checked checks _ handler => some (checks >>= handler, 0)

/-- Neither state nor logs have changed. -/
structure Unchanged (j j' : Journal K) : Prop where
  storage : j'.world.storage = j.world.storage
  balance : j'.world.balance = j.world.balance
  logs : j'.logs = j.logs

omit [DecidableEq K] in
theorem Unchanged.refl (j : Journal K) : Unchanged j j := ⟨rfl, rfl, rfl⟩

omit [DecidableEq K] in
theorem Read.unchanged (h : Read p q) : Unchanged p.journal q.journal :=
  ⟨h.storage, h.balance, h.logs⟩

theorem view_unchanged {gas : ℕ} {handler : Prog K α} (h : handler.ReadOnly) : Unchanged p.journal
      (view evm (fun _ => .ok ()) gas (fun () => handler) [] p).1.journal := by
  have hrun := h.run evm (p := p)
  unfold view
  dsimp only
  rcases hq : handler.run evm p with ⟨q, e | value⟩
  · rw [hq] at hrun
    exact hrun.unchanged
  · rw [hq] at hrun
    have hded := hrun.trans (read_deductGas q gas)
    dsimp only
    rcases hr : q.deductGas gas with ⟨r, e | ⟨⟩⟩
    all_goals
      rw [hr] at hded
      exact hded.unchanged

/-- From `p` the handler makes these operations, as the answers decide, and comes to its end
in `q`: each of them succeeds, and none is guarded. -/
inductive Completes : Prog K α → Provider K → List (Op K) → Provider K → Prop
  | pure (a : α) (p : Provider K) : Completes (.pure a) p [] p
  | op {o : Op K} {f : PrecompileError → PrecompileError} {next : o.Response → Prog K α}
    {p q r : Provider K} {a : o.Response} {ops : List (Op K)} (guarded : o.guarded = false)
    (run : o.run evm p = (q, .ok a)) (rest : Completes (next a) q ops r) :
    Completes (.op o f next) p (o :: ops) r

variable {evm} {prog : Prog K α} {ops : List (Op K)}

theorem Method.unchanged_of_error {m : Method K α} {e : PrecompileError}
    (h : m.call evm p = (q, .error e)) : Unchanged p.journal q.journal := by
  cases m with
  | view gas handler readOnly =>
    have hview : Unchanged p.journal ((Method.view gas handler readOnly).call evm p).1.journal :=
      view_unchanged evm readOnly
    rwa [h] at hview
  | mutate =>
    rw [Method.call] at h
    rw [mutate_journal_of_error h]
    exact .refl _
  | checked checks readOnly handler =>
    have hread := readOnly.run evm (p := p)
    rw [Method.call] at h
    rcases hq : checks.run evm p with ⟨r, e | b⟩
    all_goals
      rw [hq] at h hread
      dsimp only at h
    · obtain ⟨rfl, -⟩ := Prod.mk.inj h
      exact hread.unchanged
    · rcases hr : (handler b).run evm r with ⟨t, e | value⟩
      all_goals rw [hr] at h
      · obtain ⟨rfl, -⟩ := Prod.mk.inj h
        exact hread.unchanged
      · exact nomatch (Prod.mk.inj h).2

theorem Completes.run_eq (h : Completes evm prog p ops q) : ∃ a, prog.run evm p = (q, .ok a) := by
  induction h with
  | pure a => exact ⟨a, rfl⟩
  | op _ run _ ih =>
    rw [Prog.run_op_ok run]
    exact ih

theorem completes_of_run : ∀ {prog : Prog K α} {p : Provider K} {a : α}, p.isStatic = true →
    prog.run evm p = (q, .ok a) → ∃ ops, Completes evm prog p ops q
  | .pure _, p, _, _, h => by
    obtain rfl := congrArg Prod.fst h
    exact ⟨[], .pure _ p⟩
  | .throw _, _, _, _, h => absurd h error_ne_ok
  | .op o f next, p, a, hs, h => by
    rcases hout : o.run evm p with ⟨r, e | b⟩
    · rw [Prog.run_op_error hout] at h
      cases h
    · rw [Prog.run_op_ok hout] at h
      have hkept := o.run_static evm hs
      rw [hout] at hkept
      obtain ⟨ops, hrest⟩ := completes_of_run (hkept.static.trans hs) h
      refine ⟨o :: ops, .op (Bool.eq_false_iff.2 fun hg => ?_) hout hrest⟩
      obtain ⟨e, he⟩ := Op.run_guarded evm hs hg
      exact absurd (he.symm.trans hout) error_ne_ok

/-! ### Static protection -/

variable (evm) in
/-- A static call changes nothing, and fails where the same call would change something. -/
def StaticProtected (precompile : CustomPrecompile K α) (calldata : Bytes)
    (journal : Journal K) (limit : ℕ) : Prop :=
  Unchanged journal (precompile.call evm calldata (.new journal limit true)).1.journal ∧
    (¬Unchanged journal (precompile.call evm calldata (.new journal limit false)).1.journal →
      ∃ e, (precompile.call evm calldata (.new journal limit true)).2 = .error e)

variable (evm) in
/-- In the static context the handler comes to its end and can pay the base gas, and one of
the operations it made on the way is of the kind `P`. -/
def Makes (P : Op K → Prop) (precompile : CustomPrecompile K α) (calldata : Bytes)
    (journal : Journal K) (limit : ℕ) : Prop :=
  ∃ m prog gas ops q, precompile calldata = .ok m ∧ m.mutating = some (prog, gas) ∧
    Completes evm prog (.new journal limit true) ops q ∧ gas ≤ q.gasRemaining ∧ ∃ o ∈ ops, P o

theorem Method.call_of_completes {m : Method K α} {gas : ℕ}
    (hm : m.mutating = some (prog, gas)) (h : Completes evm prog p ops q)
    (hle : gas ≤ q.gasRemaining) : ∃ r out, m.call evm p = (r, .ok out) ∧ r.journal = q.journal := by
  obtain ⟨a, hrun⟩ := h.run_eq
  cases m with
  | view => cases hm
  | mutate gas' handler =>
    obtain ⟨rfl, rfl⟩ := Prod.mk.inj (Option.some.inj hm)
    obtain ⟨out, hout, -⟩ : ∃ out, Precompile.mutate evm (fun _ => .ok ()) gas' (fun () => handler)
        [] p = ({ q with gasRemaining := q.gasRemaining - gas' }, .ok out) ∧ out.value = a :=
      mutate_of_run rfl hrun hle
    exact ⟨_, out, hout, rfl⟩
  | checked checks =>
    obtain ⟨rfl, rfl⟩ := Prod.mk.inj (Option.some.inj hm)
    rw [Prog.run_bind] at hrun
    rw [Method.call]
    rcases hq : checks.run evm p with ⟨r, e | b⟩
    · rw [hq] at hrun
      cases hrun
    · rw [hq] at hrun
      dsimp only at hrun ⊢
      rw [hrun]
      exact ⟨q, _, rfl, rfl⟩

variable (evm) in
/-- What a static call can do: nothing and it is a view or refused, or its program comes
to its end. -/
theorem Method.call_static (m : Method K α) (hs : p.isStatic = true) :
    (∃ prog gas ops q, m.mutating = some (prog, gas) ∧ Completes evm prog p ops q ∧
      gas ≤ q.gasRemaining ∧ (m.call evm p).1.journal = q.journal) ∨
    Unchanged p.journal (m.call evm p).1.journal ∧
      (m.mutating = none ∨ ∃ e, (m.call evm p).2 = .error e) := by
  cases m with
  | view gas handler readOnly => exact .inr ⟨view_unchanged evm readOnly, .inl rfl⟩
  | mutate gas handler =>
    rw [Method.call]
    rcases h : Precompile.mutate evm (fun _ => .ok ()) gas (fun () => handler) [] p with
      ⟨q, e | out⟩
    · right
      have hj := mutate_journal_of_error h
      refine ⟨?_, .inr ⟨e, rfl⟩⟩
      rw [hj]
      exact .refl _
    · left
      obtain ⟨call, r, -, hrun, hle, hj⟩ := mutate_run_of_ok h
      obtain ⟨ops, hcomp⟩ := completes_of_run hs hrun
      exact ⟨handler, gas, ops, r, rfl, hcomp, hle, hj⟩
  | checked checks readOnly handler =>
    have hread := readOnly.run evm (p := p)
    rw [Method.call]
    rcases hq : checks.run evm p with ⟨q, e | b⟩
    · rw [hq] at hread
      exact .inr ⟨hread.unchanged, .inr ⟨e, rfl⟩⟩
    · rw [hq] at hread
      dsimp only
      rcases hr : (handler b).run evm q with ⟨r, e | value⟩
      · exact .inr ⟨hread.unchanged, .inr ⟨e, rfl⟩⟩
      · left
        have hrun : (checks >>= handler).run evm p = (r, .ok value) := by
          rw [Prog.run_bind, hq]
          exact hr
        obtain ⟨ops, hcomp⟩ := completes_of_run hs hrun
        exact ⟨_, 0, ops, r, rfl, hcomp, Nat.zero_le _, rfl⟩

theorem Completes.kept (h : Completes evm prog p ops q) (hs : p.isStatic = true) : Kept p q := by
  obtain ⟨a, hrun⟩ := h.run_eq
  have hkept : Kept p (prog.run evm p).1 := Prog.run_static evm hs
  rwa [hrun] at hkept

/-! ### Reads and events -/

theorem Completes.read (h : Completes evm prog p ops q) (hops : ∀ o ∈ ops, o.readOnly = true) :
    Read p q := by
  induction h with
  | pure _ p => exact .refl p
  | @op o _ _ p _ _ _ _ _ run _ ih =>
    have ho := Op.run_readOnly (p := p) evm (hops o List.mem_cons_self)
    rw [run] at ho
    exact ho.trans (ih fun o ho => hops o (List.mem_cons_of_mem _ ho))

omit [DecidableEq K] in
theorem Provider.charge_outside (p : Provider K) (gas : ℕ) (a : α) :
    ({ p with isStatic := false } : Provider K).charge gas a =
      ({ (p.charge gas a).1 with isStatic := false }, (p.charge gas a).2) := by
  unfold charge deductGas
  by_cases h : gas ≤ p.gasRemaining
  · simp only [if_pos h]
  · simp only [if_neg h]

theorem Op.run_outside {o : Op K} (h : o.readOnly = true) :
    o.run evm { p with isStatic := false } =
      ({ (o.run evm p).1 with isStatic := false }, (o.run evm p).2) := by
  have hsload : ∀ k, ({ p with isStatic := false } : Provider K).sload k =
      ({ (p.sload k).1 with isStatic := false }, (p.sload k).2) := fun k =>
    Provider.charge_outside (p.setWorld (p.journal.world.touch k)) _ _
  cases o with
  | load k default =>
    simp only [Op.run, Provider.load, hsload k]
    rcases p.sload k with ⟨q, e | v⟩
    · rfl
    · rfl
  | sload k => exact hsload k
  | chargeGas gas =>
    simp only [Op.run, Provider.deductGas]
    split_ifs
    · rfl
    · rfl
  | codeGet => exact Provider.charge_outside p _ _
  | executeEvmCall caller contract data =>
    simp only [Op.run, Provider.executeEvmCall]
    cases evm p.journal.world caller contract data with
    | error => rfl
    | ok r => exact Provider.charge_outside (p.setWorld (p.journal.world.touchAll r.accessed)) _ _
  | _ => cases h

/-- A handler that only reads does outside a static context what it does inside. -/
theorem Completes.outside (h : Completes evm prog p ops q) (hops : ∀ o ∈ ops, o.readOnly = true) :
    Completes evm prog { p with isStatic := false } ops { q with isStatic := false } := by
  induction h with
  | pure a p => exact .pure a _
  | op guarded run _ ih =>
    refine .op guarded ?_ (ih fun o ho => hops o (List.mem_cons_of_mem _ ho))
    rw [Op.run_outside (hops _ List.mem_cons_self), run]

def Op.emits : Op K → Bool
  | .emitEvent _ => true
  | _ => false

theorem Op.logs_le {o : Op K} {a : o.Response} (hs : p.isStatic = true) (hg : o.guarded = false)
    (h : o.run evm p = (q, .ok a)) :
    p.journal.logs.length + [o].countP Op.emits ≤ q.journal.logs.length := by
  have hemit : ∀ log, p.journal.logs.length ≤ (p.emitEvent log).1.journal.logs.length := by
    intro log
    unfold Provider.emitEvent Provider.deductGas
    split_ifs
    · simp
    · exact le_rfl
  cases hr : o.readOnly with
  | true =>
    have hread := Op.run_readOnly (p := p) evm hr
    rw [h] at hread
    have hlen : q.journal.logs.length = p.journal.logs.length := congrArg List.length hread.logs
    cases o with
    | emitEvent => cases hr
    | _ => exact hlen.ge
  | false =>
    cases o with
    | emitEvent log =>
      have h' : p.emitEvent log = (q, .ok a) := h
      unfold Provider.emitEvent Provider.deductGas at h'
      split_ifs at h'
      · obtain rfl := congrArg Prod.fst h'
        simp [Op.emits]
      · exact absurd h' error_ne_ok
    | tryEmitEvent log =>
      obtain rfl := congrArg Prod.fst h
      exact hemit log
    | store k v =>
      have hsto : p.store k v = p := by rw [Provider.store, Provider.sstore, if_pos hs]
      obtain rfl : p.store k v = q := congrArg Prod.fst h
      rw [hsto]
      exact le_rfl
    | sstore | balanceAdd | balanceSub | rawSstore => cases hg
    | _ => cases hr

theorem Completes.logs_le (h : Completes evm prog p ops q) (hs : p.isStatic = true) :
    p.journal.logs.length + ops.countP Op.emits ≤ q.journal.logs.length := by
  induction h with
  | pure => exact le_rfl
  | @op o _ _ _ _ _ _ ops guarded run _ ih =>
    have hkept := o.run_static evm hs
    rw [run] at hkept
    have hone := Op.logs_le hs guarded run
    have hrest := ih (hkept.static.trans hs)
    rw [← List.singleton_append, List.countP_append]
    omega

section Asset

open Callchain.Asset

variable (env : Env) (abi : FactoryAbi) (msgSender : Address)

theorem readOnly_getBalance (aid : U64) (account : Address) :
    (getBalanceHandler env aid account).ReadOnly :=
  (readOnly_storageRef _ (writesIn_readMeta _ aid)).bind fun _ =>
    (readOnly_storageRef _ (writesIn_readBalance _ aid account)).bind fun _ => trivial

theorem readOnly_getTotalSupply (aid : U64) : (getTotalSupplyHandler env aid).ReadOnly :=
  (readOnly_storageRef _ (writesIn_readMeta _ aid)).bind fun _ => trivial

theorem readOnly_getAssetInfo (aid : U64) : (getAssetInfoHandler env aid).ReadOnly :=
  (readOnly_storageRef _ (writesIn_readMeta _ aid)).bind fun _ => trivial

theorem readOnly_requireCompliance (addr : Address) : (requireCompliance env addr).ReadOnly :=
  Prog.ReadOnly.mapErr ((Prog.readOnly_call rfl).bind fun _ => Prog.readOnly_require _ _)

theorem readOnly_requireComplianceAll : ∀ addrs, (requireComplianceAll env addrs).ReadOnly
  | [] => trivial
  | addr :: addrs =>
    (readOnly_requireCompliance env addr).bind fun _ => readOnly_requireComplianceAll addrs

theorem readOnly_requireCaller : (requireCaller msgSender).ReadOnly := by
  unfold requireCaller
  split <;> trivial

theorem readOnly_batchTransferChecks (receivers : List Address) (amounts : List U128) :
    (batchTransferChecks env msgSender receivers amounts).ReadOnly := by
  refine (Prog.readOnly_require _ _).bind fun _ => ?_
  refine (Prog.readOnly_require _ _).bind fun _ => ?_
  refine (Prog.readOnly_require _ _).bind fun _ => ?_
  refine (Prog.readOnly_call rfl).bind fun _ => ?_
  refine (readOnly_requireCaller msgSender).bind fun sender => ?_
  refine (readOnly_requireCompliance env sender).bind fun _ => ?_
  exact (readOnly_requireComplianceAll env receivers).bind fun _ => trivial

def assetMethod : AssetCalldata → Precompile.Method Slot Words
  | .getBalance assetId account =>
    .view 800 (getBalanceHandler env assetId account) (readOnly_getBalance env assetId account)
  | .getTotalSupply assetId =>
    .view 800 (getTotalSupplyHandler env assetId) (readOnly_getTotalSupply env assetId)
  | .getAssetInfo assetId =>
    .view 1000 (getAssetInfoHandler env assetId) (readOnly_getAssetInfo env assetId)
  | .transfer assetId receiver amount =>
    .mutate 5000 (do transferHandler env msgSender assetId receiver amount; return [])
  | .batchTransfer assetId receivers amounts =>
    .checked (batchTransferChecks env msgSender receivers amounts)
      (readOnly_batchTransferChecks env msgSender receivers amounts)
      fun sender => do
        batchTransferHandler env sender assetId (receivers.zip amounts)
        return []
  | .approve assetId spender amount =>
    .mutate 3000 (do approveHandler env msgSender assetId spender amount; return [])
  | .transferFrom assetId sender receiver amount =>
    .mutate 6000 (do transferFromHandler env msgSender assetId sender receiver amount; return [])
  | .mint assetId receiver amount =>
    .mutate 10000 (do mintHandler env msgSender assetId receiver amount; return [])
  | .burn assetId sender amount =>
    .mutate 8000 (do burnHandler env msgSender assetId sender amount; return [])
  | .register symbol name decimals maxSupply =>
    .mutate 50000
      (do return [(← registerHandler env msgSender symbol name decimals maxSupply).setWidth 256])
  | .registerErc20 evmContract =>
    .mutate 50000 (do return [(← registerErc20Handler env msgSender evmContract).setWidth 256])
  | .createWrapper assetId =>
    .mutate 100000 (do return [addressToU256 (← createWrapperHandler env abi msgSender assetId)])

theorem assetPrecompile_eq (evm : Evm Slot) (p : Provider Slot) (call : AssetCalldata) :
    assetPrecompile evm env abi msgSender p call =
      (assetMethod env abi msgSender call).call evm p := by
  cases call with
  | batchTransfer assetId receivers amounts =>
    show batchTransferCall evm env msgSender assetId receivers amounts p = _
    rw [batchTransferCall, assetMethod, Method.call]
    rcases (batchTransferChecks env msgSender receivers amounts).run evm p with ⟨q, e | sender⟩
    · rfl
    · dsimp only
      rw [Prog.run_bind]
      rcases (batchTransferHandler env sender assetId (receivers.zip amounts)).run evm q with
        ⟨r, e | ⟨⟩⟩
      · rfl
      · rfl
  | _ => rfl

/-- **A failed call changes nothing.** A call of the asset precompile that fails, of any method,
with any gas and in any context, leaves slots, balances and logs as they were. -/
theorem failed_asset_call_unchanged (evm : Evm Slot) (env : Env) (abi : FactoryAbi)
    (msgSender : Address) (call : AssetCalldata) {p q : Provider Slot} {e : PrecompileError}
    (h : assetPrecompile evm env abi msgSender p call = (q, .error e)) :
    Unchanged p.journal q.journal :=
  Method.unchanged_of_error ((assetPrecompile_eq env abi msgSender evm p call).symm.trans h)

def noFactory : FactoryAbi where
  encode _ _ _ _ := []
  decodeReturns _ := .error "no factory"

theorem unpaid_approve_unchanged : Unchanged registeredJournal (assetPrecompile noEvm plainEnv
    noFactory 0xA (.new registeredJournal 43100 false) (.approve 1 0xB 7)).1.journal :=
  failed_asset_call_unchanged (p := .new registeredJournal 43100 false) (e := .outOfGas) _ _ _ _ _
    (Prod.ext rfl rfl)

def approvePrecompile : CustomPrecompile Slot Words :=
  fun _ => .ok (assetMethod plainEnv noFactory 0xA (.approve 1 0xB 7))

end Asset

/-! ### In the switch precompile -/

section Switch

open Callchain.Asset Callchain.Switch

theorem readOnly_canSwitch (assetId : U64) : (canSwitchHandler assetId).ReadOnly := by
  refine (Prog.readOnly_call rfl).bind fun status => ?_
  split
  · refine Prog.ReadOnly.bind ?_ fun _ => trivial
    unfold hasBridge
    split
    · trivial
    · exact (Prog.readOnly_call rfl).bind fun _ => trivial
  · trivial

theorem readOnly_getDominance (assetId : U64) : (getDominanceHandler assetId).ReadOnly := by
  refine Prog.ReadOnly.bind (readOnly_storageRef _ ?_) fun _ => trivial
  unfold readDominance
  split
  · trivial
  · exact fun _ => trivial

def switchMethod (env : Env) (msgSender : Address) : SwitchCalldata → Precompile.Method Slot Words
  | .switchToEvm assetId receiver amount =>
    .mutate 20000 (do switchToEvmHandler env msgSender assetId receiver amount; return [])
  | .switchToProtocol assetId receiver amount =>
    .mutate 20000 (do switchToProtocolHandler env msgSender assetId receiver amount; return [])
  | .getEvmContract assetId =>
    .view 800 (getEvmContractHandler assetId) ((Prog.readOnly_call rfl).bind fun _ => trivial)
  | .canSwitch assetId => .view 800 (canSwitchHandler assetId) (readOnly_canSwitch assetId)
  | .getDominance assetId => .view 600 (getDominanceHandler assetId) (readOnly_getDominance assetId)

theorem switchPrecompile_eq (evm : Evm Slot) (env : Env) (msgSender : Address) (p : Provider Slot)
    (call : SwitchCalldata) : switchPrecompile evm env msgSender p call =
      (switchMethod env msgSender call).call evm p := by
  cases call with
  | _ => rfl

def callHeld : Journal Slot where
  world := { storage := fun k => if k = .balance callAssetId 0xA then 10 else 0 }

def switchCall : CustomPrecompile Slot Words :=
  fun _ => .ok (switchMethod plainEnv 0xA (.switchToEvm callAssetId 0xB 4))

end Switch

end Callchain.Precompile

/-
# What a gas limit can change

A mutating method is run with two gas limits in the same state. A failed call changes
nothing (`mutate_journal_of_error`), and one that succeeds did what its handler does
with ample gas, up to events that were dropped. But a store that cannot be paid is made
for nothing, and more gas can then be worse: it pays for the store, and is not there for
what the handler charges after it.
-/
import Callchain.Asset.Precompile

namespace Callchain.Precompile

open Budget

variable {K : Type} [DecidableEq K] {α ι : Type} {evm : Evm K}
  {decode : Bytes → Except PrecompileError ι} {gas : ℕ} {handler : ι → Prog K α}
  {calldata : Bytes} {p : Provider K}

/-- A call succeeds exactly where its handler does with ample gas and the limit lasts
for the charges, the base gas last. -/
theorem mutate_isOk_iff (hgas : coldSloadCost ≤ gas) :
    (∃ q out, mutate evm decode gas handler calldata p = (q, .ok out)) ↔
      ∃ call value, decode calldata = .ok call ∧
        ((handler call).ample evm p.isStatic p.journal.world).result = .ok value ∧
        (settle p.gasRemaining (((handler call).ample evm p.isStatic p.journal.world).charges ++
          [.must gas])).isSome := by
  constructor
  · rintro ⟨q, out, h⟩
    obtain ⟨call, r, hd, hrun, hle, -⟩ := mutate_run_of_ok h
    obtain ⟨hpass, -, hres⟩ := Prog.run_passed_of_ok hrun (hgas.trans hle)
    refine ⟨call, out.value, hd, hres.symm, ?_⟩
    rw [settle_append, hpass, Option.bind_some, settle, if_pos hle]
    rfl
  · rintro ⟨call, value, hd, hr, hpass⟩
    rw [settle_append, Option.isSome_iff_exists] at hpass
    obtain ⟨g', hg'⟩ := hpass
    obtain ⟨g, hg, hbase⟩ := Option.bind_eq_some_iff.1 hg'
    have hle : gas ≤ g := by
      by_contra hlt
      rw [settle, if_neg hlt] at hbase
      cases hbase
    have hp := ((handler call).run_settle evm p).1 g hg
    rcases hrun : (handler call).run evm p with ⟨r, out⟩
    rw [hrun] at hp
    obtain rfl : out = .ok value := hp.result.trans hr
    have hleg : gas ≤ r.gasRemaining := by
      have hrg : r.gasRemaining = g := hp.gas
      omega
    obtain ⟨out, hout, -⟩ := mutate_of_run hd hrun hleg
    exact ⟨_, out, hout⟩

theorem mutate_of_total_le {call : ι} {value : α} (hd : decode calldata = .ok call)
    (hr : ((handler call).ample evm p.isStatic p.journal.world).result = .ok value)
    (hle : total (((handler call).ample evm p.isStatic p.journal.world).charges ++
      [.must gas]) ≤ p.gasRemaining) :
    ∃ q out, mutate evm decode gas handler calldata p = (q, .ok out) ∧ out.value = value ∧
      q.journal = ⟨((handler call).ample evm p.isStatic p.journal.world).world,
        p.journal.logs ++ ((handler call).ample evm p.isStatic p.journal.world).logs⟩ := by
  rw [total_append, total_must] at hle
  have hp := (handler call).run_paid evm p ((Nat.le_add_right _ _).trans hle)
  rcases hrun : (handler call).run evm p with ⟨r, out⟩
  rw [hrun] at hp
  obtain rfl : out = .ok value := hp.result.trans hr
  have hgas : r.gasRemaining + total ((handler call).ample evm p.isStatic p.journal.world).charges =
      p.gasRemaining := hp.gas
  have hleg : gas ≤ r.gasRemaining := by omega
  obtain ⟨out, hout, hval⟩ := mutate_of_run hd hrun hleg
  refine ⟨_, out, hout, hval, ?_⟩
  rw [← hp.world, ← hp.logs]

variable (evm decode gas handler calldata) in
/-- More gas changes neither the value nor the effect, and a failed call has none. -/
def GasIndependent (journal : Journal K) (static : Bool) : Prop :=
  (∀ limit limit' q out, limit ≤ limit' →
    mutate evm decode gas handler calldata (.new journal limit static) = (q, .ok out) →
      ∃ q' out', mutate evm decode gas handler calldata (.new journal limit' static) =
        (q', .ok out') ∧ out'.value = out.value ∧ q'.journal = q.journal) ∧
  ∀ limit q e, mutate evm decode gas handler calldata (.new journal limit static) =
    (q, .error e) → q.journal = journal

variable (evm decode gas handler calldata) in
/-- The charges of a handler that succeeds with ample gas are covered. -/
def StoresCovered (journal : Journal K) (static : Bool) : Prop :=
  ∀ call value, decode calldata = .ok call →
    ((handler call).ample evm static journal.world).result = .ok value →
      Covered (((handler call).ample evm static journal.world).charges ++ [.must gas])

/-- **Gas decides success only.** The gas limit only decides between success and failure, and more
of it never makes a call fail, exactly where the stores of the handler are covered. -/
theorem gasIndependent_iff (hgas : coldSloadCost ≤ gas) (journal : Journal K) (static : Bool) :
    GasIndependent evm decode gas handler calldata journal static ↔
      StoresCovered evm decode gas handler calldata journal static := by
  constructor
  · rintro ⟨hsame, -⟩ call value hd hr
    have hpos : 0 < gas := lt_of_lt_of_le (by decide) hgas
    rw [← settle_mono_iff hpos]
    intro limit limit' hle hpass
    obtain ⟨q, out, h⟩ := (mutate_isOk_iff (p := .new journal limit static) hgas).2
      ⟨call, value, hd, hr, hpass⟩
    obtain ⟨q', out', h', -⟩ := hsame limit limit' q out hle h
    obtain ⟨call', value', hd', -, hpass'⟩ :=
      (mutate_isOk_iff (p := .new journal limit' static) hgas).1 ⟨q', out', h'⟩
    obtain rfl := Except.ok.inj (hd.symm.trans hd')
    exact hpass'
  · intro hcov
    refine ⟨fun limit limit' q out hle h => ?_, fun limit q e h => mutate_journal_of_error h⟩
    obtain ⟨call, value, hd, hr, hpass⟩ :=
      (mutate_isOk_iff (p := .new journal limit static) hgas).1 ⟨q, out, h⟩
    have htot := (hcov call value hd hr).settle_isSome_iff.1 hpass
    have htot' : total (((handler call).ample evm static journal.world).charges ++ [.must gas]) ≤
        limit' := le_trans htot hle
    obtain ⟨q₁, out₁, h₁, hv₁, hj₁⟩ :=
      mutate_of_total_le (p := .new journal limit static) hd hr htot
    obtain ⟨q₂, out₂, h₂, hv₂, hj₂⟩ :=
      mutate_of_total_le (p := .new journal limit' static) hd hr htot'
    obtain ⟨rfl, hout⟩ := Prod.mk.inj (h.symm.trans h₁)
    cases hout
    exact ⟨q₂, out₂, h₂, hv₂.trans hv₁.symm, hj₂.trans hj₁.symm⟩

/-! ### In the asset precompile -/

section Asset

open Callchain.Asset

def noEvm : Evm Slot := fun _ _ _ _ => .error "no code"

def plainEnv : Env where
  keccak256 _ := 0
  timestamp := 0
  displayAddress _ := ""

def registeredJournal : Journal Slot where
  world := { storage := fun k => if k = .assetMeta 1 .symbol then writeString32 [67] else 0 }

theorem gasIndependent_iff_at_register :
    coldSloadCost ≤ 50000 ∧ GasIndependent noEvm (fun _ => .ok ()) 50000
        (fun () => registerHandler plainEnv 0xA [68] [68] 6 0) [] registeredJournal false := by
  refine ⟨by decide, (gasIndependent_iff (by decide) _ _).2 ?_⟩
  intro call value _ _
  show Covered (((registerHandler plainEnv 0xA [68] [68] 6 0).ample noEvm false
    registeredJournal.world).charges ++ [.must 50000])
  decide

def approveWith (limit : ℕ) : Provider Slot × Except PrecompileError (Output Unit) :=
  mutate noEvm (fun _ => .ok ()) 3000 (fun () => approveHandler plainEnv 0xA 1 0xB 7) []
    (.new registeredJournal limit false)

/-- With 26131 gas the allowance is stored for nothing; with 43100 the store is paid,
and nothing is left for the event. -/
theorem approve_worse_with_more_gas : (approveWith 26131).2.toOption.isSome = true ∧
      (approveWith 26131).1.journal.world.storage (.allowance 1 0xA 0xB) = 7 ∧
      (approveWith 43100).2.toOption.isSome = false ∧
      (approveWith 43100).1.journal.world.storage (.allowance 1 0xA 0xB) = 0 := by
  decide

end Asset

end Callchain.Precompile

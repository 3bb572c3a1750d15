/-
# Who a precompile acts for

`CallPrecompiles::run` looks the precompile up under the address whose code is called,
`bytecode_address`, and hands it `inputs.caller` as `msg_sender`. A frame opened with
CALL or STATICCALL has the account that made the call as its caller; one opened with
DELEGATECALL keeps the caller of the frame it was opened from, so a contract that is
called by an account can act on a precompile as that account.
-/
import Callchain.Precompile.Static

namespace Callchain.Precompile

/-! ### Calls -/

inductive CallScheme where
  | call
  | callCode
  | delegateCall
  | staticCall
  deriving DecidableEq

/-- What a call frame is opened with. -/
structure CallInputs where
  input : Bytes
  gasLimit : ℕ
  bytecodeAddress : Address
  targetAddress : Address
  caller : Address
  scheme : CallScheme
  isStatic : Bool

structure CallInstr where
  scheme : CallScheme
  address : Address
  input : Bytes
  gasLimit : ℕ

/-- How revm opens a frame from the one that executes the instruction: the four
schemes as the EVM defines them. -/
structure CallRules where
  inputs : CallInputs → CallInstr → CallInputs
  scheme : ∀ frame i, (inputs frame i).scheme = i.scheme
  bytecode : ∀ frame i, (inputs frame i).bytecodeAddress = i.address
  /-- The account that executes the instruction calls. -/
  caller : ∀ frame i, i.scheme ≠ .delegateCall → (inputs frame i).caller = frame.targetAddress
  /-- The outer caller calls. -/
  delegated : ∀ frame i, i.scheme = .delegateCall → (inputs frame i).caller = frame.caller
  /-- The code runs for its own account. -/
  target : ∀ frame i, i.scheme = .call ∨ i.scheme = .staticCall →
    (inputs frame i).targetAddress = i.address
  /-- The code of another account runs for this one. -/
  borrowed : ∀ frame i, i.scheme = .callCode ∨ i.scheme = .delegateCall →
    (inputs frame i).targetAddress = frame.targetAddress

def CallInputs.ofTransaction (origin receiver : Address) (input : Bytes) (gasLimit : ℕ) :
    CallInputs where
  input := input
  gasLimit := gasLimit
  bytecodeAddress := receiver
  targetAddress := receiver
  caller := origin
  scheme := .call
  isStatic := false

/-! ### The provider of precompiles -/

variable {K α : Type}

variable (K α) in
/-- With the calldata, `msg_sender` and the storage provider. -/
abbrev StatefulPrecompile :=
  Bytes → Address → Provider K → Provider K × Except PrecompileError (Output α)

/-- `InstructionResult`, where `run` sets it. -/
inductive InstructionResult where
  | returned
  | precompileOOG
  | precompileError
  deriving DecidableEq

structure InterpreterResult (α : Type) where
  result : InstructionResult
  gasSpent : ℕ
  gasRefunded : ℕ
  output : Option α

/-- What `run` hands to a precompile. -/
structure Invocation (K α : Type) where
  precompile : StatefulPrecompile K α
  calldata : Bytes
  msgSender : Address
  provider : Provider K

def invocation (custom : Address → Option (StatefulPrecompile K α)) (inputs : CallInputs)
    (journal : Journal K) : Option (Invocation K α) :=
  (custom inputs.bytecodeAddress).map fun precompile =>
    { precompile, calldata := inputs.input, msgSender := inputs.caller
      provider := .new journal inputs.gasLimit inputs.isStatic }

/-- What `run` makes of the result of a precompile. -/
def Invocation.call (inv : Invocation K α) : Journal K × InterpreterResult α :=
  match inv.precompile inv.calldata inv.msgSender inv.provider with
  | (p, .ok output) => (p.journal, ⟨.returned, output.gasUsed, output.gasRefunded, some output.value⟩)
  | (p, .error .outOfGas) => (p.journal, ⟨.precompileOOG, 0, 0, none⟩)
  | (p, .error (.other _)) => (p.journal, ⟨.precompileError, 0, 0, none⟩)

/-- `CallPrecompiles::run`, for the custom precompiles. -/
def run (custom : Address → Option (StatefulPrecompile K α)) (inputs : CallInputs)
    (journal : Journal K) : Option (Journal K × InterpreterResult α) :=
  (invocation custom inputs journal).map Invocation.call

/-! ### Frames -/

/-- A frame of a transaction, with the account that issued the call: a frame that runs
the code of a contract opens further ones. -/
inductive Reached (rules : CallRules) (custom : Address → Option (StatefulPrecompile K α)) :
    Address → CallInputs → Prop
  | transaction (origin receiver : Address) (input : Bytes) (gasLimit : ℕ) :
    Reached rules custom origin (.ofTransaction origin receiver input gasLimit)
  | nested {issuer : Address} {frame : CallInputs} (reached : Reached rules custom issuer frame)
    (contract : custom frame.bytecodeAddress = none) (i : CallInstr) :
    Reached rules custom frame.targetAddress (rules.inputs frame i)

def CallScheme.Direct (s : CallScheme) : Prop := s = .call ∨ s = .staticCall

/-- A custom precompile sees the issuer as its sender, in a direct call. -/
def Authorised (custom : Address → Option (StatefulPrecompile K α)) (issuer : Address)
    (inputs : CallInputs) (journal : Journal K) : Prop :=
  ∀ inv, invocation custom inputs journal = some inv →
    inv.msgSender = issuer ∧ inputs.scheme.Direct

variable {rules : CallRules} {custom : Address → Option (StatefulPrecompile K α)}
  {issuer : Address} {inputs : CallInputs}

theorem Reached.caller_eq (h : Reached rules custom issuer inputs)
    (hs : inputs.scheme ≠ .delegateCall) : inputs.caller = issuer := by
  cases h with
  | transaction => rfl
  | nested reached contract i =>
    rw [rules.scheme] at hs
    exact rules.caller _ i hs

theorem invocation_eq_some {journal : Journal K} {inv : Invocation K α}
    (h : invocation custom inputs journal = some inv) :
    (custom inputs.bytecodeAddress).isSome = true ∧ inv.msgSender = inputs.caller := by
  obtain ⟨precompile, hp, rfl⟩ := Option.map_eq_some_iff.1 h
  exact ⟨Option.isSome_iff_exists.2 ⟨precompile, hp⟩, rfl⟩

/-- **Whose authority.** A precompile acts on the authority of whoever called it exactly where its
address is called, and no code of it is borrowed. -/
theorem authorised_iff (h : Reached rules custom issuer inputs) (journal : Journal K) :
    Authorised custom issuer inputs journal ↔
      ((custom inputs.bytecodeAddress).isSome = true → inputs.scheme.Direct) := by
  constructor
  · intro hauth hsome
    obtain ⟨precompile, hp⟩ := Option.isSome_iff_exists.1 hsome
    have hinv : invocation custom inputs journal = some ⟨precompile, inputs.input, inputs.caller,
          .new journal inputs.gasLimit inputs.isStatic⟩ := by
      rw [invocation, hp]
      rfl
    exact (hauth _ hinv).2
  · intro hdir inv hinv
    obtain ⟨hsome, hsen⟩ := invocation_eq_some hinv
    have hd := hdir hsome
    refine ⟨hsen.trans (h.caller_eq fun hs => ?_), hd⟩
    rw [hs] at hd
    rcases hd with hc | hc
    · exact nomatch hc
    · exact nomatch hc

def evmCallRules : CallRules where
  inputs frame i :=
    match i.scheme with
    | .call => ⟨i.input, i.gasLimit, i.address, i.address, frame.targetAddress, .call,
        frame.isStatic⟩
    | .callCode => ⟨i.input, i.gasLimit, i.address, frame.targetAddress, frame.targetAddress,
        .callCode, frame.isStatic⟩
    | .delegateCall => ⟨i.input, i.gasLimit, i.address, frame.targetAddress, frame.caller,
        .delegateCall, frame.isStatic⟩
    | .staticCall => ⟨i.input, i.gasLimit, i.address, i.address, frame.targetAddress,
        .staticCall, true⟩
  scheme frame i := by cases h : i.scheme <;> rfl
  bytecode frame i := by cases h : i.scheme <;> rfl
  caller frame i hs := by cases h : i.scheme <;> first | rfl | exact absurd h hs
  delegated frame i hs := by rw [hs]
  target frame i hs := by rcases hs with hs | hs <;> rw [hs]
  borrowed frame i hs := by rcases hs with hs | hs <;> rw [hs]

/-! ### In the asset precompile -/

section Asset

open Callchain.Asset

def assetOnly (call : AssetCalldata) : Address → Option (StatefulPrecompile Slot Words) :=
  fun address =>
    if address = assetAddress then
      some fun _ msgSender p =>
        assetPrecompile noEvm plainEnv noFactory msgSender p call
    else none

/-- `0xA` sends a transaction to the contract `0xBAD`. -/
def frameOfContract : CallInputs := .ofTransaction 0xA 0xBAD [] 1000000

def assetFrame (scheme : CallScheme) : CallInputs :=
  evmCallRules.inputs frameOfContract ⟨scheme, assetAddress, [], 500000⟩

theorem reached_assetFrame (call : AssetCalldata) (scheme : CallScheme) :
    Reached evmCallRules (assetOnly call) 0xBAD (assetFrame scheme) :=
  .nested (.transaction 0xA 0xBAD [] 1000000) rfl _

theorem authorised_iff_at_call :
    Reached evmCallRules (assetOnly (.transfer 1 0xBAD 5)) 0xBAD (assetFrame .call) ∧
      Authorised (assetOnly (.transfer 1 0xBAD 5)) 0xBAD (assetFrame .call) {} :=
  ⟨reached_assetFrame _ _, (authorised_iff (reached_assetFrame _ _) {}).2 fun _ => .inl rfl⟩

def holdingJournal : Journal Slot where
  world := { storage := Function.update registeredJournal.world.storage (.balance 1 0xA) 7 }

/-- With DELEGATECALL it moves what its caller holds to itself, in a call that
`0xA` did not issue. -/
theorem delegated_transfer_moves_balance :
    Reached evmCallRules (assetOnly (.transfer 1 0xBAD 5)) 0xBAD (assetFrame .delegateCall) ∧
      ((run (assetOnly (.transfer 1 0xBAD 5)) (assetFrame .delegateCall) holdingJournal).map
        fun out => (out.2.result, out.1.world.storage (.balance 1 0xA),
          out.1.world.storage (.balance 1 0xBAD))) = some (.returned, 2, 5) ∧
      ¬Authorised (assetOnly (.transfer 1 0xBAD 5)) 0xBAD (assetFrame .delegateCall)
        holdingJournal := by
  refine ⟨reached_assetFrame _ _, by decide, fun h => ?_⟩
  have hsen := (h ⟨_, _, 0xA, _⟩ rfl).1
  exact absurd hsen (by decide)

end Asset

end Callchain.Precompile

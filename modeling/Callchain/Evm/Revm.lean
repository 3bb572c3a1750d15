/-
# What is assumed of revm

`Host.transact` stands for revm. The properties of blocks use of it what its
documentation promises and the rules of the EVM give:

* `RevmSpec`: the caller of a transaction that ran is in the delta, touched and not
  destroyed; an account that was loaded and not touched is in the delta as it was read.

What the node's own precompiles can break is no part of it: that the caller pays at most the
value and the gas, and that native balances are conserved, is asked of single transactions
where it is used (`Settles`, `Conserves`).
-/
import Callchain.Evm.Bridge
import Callchain.Lib.Ledger
import Mathlib.Tactic.Ring
import Mathlib.Tactic.NormNum

namespace Callchain.Evm

def Ran (H : Host) (v : DbView) (tx : TxEnv) (blk : BlockEnv) (res : EvmExecutionResult)
    (delta : EvmState) : Prop :=
  ∃ reads, H.transact v tx blk = (reads, .ok (res, delta))

/-- The price revm charges for a unit of gas: without a priority fee the
transaction is a legacy one. -/
def TxEnv.price (tx : TxEnv) (blk : BlockEnv) : ℕ :=
  match tx.gasPriorityFee with
  | none => tx.gasPrice.toNat
  | some p => min tx.gasPrice.toNat (blk.basefee.toNat + p.toNat)

/-- The record has what the view holds at the address. -/
structure AsRead (v : DbView) (a : Address) (r : Account) : Prop where
  balance : r.info.balance = (v.basic a).balance
  nonce : r.info.nonce = (v.basic a).nonce
  code : r.info.code = (v.basic a).code ∨ r.info.code = some (v.code a)
  storage : ∀ k s, r.storage k = some s → s.presentValue = v.storage a k

/-- What is used of the delta of one transaction that ran. -/
structure RevmSpec (v : DbView) (caller : Address) (delta : EvmState) : Prop where
  caller_touched : ∃ r, delta caller = some r ∧ r.status.touched ∧ ¬ r.status.selfdestructed
  untouched : ∀ {a r}, delta a = some r → ¬ r.status.touched → AsRead v a r

/-- The caller has paid at most the value and the gas used at the transaction's price. -/
def CallerPays (v : DbView) (tx : TxEnv) (blk : BlockEnv) (gasUsed : U64) (delta : EvmState) : Prop :=
  ∀ r, delta tx.caller = some r → (v.basic tx.caller).balance.toNat ≤
    r.info.balance.toNat + tx.value.toNat + gasUsed.toNat * tx.price blk

def balanceAfter (v : DbView) (delta : EvmState) (a : Address) : ℕ :=
  match delta a with
  | none => (v.basic a).balance.toNat
  | some r =>
    if r.status.touched then (if r.status.selfdestructed then 0 else r.info.balance.toNat)
    else (v.basic a).balance.toNat

/-! ### The price of the node and the price of revm -/

def EvmTransaction.Typed (tx : EvmTransaction) : Prop :=
  tx.txType = 2 ∨ tx.txType = 3 → tx.maxPriorityFee.isSome

instance (tx : EvmTransaction) : Decidable tx.Typed := by
  unfold EvmTransaction.Typed; infer_instance

theorem le_saturatingAdd (a b g : U128) (n : ℕ) (hn : n ≤ a.toNat) :
    min g.toNat (n + b.toNat) ≤ (a.saturatingAdd b).toNat := by
  unfold U128.saturatingAdd
  split_ifs with h
  · rw [BitVec.toNat_add_of_lt h]
    omega
  · rw [BitVec.toNat_allOnes]
    omega

/-- The node never refunds at a lower price than revm charges, as long as the type of
the transaction fits its fields. -/
theorem price_le_effective {tx : EvmTransaction} (h : tx.Typed) (blk : BlockParams) :
    tx.txEnv.price blk.env ≤ (effectiveGasPrice tx blk.baseFee).toNat := by
  have hp : tx.txEnv.price blk.env ≤ tx.gasPrice.toNat := by
    unfold TxEnv.price EvmTransaction.txEnv
    split
    · exact le_rfl
    · exact min_le_left _ _
  unfold effectiveGasPrice
  dsimp only
  split_ifs with h1 h2
  · exact hp
  · obtain ⟨p, hp'⟩ := Option.isSome_iff_exists.mp (h h1)
    simp only [TxEnv.price, EvmTransaction.txEnv, hp', Option.getD_some]
    refine le_saturatingAdd _ _ _ _ ?_
    exact Nat.mod_le _ _
  · exact hp

/-! ### A machine that meets the assumptions -/

namespace Reference

def keccak (bytes : Bytes) : B256 :=
  BitVec.ofNat 256 (bytes.foldl (fun n b => n * 256 + b.toNat) 0)

theorem foldl_beBytes : ∀ (n v x : ℕ),
    (beBytes n v).foldl (fun n b => n * 256 + b.toNat) x = x * 256 ^ n + v % 256 ^ n
  | 0, v, x => by simp [beBytes, Nat.mod_one]
  | n + 1, v, x => by
    rw [beBytes, List.foldl_cons, foldl_beBytes n v]
    have h : (UInt8.ofNat (v / 256 ^ n % 256)).toNat = v / 256 ^ n % 256 := by simp
    rw [h, pow_succ, Nat.mod_mul]
    ring

def payer (v : DbView) (a : Address) (n : ℕ) : Account where
  info := { v.basic a with
    balance := (v.basic a).balance - BitVec.ofNat 256 n
    nonce := (v.basic a).nonce + 1 }
  status := { touched := true }

def payee (v : DbView) (a : Address) (n : ℕ) : Account where
  info := { v.basic a with balance := (v.basic a).balance + BitVec.ofNat 256 n }
  status := { touched := true }

def delta (v : DbView) (caller recipient : Address) (value fee : ℕ) : EvmState :=
  if recipient = caller then Function.update (fun _ => none) caller (some (payer v caller fee))
  else
    Function.update (Function.update (fun _ => none) caller (some (payer v caller (value + fee))))
      recipient (some (payee v recipient value))

/-- The contract at `a` consists of the invalid opcode. -/
def Halts (v : DbView) (a : Address) : Prop := v.code a = [0xfe]

instance (v : DbView) (a : Address) : Decidable (Halts v a) := by unfold Halts; infer_instance

def gas (v : DbView) (tx : TxEnv) (recipient : Address) : U64 :=
  if Halts v recipient then tx.gasLimit else 21000

/-- What a call moves: nothing if it halts. -/
def moved (v : DbView) (tx : TxEnv) (recipient : Address) : ℕ :=
  if Halts v recipient then 0 else tx.value.toNat

def fee (v : DbView) (tx : TxEnv) (blk : BlockEnv) : ℕ :=
  match tx.kind with
  | none => 0
  | some recipient => (gas v tx recipient).toNat * tx.price blk

def transact (v : DbView) (tx : TxEnv) (blk : BlockEnv) :
    List DbRead × Except String (EvmExecutionResult × EvmState) :=
  match tx.kind with
  | none => ([], .error "Create")
  | some recipient =>
    let reads := [.basic tx.caller, .basic recipient]
    -- the machine has no precompiles
    if recipient.toNat < 0x1000 then (reads, .error "Precompile")
    else if tx.nonce ≠ (v.basic tx.caller).nonce then (reads, .error "Nonce")
    else if (v.basic tx.caller).balance.toNat < tx.value.toNat + tx.gasLimit.toNat * tx.gasPrice.toNat
      then (reads, .error "LackOfFundForMaxFee")
    else if tx.gasLimit < 21000 then (reads, .error "CallGasCostMoreThanGasLimit")
    else if 2 ^ 256 ≤ (v.basic recipient).balance.toNat + tx.value.toNat
      then (reads, .error "OverflowPayment")
    else
      let used := gas v tx recipient
      (reads, .ok (⟨¬ Halts v recipient, used, [], []⟩,
        delta v tx.caller recipient (moved v tx recipient) (used.toNat * tx.price blk)))

/-- The machine with the decoder `json`; nothing is an envelope, no signature recovers.
-/
def host (json : Bytes → Option EvmTransaction) : Host where
  keccak256 := keccak
  txEnvelopeDecode _ := none
  jsonFromSlice := json
  signatureHash _ := 0
  recover _ _ := none
  txEnvBuilds _ := true
  transact := transact

variable (json : Bytes → Option EvmTransaction)

theorem callSlot_injective :
    Function.Injective (callSlot (host json)) := by
  have hval : ∀ a : Address, (callSlot (host json) a).toNat = 256 ^ 20 + a.toNat := fun a => by
    show (keccak [beBytes 8 1, beBytes 20 a.toNat].flatten).toNat = _
    rw [keccak, List.flatten_cons, List.flatten_cons, List.flatten_nil, List.append_nil,
      List.foldl_append, foldl_beBytes, foldl_beBytes]
    norm_num
    omega
  intro a b h
  have := congrArg BitVec.toNat h
  rw [hval, hval] at this
  exact BitVec.eq_of_toNat_eq (by omega)

theorem price_le (tx : TxEnv) (blk : BlockEnv) : tx.price blk ≤ tx.gasPrice.toNat := by
  unfold TxEnv.price
  split
  · exact le_rfl
  · exact min_le_left _ _

section

variable {json : Bytes → Option EvmTransaction} {v : DbView} {tx : TxEnv} {blk : BlockEnv}
  {res : EvmExecutionResult} {d : EvmState}

theorem ran (h : Ran (host json) v tx blk res d) : ∃ recipient,
    tx.kind = some recipient ∧ res.gasUsed = gas v tx recipient ∧
    moved v tx recipient ≤ tx.value.toNat ∧
    moved v tx recipient + fee v tx blk ≤ (v.basic tx.caller).balance.toNat ∧
    (v.basic recipient).balance.toNat + moved v tx recipient < 2 ^ 256 ∧
    d = delta v tx.caller recipient (moved v tx recipient) (fee v tx blk) := by
  obtain ⟨reads, h⟩ := h
  simp only [host, transact] at h
  cases hk : tx.kind with
  | none => rw [hk] at h; simp at h
  | some recipient =>
    rw [hk] at h
    dsimp only at h
    split_ifs at h with h0 h1 h2 h3 h4
    all_goals simp only [Prod.mk.injEq, Except.ok.injEq, reduceCtorEq, and_false] at h
    obtain ⟨-, rfl, rfl⟩ := h
    have hm : moved v tx recipient ≤ tx.value.toNat := by
      unfold moved; split_ifs <;> omega
    have hg : (gas v tx recipient).toNat ≤ tx.gasLimit.toNat := by
      unfold gas
      split_ifs
      · exact le_rfl
      · rw [BitVec.not_lt] at h3; exact h3
    have hf : fee v tx blk ≤ tx.gasLimit.toNat * tx.gasPrice.toNat := by
      simp only [fee, hk]
      exact Nat.mul_le_mul hg (price_le tx blk)
    refine ⟨recipient, rfl, rfl, hm, by omega, by omega, ?_⟩
    simp only [fee, hk]

end

variable {v : DbView}

theorem payer_balance {a : Address} {n : ℕ} (h : n ≤ (v.basic a).balance.toNat) :
    (payer v a n).info.balance.toNat = (v.basic a).balance.toNat - n := by
  have hn : (BitVec.ofNat 256 n).toNat = n := by
    rw [BitVec.toNat_ofNat]; exact Nat.mod_eq_of_lt (by omega)
  show ((v.basic a).balance - BitVec.ofNat 256 n).toNat = _
  rw [BitVec.toNat_sub_of_le (by rw [BitVec.le_def, hn]; exact h), hn]

theorem payee_balance {a : Address} {n : ℕ}
    (h : (v.basic a).balance.toNat + n < 2 ^ 256) :
    (payee v a n).info.balance.toNat = (v.basic a).balance.toNat + n := by
  have hn : (BitVec.ofNat 256 n).toNat = n := by
    rw [BitVec.toNat_ofNat]; exact Nat.mod_eq_of_lt (by omega)
  show ((v.basic a).balance + BitVec.ofNat 256 n).toNat = _
  rw [BitVec.toNat_add_of_lt (by rw [hn]; exact h), hn]

theorem delta_plain {caller recipient a : Address} {value fee : ℕ} {r : Account}
    (h : delta v caller recipient value fee a = some r) :
    r.status = { touched := true } ∧ r.storage = fun _ => none := by
  unfold delta at h
  split_ifs at h with hr
  · by_cases ha : a = caller
    · subst ha; simp at h; subst h; exact ⟨rfl, rfl⟩
    · simp [ha] at h
  · by_cases ha : a = recipient
    · subst ha; simp at h; subst h; exact ⟨rfl, rfl⟩
    · by_cases hc : a = caller
      · subst hc; simp [ha] at h; subst h; exact ⟨rfl, rfl⟩
      · simp [ha, hc] at h

theorem delta_caller {caller recipient : Address} {value fee : ℕ} :
    delta v caller recipient value fee caller =
      some (payer v caller (if recipient = caller then fee else value + fee)) := by
  unfold delta
  split_ifs with h
  · simp
  · simp [Ne.symm h]

theorem recorded_none {caller recipient : Address} {value fee : ℕ} (a : Address)
    (k : U256) : (delta v caller recipient value fee a).bind (·.storage k) = none := by
  cases h : delta v caller recipient value fee a with
  | none => rfl
  | some => rw [Option.bind_some, (delta_plain h).2]

section
variable {json} {tx : TxEnv} {blk : BlockEnv} {res : EvmExecutionResult} {d : EvmState}
  (h : Ran (host json) v tx blk res d)
include h

theorem host_spec : RevmSpec v tx.caller d := by
  obtain ⟨recipient, -, -, -, -, -, rfl⟩ := ran h
  constructor
  case caller_touched => refine ⟨_, delta_caller, ?_, ?_⟩ <;> simp [payer]
  case untouched =>
    intro a r hr ht
    exact absurd (by rw [(delta_plain hr).1]) ht

theorem host_callerPays : CallerPays v tx blk res.gasUsed d := by
  intro r hr
  obtain ⟨recipient, hk, hg, hm, hb, -, rfl⟩ := ran h
  rw [delta_caller, Option.some.injEq] at hr
  subst hr
  rw [payer_balance (by split_ifs <;> omega), hg]
  simp only [fee, hk] at *
  split_ifs <;> omega

theorem host_conserves : Ledger.total (balanceAfter v d) + fee v tx blk =
    Ledger.total fun a => (v.basic a).balance.toNat := by
  obtain ⟨recipient, -, -, -, hb, hov, rfl⟩ := ran h
  set value := moved v tx recipient
  set f := fee v tx blk
  by_cases hr : recipient = tx.caller
  · have hagr : ∀ a, a ≠ tx.caller → balanceAfter v (delta v tx.caller recipient value f) a =
        (v.basic a).balance.toNat := fun a ha => by
      simp [balanceAfter, delta, hr, ha]
    have := Ledger.total_of_agree tx.caller hagr
    rw [show balanceAfter v (delta v tx.caller recipient value f) tx.caller =
      (v.basic tx.caller).balance.toNat - f from ?_] at this
    · omega
    · simp only [balanceAfter, delta_caller, hr, if_true]
      exact payer_balance (by omega)
  · -- the caller first, then the recipient
    let paid := Function.update (fun a => (v.basic a).balance.toNat) tx.caller
      ((v.basic tx.caller).balance.toNat - (value + f))
    have h1 : Ledger.total paid + (v.basic tx.caller).balance.toNat =
        Ledger.total (fun a => (v.basic a).balance.toNat) +
          ((v.basic tx.caller).balance.toNat - (value + f)) := Ledger.total_update _ _ _
    have hagr : ∀ a, a ≠ recipient → balanceAfter v (delta v tx.caller recipient value f) a =
        paid a := fun a ha => by
      by_cases hc : a = tx.caller
      · subst hc
        simp only [balanceAfter, delta_caller, hr, if_false, paid, Function.update_self]
        exact payer_balance (by omega)
      · simp [balanceAfter, delta, hr, ha, hc, paid]
    have h2 := Ledger.total_of_agree recipient hagr
    have h3 : paid recipient = (v.basic recipient).balance.toNat := by
      simp [paid, hr]
    have h4 : balanceAfter v (delta v tx.caller recipient value f) recipient =
        (v.basic recipient).balance.toNat + value := by
      have : delta v tx.caller recipient value f recipient = some (payee v recipient value) := by
        simp [delta, hr]
      simp only [balanceAfter, this]
      exact payee_balance hov
    omega

end

end Reference

end Callchain.Evm

/-
# The state in memory and the state on disk

A delta of revm reaches the state on two ways: `apply_from_revm_state` writes it into
the provider in memory, and `apply_revm_state_to_mdbx` (`crates/evm/src/db.rs`) into the
tables, from which `from_db` loads a provider. The two agree about accounts that are
touched and live, or were only loaded. They disagree

* about a destroyed account, which only the tables forget: in memory its nonce, code and
  slots stay;
* about an account whose code the delta does not carry: in memory the code stays, the
  tables get an empty one.

A table is a function of its key, and a row is bytes. Accounts are encoded by postcard,
which is taken with its round trip (`Codec`). The table of bytecodes by hash, which
`from_db` does not read, is left out.
-/
import Callchain.Evm.Tracking
import Mathlib.Logic.Encodable.Pi

namespace Callchain.Evm

open InMemoryStateProvider CacheDB

/-! ### Rows -/

def encodeU256 (v : U256) : Bytes := beBytes 32 v.toNat

/-- What `codec.rs` takes from postcard and serde_json. -/
structure Codec where
  encodeAccount : EvmAccount → Bytes
  decodeAccount : Bytes → Option EvmAccount
  fromJson : Bytes → Option U256
  decode_encode : ∀ acc, decodeAccount (encodeAccount acc) = some acc

/-- `decode_u256`: 32 bytes, or the text of an old database. -/
def Codec.decodeU256 (C : Codec) (bytes : Bytes) : Option U256 :=
  if bytes.length = 32 then some (BitVec.ofNat 256 (beValue bytes))
  else if bytes.head? = some 0x22 ∨ bytes.head? = some 0x5b then C.fromJson bytes
  else none

theorem Codec.decodeU256_encodeU256 (C : Codec) (v : U256) :
    C.decodeU256 (encodeU256 v) = some v := by
  have hval : v.toNat % 256 ^ 32 = v.toNat := Nat.mod_eq_of_lt (by simpa using v.isLt)
  rw [Codec.decodeU256, encodeU256, if_pos (beBytes_length 32 _), beValue_beBytes, hval,
    BitVec.ofNat_toNat, BitVec.setWidth_eq]

/-- `CallEvmAccounts` and `CallEvmStorage` -/
structure EvmTables where
  evmAccounts : Address → Option Bytes
  evmStorage : Address → U256 → Option Bytes

/-- `db_commit_state_batch`: deletions come first. -/
def EvmTables.commitStateBatch (t : EvmTables) (accounts : Address → Option Bytes)
    (storage : Address → U256 → Option Bytes) (deletedAccounts : Address → Bool) : EvmTables where
  evmAccounts a := (accounts a).or (if deletedAccounts a then none else t.evmAccounts a)
  evmStorage a k := (storage a k).or (t.evmStorage a k)

section
variable (C : Codec)

/-- It clears the tables first. -/
def saveToDb (p : InMemoryStateProvider) : EvmTables where
  evmAccounts a := (p.accounts a).map C.encodeAccount
  evmStorage a k := ((p.accounts a).bind (·.storage k)).map encodeU256

def Account.evmAccount (r : Account) : EvmAccount where
  nonce := r.info.nonce
  balance := r.info.balance
  code := r.info.code.getD []
  storage k := (r.storage k).map (·.presentValue)

def Account.isWritten (r : Account) : Bool := r.status.touched && !r.status.selfdestructed

/-- The slots of a destroyed account stay. -/
def applyRevmStateToMdbx (t : EvmTables) (revmState : EvmState) : EvmTables :=
  let written (a : Address) : Option Account := (revmState a).filter (·.isWritten)
  t.commitStateBatch (fun a => (written a).map fun r => C.encodeAccount r.evmAccount)
    (fun a k => ((written a).bind (·.storage k)).map fun s => encodeU256 s.presentValue)
    (fun a => (revmState a).any fun r => r.status.touched && r.status.selfdestructed)

/-- Every row decodes: `from_db` does not fail. -/
def EvmTables.Readable (t : EvmTables) : Prop :=
  (∀ a row, t.evmAccounts a = some row → (C.decodeAccount row).isSome) ∧
    ∀ a k row, t.evmStorage a k = some row → (C.decodeU256 row).isSome

/-- Where every row decodes: a row of a slot is put over what the account's row has of
it, and is passed over if there is no account. -/
def fromDb (t : EvmTables) : InMemoryStateProvider where
  accounts a := ((t.evmAccounts a).bind C.decodeAccount).map fun acc =>
    { acc with storage := fun k => ((t.evmStorage a k).bind C.decodeU256).or (acc.storage k) }

end

/-! ### What is observed of a state -/

def InMemoryStateProvider.nonEmpty (p : InMemoryStateProvider) (a : Address) : Prop :=
  ∃ acc, p.accounts a = some acc ∧ (acc.balance ≠ 0 ∨ acc.nonce ≠ 0 ∨ acc.code ≠ [])

/-- No query tells the two apart, that for an account's existence included. -/
structure SameState (p q : InMemoryStateProvider) : Prop where
  nonEmpty : ∀ a, p.nonEmpty a ↔ q.nonEmpty a
  balance : ∀ a, p.getBalance a = q.getBalance a
  nonce : ∀ a, p.getNonce a = q.getNonce a
  code : ∀ a, p.getCode a = q.getCode a
  storage : ∀ a k, p.getStorage a k = q.getStorage a k

theorem InMemoryStateProvider.nonEmpty_iff (p : InMemoryStateProvider) (a : Address) :
    p.nonEmpty a ↔ p.getBalance a ≠ 0 ∨ p.getNonce a ≠ 0 ∨ p.getCode a ≠ [] := by
  unfold nonEmpty getBalance getNonce getCode
  cases h : p.accounts a with
  | none | some => simp

def SameAt (p q : InMemoryStateProvider) (a : Address) : Prop :=
  p.getBalance a = q.getBalance a ∧ p.getNonce a = q.getNonce a ∧ p.getCode a = q.getCode a ∧
    ∀ k, p.getStorage a k = q.getStorage a k

theorem sameState_iff {p q : InMemoryStateProvider} : SameState p q ↔ ∀ a, SameAt p q a := by
  refine ⟨fun h a => ⟨h.balance a, h.nonce a, h.code a, h.storage a⟩, fun h => ?_⟩
  refine ⟨fun a => ?_, fun a => (h a).1, fun a => (h a).2.1, fun a => (h a).2.2.1,
    fun a => (h a).2.2.2⟩
  rw [p.nonEmpty_iff, q.nonEmpty_iff, (h a).1, (h a).2.1, (h a).2.2.1]

/-! ### The way through the tables -/

section
variable (C : Codec) (p : InMemoryStateProvider) (delta : EvmState)

def tablesAfter : EvmTables := applyRevmStateToMdbx C (saveToDb C p) delta

def throughMdbx : InMemoryStateProvider := fromDb C (tablesAfter C p delta)

theorem readable_tablesAfter : (tablesAfter C p delta).Readable C := by
  refine ⟨fun a row h => ?_, fun a k row h => ?_⟩
  · rcases Option.or_eq_some_iff.1 h with h | ⟨-, h⟩
    · obtain ⟨r, -, rfl⟩ := Option.map_eq_some_iff.1 h
      rw [C.decode_encode]
      rfl
    · split_ifs at h
      obtain ⟨acc, -, rfl⟩ := Option.map_eq_some_iff.1 h
      rw [C.decode_encode]
      rfl
  · rcases Option.or_eq_some_iff.1 h with h | ⟨-, h⟩
    · obtain ⟨slot, -, rfl⟩ := Option.map_eq_some_iff.1 h
      rfl
    · obtain ⟨v, -, rfl⟩ := Option.map_eq_some_iff.1 h
      rfl

variable {C p delta} {a : Address}

theorem throughMdbx_kept (h : ∀ r, delta a = some r → ¬ r.status.touched) :
    (throughMdbx C p delta).accounts a = p.accounts a := by
  have hwri : (delta a).filter (·.isWritten) = none := by
    cases hd : delta a with
    | none => rfl
    | some r => simp [Account.isWritten, h r hd]
  have hdel : ((delta a).any fun r => r.status.touched && r.status.selfdestructed) = false := by
    cases hd : delta a with
    | none => rfl
    | some r => simp [h r hd]
  simp only [throughMdbx, tablesAfter, fromDb, applyRevmStateToMdbx, EvmTables.commitStateBatch,
    saveToDb, hwri, hdel]
  cases hp : p.accounts a with
  | none => rfl
  | some acc =>
    simp only [Option.map_none, Option.none_or, Bool.false_eq_true, if_false, Option.map_some,
      Option.bind_some, C.decode_encode, Option.bind_none]
    congr 2
    funext k
    cases hk : acc.storage k with
    | none => rfl
    | some => simp [C.decodeU256_encodeU256]

variable {r : Account}

theorem throughMdbx_destroyed (hd : delta a = some r) (ht : r.status.touched)
    (hs : r.status.selfdestructed) : (throughMdbx C p delta).accounts a = none := by
  simp [throughMdbx, tablesAfter, fromDb, applyRevmStateToMdbx, EvmTables.commitStateBatch, hd,
    Account.isWritten, ht, hs]

theorem throughMdbx_live (hd : delta a = some r) (ht : r.status.touched)
    (hs : ¬ r.status.selfdestructed) : (throughMdbx C p delta).accounts a = some { r.evmAccount with
      storage := fun k => ((r.storage k).map (·.presentValue)).or
        ((p.accounts a).bind (·.storage k)) } := by
  have hwri : r.isWritten = true := by simp [Account.isWritten, ht, hs]
  simp only [throughMdbx, tablesAfter, fromDb, applyRevmStateToMdbx, EvmTables.commitStateBatch,
    saveToDb, hd, Option.filter_some, hwri, if_true, Option.map_some, Option.some_or,
    Option.bind_some, C.decode_encode]
  congr 2
  funext k
  cases hk : r.storage k with
  | some => simp [C.decodeU256_encodeU256]
  | none =>
    cases hold : (p.accounts a).bind (·.storage k) with
    | none => simp [Account.evmAccount, hk]
    | some => simp [C.decodeU256_encodeU256]

theorem SameAt.of_accounts {q q' : InMemoryStateProvider} (h : q.accounts a = q'.accounts a) :
    SameAt q q' a := by
  unfold SameAt getBalance getNonce
    getCode getStorage
  rw [h]
  exact ⟨rfl, rfl, rfl, fun _ => rfl⟩

theorem SameAt.trans {q₁ q₂ q₃ : InMemoryStateProvider} (h : SameAt q₁ q₂ a)
    (h' : SameAt q₂ q₃ a) : SameAt q₁ q₃ a :=
  ⟨h.1.trans h'.1, h.2.1.trans h'.2.1, h.2.2.1.trans h'.2.2.1,
    fun k => (h.2.2.2 k).trans (h'.2.2.2 k)⟩

/-! ### Account by account -/

theorem apply_asRead {K : Bytes → B256} (hd : delta a = some r)
    (h : AsRead ((new p).view K) a r) : SameAt (p.applyFromRevmState delta) p a := by
  have hinfo : ((new p).view K).basic a = (p.basicAccount K a).getD .empty := rfl
  have hbal : (((new p).view K).basic a).balance = p.getBalance a := by
    rw [hinfo]
    cases ha : p.accounts a <;>
      simp [getBalance, basicAccount, ha, AccountInfo.empty]
  have hnon : (((new p).view K).basic a).nonce = p.getNonce a := by
    rw [hinfo]
    cases ha : p.accounts a <;>
      simp [getNonce, basicAccount, ha, AccountInfo.empty]
  have hcode : r.info.code.getD (p.getCode a) = p.getCode a := by
    rcases h.code with hc | hc
    · rw [hc, hinfo]
      cases ha : p.accounts a <;>
        simp [getCode, basicAccount, ha, AccountInfo.empty]
    · rw [hc]
      show (new p).codeRef K a = p.getCode a
      unfold codeRef basicRef new
      cases ha : p.accounts a <;>
        simp [getCode, basicAccount, ha]
  refine ⟨?_, ?_, ?_, fun k => ?_⟩
  · rw [getBalance_apply, hd]
    exact h.balance.trans hbal
  · rw [getNonce_apply, hd]
    exact h.nonce.trans hnon
  · rw [getCode_apply, hd]
    exact hcode
  · rw [getStorage_apply, recorded, hd]
    cases hk : r.storage k with
    | none => simp [hk]
    | some slot =>
      simp only [Option.bind_some, hk, Option.map_some, Option.getD_some]
      exact h.storage k slot hk

structure Erased (p : InMemoryStateProvider) (a : Address) (r : Account) : Prop where
  balance : r.info.balance = 0
  nonce : r.info.nonce = 0
  code : r.info.code.getD (p.getCode a) = []
  storage : ∀ k, ((r.storage k).map (·.presentValue)).getD (p.getStorage a k) = 0

theorem recorded_eq (hd : delta a = some r) (k : U256) :
    recorded delta a k = (r.storage k).map (·.presentValue) := by
  rw [recorded, hd, Option.bind_some]

theorem sameAt_destroyed_iff (hd : delta a = some r) (ht : r.status.touched)
    (hs : r.status.selfdestructed) :
    SameAt (p.applyFromRevmState delta) (throughMdbx C p delta) a ↔ Erased p a r := by
  have hgone : (throughMdbx C p delta).accounts a = none := throughMdbx_destroyed hd ht hs
  have hbal : (throughMdbx C p delta).getBalance a = 0 := by
    simp [getBalance, hgone]
  have hnon : (throughMdbx C p delta).getNonce a = 0 := by
    simp [getNonce, hgone]
  have hcode : (throughMdbx C p delta).getCode a = [] := by
    simp [getCode, hgone]
  have hsto := getStorage_of_none hgone
  simp only [SameAt, getBalance_apply, getNonce_apply,
    getCode_apply, getStorage_apply, recorded_eq hd,
    hbal, hnon, hcode, hsto]
  rw [hd]
  exact ⟨fun h => ⟨h.1, h.2.1, h.2.2.1, h.2.2.2⟩, fun h => ⟨h.balance, h.nonce, h.code, h.storage⟩⟩

theorem sameAt_live_iff (hd : delta a = some r) (ht : r.status.touched)
    (hs : ¬ r.status.selfdestructed) :
    SameAt (p.applyFromRevmState delta) (throughMdbx C p delta) a ↔
      (r.info.code = none → p.getCode a = []) := by
  have hlive := throughMdbx_live (C := C) (p := p) hd ht hs
  have hbal : (throughMdbx C p delta).getBalance a = r.info.balance := by
    simp [getBalance, hlive, Account.evmAccount]
  have hnon : (throughMdbx C p delta).getNonce a = r.info.nonce := by
    simp [getNonce, hlive, Account.evmAccount]
  have hcode : (throughMdbx C p delta).getCode a = r.info.code.getD [] := by
    simp [getCode, hlive, Account.evmAccount]
  have hsto : ∀ k, (throughMdbx C p delta).getStorage a k =
      ((r.storage k).map (·.presentValue)).getD (p.getStorage a k) := by
    intro k
    rw [getStorage, hlive, Option.bind_some, Option.getD_or]
    rfl
  simp only [SameAt, getBalance_apply, getNonce_apply,
    getCode_apply, getStorage_apply, recorded_eq hd,
    hbal, hnon, hcode, hsto]
  rw [hd]
  cases hc : r.info.code <;> simp [hc]

/-! ### All of the state -/

/-- A destroyed account has nothing left, and a touched account that has code comes with
it. -/
def Kept (p : InMemoryStateProvider) (delta : EvmState) : Prop :=
  ∀ a r, delta a = some r → r.status.touched →
    (r.status.selfdestructed → Erased p a r) ∧
      (¬ r.status.selfdestructed → r.info.code = none → p.getCode a = [])

theorem sameAt_iff {K : Bytes → B256}
    (hread : ∀ r, delta a = some r → ¬ r.status.touched → AsRead ((new p).view K) a r) :
    SameAt (p.applyFromRevmState delta) (throughMdbx C p delta) a ↔
      ∀ r, delta a = some r → r.status.touched → (r.status.selfdestructed → Erased p a r) ∧
          (¬ r.status.selfdestructed → r.info.code = none → p.getCode a = []) := by
  cases hd : delta a with
  | none =>
    have hmem : (p.applyFromRevmState delta).accounts a = p.accounts a := by
      simp [applyFromRevmState, hd]
    have hdisk : (throughMdbx C p delta).accounts a = p.accounts a :=
      throughMdbx_kept fun r hr => by simp [hd] at hr
    exact iff_of_true (SameAt.of_accounts (hmem.trans hdisk.symm)) fun r hr => by cases hr
  | some r =>
    by_cases ht : r.status.touched
    · by_cases hs : r.status.selfdestructed
      · rw [sameAt_destroyed_iff hd ht hs]
        refine ⟨?_, fun h => (h r rfl ht).1 hs⟩
        rintro h r' ⟨rfl⟩ -
        exact ⟨fun _ => h, fun hlive => absurd hs hlive⟩
      · rw [sameAt_live_iff hd ht hs]
        refine ⟨?_, fun h => (h r rfl ht).2 hs⟩
        rintro h r' ⟨rfl⟩ -
        exact ⟨fun hgone => absurd hgone hs, fun _ => h⟩
    · refine iff_of_true ?_ fun r' hr ht' => ?_
      · have hdisk : (throughMdbx C p delta).accounts a = p.accounts a :=
          throughMdbx_kept fun r' hr => by
            cases hd.symm.trans hr
            exact ht
        exact (apply_asRead hd (hread r hd ht)).trans (SameAt.of_accounts hdisk.symm)
      · cases hr
        exact absurd ht' ht

end

/-- **Tables and memory agree.** For a state that was saved and a delta that has the accounts it
did not touch as they were read, the tables can be loaded, and what is loaded is the state in
memory exactly where nothing is left of a destroyed account, and no account that has code is
touched without it. -/
theorem mdbx_same_iff (C : Codec) (K : Bytes → B256) (p : InMemoryStateProvider) (delta : EvmState)
    (hread : ∀ a r, delta a = some r → ¬ r.status.touched → AsRead ((new p).view K) a r) :
    (tablesAfter C p delta).Readable C ∧
      (SameState (p.applyFromRevmState delta) (throughMdbx C p delta) ↔ Kept p delta) := by
  refine ⟨readable_tablesAfter C p delta, ?_⟩
  rw [sameState_iff]
  exact forall_congr' fun a => sameAt_iff (hread a)

/-! ### A state and three deltas -/

def numbers (acc : EvmAccount) : ℕ × ℕ × List ℕ × (Fin (2 ^ 256) → Option ℕ) :=
  (acc.nonce.toNat, acc.balance.toNat, acc.code.map UInt8.toNat,
    fun k => (acc.storage (.ofFin k)).map BitVec.toNat)

def ofNumbers (x : ℕ × ℕ × List ℕ × (Fin (2 ^ 256) → Option ℕ)) : EvmAccount where
  nonce := .ofNat 64 x.1
  balance := .ofNat 256 x.2.1
  code := x.2.2.1.map UInt8.ofNat
  storage k := (x.2.2.2 k.toFin).map (BitVec.ofNat 256)

theorem ofNumbers_numbers (acc : EvmAccount) : ofNumbers (numbers acc) = acc := by
  simp [numbers, ofNumbers, Function.comp_def]

instance : Encodable EvmAccount := .ofLeftInverse numbers ofNumbers ofNumbers_numbers

/-- An account is written as its number, in unary. -/
def unaryCodec : Codec where
  encodeAccount acc := List.replicate (Encodable.encode acc) 0
  decodeAccount bytes := Encodable.decode bytes.length
  fromJson _ := none
  decode_encode acc := by rw [List.length_replicate, Encodable.encodek]

def savedState : InMemoryStateProvider where
  accounts a :=
    if a = 2 then
      some { nonce := 1, balance := 9, code := [0xfe],
             storage := fun k => if k = 7 then some 3 else none }
    else none

def deltaOf (a : Address) (r : Account) : EvmState := fun b => if b = a then some r else none

theorem deltaOf_eq_some {a b : Address} {r r' : Account} (h : deltaOf a r b = some r') :
    b = a ∧ r' = r := by
  unfold deltaOf at h
  split_ifs at h with hb
  exact ⟨hb, (Option.some.inj h).symm⟩

def clearSlot : Account where
  info := ⟨9, 1, 0, some [0xfe]⟩
  storage k := if k = 7 then some ⟨0⟩ else none
  status := { touched := true }

def payContract : Account where
  info := ⟨10, 1, 0, none⟩
  status := { touched := true }

def createAndDestroy : Account where
  info := ⟨0, 1, keccakEmpty, some []⟩
  status := { touched := true, created := true, selfdestructed := true }

theorem cleared_slot_agrees : SameState (savedState.applyFromRevmState (deltaOf 2 clearSlot))
      (throughMdbx unaryCodec savedState (deltaOf 2 clearSlot)) := by
  refine (mdbx_same_iff unaryCodec (fun _ => 0) savedState (deltaOf 2 clearSlot) ?_).2.2 ?_
  · intro a r h ht
    obtain ⟨-, rfl⟩ := deltaOf_eq_some h
    exact absurd rfl ht
  · intro a r h _
    obtain ⟨-, rfl⟩ := deltaOf_eq_some h
    refine ⟨fun hs => ?_, fun _ hc => ?_⟩
    · cases hs
    · cases hc

/-- The contract that was paid loses its code on disk; the destroyed one keeps its nonce
in memory. -/
theorem disk_differs_from_memory :
    ¬ SameState (savedState.applyFromRevmState (deltaOf 2 payContract))
        (throughMdbx unaryCodec savedState (deltaOf 2 payContract)) ∧
      ¬ SameState (savedState.applyFromRevmState (deltaOf 1 createAndDestroy))
        (throughMdbx unaryCodec savedState (deltaOf 1 createAndDestroy)) := by
  refine ⟨fun h => ?_, fun h => ?_⟩
  · have hcode := (sameAt_live_iff rfl rfl (by decide)).1 (sameState_iff.1 h 2) rfl
    exact absurd hcode (by decide)
  · have hera := (sameAt_destroyed_iff rfl rfl rfl).1 (sameState_iff.1 h 1)
    exact absurd hera.nonce (by decide)

end Callchain.Evm

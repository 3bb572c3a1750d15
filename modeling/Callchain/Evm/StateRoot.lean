/-
# The state root of the provider in memory

`compute_state_root` hands every account of the map to reth's trie, with those of its
slots that are not zero. An empty account is handed over too, so two states that no read
tells apart have one root exactly if their maps have the same accounts.

The trie is a function of what the cursors deliver, and their keys, hashes of addresses
and slots, are written as those addresses and slots.
-/
import Callchain.Evm.Mdbx

namespace Callchain.Evm

open InMemoryStateProvider

/-- reth's `Account`, with the slots that its storage cursor delivers. -/
structure HashedAccount where
  nonce : U64
  balance : U256
  bytecodeHash : Option B256
  storage : U256 → Option U256

section
variable (K : Bytes → B256)

def EvmAccount.hashed (acc : EvmAccount) : HashedAccount where
  nonce := acc.nonce
  balance := acc.balance
  bytecodeHash := if acc.code.isEmpty then none else some (K acc.code)
  storage k := (acc.storage k).filter (· ≠ 0)

/-- `hashed_accounts` and `hashed_storages` -/
def InMemoryStateProvider.hashedAccounts (p : InMemoryStateProvider) (a : Address) :
    Option HashedAccount :=
  (p.accounts a).map (·.hashed K)

def computeStateRoot (trie : (Address → Option HashedAccount) → B256)
    (p : InMemoryStateProvider) : B256 :=
  trie (p.hashedAccounts K)

end

variable {K : Bytes → B256} {p q : InMemoryStateProvider}

theorem filter_ne_zero_congr {x y : Option U256} (h : x.getD 0 = y.getD 0) :
    x.filter (· ≠ 0) = y.filter (· ≠ 0) := by
  have hval : ∀ z : Option U256,
      z.filter (· ≠ 0) = if z.getD 0 = 0 then none else some (z.getD 0) := by
    intro z
    cases z with
    | none => rfl
    | some v => by_cases hv : v = 0 <;> simp [Option.filter, hv]
  rw [hval x, hval y, h]

theorem SameAt.hashed_eq {a : Address} {acc acc' : EvmAccount} (h : SameAt p q a)
    (hp : p.accounts a = some acc) (hq : q.accounts a = some acc') :
    acc.hashed K = acc'.hashed K := by
  obtain ⟨hbal, hnon, hcode, hsto⟩ := h
  simp only [getBalance, getNonce, getCode, getStorage, hp, hq, Option.map_some,
    Option.getD_some, Option.bind_some] at hbal hnon hcode hsto
  have hslo : (fun k => (acc.storage k).filter (· ≠ 0)) =
      fun k => (acc'.storage k).filter (· ≠ 0) :=
    funext fun k => filter_ne_zero_congr (hsto k)
  rw [EvmAccount.hashed, EvmAccount.hashed, hbal, hnon, hcode, hslo]

theorem hashedAccounts_eq_iff (h : ∀ a, SameAt p q a) : p.hashedAccounts K = q.hashedAccounts K ↔
      ∀ a, (p.accounts a).isSome = (q.accounts a).isSome := by
  constructor
  · intro heq a
    have ha := congrArg Option.isSome (congrFun heq a)
    simpa [hashedAccounts] using ha
  · intro hsome
    funext a
    have ha := hsome a
    unfold hashedAccounts
    cases hp : p.accounts a with
    | none => cases hq : q.accounts a with
      | none => rfl
      | some => simp [hp, hq] at ha
    | some => cases hq : q.accounts a with
      | none => simp [hp, hq] at ha
      | some => simp only [Option.map_some, (h a).hashed_eq hp hq]

/-- **What the root depends on.** Two states that no read tells apart, and whose tries do not
collide, have one root exactly if their maps have the same accounts. -/
theorem computeStateRoot_eq_iff {trie : (Address → Option HashedAccount) → B256}
    (h : ∀ a, SameAt p q a) (hcollision : trie (p.hashedAccounts K) = trie (q.hashedAccounts K) →
      p.hashedAccounts K = q.hashedAccounts K) :
    computeStateRoot K trie p = computeStateRoot K trie q ↔
      ∀ a, (p.accounts a).isSome = (q.accounts a).isSome := by
  rw [← hashedAccounts_eq_iff (K := K) h]
  exact ⟨hcollision, fun heq => congrArg trie heq⟩

def noAccounts : InMemoryStateProvider := ⟨fun _ => none⟩

def afterLoad : InMemoryStateProvider :=
  noAccounts.applyFromRevmState fun a => if a = 7 then some ⟨.empty, fun _ => none, {}⟩ else none

/-- Stands for the root of the trie: it depends on account 7 and on its slots 0 and 3. -/
def trieOfSeven (accounts : Address → Option HashedAccount) : B256 :=
  (accounts 7).elim 0 fun acc =>
    1 + acc.balance + (acc.storage 0).elim 0 (· + 1) + (acc.storage 3).elim 0 (· + 1)

theorem noAccounts_sameAt_afterLoad (a : Address) : SameAt noAccounts afterLoad a := by
  by_cases ha : a = 7
  · subst ha
    exact ⟨rfl, rfl, rfl, fun _ => rfl⟩
  · apply SameAt.of_accounts
    simp only [afterLoad, applyFromRevmState, if_neg ha]

/-- Account 7 with 9 in slot 0, and with what is listed for slot 3. -/
def listing (third : Option U256) : InMemoryStateProvider where
  accounts a := if a = 7 then some
    { nonce := 1, balance := 5, code := [0x60]
      storage := fun k => if k = 0 then some 9 else if k = 3 then third else none } else none

theorem listing_sameAt (a : Address) : SameAt (listing none) (listing (some 0)) a := by
  by_cases ha : a = 7
  · subst ha
    refine ⟨rfl, rfl, rfl, fun k => ?_⟩
    by_cases hk : k = 3
    · subst hk
      rfl
    · simp only [getStorage, listing, if_pos, Option.bind_some, if_neg hk]
  · apply SameAt.of_accounts
    simp only [listing, if_neg ha]

theorem zero_slot_keeps_root : listing none ≠ listing (some 0) ∧
    computeStateRoot (fun code => BitVec.ofNat 256 code.length) trieOfSeven (listing none) =
      computeStateRoot (fun code => BitVec.ofNat 256 code.length) trieOfSeven (listing (some 0)) := by
  have hsome : ∀ a, ((listing none).accounts a).isSome = ((listing (some 0)).accounts a).isSome := by
    intro a
    simp only [listing, apply_ite Option.isSome, Option.isSome_some]
  constructor
  · intro heq
    have hslot := congrArg (fun p => ((p.accounts 7).map (·.storage 3)).isEqSome none) heq
    revert hslot
    decide
  · exact (computeStateRoot_eq_iff listing_sameAt
      fun _ => (hashedAccounts_eq_iff listing_sameAt).2 hsome).2 hsome

theorem root_changed_by_load :
    (∀ a, SameAt noAccounts afterLoad a) ∧ computeStateRoot (fun _ => 0) trieOfSeven noAccounts ≠
        computeStateRoot (fun _ => 0) trieOfSeven afterLoad :=
  ⟨noAccounts_sameAt_afterLoad, by decide⟩

end Callchain.Evm

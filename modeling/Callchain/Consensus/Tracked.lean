/-
# What validators are owed

An active validator is owed its stake, an unbonding one what its entry in the queue
says, and the escrow has to cover the sum. Where consensus writes too, stakes and
entries no longer agree, ids are given out twice to one address, and entries stay behind
whose validator is gone; `Tracked` is what is left of the registry's order, and is
enough for the precompile to keep the escrow above what is owed.
-/
import Callchain.Consensus.Writers

namespace Callchain.Consensus

open Validator Asset Ledger Run
open Function (update_of_ne update_self)

/-- What the unbonding queue has for an id: the amount that `claim_unbonded`
pays. -/
def entryAmount (v : ValidatorStorage) (id : U64) : ℕ :=
  ((queue v).find? fun e => e.validatorId = id).elim 0 fun e => e.amount.toNat

/-- The stake of an active validator, and the entry of an unbonding one. -/
def owedTo (v : ValidatorStorage) (a : Address) : ℕ :=
  if v.status a = 1 then (v.stake a).toNat
  else if v.status a = 2 then entryAmount v (v.validatorByAddr a) else 0

def owed (v : ValidatorStorage) : ℕ := total (owedTo v)

/-- The escrow covers what is owed, and the counter of active validators is right. -/
structure Backed (s : Registry) : Prop where
  escrow : owed s.validators ≤ s.escrow
  active : s.validators.activeValidatorCount.toNat = activeValidators s.validators

structure Tracked (v : ValidatorStorage) : Prop where
  active : v.activeValidatorCount.toNat = activeValidators v
  addrOfId : ∀ a, v.validatorByAddr a ≠ 0 → v.validatorAddr (v.validatorByAddr a) = a
  ids : ∀ a, (v.validatorByAddr a).toNat ≤ v.validatorCount.toNat
  queuedIds : ∀ e ∈ queue v, e.validatorId.toNat ≤ v.validatorCount.toNat
  once : ((queue v).map (·.validatorId)).Nodup
  registered : ∀ a, v.status a = 1 ∨ v.status a = 2 → v.validatorByAddr a ≠ 0
  positive : ∀ a, v.status a = 1 → 0 < v.stake a
  waiting : ∀ a, v.status a = 1 → ∀ e ∈ queue v, e.validatorId ≠ v.validatorByAddr a
  unbonding : ∀ a, v.status a = 2 → ∃ e ∈ queue v, e.validatorId = v.validatorByAddr a ∧
    v.stake a ≤ e.amount
  idle : ∀ a, v.status a ≠ 1 → v.status a ≠ 2 → v.stake a = 0
  notEscrow : v.validatorByAddr stakingEscrow = 0

structure Backing (s : Registry) : Prop extends Tracked s.validators where
  escrow : owed s.validators ≤ s.escrow

theorem Backing.backed {s : Registry} (h : Backing s) : Backed s := ⟨h.escrow, h.active⟩

section Basic

variable {v w : ValidatorStorage}

theorem Tracked.injective (h : Tracked v) {a b : Address} (ha : v.validatorByAddr a ≠ 0)
    (hab : v.validatorByAddr a = v.validatorByAddr b) : a = b := by
  rw [← h.addrOfId a ha, hab, h.addrOfId b (hab ▸ ha)]

theorem entryAmount_eq (hnod : ((queue v).map (·.validatorId)).Nodup) {e : UnbondingEntry}
    (he : e ∈ queue v) : entryAmount v e.validatorId = e.amount.toNat := by
  unfold entryAmount
  cases hf : (queue v).find? fun x => x.validatorId = e.validatorId with
  | none =>
    have hnone := List.find?_eq_none.1 hf e he
    exact absurd (by simp) hnone
  | some x =>
    have hx : x.validatorId = e.validatorId := by simpa using List.find?_some hf
    have hxe : x = e := List.inj_on_of_nodup_map hnod (List.mem_of_find?_eq_some hf) he hx
    rw [hxe]
    rfl

variable {a : Address}

theorem owedTo_active (h : v.status a = 1) : owedTo v a = (v.stake a).toNat :=
  if_pos h

theorem owedTo_unbonding (h : v.status a = 2) :
    owedTo v a = entryAmount v (v.validatorByAddr a) := by
  rw [owedTo, if_neg (by rw [h]; decide), if_pos h]

theorem owedTo_idle (h1 : v.status a ≠ 1) (h2 : v.status a ≠ 2) : owedTo v a = 0 := by
  rw [owedTo, if_neg h1, if_neg h2]

theorem owedTo_congr (hsta : w.status a = v.status a) (hstak : w.stake a = v.stake a)
    (hent : v.status a = 2 →
      entryAmount w (w.validatorByAddr a) = entryAmount v (v.validatorByAddr a)) :
    owedTo w a = owedTo v a := by
  unfold owedTo
  rw [hsta, hstak]
  split_ifs with h1 h2
  · rfl
  · exact hent h2
  · rfl

theorem owed_of_agree (who : Address) (h : ∀ a, a ≠ who → owedTo w a = owedTo v a) :
    owed w + owedTo v who = owed v + owedTo w who := total_of_agree who h

theorem Tracked.stake_le_owedTo (h : Tracked v) (a : Address) : (v.stake a).toNat ≤ owedTo v a := by
  by_cases h1 : v.status a = 1
  · rw [owedTo_active h1]
  · by_cases h2 : v.status a = 2
    · obtain ⟨e, he, hid, hle⟩ := h.unbonding a h2
      rw [owedTo_unbonding h2, ← hid, entryAmount_eq h.once he]
      exact hle
    · rw [h.idle a h1 h2]
      exact Nat.zero_le _

structure TrackedAt (v : ValidatorStorage) (a : Address) : Prop where
  registered : v.status a = 1 ∨ v.status a = 2 → v.validatorByAddr a ≠ 0
  positive : v.status a = 1 → 0 < v.stake a
  waiting : v.status a = 1 → ∀ e ∈ queue v, e.validatorId ≠ v.validatorByAddr a
  unbonding : v.status a = 2 → ∃ e ∈ queue v, e.validatorId = v.validatorByAddr a ∧
    v.stake a ≤ e.amount
  idle : v.status a ≠ 1 → v.status a ≠ 2 → v.stake a = 0

theorem Tracked.indexed (h : Tracked v) : Indexed v :=
  ⟨h.active, h.addrOfId, h.ids, h.once, h.notEscrow⟩

theorem Tracked.of_at (hat : ∀ a, TrackedAt v a) (h : Indexed v)
    (hqueued : ∀ e ∈ queue v, e.validatorId.toNat ≤ v.validatorCount.toNat) : Tracked v :=
  { h with
    queuedIds := hqueued
    registered := fun a => (hat a).registered
    positive := fun a => (hat a).positive
    waiting := fun a => (hat a).waiting
    unbonding := fun a => (hat a).unbonding
    idle := fun a => (hat a).idle }

section

variable {a : Address}

theorem trackedAt_idle (hsta : v.status a = 0) (hstak : v.stake a = 0) : TrackedAt v a :=
  ⟨by simp [hsta], by simp [hsta], by simp [hsta], by simp [hsta], fun _ _ => hstak⟩

theorem trackedAt_active (hid : v.validatorByAddr a ≠ 0) (hsta : v.status a = 1)
    (hpos : 0 < v.stake a) (hwait : ∀ e ∈ queue v, e.validatorId ≠ v.validatorByAddr a) :
    TrackedAt v a :=
  ⟨fun _ => hid, fun _ => hpos, fun _ => hwait, by simp [hsta], fun h => absurd hsta h⟩

/-- An address is as it was where its stake is lower at most, and the queue has
the same entries for it. -/
theorem Tracked.at_of_le (h : Tracked v) (hsta : w.status a = v.status a)
    (hle : w.stake a ≤ v.stake a) (hpos : v.status a = 1 → 0 < w.stake a)
    (hby : w.validatorByAddr a = v.validatorByAddr a)
    (hqueue : v.validatorByAddr a ≠ 0 → ∀ e, e.validatorId = v.validatorByAddr a →
      (e ∈ queue w ↔ e ∈ queue v)) : TrackedAt w a := by
  refine ⟨?_, ?_, ?_, ?_, ?_⟩ <;> rw [hsta]
  · rw [hby]
    exact h.registered a
  · exact hpos
  · intro h1 e he hid
    rw [hby] at hid
    exact h.waiting a h1 e ((hqueue (h.registered a (.inl h1)) e hid).1 he) hid
  · intro h2
    obtain ⟨e, he, hid, hamo⟩ := h.unbonding a h2
    rw [hby]
    exact ⟨e, (hqueue (h.registered a (.inr h2)) e hid).2 he, hid, BitVec.le_trans hle hamo⟩
  · intro h1 h2
    rw [h.idle a h1 h2] at hle
    exact BitVec.le_zero_iff.1 hle

theorem Tracked.at_of_agree (h : Tracked v) (hsta : w.status a = v.status a)
    (hstak : w.stake a = v.stake a) (hby : w.validatorByAddr a = v.validatorByAddr a)
    (hqueue : v.validatorByAddr a ≠ 0 → ∀ e, e.validatorId = v.validatorByAddr a →
      (e ∈ queue w ↔ e ∈ queue v)) : TrackedAt w a :=
  h.at_of_le hsta (hstak ▸ BitVec.le_refl _) (hstak ▸ h.positive a) hby hqueue

end

end Basic

/-! ### The operations of the precompile -/

variable {s t : Registry} {caller : Address} {amount : U128}

section Staking

theorem Tracked.status_of_unregistered {v : ValidatorStorage} (h : Tracked v) {a : Address}
    (ha : v.validatorByAddr a = 0) : v.status a ≠ 1 ∧ v.status a ≠ 2 :=
  ⟨fun h1 => h.registered a (Or.inl h1) ha, fun h2 => h.registered a (Or.inr h2) ha⟩

theorem staked_tracked (h : Staked s t amount caller) (hs : Tracked s.validators)
    (hne : caller ≠ stakingEscrow) : Tracked t.validators := by
  have hi := h.indexed hs.indexed hne (hs.status_of_unregistered h.fresh).1
  refine .of_at (fun a => ?_) hi fun e he => ?_
  · by_cases hac : a = caller
    · subst hac
      refine trackedAt_active ?_ (by rw [h.status, update_self]) ?_ fun e he hid => ?_
      · rw [h.byAddr_self]
        exact h.id_ne_zero
      · rw [h.stake, update_self]
        exact lt_of_lt_of_le (show 0 < minSelfStake.toNat by decide) h.enough
      · rw [h.queue] at he
        have hle := hs.queuedIds e he
        rw [hid, h.byAddr_self, h.count] at hle
        omega
    · exact hs.at_of_agree (by rw [h.status, update_of_ne hac]) (by rw [h.stake, update_of_ne hac])
        (h.byAddr_of_ne hac) fun _ _ _ => by rw [h.queue]
  · rw [h.queue] at he
    rw [h.count]
    exact (hs.queuedIds e he).trans (Nat.le_succ _)

theorem staked_owed (h : Staked s t amount caller) (hs : Tracked s.validators) :
    owed t.validators = owed s.validators + amount.toNat := by
  have htot := owed_of_agree caller (v := s.validators) (w := t.validators) fun a ha => by
    apply owedTo_congr
    · rw [h.status, update_of_ne ha]
    · rw [h.stake, update_of_ne ha]
    · intro _
      rw [h.byAddr_of_ne ha, entryAmount, entryAmount, h.queue]
  have hbef : owedTo s.validators caller = 0 :=
    owedTo_idle (hs.status_of_unregistered h.fresh).1 (hs.status_of_unregistered h.fresh).2
  have haft : owedTo t.validators caller = amount.toNat := by
    rw [owedTo_active (by rw [h.status, update_self]), h.stake, update_self]
  omega

end Staking

section Unstaking

theorem unstaked_tracked (h : Unstaked s t caller) (hs : Tracked s.validators) :
    Tracked t.validators := by
  refine .of_at (fun a => ?_) (h.indexed hs.indexed ?_) fun e he => ?_
  · by_cases hac : a = caller
    · subst hac
      have hsta : t.validators.status a = 2 := by rw [h.status, update_self]
      refine ⟨fun _ => ?_, by simp [hsta], by simp [hsta], fun _ => ?_, fun _ h2 => absurd hsta h2⟩
      · rw [h.byAddr]
        exact h.registered
      · rw [h.queue, h.byAddr, h.stake]
        exact ⟨_, List.mem_append_right _ (List.mem_singleton_self _), rfl, BitVec.le_refl _⟩
    · refine hs.at_of_agree (by rw [h.status, update_of_ne hac]) (by rw [h.stake])
        (by rw [h.byAddr]) fun _ e hid => ?_
      rw [h.queue, List.mem_append, List.mem_singleton]
      refine or_iff_left ?_
      rintro rfl
      exact hac (hs.injective h.registered hid).symm
  · rw [List.mem_map]
    rintro ⟨e, he, hid⟩
    exact hs.waiting caller h.wasActive e he hid
  · rw [h.count]
    rw [h.queue, List.mem_append, List.mem_singleton] at he
    rcases he with he | rfl
    · exact hs.queuedIds e he
    · exact hs.ids caller

theorem unstaked_owed (h : Unstaked s t caller) (hs : Tracked s.validators) :
    owed t.validators = owed s.validators := by
  have ht := unstaked_tracked h hs
  have htot := owed_of_agree caller (v := s.validators) (w := t.validators) fun a ha => by
    apply owedTo_congr
    · rw [h.status, update_of_ne ha]
    · rw [h.stake]
    · intro h2
      obtain ⟨e, he, hid, -⟩ := hs.unbonding a h2
      have he' : e ∈ queue t.validators := by
        rw [h.queue]
        exact List.mem_append_left _ he
      rw [h.byAddr, ← hid, entryAmount_eq hs.once he, entryAmount_eq ht.once he']
  have haft : owedTo t.validators caller = (s.validators.stake caller).toNat := by
    have he : ⟨s.validators.validatorByAddr caller, s.validators.stake caller⟩ ∈
        queue t.validators := by
      rw [h.queue]
      exact List.mem_append_right _ (List.mem_singleton_self _)
    rw [owedTo_unbonding (by rw [h.status, update_self]), h.byAddr]
    exact entryAmount_eq ht.once he
  have hbef := owedTo_active h.wasActive
  omega

end Unstaking

section Leaving

variable {who : Address} {taken : U128}

section

variable (h : Left s t who taken)
include h

variable {e : UnbondingEntry}

theorem left_mem_queue (he : e ∈ queue t.validators) : e ∈ queue s.validators := by
  by_cases h2 : s.validators.status who = 2
  · obtain ⟨gone, -, hperm⟩ := h.unbonding h2
    exact hperm.mem_iff.2 (List.mem_cons_of_mem _ he)
  · rwa [h.waiting h2] at he

theorem left_mem_queue_of_ne (he : e ∈ queue s.validators)
    (hid : e.validatorId ≠ s.validators.validatorByAddr who) : e ∈ queue t.validators := by
  by_cases h2 : s.validators.status who = 2
  · obtain ⟨gone, hgone, hperm⟩ := h.unbonding h2
    rcases List.mem_cons.1 (hperm.mem_iff.1 he) with rfl | he'
    · exact absurd hgone hid
    · exact he'
  · rwa [h.waiting h2]

theorem left_mem_queue_iff (hs : Tracked s.validators) {a : Address} (hne : a ≠ who)
    (ha : s.validators.validatorByAddr a ≠ 0)
    (hid : e.validatorId = s.validators.validatorByAddr a) :
    e ∈ queue t.validators ↔ e ∈ queue s.validators := by
  refine ⟨left_mem_queue h, fun he => left_mem_queue_of_ne h he ?_⟩
  rw [hid]
  exact fun he => hne (hs.injective ha he)

theorem left_tracked (hs : Tracked s.validators) : Tracked t.validators := by
  refine .of_at (fun a => ?_) (h.indexed hs.indexed) fun e he => ?_
  · by_cases hne : a = who
    · subst hne
      exact trackedAt_idle (by rw [h.status, update_self]) (by rw [h.stake, update_self])
    · exact hs.at_of_agree (by rw [h.status, update_of_ne hne]) (by rw [h.stake, update_of_ne hne])
        (h.byAddr_of_ne hne) fun ha _ hid => left_mem_queue_iff h hs hne ha hid
  · rw [h.count]
    exact hs.queuedIds e (left_mem_queue h he)

theorem left_owed (hs : Tracked s.validators) :
    owed t.validators + owedTo s.validators who = owed s.validators := by
  have hnod := (h.indexed hs.indexed).once
  have htot := owed_of_agree who (v := s.validators) (w := t.validators) fun a ha => by
    apply owedTo_congr
    · rw [h.status, update_of_ne ha]
    · rw [h.stake, update_of_ne ha]
    · intro h2
      obtain ⟨e, he, hid, -⟩ := hs.unbonding a h2
      have he' := (left_mem_queue_iff h hs ha (hs.registered a (.inr h2)) hid).2 he
      rw [h.byAddr_of_ne ha, ← hid, entryAmount_eq hs.once he, entryAmount_eq hnod he']
  have hsta : t.validators.status who = 0 := by rw [h.status, update_self]
  have haft : owedTo t.validators who = 0 :=
    owedTo_idle (by rw [hsta]; decide) (by rw [hsta]; decide)
  omega

theorem left_escrow (hs : Backing s) (htak : taken.toNat ≤ owedTo s.validators who) :
    owed t.validators ≤ t.escrow := by
  have hne : who ≠ stakingEscrow := fun he => h.registered (he ▸ hs.notEscrow)
  have h1 := h.escrow hne
  have h2 := left_owed h hs.toTracked
  have h3 := hs.escrow
  omega

end

end Leaving

theorem Backing.move {call : ValidatorCall} (hs : Backing s) (hcall : call.Foreign)
    (h : Move s t call) : Backing t := by
  cases h with
  | staked h =>
    refine ⟨staked_tracked h hs.toTracked hcall, ?_⟩
    rw [staked_owed h hs.toTracked, h.escrow hcall]
    exact Nat.add_le_add_right hs.escrow _
  | unstaked h =>
    refine ⟨unstaked_tracked h hs.toTracked, ?_⟩
    rw [unstaked_owed h hs.toTracked, h.escrow]
    exact hs.escrow
  | claimed hmem hid hst h =>
    refine ⟨left_tracked h hs.toTracked, left_escrow h hs ?_⟩
    rw [owedTo_unbonding hst, ← hid, entryAmount_eq hs.once hmem]
  | slashed h =>
    exact ⟨left_tracked h hs.toTracked, left_escrow h hs (hs.stake_le_owedTo _)⟩
  | spared h => exact h ▸ hs

end Callchain.Consensus

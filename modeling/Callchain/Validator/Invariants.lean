/-
# The registry is kept in order

The five indexes of the registry agree in every state that staking can reach: the escrow
holds what the validators have at stake, the count of active validators is right,
addresses and ids name each other, and the unbonding queue has one entry for each
validator that is unbonding, and no gaps. No id is ever given out twice. The one caller
that breaks this invariant is the escrow itself: what it stakes it deducts from the
escrow and credits to the escrow.
-/
import Callchain.Validator.Registry

namespace Callchain.Validator

open Asset Ledger Run
open Function (update_of_ne update_self)

def stakeOf (v : ValidatorStorage) (a : Address) : ℕ :=
  if v.validatorByAddr a = 0 then 0 else (v.stake a).toNat

def stakes (v : ValidatorStorage) : ℕ := total (stakeOf v)

def isActive (v : ValidatorStorage) (a : Address) : ℕ := if v.status a = 1 then 1 else 0

def activeValidators (v : ValidatorStorage) : ℕ := total (isActive v)

structure Sound (s : Registry) : Prop where
  escrow : s.escrow = stakes s.validators
  active : s.validators.activeValidatorCount.toNat = activeValidators s.validators
  addrOfId : ∀ a, s.validators.validatorByAddr a ≠ 0 →
    s.validators.validatorAddr (s.validators.validatorByAddr a) = a
  idOfAddr : ∀ i, s.validators.validatorAddr i ≠ 0 →
    s.validators.validatorByAddr (s.validators.validatorAddr i) = i
  queued : ∀ e, e ∈ queue s.validators ↔ ∃ a, s.validators.validatorByAddr a ≠ 0 ∧
    s.validators.status a = 2 ∧ e = ⟨s.validators.validatorByAddr a, s.validators.stake a⟩
  once : ((queue s.validators).map (·.validatorId)).Nodup
  free : FreeBehind s.validators

structure Inv (s : Registry) : Prop extends Sound s where
  zero : s.validators.validatorAddr 0 = 0
  ids : ∀ a, (s.validators.validatorByAddr a).toNat ≤ s.validators.validatorCount.toNat
  none : ∀ a, s.validators.validatorByAddr a = 0 → s.validators.status a = 0
  some : ∀ a, s.validators.validatorByAddr a ≠ 0 →
    s.validators.status a = 1 ∨ s.validators.status a = 2
  notEscrow : s.validators.validatorByAddr stakingEscrow = 0

variable {s t : Registry} {caller : Address} {amount : U128}

theorem Sound.injective (h : Sound s) {a b : Address} (ha : s.validators.validatorByAddr a ≠ 0)
    (hab : s.validators.validatorByAddr a = s.validators.validatorByAddr b) : a = b := by
  rw [← h.addrOfId a ha, hab, h.addrOfId b (hab ▸ ha)]

theorem Sound.entry_eq (h : Sound s) {a : Address} {e : UnbondingEntry}
    (he : e ∈ queue s.validators) (hid : e.validatorId = s.validators.validatorByAddr a) :
    e = ⟨s.validators.validatorByAddr a, s.validators.stake a⟩ := by
  obtain ⟨b, hb, -, rfl⟩ := (h.queued e).1 he
  rw [h.injective hb hid]

/-! ### Totals -/

section Totals

variable {v w : ValidatorStorage} {who : Address}

theorem stakeOf_congr {a : Address} (hid : w.validatorByAddr a = v.validatorByAddr a)
    (hsta : w.stake a = v.stake a) : stakeOf w a = stakeOf v a := by
  rw [stakeOf, stakeOf, hid, hsta]

theorem stakes_of_agree (who : Address) (h : ∀ a, a ≠ who → stakeOf w a = stakeOf v a) :
    stakes w + stakeOf v who = stakes v + stakeOf w who := total_of_agree who h

theorem activeValidators_of_agree (who : Address) (h : ∀ a, a ≠ who → w.status a = v.status a) :
    activeValidators w + isActive v who = activeValidators v + isActive w who :=
  total_of_agree who fun a ha => by rw [isActive, isActive, h a ha]

end Totals

/-! ### Counts and indexes -/

/-- The part of the invariant that needs nothing of the stakes. -/
structure Indexed (v : ValidatorStorage) : Prop where
  active : v.activeValidatorCount.toNat = activeValidators v
  addrOfId : ∀ a, v.validatorByAddr a ≠ 0 → v.validatorAddr (v.validatorByAddr a) = a
  ids : ∀ a, (v.validatorByAddr a).toNat ≤ v.validatorCount.toNat
  once : ((queue v).map (·.validatorId)).Nodup
  notEscrow : v.validatorByAddr stakingEscrow = 0

theorem Inv.indexed (h : Inv s) : Indexed s.validators :=
  ⟨h.active, h.addrOfId, h.ids, h.once, h.notEscrow⟩

/-! ### Staking -/

section

variable (h : Staked s t amount caller)
include h

theorem Staked.id_ne_zero : t.validators.validatorCount ≠ 0 := by
  intro h0
  have := h.count
  rw [h0] at this
  exact absurd this (Nat.zero_ne_add_one _)

theorem Staked.byAddr_self : t.validators.validatorByAddr caller = t.validators.validatorCount := by
  rw [h.byAddr, update_self]

theorem Staked.byAddr_of_ne {a : Address} (ha : a ≠ caller) :
    t.validators.validatorByAddr a = s.validators.validatorByAddr a := by
  rw [h.byAddr, update_of_ne ha]

theorem Staked.stakes : stakes t.validators = stakes s.validators + amount.toNat := by
  have htot := stakes_of_agree caller (v := s.validators) (w := t.validators)
    fun a ha => stakeOf_congr (h.byAddr_of_ne ha) (by rw [h.stake, update_of_ne ha])
  have hbef : stakeOf s.validators caller = 0 := if_pos h.fresh
  have haft : stakeOf t.validators caller = amount.toNat := by
    rw [stakeOf, h.byAddr_self, if_neg h.id_ne_zero, h.stake, update_self]
  omega

theorem Staked.activeValidators (hbef : s.validators.status caller ≠ 1) :
    activeValidators t.validators = activeValidators s.validators + 1 := by
  have htot := activeValidators_of_agree caller (v := s.validators) (w := t.validators)
    fun a ha => by rw [h.status, update_of_ne ha]
  have h0 : isActive s.validators caller = 0 := if_neg hbef
  have h1 : isActive t.validators caller = 1 := by
    rw [isActive, h.status, update_self]
    rfl
  omega

theorem Staked.id_fresh (hs : Indexed s.validators) (a : Address) :
    s.validators.validatorByAddr a ≠ t.validators.validatorCount := by
  intro he
  have hle := hs.ids a
  rw [he, h.count] at hle
  omega

theorem Staked.indexed (hs : Indexed s.validators) (hne : caller ≠ stakingEscrow)
    (hbef : s.validators.status caller ≠ 1) : Indexed t.validators where
  active := by rw [h.active, h.activeValidators hbef, hs.active]
  addrOfId := by
    intro a ha
    by_cases hac : a = caller
    · rw [hac, h.byAddr_self, h.addr, update_self]
    · rw [h.byAddr_of_ne hac] at ha ⊢
      rw [h.addr, update_of_ne (h.id_fresh hs a), hs.addrOfId a ha]
  ids := by
    intro a
    by_cases hac : a = caller
    · rw [hac, h.byAddr_self]
    · rw [h.byAddr_of_ne hac, h.count]
      exact (hs.ids a).trans (Nat.le_succ _)
  once := by
    rw [h.queue]
    exact hs.once
  notEscrow := by rw [h.byAddr_of_ne hne.symm, hs.notEscrow]

theorem Staked.inv (hs : Inv s) (hne : caller ≠ stakingEscrow) : Inv t := by
  have hi := h.indexed hs.indexed hne (by rw [hs.none caller h.fresh]; decide)
  refine { hi with escrow := ?_, idOfAddr := ?_, queued := ?_, free := h.free hs.free, zero := ?_,
                   none := ?_, some := ?_ }
  · rw [h.escrow hne, h.stakes, hs.escrow]
  · intro i hi
    by_cases hic : i = t.validators.validatorCount
    · rw [h.addr, hic, update_self, h.byAddr_self]
    · rw [h.addr, update_of_ne hic] at hi ⊢
      have hold := hs.idOfAddr i hi
      have hac : s.validators.validatorAddr i ≠ caller := by
        intro he
        rw [he, h.fresh] at hold
        rw [← hold, hs.zero] at hi
        exact hi rfl
      rw [h.byAddr_of_ne hac, hold]
  · intro e
    rw [h.queue, hs.queued e]
    refine exists_congr fun a => ?_
    by_cases hac : a = caller
    · subst hac
      refine iff_of_false (fun he => he.1 h.fresh) fun he => ?_
      rw [h.status, update_self] at he
      exact absurd he.2.1 (by decide)
    · rw [h.byAddr_of_ne hac, h.status, h.stake, update_of_ne hac, update_of_ne hac]
  · rw [h.addr, update_of_ne h.id_ne_zero.symm, hs.zero]
  · intro a ha
    have hac : a ≠ caller := by
      rintro rfl
      exact h.id_ne_zero (h.byAddr_self ▸ ha)
    rw [h.byAddr_of_ne hac] at ha
    rw [h.status, update_of_ne hac, hs.none a ha]
  · intro a ha
    by_cases hac : a = caller
    · rw [hac, h.status, update_self]
      exact .inl rfl
    · rw [h.byAddr_of_ne hac] at ha
      rw [h.status, update_of_ne hac]
      exact hs.some a ha

end

/-! ### Unstaking -/

theorem Unstaked.activeValidators (h : Unstaked s t caller) :
    activeValidators t.validators + 1 = activeValidators s.validators := by
  have htot := activeValidators_of_agree caller (v := s.validators) (w := t.validators)
    fun a ha => by rw [h.status, update_of_ne ha]
  have h1 : isActive s.validators caller = 1 := by rw [isActive, h.wasActive]; rfl
  have h0 : isActive t.validators caller = 0 := by
    rw [isActive, h.status, update_self]
    rfl
  omega

theorem Sound.id_notMem (hs : Sound s) (hid : s.validators.validatorByAddr caller ≠ 0)
    (hsta : s.validators.status caller = 1) :
    s.validators.validatorByAddr caller ∉ (queue s.validators).map (·.validatorId) := by
  intro hmem
  obtain ⟨e, he, heq⟩ := List.mem_map.1 hmem
  obtain ⟨a, -, ha, rfl⟩ := (hs.queued e).1 he
  rw [← hs.injective hid heq.symm, hsta] at ha
  exact absurd ha (by decide)

theorem Unstaked.indexed (h : Unstaked s t caller) (hs : Indexed s.validators)
    (hid : s.validators.validatorByAddr caller ∉
      (Validator.queue s.validators).map (·.validatorId)) : Indexed t.validators where
  active := by
    have h1 := h.activeValidators
    have h2 := hs.active
    have h3 := h.active
    omega
  addrOfId := by
    rw [h.byAddr, h.addr]
    exact hs.addrOfId
  ids := by
    rw [h.byAddr, h.count]
    exact hs.ids
  once := by
    rw [h.queue, List.map_append, List.map_singleton]
    refine List.Nodup.append hs.once (List.nodup_singleton _) ?_
    rw [List.disjoint_singleton]
    exact hid
  notEscrow := by rw [h.byAddr, hs.notEscrow]

theorem Unstaked.inv (h : Unstaked s t caller) (hs : Inv s) : Inv t := by
  have hi := h.indexed hs.indexed (hs.id_notMem h.registered h.wasActive)
  refine { hi with escrow := ?_, idOfAddr := ?_, queued := ?_, free := h.free hs.free, zero := ?_,
                   none := ?_, some := ?_ }
  · rw [h.escrow, hs.escrow]
    exact total_congr fun a => (stakeOf_congr (by rw [h.byAddr]) (by rw [h.stake])).symm
  · rw [h.byAddr, h.addr]
    exact hs.idOfAddr
  · intro e
    rw [h.queue, List.mem_append, List.mem_singleton, hs.queued e, h.byAddr, h.stake, h.status]
    constructor
    · rintro (⟨a, hid, hst, he⟩ | he)
      · have hac : a ≠ caller := by
          rintro rfl
          rw [h.wasActive] at hst
          exact absurd hst (by decide)
        exact ⟨a, hid, by rw [update_of_ne hac, hst], he⟩
      · exact ⟨caller, h.registered, by rw [update_self], he⟩
    · rintro ⟨a, hid, hst, he⟩
      by_cases hac : a = caller
      · right
        rw [he, hac]
      · left
        rw [update_of_ne hac] at hst
        exact ⟨a, hid, hst, he⟩
  · rw [h.addr, hs.zero]
  · intro a ha
    rw [h.byAddr] at ha
    have hac : a ≠ caller := by
      rintro rfl
      exact h.registered ha
    rw [h.status, update_of_ne hac, hs.none a ha]
  · intro a ha
    rw [h.byAddr] at ha
    by_cases hac : a = caller
    · rw [hac, h.status, update_self]
      exact .inr rfl
    · rw [h.status, update_of_ne hac]
      exact hs.some a ha

/-! ### Leaving -/

section Leaving

variable {who : Address} {taken : U128}

section

variable (h : Left s t who taken)
include h

theorem Left.byAddr_self : t.validators.validatorByAddr who = 0 := by
  rw [h.byAddr, update_self]

theorem Left.byAddr_of_ne {a : Address} (ha : a ≠ who) :
    t.validators.validatorByAddr a = s.validators.validatorByAddr a := by
  rw [h.byAddr, update_of_ne ha]

theorem Left.ne_of_registered {a : Address} (ha : t.validators.validatorByAddr a ≠ 0) : a ≠ who := by
  rintro rfl
  exact ha h.byAddr_self

theorem Left.stakes :
    stakes t.validators + (s.validators.stake who).toNat = stakes s.validators := by
  have htot := stakes_of_agree who (v := s.validators) (w := t.validators)
    fun a ha => stakeOf_congr (h.byAddr_of_ne ha) (by rw [h.stake, update_of_ne ha])
  have hbef : stakeOf s.validators who = (s.validators.stake who).toNat := if_neg h.registered
  have haft : stakeOf t.validators who = 0 := if_pos h.byAddr_self
  omega

theorem Left.activeCount
    (hcou : s.validators.activeValidatorCount.toNat = Validator.activeValidators s.validators) :
    t.validators.activeValidatorCount.toNat = activeValidators t.validators := by
  have htot := activeValidators_of_agree who (v := s.validators) (w := t.validators)
    fun a ha => by rw [h.status, update_of_ne ha]
  have haft : isActive t.validators who = 0 := by
    rw [isActive, h.status, update_self]
    rfl
  have hact := h.active
  by_cases hst : s.validators.status who = 1
  · have hbef : isActive s.validators who = 1 := if_pos hst
    rw [if_pos hst] at hact
    omega
  · have hbef : isActive s.validators who = 0 := if_neg hst
    rw [if_neg hst] at hact
    omega

theorem Left.mem_queue (hs : Inv s) (e : UnbondingEntry) : e ∈ queue t.validators ↔
      e ∈ queue s.validators ∧ e.validatorId ≠ s.validators.validatorByAddr who := by
  rcases hs.some who h.registered with hst | hst
  · rw [h.waiting (by rw [hst]; decide)]
    refine (and_iff_left_of_imp fun he hid => ?_).symm
    exact hs.id_notMem h.registered hst (List.mem_map.2 ⟨e, he, hid⟩)
  · obtain ⟨gone, hgone, hperm⟩ := h.unbonding hst
    have hnod := (hperm.map (·.validatorId)).nodup_iff.1 hs.once
    rw [List.map_cons, List.nodup_cons, hgone] at hnod
    rw [hperm.mem_iff, List.mem_cons]
    constructor
    · intro he
      exact ⟨Or.inr he, fun hid => hnod.1 (List.mem_map.2 ⟨e, he, hid⟩)⟩
    · rintro ⟨rfl | he, hid⟩
      · exact absurd hgone hid
      · exact he

theorem Left.indexed (hs : Indexed s.validators) : Indexed t.validators where
  active := h.activeCount hs.active
  addrOfId := by
    intro a ha
    have hne := h.ne_of_registered ha
    rw [h.byAddr_of_ne hne] at ha ⊢
    have hid : s.validators.validatorByAddr a ≠ s.validators.validatorByAddr who := fun he =>
      hne (by rw [← hs.addrOfId a ha, he, hs.addrOfId who h.registered])
    rw [h.addr, update_of_ne hid, hs.addrOfId a ha]
  ids := by
    intro a
    rw [h.count]
    by_cases ha : a = who
    · rw [ha, h.byAddr_self]
      exact Nat.zero_le _
    · rw [h.byAddr_of_ne ha]
      exact hs.ids a
  once := by
    by_cases h2 : s.validators.status who = 2
    · obtain ⟨gone, -, hperm⟩ := h.unbonding h2
      have hnod := (hperm.map (·.validatorId)).nodup_iff.1 hs.once
      rw [List.map_cons, List.nodup_cons] at hnod
      exact hnod.2
    · rw [h.waiting h2]
      exact hs.once
  notEscrow := by
    have hne : stakingEscrow ≠ who := fun he => h.registered (he ▸ hs.notEscrow)
    rw [h.byAddr_of_ne hne, hs.notEscrow]

theorem Left.inv (hs : Inv s) (htak : taken = s.validators.stake who) : Inv t := by
  refine { h.indexed hs.indexed with escrow := ?_, idOfAddr := ?_, queued := ?_,
                                     free := h.free hs.free, zero := ?_, none := ?_, some := ?_ }
  · have hne : who ≠ stakingEscrow := fun he => h.registered (he ▸ hs.notEscrow)
    have h1 := h.escrow hne
    have h2 := h.stakes
    have h3 := hs.escrow
    rw [htak] at h1
    omega
  · intro i hi
    have hne : i ≠ s.validators.validatorByAddr who := by
      rintro rfl
      rw [h.addr, update_self] at hi
      exact hi rfl
    rw [h.addr, update_of_ne hne] at hi ⊢
    have hold := hs.idOfAddr i hi
    have hwho : s.validators.validatorAddr i ≠ who := by
      intro he
      rw [he] at hold
      exact hne hold.symm
    rw [h.byAddr_of_ne hwho, hold]
  · intro e
    rw [h.mem_queue hs, hs.queued]
    constructor
    · rintro ⟨⟨a, hid, hst, rfl⟩, hne⟩
      have ha : a ≠ who := fun he => hne (by rw [he])
      refine ⟨a, ?_, ?_, ?_⟩
      · rwa [h.byAddr_of_ne ha]
      · rw [h.status, update_of_ne ha, hst]
      · rw [h.byAddr_of_ne ha, h.stake, update_of_ne ha]
    · rintro ⟨a, hid, hst, rfl⟩
      have ha := h.ne_of_registered hid
      rw [h.byAddr_of_ne ha] at hid ⊢
      rw [h.status, update_of_ne ha] at hst
      rw [h.stake, update_of_ne ha]
      exact ⟨⟨a, hid, hst, rfl⟩, fun he => ha (hs.injective hid he)⟩
  · rw [h.addr, update_of_ne h.registered.symm, hs.zero]
  · intro a hid
    by_cases ha : a = who
    · rw [ha, h.status, update_self]
    · rw [h.byAddr_of_ne ha] at hid
      rw [h.status, update_of_ne ha, hs.none a hid]
  · intro a hid
    have ha := h.ne_of_registered hid
    rw [h.byAddr_of_ne ha] at hid
    rw [h.status, update_of_ne ha]
    exact hs.some a hid

end

end Leaving

/-! ### Runs -/

def ValidatorCall.Foreign : ValidatorCall → Prop
  | .stake _ _ caller => caller ≠ stakingEscrow
  | .unstake .. | .claimUnbonded .. | .slashStake .. => True

instance : DecidablePred ValidatorCall.Foreign
  | .stake _ _ caller => inferInstanceAs (Decidable (caller ≠ stakingEscrow))
  | .unstake .. | .claimUnbonded .. | .slashStake .. => isTrue trivial

variable {call : ValidatorCall}

theorem Inv.move (hs : Inv s) (hcall : call.Foreign) (h : Move s t call) : Inv t := by
  cases h with
  | staked h => exact h.inv hs hcall
  | unstaked h => exact h.inv hs
  | claimed hmem hid _ h => exact h.inv hs (by rw [hs.entry_eq hmem hid])
  | slashed h => exact h.inv hs rfl
  | spared h => exact h ▸ hs

theorem Inv.step (hs : Inv s) (hcall : call.Foreign) : Inv (step s call) := by
  unfold Validator.step
  split_ifs with hok
  · exact hs.move hcall (exec_move hok)
  · exact hs

/-- Nothing is staked; the floor and the period may be set. -/
structure Empty (s : Registry) : Prop where
  validators : ∃ floor period : U64,
    s.validators = { safetyFloor := floor, unbondingPeriodBlocks := period }
  escrow : s.escrow = 0

theorem Empty.inv (h : Empty s) : Inv s := by
  obtain ⟨floor, period, hv⟩ := h.validators
  have hsta : stakes s.validators = 0 := total_eq_zero fun a => by rw [hv]; rfl
  have hact : activeValidators s.validators = 0 := total_eq_zero fun a => by rw [hv]; rfl
  have hque : queue s.validators = [] := by rw [hv]; rfl
  refine { escrow := ?_, active := ?_, addrOfId := ?_, idOfAddr := ?_, queued := ?_, once := ?_,
           free := ?_, zero := ?_, ids := ?_, none := ?_, some := ?_, notEscrow := ?_ }
  · rw [h.escrow, hsta]
  · rw [hact, hv]
    rfl
  · intro a ha
    rw [hv] at ha
    exact absurd rfl ha
  · intro i hi
    rw [hv] at hi
    exact absurd rfl hi
  · intro e
    rw [hv]
    exact iff_of_false List.not_mem_nil fun ⟨a, ha, _⟩ => ha rfl
  · rw [hque]
    exact List.nodup_nil
  · intro i _
    rw [hv]
  · rw [hv]
  · intro a
    rw [hv]
  · intro a _
    rw [hv]
  · intro a ha
    rw [hv] at ha
    exact absurd rfl ha
  · rw [hv]

def assigned (s : Registry) : ValidatorCall → List U64
  | .stake pubkey amount caller =>
    if (exec s (.stake pubkey amount caller)).2.isOk
    then [(exec s (.stake pubkey amount caller)).1.validators.validatorByAddr caller] else []
  | .unstake .. | .claimUnbonded .. | .slashStake .. => []

theorem step_count (s : Registry) (call : ValidatorCall) :
    s.validators.validatorCount.toNat ≤ (step s call).validators.validatorCount.toNat := by
  unfold step
  split_ifs with hok
  · cases exec_move hok with
    | staked h => exact h.count ▸ Nat.le_succ _
    | unstaked h => rw [h.count]
    | claimed _ _ _ h => rw [h.count]
    | slashed h => rw [h.count]
    | spared h => rw [h]
  · exact le_refl _

theorem assigned_spec {i : U64} (hi : i ∈ assigned s call) :
    s.validators.validatorCount.toNat < i.toNat ∧
      i.toNat ≤ (step s call).validators.validatorCount.toNat := by
  cases call with
  | stake =>
    rw [assigned] at hi
    split_ifs at hi with hok
    · rw [List.mem_singleton] at hi
      unfold step
      rw [if_pos hok]
      cases exec_move hok with
      | staked h =>
        rw [hi, h.byAddr_self, h.count]
        exact ⟨Nat.lt_succ_self _, le_refl _⟩
    · cases hi
  | _ => cases hi

theorem assigned_nodup (s : Registry) (calls : List ValidatorCall) :
    (collect step assigned s calls).Nodup := by
  refine (collect_nodup (C := fun _ _ => True)
    (fun s i => s.validators.validatorCount.toNat < i.toNat) ?_ ?_ ?_ ?_
    (along_of_invariant (I := fun _ => True) (fun _ _ h => h) trivial)).1
  · intro s call _
    cases call with
    | stake =>
      rw [assigned]
      split_ifs
      · exact List.nodup_singleton _
      · exact List.nodup_nil
    | _ => exact List.nodup_nil
  · exact fun s call _ i hi => (assigned_spec hi).1
  · exact fun s call _ i hi => not_lt.2 (assigned_spec hi).2
  · exact fun s call i _ hi => lt_of_le_of_lt (step_count s call) hi

/-- **The registry is sound.** From empty storage, after any calls of which none is a stake of the
escrow itself, the indexes agree, and no id has been given out twice. -/
theorem registry_sound (hs : Empty s) (calls : List ValidatorCall)
    (hcalls : ∀ call ∈ calls, call.Foreign) :
    Sound (run step s calls) ∧ (collect step assigned s calls).Nodup := by
  have hinv : Inv (run step s calls) :=
    invariant_mem (fun s call hcall hs => hs.step (hcalls call hcall)) hs.inv
  exact ⟨hinv.toSound, assigned_nodup s calls⟩

def fundedRegistry : Registry :=
  { assets := { balance := fun _ a => if a = 5 then 2000000 else 0 } }

theorem fundedRegistry_empty : Empty fundedRegistry := ⟨⟨0, 0, rfl⟩, by decide⟩

theorem registry_sound_at_fundedRegistry : Empty fundedRegistry ∧ Sound (run step fundedRegistry
      [.stake 1 1000000 5, .unstake 1 5 10, .claimUnbonded 1 5 120970, .stake 1 1500000 5]) :=
  ⟨fundedRegistry_empty, (registry_sound fundedRegistry_empty _ (by decide)).1⟩

def stakedRegistry : Registry := step fundedRegistry (.stake 1 1000000 5)

/-- The escrow stakes the same million once more. -/
theorem escrow_stake_unbacked : Empty fundedRegistry ∧
    (run step fundedRegistry [.stake 1 1000000 5, .stake 1 1000000 stakingEscrow]).escrow =
      1000000 ∧ stakes (run step fundedRegistry
      [.stake 1 1000000 5, .stake 1 1000000 stakingEscrow]).validators = 2000000 := by
  refine ⟨fundedRegistry_empty, by decide, ?_⟩
  have hfir : Staked fundedRegistry stakedRegistry 1000000 5 := stake_move (Prod.ext rfl rfl)
  have hsec : Staked stakedRegistry (step stakedRegistry (.stake 1 1000000 stakingEscrow))
      1000000 stakingEscrow := stake_move (Prod.ext rfl rfl)
  have hzero := fundedRegistry_empty.inv.escrow
  have h1 := hfir.stakes
  have h2 := hsec.stakes
  rw [h1, ← hzero] at h2
  exact h2

end Callchain.Validator

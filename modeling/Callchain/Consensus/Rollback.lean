/-
# Emergency rollbacks by signature

Validators sign a rollback to one target height and version; the first signature opens
it, and with two thirds of the validators it is complete. Each carries the validator's
nonce, which the manager then raises. A submission either changes nothing or is
accepted, and `Submitted` says what an accepted one does. The arithmetic wraps: the
quorum is right below 2^31 validators, and a nonce rises unless it is the last one.
-/
import Callchain.Consensus.Fork

namespace Callchain.Consensus

open Run

structure EmergencyRollbackResult where
  targetHeight : U64
  targetVersion : ProtocolVersion
  signatureCount : BitVec 32
  totalValidators : BitVec 32
  deriving DecidableEq

/-- What a validator signs; its id is not part of it. -/
def rollbackMessageHash (targetHeight : U64) (targetVersion : ProtocolVersion) (nonce : U64) :
    Bytes :=
  "CALL-EMERGENCY-ROLLBACK:".toUTF8.data.toList ++ toLeBytes 8 targetHeight.toNat ++
    toLeBytes 2 targetVersion.major.toNat ++ toLeBytes 2 targetVersion.minor.toNat ++
    toLeBytes 2 targetVersion.patch.toNat ++ toLeBytes 8 nonce.toNat

/-- The arguments of `submit_rollback_signature`. -/
structure Submission where
  validatorId : ValidatorId
  targetHeight : U64
  targetVersion : ProtocolVersion
  nonce : U64
  signature : Bytes

abbrev Ed25519Verify := Bytes32 → Bytes → Bytes → Bool

/-- A stand-in for Ed25519, where a key has one signature: its last byte. -/
def plainVerify : Ed25519Verify := fun pubkey signature _ => signature = [UInt8.ofNat pubkey.toNat]

namespace ForkManager

variable (verify : Ed25519Verify) (fm : ForkManager)

/-- The end of `submit_rollback_signature`, for a signature that passed the checks: it
is counted and its nonce spent, which wraps. -/
def countSignature (rollback : EmergencyRollback) (s : Submission) :
    ForkManager × Except ForkError (Option EmergencyRollbackResult) :=
  let rollback :=
    { rollback with signatures := rollback.signatures.insert s.validatorId s.signature }
  let fm :=
    { fm with
      activeRollback := some rollback
      rollbackNonces := Function.update fm.rollbackNonces s.validatorId (s.nonce + 1) }
  let sigCount := BitVec.ofNat 32 rollback.signatures.keys.length
  if rollbackQuorum fm.totalValidators ≤ sigCount then
    ({ fm with activeRollback := none }, .ok (some
      { targetHeight := rollback.targetHeight
        targetVersion := rollback.targetVersion
        signatureCount := sigCount
        totalValidators := fm.totalValidators }))
  else (fm, .ok none)

/-- The rollback that `get_or_insert_with` opens stays where a check after it fails. -/
def submitRollbackSignature (s : Submission) :
    ForkManager × Except ForkError (Option EmergencyRollbackResult) :=
  match fm.validatorKeys s.validatorId with
  | none => (fm, .error (.validatorNotFound s.validatorId))
  | some publicKey =>
    let expectedNonce := fm.rollbackNonces s.validatorId
    if s.nonce ≠ expectedNonce then
      (fm, .error (.rollbackNonceMismatch expectedNonce s.nonce))
    else
      let message := rollbackMessageHash s.targetHeight s.targetVersion s.nonce
      if verify publicKey s.signature message = false then (fm, .error .invalidSignature)
      else
        let rollback := fm.activeRollback.getD
          { targetHeight := s.targetHeight
            targetVersion := s.targetVersion
            signatures := ∅
            totalValidators := fm.totalValidators }
        let fm := { fm with activeRollback := some rollback }
        if rollback.targetHeight ≠ s.targetHeight ∨ rollback.targetVersion ≠ s.targetVersion then
          (fm, .error .rollbackTargetMismatch)
        else if s.validatorId ∈ rollback.signatures then
          (fm, .error .duplicateRollbackSignature)
        else fm.countSignature rollback s

end ForkManager

/-! ### What a submission does -/

/-- An accepted submission: its target is that of the rollback in progress, the
validator had not signed it, and now has, with its nonce spent. A complete
rollback leaves the state. -/
structure Accepted (fm : ForkManager) (s : Submission) (fm' : ForkManager)
    (result : Option EmergencyRollbackResult) (signatures : AList fun _ : ValidatorId => Bytes) :
    Prop where
  nonce : s.nonce = fm.rollbackNonces s.validatorId
  pending : ∀ r, fm.activeRollback = some r → r.targetHeight = s.targetHeight ∧
    r.targetVersion = s.targetVersion ∧ r.signatures = signatures
  opened : fm.activeRollback = none → signatures = ∅
  fresh : s.validatorId ∉ signatures
  nonces : fm'.rollbackNonces =
    Function.update fm.rollbackNonces s.validatorId (s.nonce + 1)
  total : fm'.totalValidators = fm.totalValidators
  waiting : result = none → ∃ r, fm'.activeRollback = some r ∧ r.targetHeight = s.targetHeight ∧
    r.targetVersion = s.targetVersion ∧
    r.signatures = signatures.insert s.validatorId s.signature
  complete : ∀ r, result = some r → fm'.activeRollback = none ∧
    r.targetHeight = s.targetHeight ∧ r.targetVersion = s.targetVersion ∧
    rollbackQuorum fm.totalValidators ≤ BitVec.ofNat 32 (signatures.keys.length + 1)

inductive Submitted (fm : ForkManager) (s : Submission) :
    ForkManager × Except ForkError (Option EmergencyRollbackResult) → Prop
  | rejected (e : ForkError) : Submitted fm s (fm, .error e)
  | accepted {fm' : ForkManager} {result : Option EmergencyRollbackResult}
    (signatures : AList fun _ : ValidatorId => Bytes)
    (h : Accepted fm s fm' result signatures) : Submitted fm s (fm', .ok result)

variable {signatures : AList fun _ : ValidatorId => Bytes}

theorem length_keys_insert {id : ValidatorId} {signature : Bytes} (h : id ∉ signatures) :
    (signatures.insert id signature).keys.length = signatures.keys.length + 1 := by
  rw [AList.keys_insert, List.erase_of_not_mem (mt AList.mem_keys.2 h), List.length_cons]

theorem submitted_countSignature {fm : ForkManager} {s : Submission}
    {rollback : EmergencyRollback} (hnon : s.nonce = fm.rollbackNonces s.validatorId)
    (hpen : ∀ r, fm.activeRollback = some r → r = rollback)
    (hope : fm.activeRollback = none → rollback.signatures = ∅)
    (hhei : rollback.targetHeight = s.targetHeight)
    (hver : rollback.targetVersion = s.targetVersion) (hfre : s.validatorId ∉ rollback.signatures) :
    Submitted fm s (fm.countSignature rollback s) := by
  have hpen' : ∀ r, fm.activeRollback = some r → r.targetHeight = s.targetHeight ∧
      r.targetVersion = s.targetVersion ∧ r.signatures = rollback.signatures := by
    intro r hr
    rw [hpen r hr]
    exact ⟨hhei, hver, rfl⟩
  unfold ForkManager.countSignature
  dsimp only
  split
  · rename_i hquo
    rw [length_keys_insert hfre] at hquo
    refine .accepted rollback.signatures ⟨hnon, hpen', hope, hfre, rfl, rfl, ?_, ?_⟩
    · intro h
      cases h
    · intro r hr
      cases hr
      exact ⟨rfl, hhei, hver, hquo⟩
  · refine .accepted rollback.signatures ⟨hnon, hpen', hope, hfre, rfl, rfl, ?_, ?_⟩
    · intro _
      exact ⟨_, rfl, hhei, hver, rfl⟩
    · intro r hr
      cases hr

theorem submitted (verify : Ed25519Verify) (fm : ForkManager) (s : Submission) :
    Submitted fm s (fm.submitRollbackSignature verify s) := by
  unfold ForkManager.submitRollbackSignature
  cases fm.validatorKeys s.validatorId with
  | none => exact .rejected _
  | some =>
    dsimp only
    by_cases hnon : s.nonce = fm.rollbackNonces s.validatorId
    case neg =>
      rw [if_pos hnon]
      exact .rejected _
    rw [if_neg (not_not.2 hnon)]
    split
    · exact .rejected _
    cases hact : fm.activeRollback with
    | none =>
      -- the rollback that the submission opens has its target and no signatures
      rw [if_neg (by simp)]
      refine submitted_countSignature hnon (fun r hr => ?_) (fun _ => rfl) rfl rfl
        (AList.notMem_empty _)
      rw [hact] at hr
      cases hr
    | some rollback =>
      have hsame : ({ fm with activeRollback := some rollback } : ForkManager) = fm := by
        rw [← hact]
      rw [Option.getD_some, hsame]
      split_ifs with htar hdup
      · exact .rejected _
      · exact .rejected _
      · rw [not_or, not_not, not_not] at htar
        refine submitted_countSignature hnon (fun r hr => ?_) (fun h => ?_) htar.1 htar.2
          hdup
        · exact Option.some_inj.1 (hr.symm.trans hact)
        · rw [hact] at h
          cases h

/-! ### Runs -/

inductive RollbackCall where
  | submit (s : Submission)
  | register (validatorId : ValidatorId) (publicKey : Bytes32)

variable (verify : Ed25519Verify)

def rollbackStep (fm : ForkManager) : RollbackCall → ForkManager
  | .submit s => (fm.submitRollbackSignature verify s).1
  | .register validatorId publicKey => fm.registerValidator validatorId publicKey

structure SignedTarget where
  validatorId : ValidatorId
  targetHeight : U64
  targetVersion : ProtocolVersion

def Submission.target (s : Submission) : SignedTarget :=
  ⟨s.validatorId, s.targetHeight, s.targetVersion⟩

/-- The targets accepted since the last rollback, the new one first. -/
def acceptedSince (fm : ForkManager) (call : RollbackCall) (since : List SignedTarget) :
    List SignedTarget :=
  match call with
  | .submit s =>
    match (fm.submitRollbackSignature verify s).2 with
    | .error _ => since
    | .ok none => s.target :: since
    | .ok (some _) => []
  | .register _ _ => since

def ForkManager.held (fm : ForkManager) : List SignedTarget :=
  match fm.activeRollback with
  | none => []
  | some r => r.signatures.keys.map fun id => ⟨id, r.targetHeight, r.targetVersion⟩

def acceptedNonce (fm : ForkManager) : RollbackCall → List (ValidatorId × U64)
  | .submit s =>
    if (fm.submitRollbackSignature verify s).2.isOk then [(s.validatorId, s.nonce)] else []
  | .register _ _ => []

variable {verify} {fm : ForkManager} {s : Submission}

theorem rejected_unchanged (h : (fm.submitRollbackSignature verify s).2.isOk = false) :
    (fm.submitRollbackSignature verify s).1 = fm := by
  have hsub := submitted verify fm s
  generalize fm.submitRollbackSignature verify s = r at h hsub
  cases hsub with
  | rejected => rfl
  | accepted => cases h

theorem totalValidators_step (c : RollbackCall) :
    (rollbackStep verify fm c).totalValidators = fm.totalValidators := by
  cases c with
  | register => rfl
  | submit s =>
    have hsub := submitted verify fm s
    simp only [rollbackStep]
    generalize fm.submitRollbackSignature verify s = r at hsub
    cases hsub with
    | rejected => rfl
    | accepted signatures h => exact h.total

/-! #### The signers behind a rollback -/

theorem held_of_active {r : EmergencyRollback} (h : fm.activeRollback = some r) :
    fm.held = r.signatures.keys.map fun id => ⟨id, r.targetHeight, r.targetVersion⟩ := by
  rw [ForkManager.held, h]

theorem Accepted.mem_held {fm' : ForkManager} {result : Option EmergencyRollbackResult}
    (h : Accepted fm s fm' result signatures) {id : ValidatorId} (hid : id ∈ signatures) :
    ⟨id, s.targetHeight, s.targetVersion⟩ ∈ fm.held := by
  cases hact : fm.activeRollback with
  | none =>
    rw [h.opened hact] at hid
    exact absurd hid (AList.notMem_empty _)
  | some r =>
    obtain ⟨hhei, hver, hsig⟩ := h.pending r hact
    rw [held_of_active hact, ← hhei, ← hver]
    exact List.mem_map_of_mem (AList.mem_keys.1 (hsig ▸ hid))

def HeldAccepted (fm : ForkManager) (since : List SignedTarget) : Prop := fm.held ⊆ since

variable {since : List SignedTarget}

theorem HeldAccepted.step (h : HeldAccepted fm since) (c : RollbackCall) :
    HeldAccepted (rollbackStep verify fm c) (acceptedSince verify fm c since) := by
  cases c with
  | register => exact h
  | submit s =>
    have hsub := submitted verify fm s
    simp only [rollbackStep, acceptedSince]
    generalize fm.submitRollbackSignature verify s = r at hsub
    cases hsub with
    | rejected => exact h
    | @accepted fm' result signatures hacc =>
      cases result with
      | some result =>
        have hnone := (hacc.complete result rfl).1
        simp [HeldAccepted, ForkManager.held, hnone]
      | none =>
        obtain ⟨r, hact, hhei, hver, hsig⟩ := hacc.waiting rfl
        intro t ht
        rw [held_of_active hact, hhei, hver, hsig] at ht
        obtain ⟨id, hid, rfl⟩ := List.mem_map.1 ht
        rcases (AList.mem_insert _).1 (AList.mem_keys.2 hid) with rfl | hid
        · exact List.mem_cons_self
        · exact List.mem_cons_of_mem _ (h (hacc.mem_held hid))

theorem rollbackQuorum_toNat {n : BitVec 32} (hn : n.toNat < 2 ^ 31) :
    (rollbackQuorum n).toNat = (2 * n.toNat + 2) / 3 := by
  have hdou : (2 * n).toNat = 2 * n.toNat := by
    exact Nat.mod_eq_of_lt (by simp; omega)
  have hmod : 2 * n % 3 = 0 ↔ 2 * n.toNat % 3 = 0 := by
    rw [BitVec.toNat_eq, BitVec.toNat_umod, hdou]
    rfl
  have hdiv : (2 * n / 3).toNat = 2 * n.toNat / 3 := by
    rw [BitVec.toNat_udiv, hdou]
    rfl
  unfold rollbackQuorum divCeil
  split_ifs with h
  · have := hmod.1 h
    omega
  · have hne := mt hmod.2 h
    have hsum : (2 * n / 3 + 1).toNat = 2 * n.toNat / 3 + 1 := by
      rw [BitVec.toNat_add, hdiv]
      exact Nat.mod_eq_of_lt (by simp; omega)
    omega

theorem HeldAccepted.quorum (h : HeldAccepted fm since)
    (hn : fm.totalValidators.toNat < 2 ^ 31) {result : EmergencyRollbackResult}
    (hres : (fm.submitRollbackSignature verify s).2 = .ok (some result)) :
    ∃ signers : List ValidatorId, signers.Nodup ∧
      (2 * fm.totalValidators.toNat + 2) / 3 ≤ signers.length ∧
      ∀ id ∈ signers, ⟨id, result.targetHeight, result.targetVersion⟩ ∈ s.target :: since := by
  have hsub := submitted verify fm s
  generalize fm.submitRollbackSignature verify s = r at hres hsub
  cases hsub with
  | rejected => cases hres
  | @accepted fm' result' signatures hacc =>
    cases hres
    obtain ⟨_, hhei, hver, hquo⟩ := hacc.complete result rfl
    have hcou := BitVec.le_def.1 hquo
    rw [rollbackQuorum_toNat hn] at hcou
    refine ⟨s.validatorId :: signatures.keys, ?_, hcou.trans (Nat.mod_le _ _), ?_⟩
    · exact List.nodup_cons.2 ⟨mt AList.mem_keys.2 hacc.fresh, signatures.keys_nodup⟩
    · intro id hid
      rw [hhei, hver]
      rcases List.mem_cons.1 hid with rfl | hid
      · exact List.mem_cons_self
      · exact List.mem_cons_of_mem _ (h (hacc.mem_held (AList.mem_keys.2 hid)))

/-! #### Nonces -/

/-- A submission does not carry the last nonce, so that the next one is
larger. -/
def RollbackCall.NonceRises : RollbackCall → Prop
  | .submit s => s.nonce.toNat + 1 < 2 ^ 64
  | .register _ _ => True

def NonceFree (fm : ForkManager) (p : ValidatorId × U64) : Prop :=
  (fm.rollbackNonces p.1).toNat ≤ p.2.toNat

theorem rollbackNonces_step (verify : Ed25519Verify) (fm : ForkManager) {c : RollbackCall}
    (hc : c.NonceRises) (id : ValidatorId) :
    ((rollbackStep verify fm c).rollbackNonces id).toNat = (fm.rollbackNonces id).toNat +
        ((acceptedNonce verify fm c).filter fun p => p.1 = id).length ∧
    ∀ p ∈ acceptedNonce verify fm c, p.2 = fm.rollbackNonces p.1 := by
  cases c with
  | register => exact ⟨rfl, fun p hp => absurd hp List.not_mem_nil⟩
  | submit s =>
    have hsub := submitted verify fm s
    simp only [rollbackStep, acceptedNonce]
    generalize fm.submitRollbackSignature verify s = r at hsub
    cases hsub with
    | rejected => exact ⟨rfl, fun p hp => absurd hp List.not_mem_nil⟩
    | accepted signatures h =>
      constructor
      · by_cases hid : id = s.validatorId
        · subst hid
          have hnext : (s.nonce + 1).toNat = s.nonce.toNat + 1 := by
            exact Nat.mod_eq_of_lt hc
          rw [h.nonces, Function.update_self, hnext, h.nonce]
          simp [Except.isOk, Except.toBool]
        · rw [h.nonces, Function.update_of_ne hid]
          simp [Except.isOk, Except.toBool, Ne.symm hid]
      · intro p hp
        rw [List.mem_singleton.1 hp]
        exact h.nonce

theorem nonce_spent_once {calls : List RollbackCall} (h : ∀ c ∈ calls, c.NonceRises) :
    (collect (rollbackStep verify) (acceptedNonce verify) fm calls).Nodup := by
  have halo : Along (rollbackStep verify) (fun _ c => c.NonceRises) fm calls := along_of_forall h
  refine (collect_nodup NonceFree ?_ ?_ ?_ ?_ halo).1
  · intro fm c _
    cases c with
    | register => exact List.nodup_nil
    | submit =>
      dsimp only [acceptedNonce]
      split
      · exact List.nodup_singleton _
      · exact List.nodup_nil
  · intro fm c hc p hp
    rw [NonceFree, (rollbackNonces_step verify fm hc p.1).2 p hp]
  · intro fm c hc p hp hfree
    obtain ⟨hnext, hnon⟩ := rollbackNonces_step verify fm hc p.1
    have hcou : 0 < ((acceptedNonce verify fm c).filter fun q => q.1 = p.1).length :=
      List.length_pos_of_mem (List.mem_filter.2 ⟨hp, by simp⟩)
    rw [NonceFree, hnon p hp] at hfree
    omega
  · intro fm c p hc hfree
    rw [NonceFree, (rollbackNonces_step verify fm hc p.1).1] at hfree
    exact (Nat.le_add_right _ _).trans hfree

/-- **A quorum rolls back.** Below 2^31 validators, in every run of submissions and registrations
that does not reach the last nonce: a rollback that completes has two thirds of the validators
behind it, no nonce is accepted twice, and a rejected submission changes nothing. -/
theorem rollback_by_quorum (verify : Ed25519Verify) (fm : ForkManager)
    (hn : fm.totalValidators.toNat < 2 ^ 31) (calls : List RollbackCall)
    (hcalls : ∀ c ∈ calls, c.NonceRises) :
    (∀ before s later result, calls = before ++ RollbackCall.submit s :: later →
      ((run (rollbackStep verify) fm before).submitRollbackSignature verify s).2 =
        .ok (some result) → ∃ signers : List ValidatorId, signers.Nodup ∧
        (2 * fm.totalValidators.toNat + 2) / 3 ≤ signers.length ∧
        ∀ id ∈ signers, ⟨id, result.targetHeight, result.targetVersion⟩ ∈ s.target ::
            (run (watched (rollbackStep verify) (acceptedSince verify)) (fm, fm.held) before).2) ∧
    (collect (rollbackStep verify) (acceptedNonce verify) fm calls).Nodup ∧
    ∀ before s later, calls = before ++ RollbackCall.submit s :: later →
      ((run (rollbackStep verify) fm before).submitRollbackSignature verify s).2.isOk = false →
      run (rollbackStep verify) fm (before ++ [.submit s]) = run (rollbackStep verify) fm before := by
  refine ⟨fun before s later result _ hres => ?_, nonce_spent_once hcalls,
    fun before s later _ hrej => ?_⟩
  · have hbac : HeldAccepted (run (rollbackStep verify) fm before)
        (run (watched (rollbackStep verify) (acceptedSince verify)) (fm, fm.held) before).2 :=
      watched_invariant (C := fun _ _ => True) (I := HeldAccepted) (fun _ _ c h _ => h.step c)
        (along_of_forall fun _ _ => trivial) (List.Subset.refl _)
    have htot : (run (rollbackStep verify) fm before).totalValidators = fm.totalValidators :=
      invariant_mem (I := fun f : ForkManager => f.totalValidators = fm.totalValidators)
        (fun f c _ hf => (totalValidators_step c).trans hf) rfl
    rw [← htot] at hn ⊢
    exact hbac.quorum hn hres
  · rw [run_append]
    exact rejected_unchanged hrej

def twoKeys (n : BitVec 32) : ForkManager :=
  ((ForkManager.new ⟨1, 1, 0⟩ n).registerValidator 1 11).registerValidator 2 12

def rollbackTo100 (validatorId : ValidatorId) : Submission :=
  ⟨validatorId, 100, ⟨1, 0, 0⟩, 0, [UInt8.ofNat (validatorId.toNat + 10)]⟩

theorem rollback_by_two_of_three :
    let calls := [.submit (rollbackTo100 1), .submit (rollbackTo100 2)]
    (twoKeys 3).totalValidators.toNat < 2 ^ 31 ∧ (∀ c ∈ calls, c.NonceRises) ∧
      (run (rollbackStep plainVerify) (twoKeys 3) calls).activeRollback.isNone = true ∧
      (collect (rollbackStep plainVerify) (acceptedNonce plainVerify) (twoKeys 3) calls).Nodup := by
  intro calls
  have hn : (twoKeys 3).totalValidators.toNat < 2 ^ 31 := by decide
  have hcal : ∀ c ∈ calls, c.NonceRises := by
    intro c hc
    simp only [calls, List.mem_cons, List.not_mem_nil, or_false] at hc
    rcases hc with rfl | rfl <;> exact (by decide : (0#64).toNat + 1 < 2 ^ 64)
  exact ⟨hn, hcal, by decide, (rollback_by_quorum _ (twoKeys 3) hn calls hcal).2.1⟩

/-- With 2^31 validators the product wraps and the quorum is zero: one signature
completes a rollback. -/
theorem rollback_by_one_of_many :
    ((twoKeys (2 ^ 31)).submitRollbackSignature plainVerify (rollbackTo100 1)).2.toOption =
        some (some ⟨100, ⟨1, 0, 0⟩, 1, 2 ^ 31⟩) ∧ (rollbackQuorum (2 ^ 31)).toNat = 0 ∧
      (2 * (2 ^ 31 : BitVec 32).toNat + 2) / 3 = 1431655766 := by
  decide

end Callchain.Consensus

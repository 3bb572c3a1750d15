/-
# Signed snapshots

A node that syncs fast takes the latest snapshot it has on disk and believes it if
enough validators signed it (`storage/src/prune`). A signature is over the hash of the
height, the five roots and the size, each at a fixed width, so the signed bytes
determine them (`messageBytes_inj`).

`verify_snapshot` counts entries of the list that comes with the snapshot: the count is
that of the signers exactly when no validator has two valid entries
(`verifySnapshot_counts_signers_iff`). The threshold is computed in 32 bits, so it is
two thirds of the validators below 2^31 of them, and zero at 2^31. Reading the directory
and the JSON of a file are parameters.
-/
import Callchain.Consensus.Rollback

namespace Callchain.Storage

open Consensus
open BitVec (ofNat ofNat_add)

structure ValidatorSignature where
  validatorId : ValidatorId
  signature : Bytes
  deriving DecidableEq

structure StateSnapshot where
  height : U64
  protocolRoot : B256
  evmRoot : B256
  shieldedRoot : B256
  agentRoot : B256
  consensusRoot : B256
  totalSize : U64
  validatorSignatures : List ValidatorSignature

/-- The bytes that `snapshot_message_hash` hashes. -/
def StateSnapshot.messageBytes (s : StateSnapshot) : Bytes :=
  beBytes 8 s.height.toNat ++ s.protocolRoot.asSlice ++ s.evmRoot.asSlice ++
    s.shieldedRoot.asSlice ++ s.agentRoot.asSlice ++ s.consensusRoot.asSlice ++
    beBytes 8 s.totalSize.toNat

abbrev ValidatorPubkeys := AList fun _ : ValidatorId => Bytes32

section Verify

variable (verify : Ed25519Verify) (keccak256 : Bytes → B256)

def snapshotMessageHash (s : StateSnapshot) : Bytes := (keccak256 s.messageBytes).asSlice

/-- The test of the loop of `verify_snapshot`: the id has a key, and the
signature verifies under it. -/
def validEntry (pubkeys : ValidatorPubkeys) (message : Bytes) (vs : ValidatorSignature) : Bool :=
  match pubkeys.lookup vs.validatorId with
  | some pubkey => verify pubkey vs.signature message
  | none => false

/-- The loop of `verify_snapshot`. -/
def validCount (s : StateSnapshot) (pubkeys : ValidatorPubkeys) : BitVec 32 :=
  let message := snapshotMessageHash keccak256 s
  s.validatorSignatures.foldl
    (fun count vs => if validEntry verify pubkeys message vs then count + 1 else count) 0

def verifySnapshot (s : StateSnapshot) (totalValidators : BitVec 32) (pubkeys : ValidatorPubkeys) :
    Bool :=
  let quorum := divCeil (2 * totalValidators) 3
  if pubkeys.entries.isEmpty then quorum ≤ BitVec.ofNat 32 s.validatorSignatures.length
  else quorum ≤ validCount verify keccak256 s pubkeys

inductive StorageError where
  | notFound (message : String)
  | validation (message : String)
  /-- what reading the directory or a file of it fails with -/
  | io
  | serialization
  deriving DecidableEq

/-- `heights` are the heights of the directory's snapshots, `load` reads the one of a
height. -/
def downloadAndVerify (heights : Except StorageError (List U64))
    (load : U64 → Except StorageError StateSnapshot) (peers : List String)
    (pubkeys : ValidatorPubkeys) : Except StorageError StateSnapshot :=
  if peers.isEmpty then .error (.notFound "no peers available")
  else if pubkeys.entries.isEmpty then
    .error (.validation "validator_pubkeys required for snapshot verification")
  else match heights with
    | .error e => .error e
    | .ok heights =>
      match (heights.insertionSort (· ≤ ·)).getLast? with
      | none => .error (.notFound "no snapshots on disk")
      | some latest =>
        match load latest with
        | .error e => .error e
        | .ok snapshot =>
          let totalValidators := BitVec.ofNat 32 pubkeys.entries.length
          if verifySnapshot verify keccak256 snapshot totalValidators pubkeys = false then
            .error (.validation "insufficient validator signatures")
          else .ok snapshot

/-! ### What is signed -/

theorem messageBytes_inj {s t : StateSnapshot} (h : s.messageBytes = t.messageBytes) :
    s.height = t.height ∧ s.protocolRoot = t.protocolRoot ∧ s.evmRoot = t.evmRoot ∧
      s.shieldedRoot = t.shieldedRoot ∧ s.agentRoot = t.agentRoot ∧
      s.consensusRoot = t.consensusRoot ∧ s.totalSize = t.totalSize := by
  have hword : ∀ {x y : U64}, beBytes 8 x.toNat = beBytes 8 y.toNat → x = y := fun {x y} hxy =>
    BitVec.eq_of_toNat_eq (beBytes_inj x.isLt y.isLt hxy)
  have hroot : ∀ {x y : B256}, x.asSlice = y.asSlice → x = y := fun {x y} hxy => by
    rw [← B256.fromSlice_asSlice x, hxy, B256.fromSlice_asSlice]
  -- the fields have fixed widths, so they are taken off one by one from the end
  obtain ⟨h, hsize⟩ := List.append_inj' h (by simp [beBytes_length])
  obtain ⟨h, hcon⟩ := List.append_inj' h (by simp)
  obtain ⟨h, hage⟩ := List.append_inj' h (by simp)
  obtain ⟨h, hshi⟩ := List.append_inj' h (by simp)
  obtain ⟨h, hevm⟩ := List.append_inj' h (by simp)
  obtain ⟨hhei, hpro⟩ := List.append_inj' h (by simp)
  exact ⟨hword hhei, hroot hpro, hroot hevm, hroot hshi, hroot hage, hroot hcon, hword hsize⟩

/-! ### The count -/

variable (s : StateSnapshot) (pubkeys : ValidatorPubkeys)

def validIds : List ValidatorId :=
  (s.validatorSignatures.filter
    (validEntry verify pubkeys (snapshotMessageHash keccak256 s))).map (·.validatorId)

/-- Those with a valid signature in the snapshot. -/
def signers : Finset ValidatorId := (validIds verify keccak256 s pubkeys).toFinset

variable {verify keccak256 s pubkeys}

theorem mem_signers {id : ValidatorId} :
    id ∈ signers verify keccak256 s pubkeys ↔ ∃ pubkey signature, pubkeys.lookup id = some pubkey ∧
        ⟨id, signature⟩ ∈ s.validatorSignatures ∧
        verify pubkey signature (keccak256 s.messageBytes).asSlice = true := by
  simp only [signers, validIds, List.mem_toFinset, List.mem_map, List.mem_filter]
  constructor
  · rintro ⟨vs, ⟨hmem, hval⟩, rfl⟩
    unfold validEntry at hval
    cases hkey : pubkeys.lookup vs.validatorId with
    | none => simp [hkey] at hval
    | some pubkey =>
      rw [hkey] at hval
      exact ⟨pubkey, vs.signature, rfl, hmem, hval⟩
  · rintro ⟨pubkey, signature, hkey, hmem, hval⟩
    refine ⟨⟨id, signature⟩, ⟨hmem, ?_⟩, rfl⟩
    unfold validEntry
    rw [hkey]
    exact hval

theorem validCount_eq : validCount verify keccak256 s pubkeys =
      ofNat 32 (validIds verify keccak256 s pubkeys).length := by
  have hloop : ∀ (p : ValidatorSignature → Bool) (l : List ValidatorSignature) (c : BitVec 32),
      l.foldl (fun count vs => if p vs then count + 1 else count) c =
        c + ofNat 32 (l.filter p).length := by
    intro p l
    induction l with
    | nil => simp
    | cons vs l ih =>
      intro c
      rw [List.foldl_cons, ih, List.filter_cons]
      split_ifs
      · rw [List.length_cons, Nat.add_comm, ofNat_add, BitVec.add_assoc]
        rfl
      · rfl
  rw [validCount, hloop, validIds, List.length_map]
  exact BitVec.zero_add _

theorem signers_card_le : (signers verify keccak256 s pubkeys).card ≤ pubkeys.entries.length := by
  have hkeys : signers verify keccak256 s pubkeys ⊆ pubkeys.keys.toFinset := by
    intro id hid
    obtain ⟨pubkey, _, hkey, _⟩ := mem_signers.1 hid
    exact List.mem_toFinset.2 (AList.mem_keys.1 (AList.lookup_isSome.1 (by simp [hkey])))
  calc (signers verify keccak256 s pubkeys).card
      ≤ pubkeys.keys.toFinset.card := Finset.card_le_card hkeys
    _ ≤ pubkeys.keys.length := List.toFinset_card_le _
    _ = pubkeys.entries.length := List.length_map _

abbrev StateSnapshot.listing (s : StateSnapshot) (l : List ValidatorSignature) : StateSnapshot :=
  { s with validatorSignatures := l }

variable (verify keccak256 s pubkeys)

/-- An entry that raises the count is of a validator that none of the entries before it is of. -/
def RaisedOnce : Prop :=
  ∀ a vs b, s.validatorSignatures = a ++ vs :: b →
    validCount verify keccak256 (s.listing (a ++ [vs])) pubkeys ≠
      validCount verify keccak256 (s.listing a) pubkeys →
    vs.validatorId ∉ signers verify keccak256 (s.listing a) pubkeys

variable {verify keccak256 s pubkeys}

theorem validIds_append (a b : List ValidatorSignature) :
    validIds verify keccak256 (s.listing (a ++ b)) pubkeys =
      validIds verify keccak256 (s.listing a) pubkeys ++
        validIds verify keccak256 (s.listing b) pubkeys := by
  simp only [validIds, List.filter_append, List.map_append]
  rfl

theorem validIds_singleton (vs : ValidatorSignature) :
    validIds verify keccak256 (s.listing [vs]) pubkeys =
      if validEntry verify pubkeys (snapshotMessageHash keccak256 s) vs
      then [vs.validatorId] else [] := by
  have hmes : snapshotMessageHash keccak256 (s.listing [vs]) =
      snapshotMessageHash keccak256 s := rfl
  rw [validIds, hmes, List.filter_singleton]
  cases validEntry verify pubkeys (snapshotMessageHash keccak256 s) vs with
  | true | false => rfl

theorem validCount_snoc_ne_iff (a : List ValidatorSignature) (vs : ValidatorSignature) :
    validCount verify keccak256 (s.listing (a ++ [vs])) pubkeys ≠
        validCount verify keccak256 (s.listing a) pubkeys ↔
      validEntry verify pubkeys (snapshotMessageHash keccak256 s) vs = true := by
  rw [validCount_eq, validCount_eq, validIds_append, validIds_singleton, List.length_append,
    ofNat_add]
  cases validEntry verify pubkeys (snapshotMessageHash keccak256 s) vs with
  | true | false => simp

theorem raisedOnce_iff :
    RaisedOnce verify keccak256 s pubkeys ↔ (validIds verify keccak256 s pubkeys).Nodup := by
  simp only [RaisedOnce, validCount_snoc_ne_iff, signers, List.mem_toFinset]
  constructor
  · intro h
    have hlist : ∀ l : List ValidatorSignature, (∀ a vs b, l = a ++ vs :: b →
        validEntry verify pubkeys (snapshotMessageHash keccak256 s) vs = true →
        vs.validatorId ∉ validIds verify keccak256 (s.listing a) pubkeys) →
        (validIds verify keccak256 (s.listing l) pubkeys).Nodup := by
      intro l
      induction l using List.reverseRecOn with
      | nil => intro _; exact List.nodup_nil
      | append_singleton l vs ih =>
        intro h
        have hl := ih fun a x b hab => h a x (b ++ [vs]) (by rw [hab]; simp)
        have hvs := h l vs [] rfl
        rw [validIds_append, validIds_singleton]
        cases hval : validEntry verify pubkeys (snapshotMessageHash keccak256 s) vs with
        | false => simpa using hl
        | true =>
          rw [List.nodup_append]
          refine ⟨hl, List.nodup_singleton _, fun id hid x hx he => hvs hval ?_⟩
          rw [← List.mem_singleton.1 hx, ← he]
          exact hid
    exact hlist s.validatorSignatures h
  · rintro h a vs b hl hval hmem
    have hids : validIds verify keccak256 s pubkeys =
        validIds verify keccak256 (s.listing a) pubkeys ++
          (vs.validatorId :: validIds verify keccak256 (s.listing b) pubkeys) := by
      have hs : s = s.listing (a ++ ([vs] ++ b)) := by rw [List.singleton_append, ← hl]
      rw [hs, validIds_append, validIds_append, validIds_singleton, if_pos hval]
      rfl
    rw [hids, List.nodup_append] at h
    exact h.2.2 _ hmem _ List.mem_cons_self rfl

/-! ### The quorum -/

theorem verifySnapshot_eq_true_iff (hkeys : pubkeys.entries ≠ []) {n : BitVec 32} :
    verifySnapshot verify keccak256 s n pubkeys = true ↔
      rollbackQuorum n ≤ ofNat 32 (validIds verify keccak256 s pubkeys).length := by
  have hne : pubkeys.entries.isEmpty = false := by simpa using hkeys
  rw [verifySnapshot, hne, if_neg Bool.false_ne_true, decide_eq_true_iff, validCount_eq]
  rfl

theorem downloadAndVerify_verified {heights : Except StorageError (List U64)}
    {load : U64 → Except StorageError StateSnapshot} {peers : List String}
    (h : downloadAndVerify verify keccak256 heights load peers pubkeys = .ok s) :
    verifySnapshot verify keccak256 s (ofNat 32 pubkeys.entries.length) pubkeys = true := by
  unfold downloadAndVerify at h
  split_ifs at h
  split at h
  · cases h
  split at h
  · cases h
  split at h
  · cases h
  dsimp only at h
  split_ifs at h with hver
  cases h
  exact Bool.eq_true_of_not_eq_false hver

theorem quorum_le_signers (hkeys : pubkeys.entries ≠ []) (hn : pubkeys.entries.length < 2 ^ 31)
    (hids : (validIds verify keccak256 s pubkeys).Nodup)
    (h : verifySnapshot verify keccak256 s (ofNat 32 pubkeys.entries.length) pubkeys = true) :
    (2 * pubkeys.entries.length + 2) / 3 ≤ (signers verify keccak256 s pubkeys).card := by
  have hcard : (signers verify keccak256 s pubkeys).card =
      (validIds verify keccak256 s pubkeys).length := List.toFinset_card_of_nodup hids
  have hlt : (validIds verify keccak256 s pubkeys).length < 2 ^ 31 :=
    hcard ▸ lt_of_le_of_lt signers_card_le hn
  have hkey : (ofNat 32 pubkeys.entries.length).toNat = pubkeys.entries.length :=
    Nat.mod_eq_of_lt (by omega)
  rw [verifySnapshot_eq_true_iff hkeys, BitVec.le_def, rollbackQuorum_toNat (by omega), hkey,
    BitVec.toNat_ofNat, Nat.mod_eq_of_lt (by omega)] at h
  rw [hcard]
  exact h

/-- **Who signed a snapshot**: with fewer than 2^31 keys, one that passes, as every one that is
downloaded does, is signed by two thirds of the validators, each counted once, exactly when no
validator has two valid entries. At 2^31 keys every snapshot passes. -/
theorem verifySnapshot_counts_signers_iff (verify : Ed25519Verify) (keccak256 : Bytes → B256)
    (s : StateSnapshot) (pubkeys : ValidatorPubkeys) (hkeys : pubkeys.entries ≠ []) :
    (pubkeys.entries.length < 2 ^ 31 →
      ((verifySnapshot verify keccak256 s (BitVec.ofNat 32 pubkeys.entries.length) pubkeys = true →
          (2 * pubkeys.entries.length + 2) / 3 ≤ (signers verify keccak256 s pubkeys).card) ∧
        RaisedOnce verify keccak256 s pubkeys ↔ (validIds verify keccak256 s pubkeys).Nodup)) ∧
    (pubkeys.entries.length = 2 ^ 31 →
      verifySnapshot verify keccak256 s (BitVec.ofNat 32 pubkeys.entries.length) pubkeys = true) ∧
    (∀ t : StateSnapshot, t.messageBytes = s.messageBytes →
      t.height = s.height ∧ t.protocolRoot = s.protocolRoot ∧ t.evmRoot = s.evmRoot ∧
        t.shieldedRoot = s.shieldedRoot ∧ t.agentRoot = s.agentRoot ∧
        t.consensusRoot = s.consensusRoot ∧ t.totalSize = s.totalSize) ∧
    ∀ heights load peers, downloadAndVerify verify keccak256 heights load peers pubkeys = .ok s →
      verifySnapshot verify keccak256 s (BitVec.ofNat 32 pubkeys.entries.length) pubkeys = true := by
  refine ⟨fun hn => ⟨fun h => raisedOnce_iff.1 h.2, fun h => ⟨quorum_le_signers hkeys hn h,
    raisedOnce_iff.2 h⟩⟩, fun hn => ?_, fun t => messageBytes_inj,
    fun _ _ _ => downloadAndVerify_verified⟩
  have hquo : rollbackQuorum (BitVec.ofNat 32 (2 ^ 31)) = 0 := by decide
  rw [verifySnapshot_eq_true_iff hkeys, hn]
  exact BitVec.le_def.2 (Nat.zero_le _)

def threePubkeys : ValidatorPubkeys := ⟨[⟨1, 1⟩, ⟨2, 2⟩, ⟨3, 3⟩], by unfold List.NodupKeys; decide⟩

def snapshotSigned (l : List ValidatorSignature) : StateSnapshot :=
  ⟨7, 0, 0, 0, 0, 0, 0, l⟩

theorem verifySnapshot_counts_two_signers : (2 * threePubkeys.entries.length + 2) / 3 ≤
      (signers plainVerify (fun _ => 0) (snapshotSigned [⟨1, [1]⟩, ⟨3, [1]⟩, ⟨2, [2]⟩])
        threePubkeys).card :=
  (((verifySnapshot_counts_signers_iff plainVerify (fun _ => 0)
    (snapshotSigned [⟨1, [1]⟩, ⟨3, [1]⟩, ⟨2, [2]⟩]) threePubkeys (by decide)).1 (by decide)).2
      (by decide)).1 (by decide)

/-- Validator 1 listed twice passes for two of three. -/
theorem verifySnapshot_one_signer_twice :
    verifySnapshot plainVerify (fun _ => 0) (snapshotSigned [⟨1, [1]⟩, ⟨1, [1]⟩]) 3
        threePubkeys = true ∧
      (signers plainVerify (fun _ => 0) (snapshotSigned [⟨1, [1]⟩, ⟨1, [1]⟩])
        threePubkeys).card < (2 * threePubkeys.entries.length + 2) / 3 := by
  decide

end Verify

end Callchain.Storage

/-
# Sync committee updates

`apply_light_client_update` checks an aggregate signature over the attested header of an
update against a sync committee and asks for 342 of its 512 members. The committee is
the stored one if the update's signature slot is in the stored period; otherwise, and if
none is stored, it is the one the update itself carries. The two Merkle branches of an
update, which would tie its committee and its finalized header to the attested header,
are read by no function and not modelled.

BLS verification is a parameter, ideal in that every key of an accepted list signed the
message. A run keeps beside the client the committees it trusts: the bootstrapped one
and those that accepted updates carried.
-/
import Callchain.LightClient.Client

namespace Callchain.LightClient

open Run EthLightClient

def SYNC_COMMITTEE_SIZE : ℕ := 512
def MIN_SYNC_PARTICIPATION : ℕ := 342

structure BeaconBlockHeader where
  slot : U64
  proposerIndex : U64
  parentRoot : B256
  stateRoot : B256
  bodyRoot : B256

def leBytes8 (v : U64) : Bytes := (beBytes 8 v.toNat).reverse

def BeaconBlockHeader.hashTreeRoot (keccak : Bytes → B256) (h : BeaconBlockHeader) : B256 :=
  keccak (leBytes8 h.slot ++ leBytes8 h.proposerIndex ++ h.parentRoot.asSlice ++
    h.stateRoot.asSlice ++ h.bodyRoot.asSlice ++ List.replicate 16 0)

/-- The bits are a `[u8; 64]`. -/
structure SyncAggregate where
  syncCommitteeBits : Bytes
  syncCommitteeSignature : BitVec 768
  bits_length : syncCommitteeBits.length = 64

/-- Without its Merkle branches. -/
structure LightClientUpdate where
  attestedHeader : BeaconBlockHeader
  nextSyncCommittee : SyncCommittee
  finalizedHeader : BeaconBlockHeader
  syncAggregate : SyncAggregate
  signatureSlot : U64

def computeDomainSyncCommittee (keccak : Bytes → B256) (config : BeaconConfig) : Bytes :=
  [0x07, 0x00, 0x00, 0x00] ++
    (keccak (beBytes 4 config.forkVersion.toNat ++
      config.genesisValidatorsRoot.asSlice)).asSlice.take 28

def computeSyncCommitteeSigningRoot (keccak : Bytes → B256) (header : BeaconBlockHeader)
    (config : BeaconConfig) : B256 :=
  keccak ((header.hashTreeRoot keccak).asSlice ++ computeDomainSyncCommittee keccak config)

def syncPeriod (slot : ℕ) : ℕ := slot / 8192

/-- The period of an update: that of the slot before its signature slot. -/
def LightClientUpdate.period (u : LightClientUpdate) : ℕ := syncPeriod (u.signatureSlot.toNat - 1)

/-- Bit `i` of the bitmask, the least significant bit of a byte first. -/
def bitSet (bits : Bytes) (i : ℕ) : Bool := (bits.getD (i / 8) 0).toNat.testBit (i % 8)

/-- The members whose bit is set, in order. -/
def participants (bits : Bytes) : List ℕ := (List.range SYNC_COMMITTEE_SIZE).filter (bitSet bits)

/-- An index past the committee's keys panics (`none`). -/
def SyncCommittee.participantPubkeys (c : SyncCommittee) (bits : Bytes) :
    Option (List (BitVec 384)) :=
  (participants bits).mapM (c.pubkeys[·]?)

def countOnes (b : UInt8) : ℕ := (List.range 8).countP b.toNat.testBit

def SyncAggregate.participantCount (a : SyncAggregate) : ℕ :=
  (a.syncCommitteeBits.map countOnes).sum

section
variable (keccak : Bytes → B256)
  (blsVerify : List (BitVec 384) → Bytes → BitVec 768 → Except String Unit)

def verifySyncAggregate (header : BeaconBlockHeader) (aggregate : SyncAggregate)
    (committee : SyncCommittee) (config : BeaconConfig) : Except LightClientError Unit :=
  let signingRoot := computeSyncCommitteeSigningRoot keccak header config
  match committee.participantPubkeys aggregate.syncCommitteeBits with
  | none => .error .panicked
  | some pubkeys =>
    if pubkeys = [] then .error (.syncCommitteeSignatureInvalid "no participants")
    else
      match blsVerify pubkeys signingRoot.asSlice aggregate.syncCommitteeSignature with
      | .ok () => .ok ()
      | .error e => .error (.syncCommitteeSignatureInvalid e)

def EthLightClient.bootstrapSyncCommittee (s : EthLightClient) (period : ℕ)
    (committee : SyncCommittee) : Except LightClientError EthLightClient :=
  if s.syncCommittee.isSome then .error .alreadyInitialized
  else .ok { s with syncCommittee := some committee, currentSyncPeriod := period }

def EthLightClient.committeeFor (s : EthLightClient) (u : LightClientUpdate) : SyncCommittee :=
  match s.syncCommittee with
  | some current => if u.period = s.currentSyncPeriod then current else u.nextSyncCommittee
  | none => u.nextSyncCommittee

/-- The finalized slot and root, and the new state. -/
def EthLightClient.applyLightClientUpdate (s : EthLightClient) (u : LightClientUpdate) :
    Except LightClientError ((U64 × B256) × EthLightClient) :=
  match s.beaconConfig with
  | none => .error .notInitialized
  | some config =>
    match verifySyncAggregate keccak blsVerify u.attestedHeader u.syncAggregate
        (s.committeeFor u) config with
    | .error e => .error e
    | .ok () =>
      if u.syncAggregate.participantCount < MIN_SYNC_PARTICIPATION then
        .error (.insufficientSyncParticipation u.syncAggregate.participantCount
          MIN_SYNC_PARTICIPATION)
      else
        .ok ((u.finalizedHeader.slot, u.finalizedHeader.hashTreeRoot keccak),
          if u.period > s.currentSyncPeriod then
            { s with
              syncCommittee := some u.nextSyncCommittee
              currentSyncPeriod := u.period }
          else s)

end

/-! ### Counting participants -/

theorem participants_nodup (bits : Bytes) : (participants bits).Nodup := List.nodup_range.filter _

theorem bitSet_append_left {bs : Bytes} {b : UInt8} {i : ℕ} (hi : i < 8 * bs.length) :
    bitSet (bs ++ [b]) i = bitSet bs i := by
  have h8 : i / 8 < bs.length := by omega
  unfold bitSet
  rw [List.getD_eq_getElem?_getD, List.getD_eq_getElem?_getD, List.getElem?_append_left h8]

theorem bitSet_append_right {bs : Bytes} {b : UInt8} {j : ℕ} (hj : j < 8) :
    bitSet (bs ++ [b]) (8 * bs.length + j) = b.toNat.testBit j := by
  have hd : (8 * bs.length + j) / 8 = bs.length := by omega
  have hm : (8 * bs.length + j) % 8 = j := by omega
  unfold bitSet
  rw [hd, hm, List.getD_eq_getElem?_getD, List.getElem?_append_right le_rfl, Nat.sub_self]
  rfl

theorem sum_countOnes (bits : Bytes) :
    (bits.map countOnes).sum = (List.range (8 * bits.length)).countP (bitSet bits) := by
  induction bits using List.reverseRecOn with
  | nil => rfl
  | append_singleton bs b ih =>
    have hlen : 8 * (bs ++ [b]).length = 8 * bs.length + 8 := by simp; omega
    have hleft : (List.range (8 * bs.length)).countP (bitSet (bs ++ [b])) =
        (List.range (8 * bs.length)).countP (bitSet bs) :=
      List.countP_congr fun i hi => by rw [bitSet_append_left (List.mem_range.1 hi)]
    have hrig : ((List.range 8).map (8 * bs.length + ·)).countP (bitSet (bs ++ [b])) =
        countOnes b := by
      rw [List.countP_map]
      exact List.countP_congr fun j hj => by
        rw [Function.comp, bitSet_append_right (List.mem_range.1 hj)]
    rw [List.map_append, List.sum_append, ih, hlen, List.range_add, List.countP_append, hleft, hrig]
    simp

theorem participants_length (a : SyncAggregate) :
    (participants a.syncCommitteeBits).length = a.participantCount := by
  have h512 : SYNC_COMMITTEE_SIZE = 8 * a.syncCommitteeBits.length := by
    rw [a.bits_length]
    rfl
  rw [participants, ← List.countP_eq_length_filter, h512, ← sum_countOnes]
  rfl

/-! ### Runs of updates -/

section
variable {keccak : Bytes → B256}
  {blsVerify : List (BitVec 384) → Bytes → BitVec 768 → Except String Unit}
  {s s' : EthLightClient} {u : LightClientUpdate} {result : U64 × B256}

theorem exists_of_mapM_eq_some {α β : Type} {f : α → Option β} : ∀ {xs : List α} {ys : List β},
    xs.mapM f = some ys → ∀ {x : α}, x ∈ xs → ∃ y, f x = some y ∧ y ∈ ys
  | [], _, _, _, hx => absurd hx List.not_mem_nil
  | a :: xs, ys, h, x, hx => by
    rw [List.mapM_cons] at h
    cases ha : f a with
    | none => rw [ha] at h; simp at h
    | some b =>
      cases hr : xs.mapM f with
      | none => rw [hr] at h; simp at h
      | some bs =>
        obtain rfl : b :: bs = ys := by simpa [ha, hr] using h
        rcases List.mem_cons.1 hx with rfl | hx
        · exact ⟨b, ha, List.mem_cons_self⟩
        · obtain ⟨y, hy, hmem⟩ := exists_of_mapM_eq_some hr hx
          exact ⟨y, hy, List.mem_cons_of_mem _ hmem⟩

theorem verifySyncAggregate_eq_ok {config : BeaconConfig} {a : SyncAggregate}
    {header : BeaconBlockHeader} {c : SyncCommittee} :
    verifySyncAggregate keccak blsVerify header a c config = .ok () ↔
      ∃ pubkeys, c.participantPubkeys a.syncCommitteeBits = some pubkeys ∧ pubkeys ≠ [] ∧
        blsVerify pubkeys (computeSyncCommitteeSigningRoot keccak header config).asSlice
          a.syncCommitteeSignature = .ok () := by
  unfold verifySyncAggregate
  cases hp : c.participantPubkeys a.syncCommitteeBits with
  | none => simp
  | some pubkeys =>
    dsimp only
    by_cases hne : pubkeys = []
    · simp [hne]
    · rw [if_neg hne]
      cases hb : blsVerify pubkeys (computeSyncCommitteeSigningRoot keccak header config).asSlice
          a.syncCommitteeSignature with
      | error e => simp [hb]
      | ok _ => simp [hb, hne]

theorem applyLightClientUpdate_ok
    (h : s.applyLightClientUpdate keccak blsVerify u = .ok (result, s')) :
    (∃ config pubkeys, s.beaconConfig = some config ∧
      (s.committeeFor u).participantPubkeys u.syncAggregate.syncCommitteeBits = some pubkeys ∧
      blsVerify pubkeys (computeSyncCommitteeSigningRoot keccak u.attestedHeader config).asSlice
        u.syncAggregate.syncCommitteeSignature = .ok ()) ∧
    MIN_SYNC_PARTICIPATION ≤ u.syncAggregate.participantCount ∧ s'.beaconConfig = s.beaconConfig ∧
    (s'.syncCommittee = s.syncCommittee ∨ s'.syncCommittee = some u.nextSyncCommittee) := by
  unfold applyLightClientUpdate at h
  cases hc : s.beaconConfig with
  | none => rw [hc] at h; simp at h
  | some config =>
    rw [hc] at h
    simp only at h
    cases hv : verifySyncAggregate keccak blsVerify u.attestedHeader u.syncAggregate
        (s.committeeFor u) config with
    | error e => rw [hv] at h; simp at h
    | ok _ =>
      rw [hv] at h
      split_ifs at h with hpart hper
      · -- the period advanced
        obtain ⟨-, rfl⟩ : _ ∧ _ = s' := by simpa using h
        obtain ⟨pubkeys, hpk, -, hbls⟩ := verifySyncAggregate_eq_ok.1 hv
        exact ⟨⟨config, pubkeys, rfl, hpk, hbls⟩, not_lt.1 hpart, rfl, Or.inr rfl⟩
      · obtain ⟨-, rfl⟩ : _ ∧ s = s' := by simpa using h
        obtain ⟨pubkeys, hpk, -, hbls⟩ := verifySyncAggregate_eq_ok.1 hv
        exact ⟨⟨config, pubkeys, rfl, hpk, hbls⟩, not_lt.1 hpart, hc, Or.inl rfl⟩

/-- A run of updates: the client, and the committees it has come to trust. -/
structure SyncRun where
  client : EthLightClient
  trusted : List SyncCommittee

def SyncRun.start (genesis : GenesisState) (config : Option BeaconConfig)
    (boot : Option (ℕ × SyncCommittee)) : SyncRun :=
  match boot with
  | none => ⟨.initWithBeaconConfig genesis config, []⟩
  | some (period, committee) =>
    match (initWithBeaconConfig genesis config).bootstrapSyncCommittee period
        committee with
    | .ok client => ⟨client, [committee]⟩
    | .error _ => ⟨.initWithBeaconConfig genesis config, []⟩

variable (keccak blsVerify) in
def syncStep (r : SyncRun) (u : LightClientUpdate) : SyncRun :=
  match r.client.applyLightClientUpdate keccak blsVerify u with
  | .ok (_, client) => ⟨client, u.nextSyncCommittee :: r.trusted⟩
  | .error _ => r

variable (keccak) in
/-- Enough members of a trusted committee have signed the attested header. -/
def Authorised (Signed : BitVec 384 → Bytes → Prop) (config : BeaconConfig)
    (trusted : List SyncCommittee) (u : LightClientUpdate) : Prop :=
  ∃ c ∈ trusted, ∃ members : List ℕ, members.Nodup ∧ MIN_SYNC_PARTICIPATION ≤ members.length ∧
    ∀ i ∈ members, ∃ pk, c.pubkeys[i]? = some pk ∧
      Signed pk (computeSyncCommitteeSigningRoot keccak u.attestedHeader config).asSlice

/-- The condition on an update: its period is the stored one and a committee is
stored, or the committee it carries is trusted already. -/
def Anchored (r : SyncRun) (u : LightClientUpdate) : Prop :=
  (r.client.syncCommittee.isSome = true ∧ u.period = r.client.currentSyncPeriod) ∨
    u.nextSyncCommittee ∈ r.trusted

structure SyncInv (config : Option BeaconConfig) (r : SyncRun) : Prop where
  config : r.client.beaconConfig = config
  stored : ∀ c, r.client.syncCommittee = some c → c ∈ r.trusted

theorem SyncInv.start (genesis : GenesisState) (config : Option BeaconConfig)
    (boot : Option (ℕ × SyncCommittee)) : SyncInv config (.start genesis config boot) := by
  cases boot with
  | none => exact ⟨rfl, fun c hc => absurd hc (by simp [SyncRun.start, initWithBeaconConfig])⟩
  | some b =>
    refine ⟨rfl, fun c hc => ?_⟩
    obtain rfl : b.2 = c := by simpa [SyncRun.start, bootstrapSyncCommittee,
      initWithBeaconConfig] using hc
    exact List.mem_singleton.2 rfl

variable {config : Option BeaconConfig}

theorem SyncInv.step {r : SyncRun} (hI : SyncInv config r)
    (u : LightClientUpdate) : SyncInv config (syncStep keccak blsVerify r u) := by
  unfold syncStep
  cases hr : r.client.applyLightClientUpdate keccak blsVerify u with
  | error => exact hI
  | ok =>
    obtain ⟨-, -, hconf, hcomm⟩ := applyLightClientUpdate_ok hr
    refine ⟨hconf.trans hI.config, fun c hc => ?_⟩
    rcases hcomm with hold | hnew
    · exact List.mem_cons_of_mem _ (hI.stored c (hold.symm.trans hc))
    · obtain rfl : u.nextSyncCommittee = c := by simpa using hnew.symm.trans hc
      exact List.mem_cons_self

theorem SyncInv.committeeFor_mem {r : SyncRun}
    (hI : SyncInv config r) (ha : Anchored r u) : r.client.committeeFor u ∈ r.trusted := by
  unfold committeeFor
  cases hc : r.client.syncCommittee with
  | none =>
    rcases ha with ⟨hsome, -⟩ | hmem
    · rw [hc] at hsome
      simp at hsome
    · exact hmem
  | some c =>
    split_ifs with hp
    · exact hI.stored c hc
    · rcases ha with ⟨-, hp'⟩ | hmem
      · exact absurd hp' hp
      · exact hmem

/-- **Committees hand over.** Updates are authorised by trusted committees along every run whose
updates are all anchored. -/
theorem updates_authorised {Signed : BitVec 384 → Bytes → Prop}
    (hideal : ∀ pubkeys msg sig, blsVerify pubkeys msg sig = .ok () → ∀ pk ∈ pubkeys, Signed pk msg)
    (genesis : GenesisState) (config : Option BeaconConfig) (boot : Option (ℕ × SyncCommittee))
    (us : List LightClientUpdate) (u : LightClientUpdate)
    (h : Along (syncStep keccak blsVerify) Anchored (.start genesis config boot) (us ++ [u]))
    (hok : (run (syncStep keccak blsVerify) (.start genesis config boot)
      us).client.applyLightClientUpdate keccak blsVerify u = .ok (result, s')) :
    ∃ cfg, config = some cfg ∧ Authorised keccak Signed cfg
      (run (syncStep keccak blsVerify) (.start genesis config boot) us).trusted u := by
  obtain ⟨hus, hu, -⟩ := along_append.1 h
  have hI : SyncInv config (run (syncStep keccak blsVerify) (.start genesis config boot) us) :=
    invariant (fun r u hI _ => hI.step u) hus (SyncInv.start genesis config boot)
  generalize run (syncStep keccak blsVerify) (.start genesis config boot) us = r at *
  obtain ⟨⟨cfg, pubkeys, hcfg, hpk, hbls⟩, hmin, -, -⟩ := applyLightClientUpdate_ok hok
  refine ⟨cfg, hI.config.symm.trans hcfg, _, hI.committeeFor_mem hu,
    participants u.syncAggregate.syncCommitteeBits, participants_nodup _,
    by rw [participants_length]; exact hmin, fun i hi => ?_⟩
  obtain ⟨pk, hget, hmem⟩ := exists_of_mapM_eq_some hpk hi
  exact ⟨pk, hget, hideal _ _ _ hbls pk hmem⟩

end

def plainBls (pubkeys : List (BitVec 384)) (_ : Bytes) (_ : BitVec 768) : Except String Unit :=
  if pubkeys.all (· = 7) then .ok () else .error "verification failed"

theorem plainBls_ideal : ∀ pubkeys msg sig, plainBls pubkeys msg sig = .ok () →
    ∀ pk ∈ pubkeys, pk = 7 := by
  intro pubkeys msg sig h pk hpk
  unfold plainBls at h
  split_ifs at h with hall
  exact of_decide_eq_true (List.all_eq_true.1 hall pk hpk)

def uniformCommittee (pk : BitVec 384) : SyncCommittee := ⟨List.replicate 512 pk, pk⟩

def sampleUpdate (slot : U64) : LightClientUpdate where
  attestedHeader := ⟨slot, 0, 0, 0, 0⟩
  nextSyncCommittee := uniformCommittee 7
  finalizedHeader := ⟨slot, 0, 0, 0, 0⟩
  syncAggregate := ⟨List.replicate 64 0xFF, 0, by decide⟩
  signatureSlot := slot

def sampleRun (pk : BitVec 384) : SyncRun :=
  .start ⟨0, 0, 0⟩ (some ⟨0, 0⟩) (some (0, uniformCommittee pk))

theorem uniformCommittee_pubkeys (pk : BitVec 384) (bits : Bytes) :
    (uniformCommittee pk).participantPubkeys bits =
      some (List.replicate (participants bits).length pk) := by
  have h : ∀ xs : List ℕ, (∀ i ∈ xs, i < 512) →
      xs.mapM (fun i => (uniformCommittee pk).pubkeys[i]?) =
        some (List.replicate xs.length pk) := by
    intro xs
    induction xs with
    | nil => intro _; rfl
    | cons i xs ih =>
      intro hxs
      have hi : (uniformCommittee pk).pubkeys[i]? = some pk :=
        List.getElem?_replicate_of_lt (hxs i List.mem_cons_self)
      have hrest := ih fun j hj => hxs j (List.mem_cons_of_mem _ hj)
      rw [List.mapM_cons, hi, hrest]
      rfl
  apply h
  intro i hi
  exact List.mem_range.1 (List.mem_filter.1 hi).1

theorem sampleUpdate_accepted {keccak : Bytes → B256} {s : EthLightClient} {config : BeaconConfig}
    {slot : U64} (hc : s.beaconConfig = some config)
    (hcomm : s.committeeFor (sampleUpdate slot) = uniformCommittee 7) :
    ∃ p, s.applyLightClientUpdate keccak plainBls (sampleUpdate slot) = .ok p := by
  have hcou : (sampleUpdate slot).syncAggregate.participantCount = 512 := by
    show ((List.replicate 64 0xFF).map countOnes).sum = 512
    decide
  have hlen := participants_length (sampleUpdate slot).syncAggregate
  have hne : List.replicate (participants (sampleUpdate slot).syncAggregate.syncCommitteeBits).length
      (7 : BitVec 384) ≠ [] := by
    rw [hlen, hcou]
    exact fun h => absurd (congrArg List.length h) (by rw [List.length_replicate]; decide)
  have hbls : ∀ n msg sig, plainBls (List.replicate n 7) msg sig = .ok () := by
    intro n msg sig
    unfold plainBls
    rw [if_pos]
    rw [List.all_eq_true]
    intro pk hpk
    exact decide_eq_true (List.eq_of_mem_replicate hpk)
  have hver : verifySyncAggregate keccak plainBls (sampleUpdate slot).attestedHeader
      (sampleUpdate slot).syncAggregate (uniformCommittee 7) config = .ok () := by
    exact verifySyncAggregate_eq_ok.2 ⟨_, uniformCommittee_pubkeys 7 _, hne, hbls _ _ _⟩
  simp only [applyLightClientUpdate, hc, hcomm, hver]
  exact ⟨_, rfl⟩

theorem updates_authorised_in_period :
    let r := run (syncStep (fun _ => 0) plainBls)
      (.start ⟨0, 0, 0⟩ (some ⟨0, 0⟩) (some (0, uniformCommittee 7))) [sampleUpdate 1]
    r.trusted = [uniformCommittee 7, uniformCommittee 7] ∧
      Authorised (fun _ => 0) (fun pk _ => pk = 7) ⟨0, 0⟩ r.trusted (sampleUpdate 2) := by
  intro r
  have hacc : ∃ p, (sampleRun 7).client.applyLightClientUpdate (fun _ => 0) plainBls
      (sampleUpdate 1) = .ok p := sampleUpdate_accepted rfl rfl
  obtain ⟨⟨result, s'⟩, hone⟩ := hacc
  have hr : r = syncStep (fun _ => 0) plainBls (sampleRun 7) (sampleUpdate 1) :=
    (run_cons ..).trans (run_nil ..)
  have htru : r.trusted = [uniformCommittee 7, uniformCommittee 7] := by
    have hnext : (sampleUpdate 1).nextSyncCommittee = uniformCommittee 7 := rfl
    have hboot : (sampleRun 7).trusted = [uniformCommittee 7] := rfl
    rw [hr, syncStep, hone]
    exact congrArg₂ List.cons hnext hboot
  have hfirst : Anchored (sampleRun 7) (sampleUpdate 1) := .inl ⟨rfl, by decide⟩
  have hsecond : Anchored r (sampleUpdate 2) := by
    refine .inr ?_
    rw [htru]
    exact List.mem_cons.2 (.inl rfl)
  have hI : SyncInv (some ⟨0, 0⟩) r := by
    rw [hr]
    exact (SyncInv.start ⟨0, 0, 0⟩ _ _).step (sampleUpdate 1)
  have hcomm : r.client.committeeFor (sampleUpdate 2) = uniformCommittee 7 := by
    have hmem := hI.committeeFor_mem hsecond
    rw [htru] at hmem
    exact (List.mem_cons.1 hmem).elim id List.mem_singleton.1
  have halong : Along (syncStep (fun _ => 0) plainBls) Anchored
      (.start ⟨0, 0, 0⟩ (some ⟨0, 0⟩) (some (0, uniformCommittee 7)))
      ([sampleUpdate 1] ++ [sampleUpdate 2]) := ⟨hfirst, hr ▸ hsecond, trivial⟩
  have hacc' : ∃ p, r.client.applyLightClientUpdate (fun _ => 0) plainBls (sampleUpdate 2) = .ok p :=
    sampleUpdate_accepted hI.config hcomm
  obtain ⟨⟨result', s''⟩, hok⟩ := hacc'
  obtain ⟨cfg, hcfg, hauth⟩ := updates_authorised plainBls_ideal _ _ _ _ _ halong hok
  obtain rfl : (⟨0, 0⟩ : BeaconConfig) = cfg := by simpa using hcfg
  exact ⟨htru, hauth⟩

/-- A client bootstrapped with the committee of the key 1 accepts an update of
another period on the signatures of the update's own committee. -/
theorem update_authorises_itself :
    (∃ p, (sampleRun 1).client.applyLightClientUpdate (fun _ => 0) plainBls
      (sampleUpdate 100000) = .ok p) ∧
    ¬ Authorised (fun _ => 0) (fun pk _ => pk = 7) ⟨0, 0⟩ (sampleRun 1).trusted
      (sampleUpdate 100000) := by
  refine ⟨sampleUpdate_accepted rfl rfl, ?_⟩
  rintro ⟨c, hc, members, -, hlen, hsig⟩
  obtain rfl : c = uniformCommittee 1 := List.mem_singleton.1 hc
  obtain ⟨i, hi⟩ : ∃ i, i ∈ members := by
    cases members with
    | nil => exact absurd hlen (by decide)
    | cons i => exact ⟨i, List.mem_cons_self⟩
  obtain ⟨pk, hget, hpk⟩ := hsig i hi
  have h1 : pk = 1 := List.eq_of_mem_replicate (List.mem_of_getElem? hget)
  rw [h1] at hpk
  have hbit : (BitVec.ofNat 384 1).getLsbD 1 = (BitVec.ofNat 384 7).getLsbD 1 :=
    congrArg (·.getLsbD 1) hpk
  exact absurd hbit (by decide)

end Callchain.LightClient

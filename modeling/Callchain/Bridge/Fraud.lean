/-
# What a fraud proof shows

A proof is stored in chunks of 32 bytes and loaded again when the challenge is resolved
(`loadProof_storeProof`), so what is verified is what was supplied. That is little: the
header of a proof is the challenger's own, only its hash is compared with its bytes, and
a proof of non-existence without a node counts as one.
-/
import Callchain.Bridge.Calls
import Callchain.Lib.Run

namespace Callchain.Bridge
namespace Precompile

open BitVec (ofNat toNat_ofNat)

open LightClient Asset Validator Run

/-! ### Proofs survive storage -/

theorem foldl_range_update (word : ℕ → U256) (slots : U64 → U256) : ∀ n ≤ 2 ^ 64, ∀ i < n,
    (List.range n).foldl (fun slots i => Function.update slots (ofNat 64 i) (word i)) slots
      (ofNat 64 i) = word i := by
  intro n
  induction n with
  | zero =>
    intro _ i hi
    omega
  | succ n ih =>
    intro hn i hi
    rw [List.range_succ, List.foldl_append, List.foldl_cons, List.foldl_nil]
    by_cases hin : i = n
    · subst hin
      exact Function.update_self ..
    · have hne : ofNat 64 i ≠ ofNat 64 n := by
        intro h
        have hnat := congrArg BitVec.toNat h
        rw [toNat_ofNat, toNat_ofNat, Nat.mod_eq_of_lt (by omega),
          Nat.mod_eq_of_lt (by omega)] at hnat
        exact hin hnat
      rw [Function.update_of_ne hne]
      exact ih (by omega) i (by omega)

theorem take_chunkWord {bytes : Bytes} (h : bytes.length ≤ 32) :
    (B256.asSlice (chunkWord bytes)).take bytes.length = bytes := by
  have hlen : (bytes ++ List.replicate (32 - bytes.length) 0).length = 32 := by
    rw [List.length_append, List.length_replicate]
    omega
  rw [chunkWord, B256.asSlice_fromSlice hlen, List.take_left]

theorem loadProof_storeProof (slots : U64 → U256) {proof : Bytes} (hsma : proof.length < 2 ^ 64) :
    loadProof (storeProof slots proof) proof.length = proof := by
  have hn : numChunks proof.length ≤ 2 ^ 64 := by
    unfold numChunks
    omega
  -- after `k` chunks, the first `32 k` bytes
  have hload : ∀ k ≤ numChunks proof.length, (List.range k).foldl
      (fun bytes i => bytes ++ (B256.asSlice (storeProof slots proof (ofNat 64 i))).take
        (min 32 (proof.length - bytes.length))) [] = proof.take (32 * k) := by
    intro k
    induction k with
    | zero =>
      intro _
      rfl
    | succ k ih =>
      intro hk
      have hlt : 32 * k < proof.length := by
        unfold numChunks at hk
        omega
      have htak : (proof.take (32 * k)).length = 32 * k := List.length_take_of_le hlt.le
      have hword : storeProof slots proof (ofNat 64 k) = chunkWord (chunk proof k) :=
        foldl_range_update _ _ _ hn k (by omega)
      have hchu : (chunk proof k).length = min 32 (proof.length - 32 * k) := by
        rw [chunk, List.length_take, List.length_drop]
      rw [List.range_succ, List.foldl_append, List.foldl_cons, List.foldl_nil, ih (by omega),
        htak, hword, ← hchu, take_chunkWord (by omega), Nat.mul_succ, List.take_add, chunk]
  unfold loadProof
  rw [hload _ le_rfl, List.take_of_length_le]
  unfold numChunks
  omega

/-! ### Starting a challenge -/

/-- What `initiate_challenge` requires of the deposit, the block and the challenger. -/
structure CanChallenge (s : Store) (sourceTxHash : B256) (challenger : Address)
    (currentBlock : U64) : Prop where
  recorded : (s.bridge.deposit sourceTxHash).blockHeight ≠ 0
  unchallenged : (s.bridge.challenge sourceTxHash).status = .none
  windowFits : (s.bridge.deposit sourceTxHash).blockHeight.toNat +
    s.bridge.readChallengePeriod.toNat < 2 ^ 64
  inWindow : currentBlock.toNat < (s.bridge.deposit sourceTxHash).blockHeight.toNat +
    s.bridge.readChallengePeriod.toNat
  deadlineFits : currentBlock.toNat + s.bridge.readChallengePeriod.toNat < 2 ^ 64
  bonded : s.bridge.readGlobalChallengeBond.toNat ≤ (s.assets.balance callAssetId challenger).toNat
  balanceFits : (s.assets.balance callAssetId challenger).toNat < 2 ^ 128

/-- The lengths of proofs that `initiate_challenge` takes. -/
def Admissible (proof : Bytes) : Prop := 32 ≤ proof.length ∧ proof.length ≤ maxProofLen

variable {B : Build} {s t : Store} {src : B256} {proof : Bytes} {challenger : Address}
  {currentBlock : U64}

variable {b : BridgeStorage}

theorem checkChallenge_eq_ok : checkChallenge b src proof currentBlock = .ok () ↔
      (b.deposit src).blockHeight ≠ 0 ∧ (b.challenge src).status = .none ∧
      (b.deposit src).blockHeight.toNat + b.readChallengePeriod.toNat < 2 ^ 64 ∧
      currentBlock.toNat < (b.deposit src).blockHeight.toNat + b.readChallengePeriod.toNat ∧
      Admissible proof := by
  simp only [checkChallenge, Admissible, ite_error_eq_ok, ne_eq, not_not, not_le, not_or, not_lt,
    and_true]

def challengedStore (B : Build) (s : Store) (sourceTxHash : B256) (proof : Bytes)
    (challenger : Address) (currentBlock : U64) : Store :=
  let bond := s.bridge.readGlobalChallengeBond
  { s with
    assets := s.assets.writeBalance callAssetId challenger
      ((s.assets.balance callAssetId challenger).setWidth 128 - bond)
    bridge := { s.bridge with
      challenge := Function.update s.bridge.challenge sourceTxHash
        ((s.bridge.challenge sourceTxHash).opened B.keccak challenger
          (currentBlock + s.bridge.readChallengePeriod) bond proof) } }

/-- Starting a challenge succeeds exactly when the challenger may and the proof is of an
admissible length, whatever it says. -/
theorem initiateChallenge_eq_ok :
    initiateChallenge B s src proof challenger currentBlock = (t, .ok ()) ↔
      CanChallenge s src challenger currentBlock ∧ Admissible proof ∧
        t = challengedStore B s src proof challenger currentBlock := by
  constructor
  · intro h
    have heff := initiateChallenge_effect (B := B) (s := s) src proof challenger
      currentBlock
    rw [h] at heff
    cases heff with
    | challenged hche hbond hdea =>
      obtain ⟨h1, h2, h3, h4, hadm⟩ := checkChallenge_eq_ok.1 hche
      obtain ⟨hcov, hfits, rfl⟩ := AssetStorage.deductBalance_eq_ok.1 hbond
      exact ⟨⟨h1, h2, h3, h4, hdea, hcov, hfits⟩, hadm, rfl⟩
  · rintro ⟨hcan, hadm, rfl⟩
    have hche := checkChallenge_eq_ok.2
      ⟨hcan.recorded, hcan.unchallenged, hcan.windowFits, hcan.inWindow, hadm⟩
    have hbond := AssetStorage.deductBalance_eq_ok.2 ⟨hcan.bonded, hcan.balanceFits, rfl⟩
    have hfits := hcan.deadlineFits
    unfold initiateChallenge
    rw [hche]
    dsimp only
    rw [hbond]
    dsimp only
    rw [if_neg (by omega)]
    rfl

/-! ### What is verified -/

theorem verifyFraudProof_opened {c : ChallengeSlots} {deadline : U64}
    {bond : U128} (hc : b.challenge src = c.opened B.keccak challenger deadline bond proof)
    (hadm : Admissible proof) (hfea : B.lightClientBridge = true) (hhash : B.keccak proof ≠ 0) :
    verifyFraudProof B b src = verifyFraudProofCryptographic B (b.deposit src) src proof := by
  obtain ⟨hge, hle⟩ := hadm
  have hsma : proof.length < 2 ^ 64 := lt_of_le_of_lt hle (by decide)
  have hlen : (b.challenge src).proofLen.toNat = proof.length := by
    rw [hc]
    exact (toNat_ofNat ..).trans (Nat.mod_eq_of_lt hsma)
  have hload : loadProof (b.challenge src).proofChunk proof.length = proof := by
    rw [hc]
    exact loadProof_storeProof c.proofChunk hsma
  have hhash' : (b.challenge src).proofHash = B.keccak proof := by
    rw [hc]
    rfl
  unfold verifyFraudProof
  dsimp only
  rw [hlen, hload, hhash', if_neg (not_not.2 hfea), if_neg hhash, if_neg (by omega),
    if_neg (not_not.2 rfl)]

/-- `resolve_challenge` takes its fraud branch: the checks pass and the stored
proof is found good. -/
def TakesFraudBranch (B : Build) (s : Store) (sourceTxHash : B256) (currentBlock : U64)
    (resolver : Address) : Prop :=
  checkResolve s.bridge sourceTxHash currentBlock resolver = .ok () ∧
    verifyFraudProof B s.bridge sourceTxHash = some true

theorem resolveChallenge_of_fraud {resolver : Address}
    (h : TakesFraudBranch B s src currentBlock resolver) :
    resolveChallenge B s src currentBlock resolver = resolveFraud s src := by
  rw [resolveChallenge, h.1]
  rw [h.2]

theorem checkResolve_eq_ok {resolver : Address} :
    checkResolve b src currentBlock resolver = .ok () ↔ (b.challenge src).status = .pending ∧
      (b.challenge src).deadline.toNat ≤ currentBlock.toNat ∧
      (resolver = (b.challenge src).challenger ∨
        resolver = (b.challenge src).originalValidator) := by
  simp only [checkResolve, ite_error_eq_ok, ne_eq, not_not, BitVec.not_lt, BitVec.le_def,
    not_and_or, and_true]

theorem checkResolve_opened {c : ChallengeSlots} {deadline : U64} {bond : U128}
    (hc : b.challenge src = c.opened B.keccak challenger deadline bond proof)
    (hdea : deadline.toNat ≤ currentBlock.toNat) :
    checkResolve b src currentBlock challenger = .ok () := by
  rw [checkResolve_eq_ok, hc]
  exact ⟨rfl, hdea, Or.inl rfl⟩

/-- A challenge of this deposit is never resolved as fraud, whoever resolves it and when. -/
def NeverUpheld (B : Build) (s : Store) (sourceTxHash : B256) : Prop :=
  ∀ proof challenger currentBlock t,
    initiateChallenge B s sourceTxHash proof challenger currentBlock = (t, .ok ()) →
      ∀ later resolver, ¬ TakesFraudBranch B t sourceTxHash later resolver

def Challengeable (s : Store) (sourceTxHash : B256) : Prop :=
  ∃ challenger currentBlock, CanChallenge s sourceTxHash challenger currentBlock

/-- A list of five empty hashes. -/
def ownHeader : Bytes := 0xF8 :: 165 :: (List.replicate 5 (0xA0 :: List.replicate 32 0)).flatten

/-- What postcard writes for a proof of non-existence with a header of the challenger's own
and no node. -/
def forged (keccak : Bytes → B256) : Bytes :=
  0xA7 :: 0x01 :: (ownHeader ++ 0x20 :: ((keccak ownHeader).asSlice ++ [0, 0]))

theorem ownHeader_length : ownHeader.length = 167 := by decide +kernel

theorem ownHeader_root (hash : B256) : EthHeader.transactionsRoot ⟨ownHeader, hash⟩ = .ok 0 := by
  show EthHeader.transactionsRoot ⟨ownHeader, 0⟩ = .ok 0
  decide +kernel

theorem fromBytes_forged (keccak : Bytes → B256) : FraudProof.fromBytes (forged keccak) =
    some ⟨⟨ownHeader, keccak ownHeader⟩, .txNonExistence, []⟩ := by
  have hhea : Varint.readBytes (forged keccak) =
      some (ownHeader, 0x20 :: ((keccak ownHeader).asSlice ++ [0, 0])) :=
    Varint.readBytes_append _ _ (by rw [ownHeader_length]; rfl)
  have hhash : Varint.readBytes (0x20 :: ((keccak ownHeader).asSlice ++ [0, 0])) =
      some ((keccak ownHeader).asSlice, [0, 0]) :=
    Varint.readBytes_append _ _ (by rw [B256.asSlice_length]; rfl)
  simp [FraudProof.fromBytes, hhea, hhash, Varint.readVarint, Varint.readMany, Varint.low]

theorem forged_admissible (keccak : Bytes → B256) : Admissible (forged keccak) := by
  have hlen : (forged keccak).length = 204 := by
    simp [forged, ownHeader_length]
  constructor
  · rw [hlen]
    decide
  · rw [hlen]
    decide

theorem verifyFraudProofCryptographic_forged {rlpBytes : Bytes} {root : B256} (d : DepositSlots)
    (hdec : B.fromBytes proof = some ⟨⟨rlpBytes, B.keccak rlpBytes⟩, .txNonExistence, []⟩)
    (hroot : EthHeader.transactionsRoot ⟨rlpBytes, B.keccak rlpBytes⟩ = .ok root) :
    verifyFraudProofCryptographic B d src proof = some true := by
  unfold verifyFraudProofCryptographic
  rw [hdec]
  dsimp only
  rw [if_neg (not_not.2 rfl), hroot]
  rfl

theorem neverUpheld_iff (hfea : B.lightClientBridge = true)
    (hdec : B.fromBytes = FraudProof.fromBytes) (hhash : B.keccak (forged B.keccak) ≠ 0) :
    NeverUpheld B s src ↔ ¬ Challengeable s src := by
  constructor
  · rintro hnev ⟨challenger, currentBlock, hcan⟩
    have hadm := forged_admissible B.keccak
    have hopen : (challengedStore B s src (forged B.keccak) challenger
        currentBlock).bridge.challenge src = _ := Function.update_self ..
    refine hnev (forged B.keccak) challenger currentBlock _
      (initiateChallenge_eq_ok.2 ⟨hcan, hadm, rfl⟩)
      (currentBlock + s.bridge.readChallengePeriod) challenger ⟨?_, ?_⟩
    · exact checkResolve_opened hopen le_rfl
    · rw [verifyFraudProof_opened hopen hadm hfea hhash]
      exact verifyFraudProofCryptographic_forged _ (hdec ▸ fromBytes_forged _) (ownHeader_root _)
  · intro hno proof challenger currentBlock t hinit
    exact absurd ⟨challenger, currentBlock, (initiateChallenge_eq_ok.1 hinit).1⟩ hno

/-! ### Genuine deposits -/

/-- The deposit was made by `external_deposit` before `s`, and agrees with the bridge
event of its source transaction; `included` says with which logs a transaction is in the
source chain. -/
def GenuineDeposit (B : Build) (included : B256 → List ReceiptLog → Prop) (s : Store)
    (sourceTxHash : B256) : Prop :=
  ∃ (before after : Store) (sourceChain : U64) (sourceContract : Address) (assetId : U64)
    (recipient : Address) (amount net : U128) (validator : Address) (blockHeight : U64)
    (reverting : Bool) (calls : List BridgeCall),
    externalDeposit before sourceChain sourceContract sourceTxHash assetId recipient amount
      validator blockHeight = (after, .ok net) ∧
    run (step B reverting) after calls = s ∧
    ∃ logs event, included sourceTxHash logs ∧ parseBridgeEventFromLogs logs = .ok (some event) ∧
      event.assetId = assetId ∧ event.recipient = recipient ∧ event.amount = amount

/-- Stands for the hash: the last 32 bytes, plus one. -/
def lastWord (bytes : Bytes) : B256 := B256.fromSlice bytes + 1

def forgingBuild : Build where
  lightClientBridge := true
  keccak := lastWord
  headerDecode := fun _ => true
  fromBytes := FraudProof.fromBytes

def forgedProof : Bytes := forged lastWord

def genuineStore : Store where
  bridge := { config := { authorizedContract := fun _ _ => 1 } }
  assets :=
    { issuer := fun _ => 1
      balance := fun _ addr => if addr = 6 then 1000 else if addr = stakingEscrow then 500 else 0 }
  validators :=
    { validatorByAddr := fun addr => if addr = 9 then 1 else 0
      stake := fun addr => if addr = 9 then 500 else 0
      status := fun addr => if addr = 9 then 1 else 0 }

def genuineLog : ReceiptLog where
  address := []
  topics := [Receipt.bridgeDepositEventSig, 7, 5]
  data := [0xC5, 0x01, 0x01, 0x80, 0x01, 0x64]

def genuineChain (sourceTxHash : B256) (logs : List ReceiptLog) : Prop :=
  sourceTxHash = 7 ∧ logs = [genuineLog]

def genuineDeposited : Store := (externalDeposit genuineStore 1 2 7 1 5 100 9 1).1

theorem genuineDeposited_genuine : GenuineDeposit forgingBuild genuineChain genuineDeposited 7 := by
  have hdep : (externalDeposit genuineStore 1 2 7 1 5 100 9 1).2 = .ok 100 := by decide
  refine ⟨genuineStore, genuineDeposited, 1, 2, 1, 5, 100, 100, 9, 1, true, [], ?_, rfl,
    [genuineLog], ⟨1, 7, 1, [], 5, 1, 100⟩, ⟨rfl, rfl⟩, by decide +kernel, rfl, rfl, rfl⟩
  exact Prod.ext rfl hdep

theorem genuineDeposited_challengeable : Challengeable genuineDeposited 7 :=
  ⟨6, 2, by decide, by decide, by decide, by decide, by decide, by decide, by decide⟩

end Precompile
end Callchain.Bridge

/-
# The bridge precompile

`BridgeStorage` credits deposits that happened on another chain, debits withdrawals, and
lets anyone challenge a deposit for a bond. A challenge is stored, proof and all; after
its deadline the challenger or the validator that made the deposit may resolve it. If
the proof shows fraud the validator is slashed and the deposit taken back from its
recipient; otherwise the bond goes to the validator.

The storage has a field for each family of slots, and different keys are taken to have
different slots. A call that fails part way has made its earlier writes. The precompile
takes them back; the storage by itself does not, and `step` does either.
-/
import Callchain.Lib.Varint
import Callchain.LightClient.Receipt
import Callchain.Validator.Storage

namespace Callchain.Bridge
namespace Precompile

open LightClient Asset Validator
open Function (update)

/-- `BridgeError` of the precompile. The last constructor is not of the source:
it stands for a call that panics or never ends. -/
inductive BridgeError where
  | assetNotRegistered
  | bridgePaused
  | assetZeroNotBridgeable
  | alreadyProcessed
  | notProcessed
  | alreadyChallenged
  | challengePeriodExpired
  | challengeNotPending
  | challengeDeadlineNotReached
  | notChallenger
  | challengeNotSuccessful
  | insufficientBalance
  | balanceOverflow
  | invalidInput
  | exceedsMaxPerTx (assetId : U64) (amount limit : U128)
  | exceedsDailyLimit (assetId : U64) (used limit : U128)
  | externalAssetNotAllowed (assetId : U64)
  | unauthorizedBridgeContract (chainId : U64) (contract : Address)
  | exceedsWithdrawLimit (assetId : U64) (withdrawn limit : U128)
  | bridgeFeeExceedsAmount (fee amount : U128)
  | unauthorizedResolver (addr : Address)
  | noReturn
  deriving DecidableEq

def BridgeError.ofAsset : AssetError → BridgeError
  | .insufficientBalance => .insufficientBalance
  | .balanceOverflow => .balanceOverflow
  | _ => .invalidInput

inductive ChallengeStatus where
  | none
  | pending
  | successful
  | failed
  | withdrawn
  deriving DecidableEq

/-! ### Slots -/

def bridgeAddress : Address := 0x103

def maxProofLen : ℕ := 16 * 1024

structure ConfigSlots where
  paused : Bool := false
  challengePeriod : U64 := 0
  challengeBond : U128 := 0
  maxPerTx : U64 → U128 := fun _ => 0
  dailyLimit : U64 → U128 := fun _ => 0
  blocksPerDay : U64 := 0
  assetAllowed : U64 → U256 := fun _ => 0
  authorizedContract : U64 → Address → U256 := fun _ _ => 0
  maxWithdrawPerPeriod : U128 := 0
  withdrawPeriod : U64 := 0
  bridgeFee : U128 := 0
  processedRetention : U64 := 0

structure DepositSlots where
  assetId : U64 := 0
  recipient : Address := 0
  amount : U128 := 0
  blockHeight : U64 := 0
  deriving DecidableEq

/-- The challenge of a deposit; `originalValidator` is set by the deposit. -/
structure ChallengeSlots where
  status : ChallengeStatus := .none
  challenger : Address := 0
  deadline : U64 := 0
  bond : U128 := 0
  proofHash : B256 := 0
  proofLen : U64 := 0
  proofChunk : U64 → U256 := fun _ => 0
  originalValidator : Address := 0

structure BridgeStorage where
  config : ConfigSlots := {}
  totalDeposits : U128 := 0
  totalWithdrawals : U128 := 0
  processed : B256 → U64 := fun _ => 0
  deposit : B256 → DepositSlots := fun _ => {}
  challenge : B256 → ChallengeSlots := fun _ => {}
  dailyUsed : U64 → U64 → U128 := fun _ _ => 0
  periodWithdrawn : U64 → U128 := fun _ => 0
  currentPeriodStart : U64 := 0

namespace BridgeStorage

/-- `load_u64_or_default` and `load_u128_or_default` -/
def loadOrDefault {w : ℕ} (stored default : BitVec w) : BitVec w :=
  if stored = 0 then default else stored - 1

variable (s : BridgeStorage)

def readChallengePeriod : U64 := loadOrDefault s.config.challengePeriod 2419200

def readGlobalChallengeBond : U128 := loadOrDefault s.config.challengeBond 1000

def readMaxPerTx (assetId : U64) : U128 :=
  loadOrDefault (s.config.maxPerTx assetId) 1000000000000000000000

def readDailyLimit (assetId : U64) : U128 :=
  loadOrDefault (s.config.dailyLimit assetId) 10000000000000000000000

def readBlocksPerDay : U64 := loadOrDefault s.config.blocksPerDay 345600

def readMaxExternalWithdrawPerPeriod : U128 :=
  loadOrDefault s.config.maxWithdrawPerPeriod 5000000000000000000000

def readWithdrawPeriod : U64 := loadOrDefault s.config.withdrawPeriod 2419200

def readBridgeFee : U128 := loadOrDefault s.config.bridgeFee 0

def readProcessedRetentionBlocks : U64 := loadOrDefault s.config.processedRetention 4838400

/-- By default only CALL is. -/
def readAssetAllowed (assetId : U64) : Bool :=
  let stored := s.config.assetAllowed assetId
  if stored = 0 then assetId = callAssetId else stored.setWidth 8 ≠ 0

def readAuthorizedContract (chainId : U64) (contract : Address) : Bool :=
  let stored := s.config.authorizedContract chainId contract
  if stored = 0 then false else stored.setWidth 8 ≠ 0

/-- The mark is a height, and it lapses. -/
def isProcessed (txHash : B256) (currentBlock : U64) : Bool :=
  let processedAt := s.processed txHash
  if processedAt = 0 then false
  else currentBlock.toNat - processedAt.toNat ≤ s.readProcessedRetentionBlocks.toNat

/-- The day whose use the deposit counts towards. -/
def checkLimits (assetId : U64) (amount : U128) (blockHeight : U64) : Except BridgeError U64 :=
  if amount > s.readMaxPerTx assetId then
    .error (.exceedsMaxPerTx assetId amount (s.readMaxPerTx assetId))
  else if s.readBlocksPerDay = 0 then .error .invalidInput
  else
    let day := blockHeight / s.readBlocksPerDay
    let dailyUsed := s.dailyUsed assetId day
    if 2 ^ 128 ≤ dailyUsed.toNat + amount.toNat then .error .balanceOverflow
    else if dailyUsed + amount > s.readDailyLimit assetId then
      .error (.exceedsDailyLimit assetId dailyUsed (s.readDailyLimit assetId))
    else .ok day

def recordDailyUsed (assetId : U64) (amount : U128) (day : U64) : BridgeStorage :=
  { s with
    dailyUsed := update s.dailyUsed assetId (update (s.dailyUsed assetId) day
      (U128.saturatingAdd (s.dailyUsed assetId day) amount)) }

def validateBasic (assets : AssetStorage) (assetId : U64) : Except BridgeError Unit :=
  if assetId = 0 then .error .assetZeroNotBridgeable
  else if assets.issuer assetId = 0 then .error .assetNotRegistered
  else if s.config.paused then .error .bridgePaused
  else .ok ()

def addTotalDeposits (amount : U128) : Except BridgeError BridgeStorage :=
  if 2 ^ 128 ≤ s.totalDeposits.toNat + amount.toNat then .error .balanceOverflow
  else .ok { s with totalDeposits := s.totalDeposits + amount }

def addTotalWithdrawals (amount : U128) : Except BridgeError BridgeStorage :=
  if 2 ^ 128 ≤ s.totalWithdrawals.toNat + amount.toNat then .error .balanceOverflow
  else .ok { s with totalWithdrawals := s.totalWithdrawals + amount }

def subTotalDeposits (amount : U128) : Except BridgeError BridgeStorage :=
  if s.totalDeposits < amount then .error .balanceOverflow
  else .ok { s with totalDeposits := s.totalDeposits - amount }

end BridgeStorage

structure Store where
  bridge : BridgeStorage := {}
  assets : AssetStorage := {}
  validators : ValidatorStorage := {}

/-! ### Deposits and withdrawals -/

/-- The checks of `external_deposit`: the day of the deposit and the fee. -/
def checkDeposit (s : Store) (sourceChain : U64) (sourceContract : Address) (sourceTxHash : B256)
    (assetId : U64) (recipient : Address) (amount : U128) (blockHeight : U64) :
    Except BridgeError (U64 × U128) :=
  if amount = 0 then .error .invalidInput
  else if recipient = 0 then .error .invalidInput
  else if sourceTxHash = 0 then .error .invalidInput
  else if s.bridge.isProcessed sourceTxHash blockHeight then .error .alreadyProcessed
  else match s.bridge.validateBasic s.assets assetId with
  | .error e => .error e
  | .ok () =>
    if ¬ s.bridge.readAssetAllowed assetId then .error (.externalAssetNotAllowed assetId)
    else if ¬ s.bridge.readAuthorizedContract sourceChain sourceContract then
      .error (.unauthorizedBridgeContract sourceChain sourceContract)
    else match s.bridge.checkLimits assetId amount blockHeight with
    | .error e => .error e
    | .ok day =>
      if s.bridge.readBridgeFee ≥ amount then
        .error (.bridgeFeeExceedsAmount s.bridge.readBridgeFee amount)
      else .ok (day, s.bridge.readBridgeFee)

/-- The writes of `external_deposit` that say what was deposited, and by whom. -/
def BridgeStorage.recordDeposit (s : BridgeStorage) (sourceTxHash : B256) (assetId : U64)
    (recipient : Address) (netAmount : U128) (blockHeight : U64) (validator : Address) :
    BridgeStorage :=
  { s with
    processed := update s.processed sourceTxHash blockHeight
    deposit := update s.deposit sourceTxHash
      ⟨assetId, recipient, netAmount, blockHeight⟩
    challenge := update s.challenge sourceTxHash
      { s.challenge sourceTxHash with originalValidator := validator } }

def payFee (assets : AssetStorage) (assetId : U64) (fee : U128) : Except AssetError AssetStorage :=
  if fee > 0 then assets.addBalance assetId bridgeAddress fee else .ok assets

def externalDeposit (s : Store) (sourceChain : U64) (sourceContract : Address)
    (sourceTxHash : B256) (assetId : U64) (recipient : Address) (amount : U128)
    (validator : Address) (blockHeight : U64) : Store × Except BridgeError U128 :=
  match checkDeposit s sourceChain sourceContract sourceTxHash assetId recipient amount
    blockHeight with
  | .error e => (s, .error e)
  | .ok (day, fee) =>
    let netAmount := amount - fee
    match s.assets.addBalance assetId recipient netAmount with
    | .error e => (s, .error (.ofAsset e))
    | .ok assets =>
      match payFee assets assetId fee with
      | .error e => ({ s with assets := assets }, .error (.ofAsset e))
      | .ok assets =>
        match s.bridge.addTotalDeposits netAmount with
        | .error e => ({ s with assets := assets }, .error e)
        | .ok bridge =>
          ({ s with
            assets := assets
            bridge := (bridge.recordDailyUsed assetId amount day).recordDeposit sourceTxHash
              assetId recipient netAmount blockHeight validator }, .ok netAmount)

inductive WithdrawLimitCheck where
  | newPeriod
  | existingPeriod (newTotal : U128)

def BridgeStorage.checkWithdrawLimit (s : BridgeStorage) (assetId : U64) (amount : U128)
    (currentBlock : U64) : Except BridgeError WithdrawLimitCheck :=
  let maxPerPeriod := s.readMaxExternalWithdrawPerPeriod
  -- the end of the period saturates
  if min (s.currentPeriodStart.toNat + s.readWithdrawPeriod.toNat) (2 ^ 64 - 1) ≤
      currentBlock.toNat then
    if amount > maxPerPeriod then .error (.exceedsWithdrawLimit assetId 0 maxPerPeriod)
    else .ok .newPeriod
  else
    let periodWithdrawn := s.periodWithdrawn assetId
    if 2 ^ 128 ≤ periodWithdrawn.toNat + amount.toNat then .error .balanceOverflow
    else if periodWithdrawn + amount > maxPerPeriod then
      .error (.exceedsWithdrawLimit assetId periodWithdrawn maxPerPeriod)
    else .ok (.existingPeriod (periodWithdrawn + amount))

def BridgeStorage.recordWithdrawUsed (s : BridgeStorage) (assetId : U64) (amount : U128)
    (currentBlock : U64) : WithdrawLimitCheck → BridgeStorage
  | .newPeriod =>
    { s with
      currentPeriodStart := currentBlock
      periodWithdrawn := update s.periodWithdrawn assetId amount }
  | .existingPeriod newTotal =>
    { s with periodWithdrawn := update s.periodWithdrawn assetId newTotal }

/-- The checks of `external_withdraw`: how the amount counts towards the
limit, and the fee. -/
def checkWithdraw (s : Store) (assetId : U64) (amount : U128) (currentBlock : U64) :
    Except BridgeError (WithdrawLimitCheck × U128) :=
  if amount = 0 then .error .invalidInput
  else match s.bridge.validateBasic s.assets assetId with
  | .error e => .error e
  | .ok () =>
    match s.bridge.checkWithdrawLimit assetId amount currentBlock with
    | .error e => .error e
    | .ok limitCheck =>
      if s.bridge.readBridgeFee ≥ amount then
        .error (.bridgeFeeExceedsAmount s.bridge.readBridgeFee amount)
      else .ok (limitCheck, s.bridge.readBridgeFee)

def externalWithdraw (s : Store) (assetId : U64) (amount : U128) (caller : Address)
    (currentBlock : U64) : Store × Except BridgeError U128 :=
  match checkWithdraw s assetId amount currentBlock with
  | .error e => (s, .error e)
  | .ok (limitCheck, fee) =>
    let netAmount := amount - fee
    match s.assets.deductBalance assetId caller amount with
    | .error e => (s, .error (.ofAsset e))
    | .ok assets =>
      match payFee assets assetId fee with
      | .error e => ({ s with assets := assets }, .error (.ofAsset e))
      | .ok assets =>
        match s.bridge.addTotalWithdrawals netAmount with
        | .error e => ({ s with assets := assets }, .error e)
        | .ok bridge =>
          ({ s with
            assets := assets
            bridge := bridge.recordWithdrawUsed assetId amount currentBlock limitCheck },
            .ok netAmount)

/-! ### Proofs in storage -/

/-- Bytes `32 i` up to `32 (i + 1)` of a proof, the last chunk may be short. -/
def chunk (proof : Bytes) (i : ℕ) : Bytes := (proof.drop (32 * i)).take 32

def chunkWord (bytes : Bytes) : U256 :=
  B256.fromSlice (bytes ++ List.replicate (32 - bytes.length) 0)

def numChunks (len : ℕ) : ℕ := (len + 31) / 32

/-- The loop of `initiate_challenge` that stores the proof. -/
def storeProof (slots : U64 → U256) (proof : Bytes) : U64 → U256 :=
  (List.range (numChunks proof.length)).foldl
    (fun slots i => update slots (BitVec.ofNat 64 i) (chunkWord (chunk proof i))) slots

/-- The loop of `verify_fraud_proof` that loads it again. -/
def loadProof (slots : U64 → U256) (len : ℕ) : Bytes :=
  (List.range (numChunks len)).foldl
    (fun bytes i => bytes ++
      (B256.asSlice (slots (BitVec.ofNat 64 i))).take (min 32 (len - bytes.length))) []

/-- The loop of `clear_challenge_metadata` over the chunks. -/
def clearProof (slots : U64 → U256) (len : ℕ) : U64 → U256 :=
  (List.range (numChunks len)).foldl
    (fun slots i => update slots (BitVec.ofNat 64 i) 0) slots

/-! ### Fraud proofs -/

inductive FraudProofType where
  | txNonExistence
  | receiptConflict (receiptIndex : U64)
  deriving DecidableEq

structure FraudProof where
  header : EthHeader
  proofType : FraudProofType
  mptNodes : List Bytes
  deriving DecidableEq

open Varint in
/-- `postcard::from_bytes`: lists and byte strings come after their length, a variant after its
number. What follows the proof is not looked at. -/
def FraudProof.fromBytes (bytes : Bytes) : Option FraudProof := do
  let (rlpBytes, rest) ← readBytes bytes
  let (blockHash, rest) ← readBytes rest
  if blockHash.length ≠ 32 then none
  let (variant, rest) ← readVarint 15 5 rest
  let (proofType, rest) ← match variant with
    | 0 => some (FraudProofType.txNonExistence, rest)
    | 1 => (readVarint 1 10 rest).map fun r => (.receiptConflict (BitVec.ofNat 64 r.1), r.2)
    | _ => none
  let (count, rest) ← readVarint 1 10 rest
  let (mptNodes, _) ← readMany readBytes count rest
  some ⟨⟨rlpBytes, B256.fromSlice blockHash⟩, proofType, mptNodes⟩

/-- What the bridge is built with: the feature `light-client-bridge`, `keccak256`,
`Header::decode` and the decoder of proofs. -/
structure Build where
  lightClientBridge : Bool
  keccak : Bytes → B256
  headerDecode : Bytes → Bool
  fromBytes : Bytes → Option FraudProof

/-- A build without the feature, where no proof is decoded and the hash does not matter. -/
def plainBuild : Build where
  lightClientBridge := false
  keccak := fun _ => 0
  headerDecode := fun _ => true
  fromBytes := FraudProof.fromBytes

/-- The comparison that ends a `ReceiptConflict`. -/
def conflicts (event : BridgeEvent) (d : DepositSlots) : Bool :=
  event.assetId ≠ d.assetId ∨ event.recipient ≠ d.recipient ∨ event.amount ≠ d.amount

/-- The receipt of a `ReceiptConflict` against the recorded deposit; `none` if
the call does not return. -/
def receiptConflicts (receiptRlp : Bytes) (d : DepositSlots) : Option Bool :=
  match parseReceiptLogs receiptRlp with
  | .error .noReturn => none
  | .error (.text _) => some false
  | .ok logs =>
    match parseBridgeEventFromLogs logs with
    | .error _ => none
    | .ok none => some false
    | .ok (some event) => some (conflicts event d)

/-- `none` if it does not return. -/
def verifyFraudProofCryptographic (B : Build) (d : DepositSlots) (sourceTxHash : B256)
    (proofBytes : Bytes) : Option Bool :=
  match B.fromBytes proofBytes with
  | none => some false
  | some fraudProof =>
    if B.keccak fraudProof.header.rlpBytes ≠ fraudProof.header.blockHash then some false
    else match fraudProof.proofType with
    | .txNonExistence =>
      match fraudProof.header.transactionsRoot with
      | .error .panic => none
      | .error .none => some false
      | .ok txRoot =>
        match verifyMptProof B.keccak B.headerDecode txRoot sourceTxHash.asSlice
          fraudProof.mptNodes with
        | .error .noReturn => none
        | .ok none => some true
        | _ => some false
    | .receiptConflict receiptIndex =>
      match fraudProof.header.receiptsRoot with
      | .error .panic => none
      | .error .none => some false
      | .ok receiptsRoot =>
        match verifyMptProof B.keccak B.headerDecode receiptsRoot (rlpEncodeU64 receiptIndex)
          fraudProof.mptNodes with
        | .error .noReturn => none
        | .ok (some receiptRlp) => receiptConflicts receiptRlp d
        | _ => some false

/-- Without the feature no proof is good. -/
def verifyFraudProof (B : Build) (s : BridgeStorage) (sourceTxHash : B256) : Option Bool :=
  let c := s.challenge sourceTxHash
  if ¬ B.lightClientBridge then some false
  else if c.proofHash = 0 then some false
  else if c.proofLen.toNat < 32 then some false
  else
    let proofBytes := loadProof c.proofChunk c.proofLen.toNat
    if B.keccak proofBytes ≠ c.proofHash then some false
    else verifyFraudProofCryptographic B (s.deposit sourceTxHash) sourceTxHash proofBytes

/-! ### Challenges -/

/-- The slots of a challenge that `initiate_challenge` has just accepted. -/
def ChallengeSlots.opened (c : ChallengeSlots) (keccak : Bytes → B256) (challenger : Address)
    (deadline : U64) (bond : U128) (proof : Bytes) : ChallengeSlots :=
  { c with
    status := .pending
    challenger := challenger
    deadline := deadline
    bond := bond
    proofHash := keccak proof
    proofLen := BitVec.ofNat 64 proof.length
    proofChunk := storeProof c.proofChunk proof }

def checkChallenge (s : BridgeStorage) (sourceTxHash : B256) (proof : Bytes) (currentBlock : U64) :
    Except BridgeError Unit :=
  let depositHeight := (s.deposit sourceTxHash).blockHeight
  let challengePeriod := s.readChallengePeriod
  if depositHeight = 0 then .error .notProcessed
  else if (s.challenge sourceTxHash).status ≠ .none then .error .alreadyChallenged
  else if 2 ^ 64 ≤ depositHeight.toNat + challengePeriod.toNat then .error .challengePeriodExpired
  else if depositHeight.toNat + challengePeriod.toNat ≤ currentBlock.toNat then
    .error .challengePeriodExpired
  else if proof.length < 32 ∨ proof.length > maxProofLen then .error .invalidInput
  else .ok ()

def initiateChallenge (B : Build) (s : Store) (sourceTxHash : B256) (proof : Bytes)
    (challenger : Address) (currentBlock : U64) : Store × Except BridgeError Unit :=
  match checkChallenge s.bridge sourceTxHash proof currentBlock with
  | .error e => (s, .error e)
  | .ok () =>
    let bond := s.bridge.readGlobalChallengeBond
    let challengePeriod := s.bridge.readChallengePeriod
    match s.assets.deductBalance callAssetId challenger bond with
    | .error e => (s, .error (.ofAsset e))
    | .ok assets =>
      if 2 ^ 64 ≤ currentBlock.toNat + challengePeriod.toNat then
        ({ s with assets := assets }, .error .challengePeriodExpired)
      else
        ({ s with
          assets := assets
          bridge := { s.bridge with
            challenge := update s.bridge.challenge sourceTxHash
              ((s.bridge.challenge sourceTxHash).opened B.keccak challenger
                (currentBlock + challengePeriod) bond proof) } }, .ok ())

/-- `clear_challenge_metadata` -/
def ChallengeSlots.cleared (c : ChallengeSlots) (keepPayoutInfo : Bool) : ChallengeSlots where
  status := c.status
  challenger := if keepPayoutInfo then c.challenger else 0
  bond := if keepPayoutInfo then c.bond else 0
  deadline := 0
  proofHash := 0
  proofLen := 0
  proofChunk := clearProof c.proofChunk c.proofLen.toNat
  originalValidator := 0

def checkResolve (s : BridgeStorage) (sourceTxHash : B256) (currentBlock : U64)
    (resolver : Address) : Except BridgeError Unit :=
  let c := s.challenge sourceTxHash
  if c.status ≠ .pending then .error .challengeNotPending
  else if currentBlock < c.deadline then .error .challengeDeadlineNotReached
  else if resolver ≠ c.challenger ∧ resolver ≠ c.originalValidator then
    .error (.unauthorizedResolver resolver)
  else .ok ()

/-- The fraud branch of `resolve_challenge`: the validator is slashed, the deposit taken
back and forgotten. -/
def resolveFraud (s : Store) (sourceTxHash : B256) : Store × Except BridgeError (Bool × Address) :=
  let c := s.bridge.challenge sourceTxHash
  match s.validators.slashStake s.assets c.originalValidator with
  | ((assets, validators), .error _) =>
    ({ s with assets := assets, validators := validators }, .error .invalidInput)
  | ((assets, validators), .ok _) =>
    let s := { s with assets := assets, validators := validators }
    let d := s.bridge.deposit sourceTxHash
    match s.assets.deductBalance d.assetId d.recipient d.amount with
    | .error _ => (s, .error .insufficientBalance)
    | .ok assets =>
      match s.bridge.subTotalDeposits d.amount with
      | .error e => ({ s with assets := assets }, .error e)
      | .ok bridge =>
        ({ s with
          assets := assets
          bridge := { bridge with
            deposit := update bridge.deposit sourceTxHash {}
            challenge := update bridge.challenge sourceTxHash
              (ChallengeSlots.cleared { c with status := .successful } true) } },
          .ok (true, c.challenger))

/-- The other branch: the bond goes to the validator. -/
def resolveNoFraud (s : Store) (sourceTxHash : B256) :
    Store × Except BridgeError (Bool × Address) :=
  let c := s.bridge.challenge sourceTxHash
  match s.assets.addBalance callAssetId c.originalValidator c.bond with
  | .error _ => (s, .error .balanceOverflow)
  | .ok assets =>
    ({ s with
      assets := assets
      bridge := { s.bridge with
        challenge := update s.bridge.challenge sourceTxHash
          (ChallengeSlots.cleared { c with status := .failed } false) } },
      .ok (false, c.originalValidator))

def resolveChallenge (B : Build) (s : Store) (sourceTxHash : B256) (currentBlock : U64)
    (resolver : Address) : Store × Except BridgeError (Bool × Address) :=
  match checkResolve s.bridge sourceTxHash currentBlock resolver with
  | .error e => (s, .error e)
  | .ok () =>
    match verifyFraudProof B s.bridge sourceTxHash with
    | none => (s, .error .noReturn)
    | some true => resolveFraud s sourceTxHash
    | some false => resolveNoFraud s sourceTxHash

/-- The bond and a tenth of it. -/
def withdrawChallengeBond (s : Store) (sourceTxHash : B256) (caller : Address) :
    Store × Except BridgeError U128 :=
  let c := s.bridge.challenge sourceTxHash
  if c.status ≠ .successful then (s, .error .challengeNotSuccessful)
  else if c.challenger ≠ caller then (s, .error .notChallenger)
  else if 2 ^ 128 ≤ c.bond.toNat + (c.bond / 10).toNat then (s, .error .balanceOverflow)
  else
    let reward := c.bond + c.bond / 10
    match s.assets.addBalance callAssetId c.challenger reward with
    | .error _ => (s, .error .balanceOverflow)
    | .ok assets =>
      ({ s with
        assets := assets
        bridge := { s.bridge with
          challenge := update s.bridge.challenge sourceTxHash
            { c with status := .withdrawn, bond := 0 } } }, .ok reward)

/-! ### Calls -/

inductive BridgeCall where
  | externalDeposit (sourceChain : U64) (sourceContract : Address) (sourceTxHash : B256)
      (assetId : U64) (recipient : Address) (amount : U128) (validator : Address)
      (blockHeight : U64)
  | externalWithdraw (assetId : U64) (amount : U128) (caller : Address) (currentBlock : U64)
  | initiateChallenge (sourceTxHash : B256) (proof : Bytes) (challenger : Address)
      (currentBlock : U64)
  | resolveChallenge (sourceTxHash : B256) (currentBlock : U64) (resolver : Address)
  | withdrawChallengeBond (sourceTxHash : B256) (caller : Address)

def exec (B : Build) (s : Store) : BridgeCall → Store × Except BridgeError Unit
  | .externalDeposit sourceChain sourceContract sourceTxHash assetId recipient amount validator
      blockHeight =>
    (externalDeposit s sourceChain sourceContract sourceTxHash assetId recipient amount validator
      blockHeight).map id (·.map fun _ => ())
  | .externalWithdraw assetId amount caller currentBlock =>
    (externalWithdraw s assetId amount caller currentBlock).map id (·.map fun _ => ())
  | .initiateChallenge sourceTxHash proof challenger currentBlock =>
    initiateChallenge B s sourceTxHash proof challenger currentBlock
  | .resolveChallenge sourceTxHash currentBlock resolver =>
    (resolveChallenge B s sourceTxHash currentBlock resolver).map id (·.map fun _ => ())
  | .withdrawChallengeBond sourceTxHash caller =>
    (withdrawChallengeBond s sourceTxHash caller).map id (·.map fun _ => ())

/-- The storage after the call; `reverting` says whether a failed call is taken
back. -/
def step (B : Build) (reverting : Bool) (s : Store) (call : BridgeCall) : Store :=
  if reverting && !(exec B s call).2.isOk then s else (exec B s call).1

end Precompile
end Callchain.Bridge

/-
# Deposits from another chain

A deposit is queued on the signatures of validators (`process_external_deposit_evm`) or
on proofs that the light client checks (`process_light_client_deposit_evm`). Both write
to the storage of the bridge account as they go, and neither takes back what it wrote
when it fails. Their slots are fields here; slots of different names are taken to be
different.
-/
import Callchain.Bridge.Signatures
import Callchain.LightClient.Receipt
import Callchain.LightClient.TxInclusion

namespace Callchain.Bridge

open LightClient Mpt Rlp
open Function (update update_self)

/-- As far as deposits read it; a chain without an entry has no contracts. -/
structure BridgeConfig where
  maxPerTx : U128
  dailyLimitPerAsset : U128
  bridgeFee : U128
  allowedAssets : List U64
  minValidatorSignatures : U64
  challengePeriodBlocks : U64
  blocksPerDay : U64
  authorizedContracts : U64 → List Address

/-- The variants of `BridgeError` that deposits return. -/
inductive DepositError where
  | evmExecutionFailed (reason : String)
  | externalBridgePaused
  | unauthorizedBridgeContract (chainId : U64) (contract : Address)
  | externalAssetNotAllowed (assetId : U64)
  | signatures (e : BridgeError)
  | exceedsMaxPerTx (assetId : U64) (amount limit : U128)
  | balanceOverflow
  | exceedsDailyLimit (assetId : U64) (used limit : U128)
  | bridgeFeeExceedsAmount (fee amount : U128)
  | mptProofError (reason : String ⊕ LightClientError)
  | notConsensusVerified (block : ℕ)
  deriving DecidableEq

structure PendingDeposit where
  status : BitVec 8 := 0
  recipient : Address := 0
  assetId : U64 := 0
  amount : U128 := 0
  block : U64 := 0
  deriving DecidableEq

structure DepositSlots where
  externalPaused : Bool := false
  processed : B256 → U64 := fun _ => 0
  pendingCount : U64 := 0
  pendingList : U64 → B256 := fun _ => 0
  pending : B256 → PendingDeposit := fun _ => {}
  dailyUsed : U64 → U128 := fun _ => 0
  dailyDay : U64 → U64 := fun _ => 0

structure Queued where
  sourceTxHash : B256
  challengePeriodBlocks : U64
  finalizedAtBlock : U64
  deriving DecidableEq

def verifyBridgeContract (config : BridgeConfig) (chainId : U64) (contract : Address) :
    Except DepositError Unit :=
  let contracts := config.authorizedContracts chainId
  if contracts ≠ [] ∧ contract ∉ contracts then .error (.unauthorizedBridgeContract chainId contract)
  else .ok ()

namespace DepositSlots

variable (s : DepositSlots) (config : BridgeConfig)

def seedBridgePending (txHash : B256) (recipient : Address) (assetId : U64) (amount : U128)
    (block : U64) : DepositSlots :=
  { s with
    pendingList := update s.pendingList s.pendingCount txHash
    pendingCount := s.pendingCount + 1
    pending := update s.pending txHash ⟨1, recipient, assetId, amount, block⟩ }

def seedBridgeProcessed (txHash : B256) (blockHeight : U64) : DepositSlots :=
  { s with processed := update s.processed txHash blockHeight }

/-- The day of the asset is over; the end of the day saturates. -/
def dayOver (assetId currentBlock : U64) : Prop :=
  min ((s.dailyDay assetId).toNat + config.blocksPerDay.toNat) (2 ^ 64 - 1) ≤ currentBlock.toNat

instance (assetId currentBlock : U64) : Decidable (s.dayOver config assetId currentBlock) :=
  inferInstanceAs (Decidable (_ ≤ _))

def usedToday (assetId currentBlock : U64) : U128 :=
  if s.dayOver config assetId currentBlock then 0 else s.dailyUsed assetId

def updateBridgeDaily (assetId : U64) (used : U128) (day : U64) : DepositSlots :=
  { s with
    dailyUsed := update s.dailyUsed assetId used
    dailyDay := update s.dailyDay assetId day }

def checkAndUpdateDailyLimit (assetId : U64) (amount : U128) (currentBlock : U64) :
    Except DepositError DepositSlots :=
  let used := s.usedToday config assetId currentBlock
  if 2 ^ 128 ≤ used.toNat + amount.toNat then .error .balanceOverflow
  else if used + amount > config.dailyLimitPerAsset then
    .error (.exceedsDailyLimit assetId used config.dailyLimitPerAsset)
  else .ok (s.updateBridgeDaily assetId (used + amount)
    (if s.dayOver config assetId currentBlock then currentBlock else s.dailyDay assetId))

/-- The end of both calls, from `seed_bridge_pending` on. -/
def queueDeposit (txHash : B256) (recipient : Address) (assetId : U64) (amount : U128)
    (currentBlock : U64) : DepositSlots × Except DepositError Queued :=
  ((s.seedBridgePending txHash recipient assetId amount currentBlock).seedBridgeProcessed txHash
      currentBlock,
    if 2 ^ 64 ≤ currentBlock.toNat + config.challengePeriodBlocks.toNat then .error .balanceOverflow
    else .ok ⟨txHash, config.challengePeriodBlocks, currentBlock + config.challengePeriodBlocks⟩)

end DepositSlots

section
variable (keccak : Bytes → B256) (recover : B256 → Signature → Except Secp256k1Error Address)
  (config : BridgeConfig)

/-- `process_external_deposit_evm` up to its first write, that of the daily limit. -/
def checkExternal (op : ExternalBridgeOp) (s : DepositSlots) (validators : List Address)
    (currentBlock : U64) (sourceContract : Option Address) (sourceChain : ExternalChain)
    (sourceTxHash : B256) (assetId : U64) (amount : U128) : Except DepositError DepositSlots :=
  if s.externalPaused then .error .externalBridgePaused else do
  sourceContract.elim (.ok ()) (verifyBridgeContract config sourceChain.chainId)
  if assetId ∉ config.allowedAssets then .error (.externalAssetNotAllowed assetId)
  else if s.processed sourceTxHash ≠ 0 then
    .error (.evmExecutionFailed "source tx already processed")
  else do
    (verifyBridgeSignatures keccak recover op validators config.minValidatorSignatures).mapError
      .signatures
    if amount > config.maxPerTx then .error (.exceedsMaxPerTx assetId amount config.maxPerTx)
    else s.checkAndUpdateDailyLimit config assetId amount currentBlock

def processExternalDepositEvm (op : ExternalBridgeOp) (s : DepositSlots)
    (validators : List Address) (currentBlock : U64) (sourceContract : Option Address) :
    DepositSlots × Except DepositError Queued :=
  match op with
  | .deposit sourceChain sourceTxHash _ _ recipient assetId amount _ =>
    match checkExternal keccak recover config op s validators currentBlock sourceContract
      sourceChain sourceTxHash assetId amount with
    | .error e => (s, .error e)
    | .ok s =>
      if config.bridgeFee ≥ amount then
        (s, .error (.bridgeFeeExceedsAmount config.bridgeFee amount))
      else s.queueDeposit config sourceTxHash recipient assetId (amount - config.bridgeFee)
        currentBlock
  | _ => (s, .error (.evmExecutionFailed "not a deposit op"))

variable (headerDecode : Bytes → Bool)

/-- What `verify_receipt_and_parse_bridge_event` reads from the header of the block. -/
def receiptLogs (header : EthHeader) (receiptProof : ReceiptProof) :
    Except LightClientError (List ReceiptLog) := do
  let receiptsRoot ← orInvalidHeader "no receipts root" header.receiptsRoot
  let proofRlps := receiptProof.nodes.map (·.rlpBytes)
  if proofRlps = [] then .error (.mptProofError (.inl "empty receipt proof"))
  else
    match verifyMptProof keccak headerDecode receiptsRoot
      (rlpEncodeU64 receiptProof.receiptIndex) proofRlps with
    | .error .noReturn => .error .panicked
    | .error e => .error (.mptProofError (.inr e))
    | .ok none => .error .receiptNotFound
    | .ok (some receiptRlp) =>
      match parseReceiptLogs receiptRlp with
      | .error .noReturn => .error .panicked
      | .error (.text reason) => .error (.logParseError reason)
      | .ok logs => .ok logs

def verifyReceiptAndParseBridgeEvent (lc : EthLightClient) (blockNumber : ℕ)
    (receiptProof : ReceiptProof) : Except LightClientError BridgeEvent :=
  match lc.verifiedHeaders blockNumber with
  | none => .error (.headerNotFound blockNumber)
  | some header => do
    let logs ← receiptLogs keccak headerDecode header receiptProof
    match parseBridgeEventFromLogs logs with
    | .error _ => .error .panicked
    | .ok none => .error .bridgeEventNotFound
    | .ok (some event) => .ok event

/-- `process_light_client_deposit_evm` from the submission of the header to its first
write, that of the daily limit. -/
def checkLightClient (lc : EthLightClient) (s : DepositSlots) (header : EthHeader)
    (txProof : TxInclusionProof) (receiptProof : ReceiptProof) (recipient : Address)
    (assetId : U64) (amount : U128) (currentBlock : U64) :
    Except DepositError (BridgeEvent × DepositSlots) := do
  let blockNumber ← header.number.mapError fun _ =>
    .mptProofError (.inl "header missing block number")
  (lc.verifyTxInclusion keccak headerDecode blockNumber header.blockHash txProof).mapError
    fun e => .mptProofError (.inr e)
  let event ← (verifyReceiptAndParseBridgeEvent keccak headerDecode lc blockNumber
    receiptProof).mapError fun e => .mptProofError (.inr e)
  if ¬ lc.isConsensusVerified blockNumber then .error (.notConsensusVerified blockNumber)
  else if event.recipient ≠ recipient then .error (.mptProofError (.inl "recipient mismatch"))
  else if event.assetId ≠ assetId then .error (.mptProofError (.inl "asset_id mismatch"))
  else if event.amount ≠ amount then .error (.mptProofError (.inl "amount mismatch"))
  else if assetId ∉ config.allowedAssets then .error (.externalAssetNotAllowed assetId)
  else if s.processed event.sourceTxHash ≠ 0 then
    .error (.evmExecutionFailed "source tx already processed")
  else if amount > config.maxPerTx then .error (.exceedsMaxPerTx assetId amount config.maxPerTx)
  else do
    let s ← s.checkAndUpdateDailyLimit config assetId amount currentBlock
    .ok (event, s)

def processLightClientDepositEvm (op : ExternalBridgeOp) (w : EthLightClient × DepositSlots)
    (currentBlock : U64) : (EthLightClient × DepositSlots) × Except DepositError Queued :=
  match op with
  | .lightClientDeposit _ header txProof receiptProof recipient assetId amount =>
    match w.1.submitHeader keccak header with
    | .error e => (w, .error (.mptProofError (.inr e)))
    | .ok lc =>
      match checkLightClient keccak config headerDecode lc w.2 header txProof receiptProof
        recipient assetId amount currentBlock with
      | .error e => ((lc, w.2), .error e)
      | .ok (event, s) =>
        let r := s.queueDeposit config event.sourceTxHash recipient assetId amount currentBlock
        ((lc, r.1), r.2)
  | _ => (w, .error (.evmExecutionFailed "not a light client deposit op"))

/-! ### What a failed deposit leaves -/

/-- A failure leaves the state as it was. -/
def Keeps {σ ε α : Type} (s : σ) (r : σ × Except ε α) : Prop := r.2.isOk = false → r.1 = s

/-- The record of the day would be written as it is. -/
def DailyStays (s : DepositSlots) (assetId : U64) (amount : U128) (currentBlock : U64) : Prop :=
  s.usedToday config assetId currentBlock + amount = s.dailyUsed assetId ∧
    (if s.dayOver config assetId currentBlock then currentBlock else s.dailyDay assetId) =
      s.dailyDay assetId

/-- Where the checks pass, a deposit on signatures is more than the fee, or leaves the record of
the day as it is, and the end of its challenge period is a block number. -/
def ExternalGuard (s : DepositSlots) (validators : List Address) (currentBlock : U64)
    (sourceContract : Option Address) (op : ExternalBridgeOp) : Prop :=
  match op with
  | .deposit sourceChain sourceTxHash _ _ _ assetId amount _ =>
    (checkExternal keccak recover config op s validators currentBlock sourceContract sourceChain
        sourceTxHash assetId amount).isOk = true →
      if config.bridgeFee ≥ amount then DailyStays config s assetId amount currentBlock
      else currentBlock.toNat + config.challengePeriodBlocks.toNat < 2 ^ 64
  | _ => True

/-- Where the header is accepted, all checks of a deposit on proofs pass, and the end of its
challenge period is a block number. -/
def LightClientGuard (w : EthLightClient × DepositSlots) (currentBlock : U64) :
    ExternalBridgeOp → Prop
  | .lightClientDeposit _ header txProof receiptProof recipient assetId amount =>
    ∀ lc, w.1.submitHeader keccak header = .ok lc →
      (checkLightClient keccak config headerDecode lc w.2 header txProof receiptProof recipient
          assetId amount currentBlock).isOk = true ∧
        currentBlock.toNat + config.challengePeriodBlocks.toNat < 2 ^ 64
  | _ => True

end

section
variable {keccak : Bytes → B256} {recover : B256 → Signature → Except Secp256k1Error Address}
  {config : BridgeConfig} {dec : Bytes → Bool} {s t : DepositSlots} {lc : EthLightClient}
  {w : EthLightClient × DepositSlots} {aid now : U64} {amount : U128}

theorem checkAndUpdateDailyLimit_ok (h : s.checkAndUpdateDailyLimit config aid amount now = .ok t) :
    t = s.updateBridgeDaily aid (s.usedToday config aid now + amount)
      (if s.dayOver config aid now then now else s.dailyDay aid) := by
  obtain ⟨-, h⟩ := ite_error_eq_ok.1 h
  obtain ⟨-, h⟩ := ite_error_eq_ok.1 h
  exact (Except.ok.inj h).symm

theorem updateBridgeDaily_eq_iff {used : U128} {day : U64} :
    s.updateBridgeDaily aid used day = s ↔ used = s.dailyUsed aid ∧ day = s.dailyDay aid := by
  constructor
  · intro h
    have hused := congrFun (congrArg DepositSlots.dailyUsed h) aid
    have hday := congrFun (congrArg DepositSlots.dailyDay h) aid
    simp only [DepositSlots.updateBridgeDaily, update_self] at hused hday
    exact ⟨hused, hday⟩
  · rintro ⟨rfl, rfl⟩
    simp [DepositSlots.updateBridgeDaily]

theorem checkExternal_limit {op : ExternalBridgeOp} {validators : List Address}
    {origin : Option Address} {sourceChain : ExternalChain} {src : B256}
    (h : checkExternal keccak recover config op s validators now origin
      sourceChain src aid amount = .ok t) :
    s.checkAndUpdateDailyLimit config aid amount now = .ok t := by
  unfold checkExternal at h
  simp only [except_bind_eq_ok, ite_error_eq_ok] at h
  obtain ⟨-, _, -, -, -, _, -, -, h⟩ := h
  exact h

theorem queueDeposit_ne (h : s.checkAndUpdateDailyLimit config aid amount now = .ok t)
    (txHash : B256) (recipient : Address) (net : U128) :
    (t.queueDeposit config txHash recipient aid net now).1 ≠ s := by
  intro heq
  have hcou : s.pendingCount + 1 = s.pendingCount := by
    rw [checkAndUpdateDailyLimit_ok h] at heq
    exact congrArg DepositSlots.pendingCount heq
  simp at hcou

theorem queueDeposit_isOk {txHash : B256} {recipient : Address} :
    (s.queueDeposit config txHash recipient aid amount now).2.isOk = true ↔
      now.toNat + config.challengePeriodBlocks.toNat < 2 ^ 64 := by
  unfold DepositSlots.queueDeposit
  split_ifs with h
  · exact iff_of_false (by simp [Except.isOk, Except.toBool]) (by omega)
  · exact iff_of_true rfl (by omega)

theorem mem_bufferInsert_self (n : ℕ) (h : EthHeader) : ∀ b, (n, h) ∈ bufferInsert n h b
  | [] => List.mem_singleton_self _
  | (m, g) :: rest => by
    unfold bufferInsert
    split_ifs
    · exact List.mem_cons_self
    · exact List.mem_cons_self
    · exact List.mem_cons_of_mem _ (mem_bufferInsert_self n h rest)

theorem submitHeader_ne {header : EthHeader} {lc' : EthLightClient}
    (h : lc.submitHeader keccak header = .ok lc') : lc' ≠ lc := by
  obtain ⟨n, -, -, hfree, hbuf, hcas⟩ := submitHeader_ok h
  have hkept : ∀ u : EthLightClient, (u.insertHeader n header).flushBuffer ≠ lc := by
    intro u heq
    have hn : (u.insertHeader n header).flushBuffer.verifiedHeaders n = some header :=
      flushBuffer_kept (insertAt_self u.verifiedHeaders n header)
    rw [heq, hfree] at hn
    cases hn
  rcases hcas with heq | ⟨_, _, _, _, ⟨-, -, heq⟩ | ⟨-, _, -, -, heq⟩⟩
  · rw [heq]
    intro hsame
    have hmem := mem_bufferInsert_self n header lc.buffer
    have hbuff : bufferInsert n header lc.buffer = lc.buffer := congrArg EthLightClient.buffer hsame
    rw [hbuff] at hmem
    have hkno : lc.buffered n = true := List.any_eq_true.2 ⟨_, hmem, by simp⟩
    rw [hbuf] at hkno
    cases hkno
  · exact heq ▸ hkept _
  · exact heq ▸ hkept _

theorem external_keeps_iff (op : ExternalBridgeOp) (validators : List Address)
    (origin : Option Address) :
    Keeps s (processExternalDepositEvm keccak recover config op s validators now origin) ↔
      ExternalGuard keccak recover config s validators now origin op := by
  unfold Keeps
  cases op with
  | withdraw | lightClientDeposit => exact iff_of_true (fun _ => rfl) trivial
  | deposit sourceChain sourceTxHash block sender recipient aid amount =>
    dsimp only [processExternalDepositEvm, ExternalGuard]
    cases hche : checkExternal keccak recover config _ s validators now origin
      sourceChain sourceTxHash aid amount with
    | error e => exact iff_of_true (fun _ => rfl) fun h => by cases h
    | ok t =>
      have hlim := checkExternal_limit hche
      dsimp only
      by_cases hfee : config.bridgeFee ≥ amount
      · rw [if_pos hfee, if_pos hfee, checkAndUpdateDailyLimit_ok hlim, updateBridgeDaily_eq_iff]
        exact ⟨fun h _ => h rfl, fun h _ => h rfl⟩
      · rw [if_neg hfee, if_neg hfee, ← queueDeposit_isOk (s := t)]
        refine ⟨fun h _ => ?_, fun h hfail => ?_⟩
        · by_contra hfail
          exact queueDeposit_ne hlim _ _ _ (h (by simpa using hfail))
        · rw [h rfl] at hfail
          cases hfail

theorem lightClient_keeps_iff (op : ExternalBridgeOp) :
    Keeps w (processLightClientDepositEvm keccak config dec op w now) ↔
      LightClientGuard keccak config dec w now op := by
  cases op with
  | withdraw | deposit => exact iff_of_true (fun _ => rfl) trivial
  | lightClientDeposit sourceChain header txProof receiptProof recipient aid amount =>
    dsimp only [processLightClientDepositEvm, LightClientGuard]
    cases hsub : w.1.submitHeader keccak header with
    | error => exact iff_of_true (fun _ => rfl) fun _ h => by cases h
    | ok lc =>
      have hne : ∀ t, (lc, t) ≠ w := fun t heq =>
        submitHeader_ne hsub (congrArg Prod.fst heq)
      dsimp only
      cases hche : checkLightClient keccak config dec lc w.2 header txProof
        receiptProof recipient aid amount now with
      | error e =>
        refine iff_of_false (fun h => hne _ (h rfl)) fun h => ?_
        obtain ⟨hok, -⟩ := h lc rfl
        rw [hche] at hok
        cases hok
      | ok found =>
        constructor
        · intro h lc' hlc'
          obtain rfl := Except.ok.inj hlc'
          rw [hche, ← queueDeposit_isOk (s := found.2)]
          refine ⟨rfl, ?_⟩
          by_contra hfail
          exact hne _ (h (by simpa using hfail))
        · intro h hfail
          rw [show _ = true from queueDeposit_isOk.2 (h lc rfl).2] at hfail
          cases hfail

end

/-- **A failed deposit keeps the state.** A failed deposit leaves the storage and the light client
as they were exactly if no check can fail behind a write. -/
theorem failed_deposit_keeps_iff (keccak : Bytes → B256)
    (recover : B256 → Signature → Except Secp256k1Error Address) (headerDecode : Bytes → Bool)
    (config : BridgeConfig) (op : ExternalBridgeOp) (lc : EthLightClient) (s : DepositSlots)
    (validators : List Address) (currentBlock : U64) (sourceContract : Option Address) :
    (Keeps s (processExternalDepositEvm keccak recover config op s validators currentBlock
        sourceContract) ↔
      ExternalGuard keccak recover config s validators currentBlock sourceContract op) ∧
    (Keeps (lc, s) (processLightClientDepositEvm keccak config headerDecode op (lc, s)
        currentBlock) ↔ LightClientGuard keccak config headerDecode (lc, s) currentBlock op) :=
  ⟨external_keeps_iff op validators sourceContract, lightClient_keeps_iff op⟩

/-! ### What a queued deposit rests on -/

section
variable {keccak : Bytes → B256} {config : BridgeConfig} {headerDecode : Bytes → Bool}
  {s t : DepositSlots} {lc : EthLightClient} {w w' : EthLightClient × DepositSlots} {q : Queued}
  {sourceChain : ExternalChain} {header : EthHeader} {txProof : TxInclusionProof}
  {receiptProof : ReceiptProof} {recipient : Address} {assetId currentBlock : U64}
  {amount : U128} {event : BridgeEvent}

theorem mapError_eq_ok {ε ε' α : Type} {f : ε → ε'} {x : Except ε α} {a : α} :
    x.mapError f = .ok a ↔ x = .ok a := by
  cases x with
  | error | ok => simp [Except.mapError]

theorem processLightClientDepositEvm_ok
    (h : processLightClientDepositEvm keccak config headerDecode (.lightClientDeposit sourceChain
      header txProof receiptProof recipient assetId amount) w currentBlock = (w', .ok q)) :
    ∃ n event, header.number = .ok n ∧
      verifyReceiptAndParseBridgeEvent keccak headerDecode w'.1 n receiptProof = .ok event ∧
      q.sourceTxHash = event.sourceTxHash ∧
      (w'.2.pending event.sourceTxHash).amount = event.amount := by
  dsimp only [processLightClientDepositEvm] at h
  cases hsub : w.1.submitHeader keccak header with
  | error => rw [hsub] at h; cases h
  | ok lc =>
    rw [hsub] at h
    dsimp only at h
    cases hche : checkLightClient keccak config headerDecode lc w.2 header txProof receiptProof
      recipient assetId amount currentBlock with
    | error e => rw [hche] at h; cases h
    | ok found =>
      rw [hche] at h
      obtain ⟨rfl, hq⟩ := Prod.mk.inj h
      obtain ⟨-, hq⟩ := ite_error_eq_ok.1 hq
      cases hq
      unfold checkLightClient at hche
      simp only [except_bind_eq_ok, mapError_eq_ok, ite_error_eq_ok, not_not] at hche
      obtain ⟨n, hn, -, -, event, heve, -, -, -, hamo, -, -, -, t, -, hfou⟩ := hche
      cases hfou
      refine ⟨n, event, hn, heve, rfl, ?_⟩
      simp [DepositSlots.queueDeposit, DepositSlots.seedBridgeProcessed,
        DepositSlots.seedBridgePending, hamo]

/-- `log` is the first of the logs that announces a deposit, and announces `event`. -/
def Announces (logs : List ReceiptLog) (log : ReceiptLog) (event : BridgeEvent) : Prop :=
  ∃ before after, logs = before ++ log :: after ∧
    (∀ l ∈ before, Receipt.tryParseBridgeLog l = .ok none) ∧
    Receipt.tryParseBridgeLog log = .ok (some event)

theorem announces_of_parse : ∀ {logs : List ReceiptLog},
    parseBridgeEventFromLogs logs = .ok (some event) → ∃ log, Announces logs log event
  | [], h => by cases h
  | log :: logs, h => by
    unfold parseBridgeEventFromLogs at h
    cases hlog : Receipt.tryParseBridgeLog log with
    | error => rw [hlog] at h; cases h
    | ok found =>
      rw [hlog] at h
      cases found with
      | some =>
        obtain rfl := Option.some.inj (Except.ok.inj h)
        exact ⟨log, [], logs, rfl, by simp, hlog⟩
      | none =>
        obtain ⟨log', before, after, rfl, hbef, hfou⟩ := announces_of_parse h
        exact ⟨log', log :: before, after, rfl, List.forall_mem_cons.2 ⟨hlog, hbef⟩, hfou⟩

/-- The log is of a listed contract, where the chain has a list. -/
def Authorized (config : BridgeConfig) (sourceChain : ExternalChain) (log : ReceiptLog) : Prop :=
  config.authorizedContracts sourceChain.chainId ≠ [] →
    ∃ contract ∈ config.authorizedContracts sourceChain.chainId,
      log.address = beBytes 20 contract.toNat

/-- What a queued deposit has passed. -/
structure Safeguarded (config : BridgeConfig) (s : DepositSlots) (sourceChain : ExternalChain)
    (log : ReceiptLog) (event : BridgeEvent) (queued : PendingDeposit) : Prop where
  running : s.externalPaused = false
  authorized : Authorized config sourceChain log
  chain : event.sourceChain = sourceChain.chainId
  amount : queued.amount.toNat + config.bridgeFee.toNat = event.amount.toNat

/-- **Deposits on proofs are safeguarded.** A deposit on proofs is announced by a log of a proven
receipt, and meets the safeguards of a deposit on signatures exactly if the bridge happens to run,
the log to be of an authorized contract, the event to be of the chain, and the fee to be zero. -/
theorem lightClient_safeguarded_iff
    (h : processLightClientDepositEvm keccak config headerDecode (.lightClientDeposit sourceChain
      header txProof receiptProof recipient assetId amount) w currentBlock = (w', .ok q)) :
    ∃ n stored logs log event, header.number = .ok n ∧ w'.1.verifiedHeaders n = some stored ∧
      receiptLogs keccak headerDecode stored receiptProof = .ok logs ∧
      Announces logs log event ∧ q.sourceTxHash = event.sourceTxHash ∧
      (Safeguarded config w.2 sourceChain log event (w'.2.pending q.sourceTxHash) ↔
        w.2.externalPaused = false ∧ Authorized config sourceChain log ∧
          event.sourceChain = sourceChain.chainId ∧ config.bridgeFee = 0) := by
  obtain ⟨n, event, hn, hrec, hhash, hamo⟩ := processLightClientDepositEvm_ok h
  unfold verifyReceiptAndParseBridgeEvent at hrec
  cases hsto : w'.1.verifiedHeaders n with
  | none => rw [hsto] at hrec; cases hrec
  | some stored =>
    rw [hsto] at hrec
    obtain ⟨logs, hlogs, hrec⟩ := except_bind_eq_ok.1 hrec
    have hpar : parseBridgeEventFromLogs logs = .ok (some event) := by
      cases hp : parseBridgeEventFromLogs logs with
      | error => rw [hp] at hrec; cases hrec
      | ok found =>
        rw [hp] at hrec
        cases found with
        | none => cases hrec
        | some => rw [Except.ok.inj hrec]
    obtain ⟨log, hlog⟩ := announces_of_parse hpar
    refine ⟨n, stored, logs, log, event, hn, hsto, hlogs, hlog, hhash, ?_⟩
    have hfee : (w'.2.pending q.sourceTxHash).amount.toNat + config.bridgeFee.toNat =
        event.amount.toNat ↔ config.bridgeFee = 0 := by
      rw [hhash, hamo, ← BitVec.toNat_inj]
      simp
    constructor
    · intro hsafe
      exact ⟨hsafe.running, hsafe.authorized, hsafe.chain, hfee.1 hsafe.amount⟩
    · rintro ⟨hrun, haut, hcha, hzero⟩
      exact ⟨hrun, haut, hcha, hfee.2 hzero⟩

end

def depositLog : ReceiptLog :=
  ⟨List.replicate 20 9, [Receipt.bridgeDepositEventSig, 3, 4], encodeList [7, 1, 9, 1, 100]⟩

def depositReceipts : Trie :=
  .leaf (bytesToNibbles [0x80]) (encodeList ([1, 1, 1] ++ encodeList (encodeList
    (encodeBytes depositLog.address ++
      encodeList (depositLog.topics.flatMap (encodeBytes ·.asSlice)) ++
      encodeBytes depositLog.data))))

def depositTxs : Trie := .leaf [] [1]

def depositHeader : EthHeader := .fromRlp plainHash (encodeList
  (encodeBytes (5 : B256).asSlice ++ [0, 0, 0] ++
    encodeBytes (plainHash (depositTxs.encode plainHash)).asSlice ++
    encodeBytes (plainHash (depositReceipts.encode plainHash)).asSlice ++ [0, 0, 1]))

def depositProof : ReceiptProof := ⟨0, [⟨depositReceipts.encode plainHash⟩]⟩

def feeConfig : BridgeConfig := ⟨1000, 1000, 1, [1], 0, 10, 100, fun _ => [8]⟩

def depositAt (lc : EthLightClient) :
    (EthLightClient × DepositSlots) × Except DepositError Queued :=
  processLightClientDepositEvm plainHash feeConfig acceptAll
    (.lightClientDeposit .ethereumMainnet depositHeader ⟨[⟨depositTxs.encode plainHash⟩]⟩
      depositProof 4 1 100) (lc, { externalPaused := true }) 50

def finalizedClient : EthLightClient := (EthLightClient.init anchorZero).setFinalizedBlock 1 0

theorem depositAt_finalizedClient : (depositAt finalizedClient).2 = .ok ⟨3, 10, 60⟩ := by
  decide +kernel

theorem lightClient_safeguarded_iff_at_finalizedClient :
    ∃ logs log event, Announces logs log event ∧ event.sourceTxHash = 3 ∧
      ¬ Safeguarded feeConfig { externalPaused := true } .ethereumMainnet log event
        ((depositAt finalizedClient).1.2.pending 3) := by
  have hok : depositAt finalizedClient = ((depositAt finalizedClient).1, .ok ⟨3, 10, 60⟩) :=
    Prod.mk.eta.symm.trans (congrArg (Prod.mk _) depositAt_finalizedClient)
  obtain ⟨-, -, logs, log, event, -, -, -, hlog, hhash, hsafe⟩ := lightClient_safeguarded_iff hok
  dsimp only at hsafe hhash
  refine ⟨logs, log, event, hlog, hhash.symm, fun h => ?_⟩
  exact Bool.false_ne_true (hsafe.1 h).1.symm

theorem queued_without_safeguards : (depositAt finalizedClient).2 = .ok ⟨3, 10, 60⟩ ∧
      ((depositAt finalizedClient).1.2.pending 3).amount = 100 ∧
      receiptLogs plainHash acceptAll depositHeader depositProof = .ok [depositLog] ∧
      Receipt.tryParseBridgeLog depositLog = .ok (some ⟨7, 3, 1, [9], 4, 1, 100⟩) ∧
      ¬ Authorized feeConfig .ethereumMainnet depositLog := by
  refine ⟨depositAt_finalizedClient, by decide +kernel, by decide +kernel, by decide +kernel, ?_⟩
  intro h
  obtain ⟨contract, hmem, hadd⟩ := h (by decide)
  obtain rfl := List.mem_singleton.1 hmem
  exact absurd hadd (by decide)

def depositOfFee : DepositSlots × Except DepositError Queued :=
  processExternalDepositEvm plainHash (fun _ _ => .ok 0) feeConfig
    (.deposit .ethereumMainnet 3 1 [] 4 1 1 []) {} [] 50 none

/-- The amount is refused but counts as used; the block is not finalized but its header stays. -/
theorem failed_deposit_leaves :
    (depositOfFee.2 = .error (.bridgeFeeExceedsAmount 1 1) ∧ depositOfFee.1.dailyUsed 1 = 1) ∧
    (depositAt (.init anchorZero)).2 = .error (.notConsensusVerified 1) ∧
      (depositAt (.init anchorZero)).1.1.verifiedHeaders 1 = some depositHeader ∧
      (EthLightClient.init anchorZero).verifiedHeaders 1 = none := by
  decide +kernel

end Callchain.Bridge

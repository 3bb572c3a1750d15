/-
# Who a transaction is run for

`decode_evm_tx` takes the caller of an envelope from its signature. Bytes that are not
an envelope get a second chance as the JSON of an `EvmTransaction`, whose caller is a
field like any other. So the caller of an executed transaction is the signer of its
bytes exactly when they are an envelope (`executed_signed_iff_envelope`), and JSON runs
a transaction for an account that signed nothing (`json_runs_unsigned`).
-/
import Callchain.Evm.Revm

namespace Callchain.Evm

variable (H : Host)

/-- The raw transaction decodes to `tx`, whose caller its signature recovers to. -/
inductive SignedBy (raw : Bytes) : EvmTransaction → Prop
  | legacy {signed : Signed TxLegacy} {caller : Address} :
      H.txEnvelopeDecode raw = some (.legacy signed) → signed.recoverLegacy H = some caller →
      SignedBy raw (signed.tx.toEvm caller)
  | eip1559 {signed : Signed TxEip1559} {caller : Address} :
      H.txEnvelopeDecode raw = some (.eip1559 signed) → signed.recoverEip1559 H = some caller →
      SignedBy raw (signed.tx.toEvm caller)

structure Reports (e : BlockTxEntry) (raw : Bytes) (tx : EvmTransaction) : Prop where
  txHash : e.txHash = H.keccak256 raw
  caller : e.caller = tx.caller
  toAddr : e.toAddr = tx.toAddr
  gasPrice : e.gasPrice = tx.gasPrice

variable {H} {raw : Bytes}

theorem SignedBy.envelope {tx : EvmTransaction} (h : SignedBy H raw tx) :
    (H.txEnvelopeDecode raw).isSome := by
  cases h with
  | legacy h => rw [h]; rfl
  | eip1559 h => rw [h]; rfl

theorem decodeEvmTx_signed_iff {tx : EvmTransaction}
    (h : decodeEvmTx H raw = some tx) : SignedBy H raw tx ↔ (H.txEnvelopeDecode raw).isSome := by
  refine ⟨SignedBy.envelope, fun he => ?_⟩
  unfold decodeEvmTx at h
  split_ifs at h
  split at h
  · rename_i signed hd
    obtain ⟨caller, hc, rfl⟩ := Option.map_eq_some_iff.mp h
    exact .legacy hd hc
  · rename_i signed hd
    obtain ⟨caller, hc, rfl⟩ := Option.map_eq_some_iff.mp h
    exact .eip1559 hd hc
  · exact absurd h (by simp)
  · rename_i hd
    rw [hd] at he
    exact absurd he (by simp)

variable (H) in
/-- The entry stems from one of the transactions `txs`. -/
def Stems (txs : List Bytes) (e : BlockTxEntry) : Prop :=
  ∃ raw ∈ txs, ∃ tx, decodeEvmTx H raw = some tx ∧ Reports H e raw tx

theorem executeTx_stems {blk : BlockParams} {s : BlockState} {txs : List Bytes}
    (hraw : raw ∈ txs) (hs : ∀ e ∈ s.result.evmTxResults, Stems H txs e) :
    ∀ e ∈ (executeTx H blk s raw).1.result.evmTxResults, Stems H txs e := by
  have hstep := executeTx_step H blk s raw
  generalize executeTx H blk s raw = out at hstep ⊢
  cases hstep with
  | executed hb =>
    intro e he
    rcases List.mem_append.mp he with he | he
    · exact hs e he
    · rw [List.mem_singleton] at he
      subst he
      exact ⟨raw, hraw, _, hb.decoded, ⟨rfl, rfl, rfl, rfl⟩⟩
  | _ => exact hs

theorem executed_reports (txs : List Bytes) (p : InMemoryStateProvider) (blk : BlockParams) :
    ∀ e ∈ (executeBlockTransactions H txs p blk).1.evmTxResults, Stems H txs e :=
  Run.invariant_mem (I := fun s : BlockState => ∀ e ∈ s.result.evmTxResults, Stems H txs e)
    (fun _ _ hraw hs => executeTx_stems hraw hs)
    (by intro e he; simp [BlockState.init] at he)

/-- **Who signed a transaction.** The caller of an executed transaction is recovered from a
signature carried by its bytes exactly when the bytes decode as an envelope. -/
theorem executed_signed_iff_envelope (H : Host) (txs : List Bytes) (p : InMemoryStateProvider)
    (blk : BlockParams) (e : BlockTxEntry)
    (he : e ∈ (executeBlockTransactions H txs p blk).1.evmTxResults) :
    ∃ raw ∈ txs, ∃ tx, Reports H e raw tx ∧
      (SignedBy H raw tx ↔ (H.txEnvelopeDecode raw).isSome) := by
  obtain ⟨raw, hraw, tx, hdec, hrep⟩ := executed_reports txs p blk e he
  exact ⟨raw, hraw, tx, hrep, decodeEvmTx_signed_iff hdec⟩

/-! ### A signed and an unsigned transfer -/

def transferTx : EvmTransaction where
  caller := 0x1001
  nonce := 0
  gasLimit := 21000
  gasPrice := 1
  maxPriorityFee := none
  txType := 0
  toAddr := some 0x1002
  value := 5
  data := []
  chainId := 1

def fundedProvider : InMemoryStateProvider where
  accounts := Function.update (fun _ => none) 0x1001 (some { balance := 100000 })

def quietBlock : BlockParams := ⟨1, 0, 0⟩

/-- The byte `{` is the JSON of `transferTx`. -/
def transferJson (raw : Bytes) : Option EvmTransaction :=
  if raw = [0x7b] then some transferTx else none

def signingHost : Host :=
  { Reference.host transferJson with
    txEnvelopeDecode := fun raw =>
      if raw = [0xf8] then some (.legacy ⟨⟨some 1, 0, 1, 21000, some 0x1002, 5, []⟩, ⟨1, 1, false⟩⟩)
      else none
    recover := fun _ _ => some 0x1001 }

theorem signed_transfer_runs :
    ∃ e ∈ (executeBlockTransactions signingHost [[0xf8]] fundedProvider quietBlock).1.evmTxResults,
      ∃ raw ∈ [[0xf8]], ∃ tx, Reports signingHost e raw tx ∧
        (SignedBy signingHost raw tx ↔ (signingHost.txEnvelopeDecode raw).isSome) := by
  obtain ⟨e, he⟩ := List.exists_mem_of_ne_nil
    (executeBlockTransactions signingHost [[0xf8]] fundedProvider quietBlock).1.evmTxResults
    (by decide)
  exact ⟨e, he, executed_signed_iff_envelope _ _ _ _ e he⟩

/-- No signature recovers to anybody, and the transfer is executed and reported with the
caller that it names. -/
theorem json_runs_unsigned :
    (executeBlockTransactions (Reference.host transferJson) [[0x7b]] fundedProvider
        quietBlock).1.evmTxResults.map (·.caller) = [0x1001] ∧
      (∀ hash signature, (Reference.host transferJson).recover hash signature = none) ∧
      ∀ raw tx, ¬ SignedBy (Reference.host transferJson) raw tx := by
  refine ⟨by decide, fun _ _ => rfl, fun raw tx h => ?_⟩
  exact absurd h.envelope (by simp [Reference.host])

end Callchain.Evm

/-
# Transaction inclusion

`verify_tx_inclusion` walks the transactions trie of a stored header along the bytes of
`tx_hash`. The trie is keyed by the RLP of the transaction's index, so the walk ends
where such a key happens to be a beginning of the hash, and the value found there is not
compared with the hash.
-/
import Callchain.LightClient.Chain

namespace Callchain.LightClient

open Rlp Mpt Run

def EthLightClient.verifyTxInclusion (keccak : Bytes → B256) (headerDecode : Bytes → Bool)
    (s : EthLightClient) (blockNumber : ℕ) (txHash : B256) (txProof : TxInclusionProof) :
    Except LightClientError Unit :=
  match s.verifiedHeaders blockNumber with
  | none => .error (.headerNotFound blockNumber)
  | some header => do
    let txRoot ← orInvalidHeader "no transactions root" header.transactionsRoot
    if txProof.nodeRlps = [] then .error (.mptProofError (.inl "empty tx proof"))
    else
      match verifyMptProof keccak headerDecode txRoot txHash.asSlice txProof.nodeRlps with
      | .error .noReturn => .error .panicked
      | .error e => .error (.mptProofError (.inr e))
      | .ok none => .error .txNotFound
      | .ok (some _) => .ok ()

/-- The trie holds the transactions, under their encoded indices. -/
def KeyedByIndex (t : Trie) (txs : List Bytes) : Prop :=
  ∀ key v, t.lookup key = some v ↔
    ∃ i, txs[i]? = some v ∧ key = bytesToNibbles (encodeNat i)

def PathAsWritten (headerDecode : Bytes → Bool) (node : Bytes) : Prop :=
  match parseRlpList headerDecode node with
  | .ok [pathItem, _] =>
    match compactDecode pathItem with
    | .ok (isLeaf, path) => hexPrefix isLeaf path = pathItem
    | .error _ => True
  | _ => True

/-- The walk reads paths as written and ends at a value with this hash. -/
def ShowsHash (keccak : Bytes → B256) (headerDecode : Bytes → Bool) (hash : B256) :
    List Nibble → List Bytes → Prop
  | _, [] => False
  | r, node :: proof => PathAsWritten headerDecode node ∧
    match nodeStep keccak headerDecode r node with
    | .ok (.stop (some v)) => v ≠ [] ∧ keccak v = hash
    | .ok (.next r _) => ShowsHash keccak headerDecode hash r proof
    | _ => False

variable {keccak : Bytes → B256} {headerDecode : Bytes → Bool} {hash : B256}

variable {node : Bytes} {r : List Nibble} {proof : List Bytes}

theorem pathAsWritten_two {pathItem item : Bytes} {isLeaf : Bool} {path : List Nibble}
    (hp : parseRlpList headerDecode node = .ok [pathItem, item])
    (hd : compactDecode pathItem = .ok (isLeaf, path)) :
    PathAsWritten headerDecode node ↔ hexPrefix isLeaf path = pathItem := by
  rw [PathAsWritten, hp]
  simp only [hd]

theorem showsHash_stop {v : Bytes}
    (h : nodeStep keccak headerDecode r node = .ok (.stop (some v))) :
    ShowsHash keccak headerDecode hash r (node :: proof) ↔
      PathAsWritten headerDecode node ∧ v ≠ [] ∧ keccak v = hash := by
  rw [ShowsHash, h]

theorem showsHash_next {r' : List Nibble} {expected : B256}
    (h : nodeStep keccak headerDecode r node = .ok (.next r' expected)) :
    ShowsHash keccak headerDecode hash r (node :: proof) ↔
      PathAsWritten headerDecode node ∧ ShowsHash keccak headerDecode hash r' proof := by
  rw [ShowsHash, h]

theorem Walk.lookup_of_showsHash {t : Trie}
    {result : Option Bytes} (h : Walk keccak headerDecode t r proof result) (hsome : result ≠ none)
    (hshow : ShowsHash keccak headerDecode hash r proof) :
    ∃ key v, t.lookup key = some v ∧ keccak v = hash := by
  induction h with
  | out | aside => exact absurd rfl hsome
  | @leaf path r value node proof parsed readable through turn =>
    obtain ⟨-, -, hv⟩ := (showsHash_stop turn).1 hshow
    exact ⟨path, value, if_pos rfl, hv⟩
  | @ext path rest child node item proof result expected parsed readable turn below ih =>
    obtain ⟨key, v, hlook, hv⟩ := ih hsome ((showsHash_next turn).1 hshow).2
    exact ⟨path ++ key, v, by rw [Trie.lookup_ext_append, hlook], hv⟩
  | misread parsed decoded differs =>
    exact absurd ((pathAsWritten_two parsed decoded).1 hshow.1) differs
  | @value children items value node proof parsed turn =>
    obtain ⟨-, hne, hv⟩ := (showsHash_stop turn).1 hshow
    exact ⟨[], value, by rw [Trie.lookup_branch_nil, if_neg hne], hv⟩
  | @branch children items n rest value node proof result expected parsed turn below ih =>
    obtain ⟨key, v, hlook, hv⟩ := ih hsome ((showsHash_next turn).1 hshow).2
    exact ⟨n :: key, v, hlook, hv⟩

theorem verifyTxInclusion_ok {s : EthLightClient} {blockNumber : ℕ} {txHash : B256}
    {txProof : TxInclusionProof}
    (h : s.verifyTxInclusion keccak headerDecode blockNumber txHash txProof = .ok ()) :
    ∃ header txRoot v, s.verifiedHeaders blockNumber = some header ∧
      header.transactionsRoot = .ok txRoot ∧
      verifyMptProof keccak headerDecode txRoot txHash.asSlice txProof.nodeRlps = .ok (some v) := by
  unfold EthLightClient.verifyTxInclusion at h
  cases hh : s.verifiedHeaders blockNumber with
  | none => rw [hh] at h; simp at h
  | some header =>
    rw [hh] at h
    obtain ⟨txRoot, hr, h⟩ := except_bind_eq_ok.1 h
    obtain ⟨-, h⟩ := ite_error_eq_ok.1 h
    refine ⟨header, txRoot, ?_⟩
    cases hv : verifyMptProof keccak headerDecode txRoot txHash.asSlice txProof.nodeRlps with
    | error e => rw [hv] at h; cases e <;> simp at h
    | ok o =>
      cases o with
      | none => rw [hv] at h; simp at h
      | some v => exact ⟨v, rfl, orInvalidHeader_eq_ok.1 hr, rfl⟩

/-- **A transaction is in the block.** What `verify_tx_inclusion` accepts is in the block if the
walk shows the hash: some transaction of the block has it. -/
theorem verifyTxInclusion_sound (hhd : AcceptsShortLists headerDecode) {s : EthLightClient}
    {blockNumber : ℕ} {txHash : B256} {txProof : TxInclusionProof}
    (h : s.verifyTxInclusion keccak headerDecode blockNumber txHash txProof = .ok ())
    {header : EthHeader} (hheader : s.verifiedHeaders blockNumber = some header) {t : Trie}
    (hwf : t.WellFormed) (hroot : header.transactionsRoot = .ok (keccak (t.encode keccak)))
    {txs : List Bytes} (htxs : KeyedByIndex t txs)
    (hcf : CollisionFree keccak t txProof.nodeRlps) (hsz : ∀ x ∈ txProof.nodeRlps, Sized x)
    (hshow : ShowsHash keccak headerDecode txHash (bytesToNibbles txHash.asSlice)
      txProof.nodeRlps) : ∃ tx ∈ txs, keccak tx = txHash := by
  obtain ⟨header', txRoot, v, hh, hr, hv⟩ := verifyTxInclusion_ok h
  obtain rfl : header' = header := by simpa [hh] using hheader
  obtain rfl : txRoot = keccak (t.encode keccak) := by simpa [hr] using hroot
  unfold verifyMptProof at hv
  split_ifs at hv with hp
  · simp at hv
  · have hwalk := walk_of_verifyNodes hhd _ t _ hwf hcf hsz hv
    obtain ⟨key, w, hlook, hw⟩ := hwalk.lookup_of_showsHash (by simp) hshow
    obtain ⟨i, hi, -⟩ := (htxs key w).1 hlook
    exact ⟨w, List.mem_of_getElem? hi, hw⟩

def sampleTx : Bytes := 0x80 :: List.replicate 31 0

def txTrie : Trie := .leaf (bytesToNibbles (encodeNat 0)) sampleTx

theorem txTrie_keyedByIndex : KeyedByIndex txTrie [sampleTx] := by
  intro key v
  constructor
  · intro h
    rw [txTrie, Trie.lookup_leaf] at h
    split_ifs at h with hk
    exact ⟨0, h, hk⟩
  · rintro ⟨i, hi, rfl⟩
    obtain rfl : i = 0 := by
      by_contra hne
      rw [List.getElem?_eq_none (by simp; omega)] at hi
      exact absurd hi (by simp)
    exact (if_pos rfl).trans hi

theorem txTrie_collisionFree : CollisionFree plainHash txTrie [txTrie.encode plainHash] :=
  fun _ he _ hx _ => (List.mem_singleton.1 hx).trans he.symm

theorem txTrie_wellFormed : txTrie.WellFormed := trivial

theorem txTrie_showsHash : ShowsHash plainHash acceptAll (plainHash sampleTx)
    (bytesToNibbles (plainHash sampleTx).asSlice) [txTrie.encode plainHash] := by
  have heven : (bytesToNibbles (encodeNat 0)).length % 2 = 0 := by decide
  have hpar : parseRlpList acceptAll (txTrie.encode plainHash) =
      .ok [hexPrefix true (bytesToNibbles (encodeNat 0)), sampleTx] :=
    parseRlpList_leaf (by decide)
  have hstep : nodeStep plainHash acceptAll (bytesToNibbles (plainHash sampleTx).asSlice)
      (txTrie.encode plainHash) = .ok (.stop (some sampleTx)) := by decide
  exact (showsHash_stop hstep).2
    ⟨(pathAsWritten_two hpar (compactDecode_even heven)).2 rfl, by decide, rfl⟩

/-- The block after `anchorZero` with that transactions trie. -/
def txHeader : EthHeader := .fromRlp plainHash (0xF8 :: 0x49 :: 0xA0 ::
  ((5 : B256).asSlice ++ [0, 0, 0] ++ [0xA0] ++ (plainHash (txTrie.encode plainHash)).asSlice ++
    [0, 0, 0, 1]))

def txClient : EthLightClient :=
  run (headerStep plainHash) (.init anchorZero) [.submitHeader txHeader]

def txTrieProof : TxInclusionProof := ⟨[⟨txTrie.encode plainHash⟩]⟩

theorem txClient_header : txClient.verifiedHeaders 1 = some txHeader := by decide

theorem txHeader_root :
    txHeader.transactionsRoot = .ok (plainHash (txTrie.encode plainHash)) := by decide

theorem verifyTxInclusion_sound_at_txClient :
    ∃ tx ∈ [sampleTx], plainHash tx = plainHash sampleTx := by
  have hok : txClient.verifyTxInclusion plainHash acceptAll 1 (plainHash sampleTx) txTrieProof =
      .ok () := by decide
  exact verifyTxInclusion_sound acceptAll_acceptsShortLists hok txClient_header
    txTrie_wellFormed txHeader_root txTrie_keyedByIndex txTrie_collisionFree
    (List.forall_mem_singleton.2 (by decide)) txTrie_showsHash

/-- The proof is accepted for another hash that starts with the key. -/
theorem other_hash_accepted :
    txClient.verifyTxInclusion plainHash acceptAll 1 (plainHash sampleTx + 1) txTrieProof = .ok () ∧
      txClient.verifiedHeaders 1 = some txHeader ∧
      txHeader.transactionsRoot = .ok (plainHash (txTrie.encode plainHash)) ∧
      KeyedByIndex txTrie [sampleTx] ∧ CollisionFree plainHash txTrie txTrieProof.nodeRlps ∧
      ¬ ∃ tx ∈ [sampleTx], plainHash tx = plainHash sampleTx + 1 := by
  refine ⟨by decide, txClient_header, txHeader_root, txTrie_keyedByIndex, txTrie_collisionFree, ?_⟩
  rintro ⟨tx, htx, he⟩
  rw [List.mem_singleton.1 htx] at he
  exact absurd he (by decide)

end Callchain.LightClient

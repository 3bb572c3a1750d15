/-
# The validators' signatures of an external deposit

`verify_bridge_signatures` accepts a deposit from another chain on the signatures of
`min_signatures` validators. A signature claims the index of its validator, and the loop
refuses an index that it has seen; whether the signer is a validator it asks of the
address recovered from the signature. The two are never compared, so one validator may
sign under several indices.
-/
import Callchain.LightClient.Types

namespace Callchain.Bridge

open LightClient

inductive ExternalChain where
  | ethereumMainnet
  | arbitrum
  deriving DecidableEq

def ExternalChain.chainId : ExternalChain → U64
  | .ethereumMainnet => 1
  | .arbitrum => 42161

abbrev Signature := BitVec 520

structure BridgeSignature where
  validatorIndex : BitVec 32
  signature : Signature
  deriving DecidableEq

inductive ExternalBridgeOp where
  | deposit (sourceChain : ExternalChain) (sourceTxHash : B256) (sourceBlockNumber : U64)
      (sender : Bytes) (recipient : Address) (assetId : U64) (amount : U128)
      (signatures : List BridgeSignature)
  | withdraw (targetChain : ExternalChain) (targetAddress : Bytes) (assetId : U64)
      (sender : Address) (amount : U128)
  | lightClientDeposit (sourceChain : ExternalChain) (header : EthHeader)
      (txProof : TxInclusionProof) (receiptProof : ReceiptProof) (recipient : Address)
      (assetId : U64) (amount : U128)

inductive Secp256k1Error where
  | invalidSignature
  | recoveryFailed
  | verificationFailed
  deriving DecidableEq

/-- The error as `{:?}` prints it. -/
def Secp256k1Error.debug : Secp256k1Error → String
  | .invalidSignature => "InvalidSignature"
  | .recoveryFailed => "RecoveryFailed"
  | .verificationFailed => "VerificationFailed"

inductive BridgeError where
  | insufficientSignatures (got required : U64)
  | invalidSignature (index : U64) (reason : String)
  deriving DecidableEq

section Verify

variable (keccak : Bytes → B256) (recover : B256 → Signature → Except Secp256k1Error Address)

def bridgeEventHash (sourceChain : ExternalChain) (sourceTxHash : B256) (sourceBlockNumber : U64)
    (sender : Bytes) (recipient : Address) (assetId : U64) (amount : U128) : B256 :=
  keccak (beBytes 8 sourceChain.chainId.toNat ++ sourceTxHash.asSlice ++
    beBytes 8 sourceBlockNumber.toNat ++ sender ++ beBytes 20 recipient.toNat ++
    beBytes 8 assetId.toNat ++ beBytes 16 amount.toNat)

/-- The loop of `verify_bridge_signatures` from signature `i` on, with the indices that
it has seen. -/
def checkSignatures (validators : List Address) (eventHash : B256) :
    ℕ → Finset (BitVec 32) → List BridgeSignature → Except BridgeError (Finset (BitVec 32))
  | _, seen, [] => .ok seen
  | i, seen, sig :: sigs =>
    if sig.validatorIndex ∈ seen then
      .error (.invalidSignature (BitVec.ofNat 64 i) "duplicate validator")
    else match recover eventHash sig.signature with
      | .error e => .error (.invalidSignature (BitVec.ofNat 64 i) e.debug)
      | .ok recovered =>
        if recovered ∈ validators then
          checkSignatures validators eventHash (i + 1) (insert sig.validatorIndex seen) sigs
        else .error (.invalidSignature (BitVec.ofNat 64 i) "signer not in validator set")

/-- Only a deposit has signatures. -/
def verifyBridgeSignatures (op : ExternalBridgeOp) (validators : List Address)
    (minSignatures : U64) : Except BridgeError Unit :=
  match op with
  | .deposit sourceChain sourceTxHash sourceBlockNumber sender recipient assetId amount signatures =>
    if signatures.length < minSignatures.toNat then
      .error (.insufficientSignatures (BitVec.ofNat 64 signatures.length) minSignatures)
    else
      let eventHash := bridgeEventHash keccak sourceChain sourceTxHash sourceBlockNumber sender
        recipient assetId amount
      match checkSignatures recover validators eventHash 0 ∅ signatures with
      | .error e => .error e
      | .ok seen =>
        if seen.card < minSignatures.toNat then
          .error (.insufficientSignatures (BitVec.ofNat 64 seen.card) minSignatures)
        else .ok ()
  | _ => .ok ()

end Verify

variable {keccak : Bytes → B256} {recover : B256 → Signature → Except Secp256k1Error Address}
  {validators : List Address} {eventHash : B256}

/-! ### Distinct signers -/

variable (recover) in
def signers (eventHash : B256) (signatures : List BridgeSignature) : List Address :=
  signatures.filterMap fun sig => (recover eventHash sig.signature).toOption

def repeats : List Address → ℕ
  | [] => 0
  | a :: as => repeats as + if a ∈ as then 1 else 0

theorem repeats_add_card : ∀ as : List Address, repeats as + as.toFinset.card = as.length
  | [] => rfl
  | a :: as => by
    have ih := repeats_add_card as
    rw [repeats, List.toFinset_cons, List.length_cons]
    by_cases ha : a ∈ as
    · rw [if_pos ha, Finset.insert_eq_self.2 (List.mem_toFinset.2 ha)]
      omega
    · rw [if_neg ha, Finset.card_insert_of_notMem (mt List.mem_toFinset.1 ha)]
      omega

variable {sigs : List BridgeSignature}

theorem mem_signers {a : Address} :
    a ∈ signers recover eventHash sigs ↔ ∃ sig ∈ sigs, recover eventHash sig.signature = .ok a := by
  rw [signers, List.mem_filterMap]
  apply exists_congr
  intro sig
  cases recover eventHash sig.signature <;> simp [Except.toOption]

theorem checkSignatures_ok {i : ℕ} {seen seen' : Finset (BitVec 32)}
    (h : checkSignatures recover validators eventHash i seen sigs = .ok seen') :
    (signers recover eventHash sigs).length = sigs.length ∧
      ∀ a ∈ signers recover eventHash sigs, a ∈ validators := by
  induction sigs generalizing i seen with
  | nil =>
    refine ⟨rfl, ?_⟩
    intro a ha
    cases ha
  | cons sig sigs ih =>
    unfold checkSignatures at h
    by_cases hseen : sig.validatorIndex ∈ seen
    · rw [if_pos hseen] at h
      cases h
    rw [if_neg hseen] at h
    cases hrec : recover eventHash sig.signature with rw [hrec] at h
    | error => cases h
    | ok recovered =>
      dsimp only at h
      split_ifs at h with hval
      obtain ⟨hlen, hmem⟩ := ih h
      have hcons : signers recover eventHash (sig :: sigs) =
          recovered :: signers recover eventHash sigs := by
        rw [signers, List.filterMap_cons, hrec]
        rfl
      rw [hcons, List.length_cons, hlen]
      refine ⟨rfl, ?_⟩
      intro a ha
      rcases List.mem_cons.1 ha with rfl | ha
      · exact hval
      · exact hmem a ha

/-- The validators among the signers are `n` or more. -/
def DistinctSigners (recover : B256 → Signature → Except Secp256k1Error Address)
    (validators : List Address) (eventHash : B256) (signatures : List BridgeSignature) (n : ℕ) :
    Prop :=
  ∃ S : Finset Address, n ≤ S.card ∧ ∀ a ∈ S, a ∈ validators ∧
    ∃ sig ∈ signatures, recover eventHash sig.signature = .ok a

theorem distinctSigners_iff_of_checked {n : ℕ} {seen : Finset (BitVec 32)}
    (h : checkSignatures recover validators eventHash 0 ∅ sigs = .ok seen) :
    DistinctSigners recover validators eventHash sigs n ↔
      repeats (signers recover eventHash sigs) + n ≤ sigs.length := by
  obtain ⟨hlen, hval⟩ := checkSignatures_ok h
  have hcou := repeats_add_card (signers recover eventHash sigs)
  constructor
  · rintro ⟨S, hn, hS⟩
    have hsub : S ⊆ (signers recover eventHash sigs).toFinset := by
      intro a ha
      exact List.mem_toFinset.2 (mem_signers.2 (hS a ha).2)
    have hcard := Finset.card_le_card hsub
    omega
  · intro hle
    refine ⟨(signers recover eventHash sigs).toFinset, by omega, ?_⟩
    intro a ha
    have ha' := List.mem_toFinset.1 ha
    exact ⟨hval a ha', mem_signers.1 ha'⟩

/-- **Distinct signers.** An accepted deposit has the required number of distinct validators
behind it exactly when the signatures in excess make up for those whose signer signs again. -/
theorem distinct_signers_iff {sourceChain : ExternalChain} {sourceTxHash : B256}
    {sourceBlockNumber : U64} {sender : Bytes} {recipient : Address} {assetId : U64} {amount : U128}
    {signatures : List BridgeSignature} {minSignatures : U64}
    (h : verifyBridgeSignatures keccak recover (.deposit sourceChain sourceTxHash
      sourceBlockNumber sender recipient assetId amount signatures) validators minSignatures =
        .ok ()) :
    DistinctSigners recover validators (bridgeEventHash keccak sourceChain sourceTxHash
        sourceBlockNumber sender recipient assetId amount) signatures minSignatures.toNat ↔
      repeats (signers recover (bridgeEventHash keccak sourceChain sourceTxHash
        sourceBlockNumber sender recipient assetId amount) signatures) + minSignatures.toNat ≤
          signatures.length := by
  unfold verifyBridgeSignatures at h
  dsimp only at h
  split_ifs at h
  cases hche : checkSignatures recover validators (bridgeEventHash keccak sourceChain
      sourceTxHash sourceBlockNumber sender recipient assetId amount) 0 ∅ signatures with
  | error e =>
    rw [hche] at h
    cases h
  | ok seen => exact distinctSigners_iff_of_checked hche

def plainRecover (_ : B256) (signature : Signature) : Except Secp256k1Error Address :=
  .ok (signature.setWidth 160)

def signedDeposit (signatures : List BridgeSignature) : ExternalBridgeOp :=
  .deposit .ethereumMainnet 1 1 [] 1 1 100 signatures

theorem distinct_signers_iff_of_two : DistinctSigners plainRecover [5, 6] 0 [⟨0, 5⟩, ⟨1, 6⟩] 2 := by
  have hok : verifyBridgeSignatures (fun _ => 0) plainRecover (signedDeposit [⟨0, 5⟩, ⟨1, 6⟩])
      [5, 6] 2 = .ok () := by decide +kernel
  exact (distinct_signers_iff hok).2 (by decide +kernel)

/-- One validator of two required signs twice, under two indices. -/
theorem one_signer_accepted :
    verifyBridgeSignatures (fun _ => 0) plainRecover (signedDeposit [⟨0, 5⟩, ⟨1, 5⟩])
      [5, 6] 2 = .ok () ∧ ¬ DistinctSigners plainRecover [5, 6] 0 [⟨0, 5⟩, ⟨1, 5⟩] 2 := by
  refine ⟨by decide +kernel, ?_⟩
  rintro ⟨S, hcard, hS⟩
  have hsub : S ⊆ {5} := by
    intro a ha
    obtain ⟨-, sig, hsig, hrec⟩ := hS a ha
    have h5 : ∀ sig ∈ [(⟨0, 5⟩ : BridgeSignature), ⟨1, 5⟩], plainRecover 0 sig.signature = .ok 5 := by
      decide +kernel
    rw [h5 sig hsig] at hrec
    cases hrec
    exact Finset.mem_singleton_self _
  have hone := Finset.card_le_card hsub
  rw [Finset.card_singleton] at hone
  omega

end Callchain.Bridge

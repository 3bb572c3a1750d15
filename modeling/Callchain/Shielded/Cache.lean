/-
# The cache of verdicts

`verify_shielded_proof` keeps what the prover said under a hash of the request, and
looks there before it checks what the circuit asks for. The hash is over the parts of
the request one after the other, without their lengths and without a mark for what is
absent. So requests with other parts can have the same key, and one of them is given the
verdict of the other. Where the requests of a run have different keys, the cache changes
no answer.
-/
import Callchain.Lib.Run
import Callchain.Shielded.Verifier

namespace Callchain.Shielded

/-- The arguments of `verify_shielded_proof`. -/
structure Request where
  circuitType : String
  keyVersion : U32 := 1
  proofData : Bytes
  nullifiers : List Bytes32
  commitments : List Bytes32
  assetId : U64
  merkleRoot : Option Bytes32
  value : Option U128
  target : Option Address
  deriving DecidableEq

abbrev Verdict := Except String Bool

/-- What the keys of a version say of a circuit, a proof and its public inputs. -/
abbrev Provers := U32 → Option (CircuitType → Bytes → List Bytes32 → Verdict)

namespace Request

variable (q : Request)

/-- What `proof_cache_key` hashes. -/
def keyData : Bytes :=
  q.circuitType.toUTF8.data.toList ++ (leBytes (BitVec.ofNat 256 q.keyVersion.toNat)).take 4 ++
    q.proofData ++ q.merkleRoot.elim [] leBytes ++
    q.value.elim [] (fun value => (leBytes (valueToFpBytes value)).take 16) ++
    q.target.elim [] (fun target => beBytes 20 target.toNat) ++
    q.nullifiers.flatMap leBytes ++ q.commitments.flatMap leBytes ++
    (leBytes (assetBytes q.assetId)).take 8

/-- `verify_zk_proof` reads the two lists only. -/
def wellFormed : Bool :=
  verifyZkProof q.proofData q.keyVersion (.transfer q.nullifiers q.commitments q.assetId 0)

/-- What follows the lookup: the verdict of the prover, which is stored, or an
answer that is returned at once. -/
def compute (provers : Provers) : Except Verdict Verdict :=
  match provers q.keyVersion with
  | none => .error (.error ("no prover keys registered for version " ++ toString q.keyVersion.toNat))
  | some verify =>
    match q.circuitType with
    | "deposit" =>
      match q.commitments, q.value with
      | [], _ => .error (.ok false)
      | _, none => .error (.error "amount required for deposit verification")
      | commitment :: _, some amount => .ok (verify .deposit q.proofData
          (publicInputs (.deposit commitment amount q.assetId)))
    | "withdraw" =>
      match q.nullifiers, q.merkleRoot, q.value, q.target with
      | [], _, _, _ => .error (.ok false)
      | _, none, _, _ => .error (.error "merkle_root required for withdraw verification")
      | _, _, none, _ => .error (.error "value required for withdraw verification")
      | _, _, _, none => .error (.error "target required for withdraw verification")
      | nullifier :: _, some root, some value, some target => .ok (verify .withdraw q.proofData
          (publicInputs (.withdraw nullifier q.assetId value root target)))
    | "transfer" =>
      match q.merkleRoot with
      | none => .error (.error "merkle_root required for transfer verification")
      | some root => .ok (verify .transfer q.proofData
          (publicInputs (.transfer q.nullifiers q.commitments q.assetId root)))
    | other => .error (.error ("unknown circuit type: " ++ other))

end Request

/-- An entry of the cache, with the second of its insertion. -/
structure VerifyCacheEntry where
  key : B256
  result : Verdict
  timestamp : ℕ

section Cache

variable (keccak256 : Bytes → B256) (provers : Provers)

/-- `verify_shielded_proof` at a second: the cache after it and the answer. -/
def cachedVerify (cache : List VerifyCacheEntry) (now : ℕ) (q : Request) :
    List VerifyCacheEntry × Verdict :=
  let key := keccak256 q.keyData
  if ¬ q.wellFormed then (cache, .ok false)
  else match cache.find? fun entry => entry.key = key ∧ now - entry.timestamp < 300 with
  | some entry => (cache, entry.result)
  | none =>
    match q.compute provers with
    | .error result => (cache, result)
    | .ok result =>
      let cache := if 10000 ≤ cache.length then [] else cache
      (⟨key, result, now⟩ :: cache.filter (·.key ≠ key), result)

def answers (requests : List (ℕ × Request)) : List Verdict :=
  Run.collect (fun cache r => (cachedVerify keccak256 provers cache r.1 r.2).1)
    (fun cache r => [(cachedVerify keccak256 provers cache r.1 r.2).2]) [] requests

/-- Every entry has the verdict on a request of the run. -/
def Holds (requests : List (ℕ × Request)) (cache : List VerifyCacheEntry) : Prop :=
  ∀ entry ∈ cache, ∃ r ∈ requests, entry.key = keccak256 r.2.keyData ∧
    r.2.compute provers = .ok entry.result

variable {keccak256 provers} {requests : List (ℕ × Request)} {cache : List VerifyCacheEntry}

theorem cachedVerify_eq (hkeys : ∀ r ∈ requests, ∀ r' ∈ requests,
      keccak256 r.2.keyData = keccak256 r'.2.keyData → r.2 = r'.2)
    (hcache : Holds keccak256 provers requests cache) {r : ℕ × Request} (hr : r ∈ requests) :
    Holds keccak256 provers requests (cachedVerify keccak256 provers cache r.1 r.2).1 ∧
      (cachedVerify keccak256 provers cache r.1 r.2).2 =
        (cachedVerify keccak256 provers [] r.1 r.2).2 := by
  unfold cachedVerify
  dsimp only
  by_cases hform : r.2.wellFormed
  · rw [if_neg (not_not.2 hform), if_neg (not_not.2 hform)]
    rw [List.find?_nil]
    cases hfind : cache.find? _ with
    | some entry =>
      have hkey := List.find?_some hfind
      obtain ⟨r', hr', hkey', hresult⟩ := hcache entry (List.mem_of_find?_eq_some hfind)
      simp only [Bool.decide_and, Bool.and_eq_true, decide_eq_true_eq] at hkey
      have hsame := hkeys r' hr' r hr (hkey'.symm.trans hkey.1)
      rw [hsame] at hresult
      exact ⟨hcache, by rw [hresult]⟩
    | none =>
      cases hc : r.2.compute provers with
      | error => exact ⟨hcache, rfl⟩
      | ok =>
        refine ⟨fun entry hentry => ?_, rfl⟩
        rcases List.mem_cons.1 hentry with rfl | hentry
        · exact ⟨r, hr, rfl, hc⟩
        · have hmem := (List.mem_filter.1 hentry).1
          split_ifs at hmem
          · exact absurd hmem List.not_mem_nil
          · exact hcache entry hmem
  · rw [if_pos hform, if_pos hform]
    exact ⟨hcache, rfl⟩

end Cache

/-- **The cache is transparent.** The cache changes no answer in a run whose different requests
have different key data, none of which collide. -/
theorem answers_eq (keccak256 : Bytes → B256) (provers : Provers) (requests : List (ℕ × Request))
    (hfree : ∀ r ∈ requests, ∀ r' ∈ requests,
      keccak256 r.2.keyData = keccak256 r'.2.keyData → r.2.keyData = r'.2.keyData)
    (hkeys : ∀ r ∈ requests, ∀ r' ∈ requests, r.2.keyData = r'.2.keyData → r.2 = r'.2) :
    answers keccak256 provers requests =
      requests.map fun r => (cachedVerify keccak256 provers [] r.1 r.2).2 := by
  have hrun : ∀ (rest : List (ℕ × Request)) (cache : List VerifyCacheEntry),
      (∀ r ∈ rest, r ∈ requests) → Holds keccak256 provers requests cache →
      Run.collect (fun cache r => (cachedVerify keccak256 provers cache r.1 r.2).1)
        (fun cache r => [(cachedVerify keccak256 provers cache r.1 r.2).2]) cache rest =
        rest.map fun r => (cachedVerify keccak256 provers [] r.1 r.2).2 := by
    intro rest
    induction rest with
    | nil => exact fun _ _ _ => rfl
    | cons r rest ih =>
      intro cache hsub hcache
      obtain ⟨hnext, hanswer⟩ := cachedVerify_eq
        (fun r hr r' hr' hk => hkeys r hr r' hr' (hfree r hr r' hr' hk)) hcache
        (hsub r List.mem_cons_self)
      rw [Run.collect, hanswer, ih _ (fun r hr => hsub r (List.mem_cons_of_mem _ hr)) hnext]
      rfl
  exact hrun requests [] (fun _ h => h) fun _ h => absurd h List.not_mem_nil

/-! ### Two requests with one key -/

def spendNine : Request where
  circuitType := "withdraw"
  proofData := [1]
  nullifiers := [9]
  commitments := []
  assetId := 1
  merkleRoot := some 3
  value := some 10
  target := some 7

def acceptAll : Provers := fun _ => some fun _ _ _ => .ok true

/-- The keys accept the withdrawal of the nullifier 9 alone. -/
def acceptNine : Provers := fun _ => some fun _ _ inputs =>
  .ok (inputs = publicInputs (.withdraw 9 1 10 3 7))

def sumHash (data : Bytes) : B256 := BitVec.ofNat 256 (data.map UInt8.toNat).sum

/-- Two requests with different verdicts, the first asked for again while it is stored. -/
theorem answers_eq_at_two :
    let spendTen := { spendNine with nullifiers := [10] }
    let requests := [(0, spendNine), (1, spendTen), (2, spendNine)]
    answers sumHash acceptNine requests = [.ok true, .ok false, .ok true] ∧
      answers sumHash acceptNine requests =
        requests.map fun r => (cachedVerify sumHash acceptNine [] r.1 r.2).2 :=
  ⟨by decide +kernel, answers_eq _ _ _ (by decide +kernel) (by decide +kernel)⟩

/-- The same number as a commitment is refused, and accepted after the withdrawal,
whatever the hash. -/
theorem verdict_of_another :
    let q := { spendNine with nullifiers := [], commitments := [9] }
    q.keyData = spendNine.keyData ∧ ∀ keccak256,
      answers keccak256 acceptAll [(0, q)] = [.ok false] ∧
      answers keccak256 acceptAll [(0, spendNine), (0, q)] = [.ok true, .ok true] := by
  intro q
  have hkey : q.keyData = spendNine.keyData := by decide +kernel
  have hform : q.wellFormed ∧ spendNine.wellFormed := by decide +kernel
  have hother : q.compute acceptAll = .error (.ok false) := rfl
  have hspend : spendNine.compute acceptAll = .ok (.ok true) := rfl
  refine ⟨hkey, fun keccak256 => ⟨?_, ?_⟩⟩
  · simp [answers, Run.collect, cachedVerify, hform, hother]
  · simp [answers, Run.collect, cachedVerify, hform, hspend, hkey]

end Callchain.Shielded

/-
# The storage of the shielded pool

`ShieldedStorage` keeps the pool in EVM storage slots: the spent nullifiers with a log
for pruning, the incremental commitment tree with a history of its roots, a rate limit
for each address, and the protocol balances that deposits and withdrawals move. Each
family of slots is a field, and different keys are taken to have different slots. The
proof verifier and the hash of the tree are parameters.
-/
import Callchain.Shielded.Verifier
import Callchain.Lib.Run

namespace Callchain.Shielded

open Function (update)

/-! ### Nullifiers -/

/-- The slots about nullifiers: the spent flag, the block it was set at, the
compressed set, and the log in the order of spending. -/
structure NullifierSet where
  spent : Bytes32 → Bool := fun _ => false
  height : Bytes32 → U64 := fun _ => 0
  bitset : U64 → U256 := fun _ => 0
  log : U64 → Bytes32 := fun _ => 0
  count : U64 := 0
  windowBlocks : U64 := 0

def noteWindowBlocks : U64 := 100800

def nullifierBitsetBuckets : ℕ := 4096

def maxPrunePerCall : ℕ := 1000

namespace NullifierSet

/-- `load_window_blocks` -/
def window (ns : NullifierSet) : U64 :=
  if ns.windowBlocks = 0 then noteWindowBlocks else ns.windowBlocks

/-- The bucket of a nullifier: its first eight bytes. -/
def bucket (nullifier : Bytes32) : U64 :=
  BitVec.ofNat 64 (nullifier.toNat % 2 ^ 64 % nullifierBitsetBuckets)

/-- The mask in the bucket: byte 8 chooses a byte of the word, the most significant
first, and a bit of it. -/
def mask (nullifier : Bytes32) : U256 :=
  let bit := byteAt nullifier 8 % 256
  1 <<< (8 * (31 - bit / 8) + bit % 8)

/-- `mark_nullifier_spent` -/
def mark (ns : NullifierSet) (nullifier : Bytes32) (currentBlock : U64) : NullifierSet :=
  { ns with
    spent := update ns.spent nullifier true
    height := update ns.height nullifier currentBlock
    bitset := update ns.bitset (bucket nullifier)
      (ns.bitset (bucket nullifier) ||| mask nullifier)
    log := update ns.log ns.count nullifier
    count := ns.count + 1 }

/-- The loop of `transfer` over `mark_nullifier_spent`. -/
def markAll (ns : NullifierSet) (nullifiers : List Bytes32) (currentBlock : U64) : NullifierSet :=
  nullifiers.foldl (fun ns nullifier => ns.mark nullifier currentBlock) ns

/-- The nullifier was spent a note window ago, or longer. One that was spent
at block 0 never expires. -/
def Expired (ns : NullifierSet) (nullifier : Bytes32) (currentBlock : U64) : Prop :=
  ns.height nullifier ≠ 0 ∧ ns.window.toNat ≤ currentBlock.toNat - (ns.height nullifier).toNat

instance (ns : NullifierSet) (nullifier : Bytes32) (currentBlock : U64) :
    Decidable (ns.Expired nullifier currentBlock) := by unfold Expired; infer_instance

def clear (ns : NullifierSet) (nullifier : Bytes32) : NullifierSet :=
  { ns with
    spent := update ns.spent nullifier false
    height := update ns.height nullifier 0
    bitset := update ns.bitset (bucket nullifier)
      (ns.bitset (bucket nullifier) &&& ~~~ mask nullifier) }

/-- The loop over the log from entry `i` stops at the first entry that is not expired,
and counts those cleared. -/
def pruneLoop (currentBlock : U64) : ℕ → U64 → NullifierSet → NullifierSet × U64
  | 0, i, ns => (ns, i)
  | fuel + 1, i, ns =>
    if ns.Expired (ns.log i) currentBlock then
      pruneLoop currentBlock fuel (i + 1) (ns.clear (ns.log i))
    else (ns, i)

/-- `prune_expired_nullifiers`: the cleared entries leave the log, and the
others move to its front. -/
def pruneExpired (ns : NullifierSet) (currentBlock : U64) : NullifierSet × U64 :=
  let (cleared, pruned) := pruneLoop currentBlock (min ns.count.toNat maxPrunePerCall) 0 ns
  if pruned > 0 then
    let newCount := ns.count - pruned
    let log := (List.range newCount.toNat).foldl
      (fun log i => update log (BitVec.ofNat 64 i) (log (BitVec.ofNat 64 i + pruned)))
      cleared.log
    ({ cleared with log := log, count := newCount }, pruned)
  else (cleared, pruned)

end NullifierSet

/-! ### Commitments -/

/-- The slots about commitments: the nodes of the tree, its root, the ring of earlier
roots, and the commitments with their blocks. -/
structure CommitmentTree where
  node : ℕ → U64 → Bytes32 := fun _ _ => 0
  root : Bytes32 := 0
  rootHistory : U64 → Bytes32 := fun _ => 0
  rootHistoryCount : U64 := 0
  commitment : U64 → Bytes32 := fun _ => 0
  commitmentHeight : U64 → U64 := fun _ => 0
  contains : Bytes32 → Bool := fun _ => false
  count : U64 := 0

def maxCommitments : U64 := 1000000

def maxRootHistory : ℕ := 256

variable (hash : List Fp → Fp)

def poseidonHashPair (left right : Bytes32) : Bytes32 := fpToBytes (hash [bytesToFp left, bytesToFp right])

def emptyHash : ℕ → Bytes32
  | 0 => 0
  | level + 1 => poseidonHashPair hash (emptyHash level) (emptyHash level)

namespace CommitmentTree

/-- The root goes into the ring before it changes. -/
def recordRootHistory (t : CommitmentTree) : CommitmentTree :=
  if t.root = 0 then t
  else
    { t with
      rootHistory := update t.rootHistory
        (BitVec.ofNat 64 (t.rootHistoryCount.toNat % maxRootHistory)) t.root
      rootHistoryCount :=
        if t.rootHistoryCount = BitVec.allOnes 64 then t.rootHistoryCount else t.rootHistoryCount + 1 }

/-- The root of the tree or one of the ring. -/
def isValidRoot (t : CommitmentTree) (merkleRoot : Bytes32) : Bool :=
  if merkleRoot = t.root then true
  else
    let count := t.rootHistoryCount.toNat
    (List.range (min count maxRootHistory)).any fun i =>
      let idx := if count ≤ maxRootHistory then i else (count - maxRootHistory + i) % maxRootHistory
      t.rootHistory (BitVec.ofNat 64 idx) = merkleRoot

/-- The loop of `insert_commitment`, `fuel` levels from `level` on: the node is stored,
and hashed with its left sibling or an empty one. -/
def insertLevels : ℕ → ℕ → U64 → Bytes32 → (ℕ → U64 → Bytes32) → (ℕ → U64 → Bytes32) × Bytes32
  | 0, _, _, current, node => (node, current)
  | fuel + 1, level, idx, current, node =>
    let node := update node level (update (node level) idx current)
    let parent :=
      if idx &&& 1 = 0 then poseidonHashPair hash current (emptyHash hash level)
      else poseidonHashPair hash (node level (idx - 1)) current
    insertLevels fuel (level + 1) (idx >>> 1) parent node

def insertCommitment (t : CommitmentTree) (commitment : Bytes32) (currentBlock : U64) : CommitmentTree :=
  let (node, root) := insertLevels hash 32 0 t.count commitment t.node
  { recordRootHistory { t with node := node } with
    root := root
    commitmentHeight := update t.commitmentHeight t.count currentBlock }

def append (t : CommitmentTree) (commitment : Bytes32) (currentBlock : U64) : CommitmentTree :=
  let t := t.insertCommitment hash commitment currentBlock
  { t with
    contains := update t.contains commitment true
    commitment := update t.commitment t.count commitment
    count := t.count + 1 }

end CommitmentTree

/-! ### The pool -/

inductive ShieldedError where
  | insufficientBalance
  | balanceOverflow
  | merkleRootMismatch
  | invalidZkProof
  | zkProofError (e : String)
  | nullifierAlreadySpent
  | emptyBatch
  | merkleTreeFull
  | paused
  | commitmentAlreadyExists
  | rateLimitExceeded
  | invalidAmount
  | pruneTooFrequent
  deriving DecidableEq

structure Pool where
  nullifiers : NullifierSet := {}
  tree : CommitmentTree := {}
  paused : Bool := false
  addrOps : Address → U64 := fun _ => 0
  addrOpsBlock : Address → U64 := fun _ => 0
  lastPruneBlock : U64 := 0
  balance : U64 → Address → U128

def maxOpsPerAddressPerBlock : U64 := 20

def minShieldedAmount : U128 := 1

def maxTransferNullifiers : ℕ := 16

def maxTransferCommitments : ℕ := 16

def minPruneIntervalBlocks : ℕ := 100

abbrev Verify := Bytes → U32 → Statement → Except String Bool

namespace Pool

def checkRateLimit (s : Pool) (addr : Address) (currentBlock : U64) : Except ShieldedError Pool :=
  let count := if s.addrOpsBlock addr = currentBlock then s.addrOps addr else 0
  if count ≥ maxOpsPerAddressPerBlock then .error .rateLimitExceeded
  else .ok { s with
    addrOpsBlock := update s.addrOpsBlock addr currentBlock
    addrOps := update s.addrOps addr (count + 1) }

def saveBal (s : Pool) (assetId : U64) (addr : Address) (amount : U128) : Pool :=
  { s with balance := update s.balance assetId (update (s.balance assetId) addr amount) }

def checkProof : Except String Bool → Except ShieldedError Unit
  | .ok true => .ok ()
  | .ok false => .error .invalidZkProof
  | .error e => .error (.zkProofError e)

variable (verify : Verify)

def deposit (s : Pool) (assetId : U64) (amount : U128) (commitment : Bytes32) (proofData : Bytes)
    (keyVersion : U32) (caller : Address) (currentBlock : U64) : Pool × Except ShieldedError Unit :=
  if s.paused then (s, .error .paused)
  else match s.checkRateLimit caller currentBlock with
  | .error e => (s, .error e)
  | .ok s =>
    if amount = 0 ∨ amount < minShieldedAmount then (s, .error .invalidAmount)
    else if commitment = 0 then (s, .error .invalidZkProof)
    else if proofData = [] ∨ proofData.length > 20000 then (s, .error .invalidZkProof)
    else match checkProof (verify proofData keyVersion (.deposit commitment amount assetId)) with
    | .error e => (s, .error e)
    | .ok () =>
      if s.tree.contains commitment then (s, .error .commitmentAlreadyExists)
      else if s.balance assetId caller < amount then (s, .error .insufficientBalance)
      else
        let s := s.saveBal assetId caller (s.balance assetId caller - amount)
        if s.tree.count ≥ maxCommitments then (s, .error .merkleTreeFull)
        else ({ s with tree := s.tree.append hash commitment currentBlock }, .ok ())

def withdraw (s : Pool) (assetId : U64) (target : Address) (amount : U128) (nullifier : Bytes32)
    (merkleRoot : Bytes32) (proofData : Bytes) (keyVersion : U32) (caller : Address)
    (currentBlock : U64) : Pool × Except ShieldedError Unit :=
  if s.paused then (s, .error .paused)
  else match s.checkRateLimit caller currentBlock with
  | .error e => (s, .error e)
  | .ok s =>
    if amount = 0 ∨ amount < minShieldedAmount then (s, .error .invalidAmount)
    else if target = 0 then (s, .error .invalidAmount)
    else if ¬ s.tree.isValidRoot merkleRoot then (s, .error .merkleRootMismatch)
    else if proofData = [] ∨ proofData.length > 20000 then (s, .error .invalidZkProof)
    else match checkProof (verify proofData keyVersion
        (.withdraw nullifier assetId amount merkleRoot target)) with
    | .error e => (s, .error e)
    | .ok () =>
      if s.nullifiers.spent nullifier then (s, .error .nullifierAlreadySpent)
      else
        let s := { s with nullifiers := s.nullifiers.mark nullifier currentBlock }
        if 2 ^ 128 ≤ (s.balance assetId target).toNat + amount.toNat then
          (s, .error .balanceOverflow)
        else
          let s := s.saveBal assetId target (s.balance assetId target + amount)
          ({ s with nullifiers := (s.nullifiers.pruneExpired currentBlock).1 }, .ok ())

/-- The loop of `transfer` over the new commitments. -/
def insertAll (currentBlock : U64) : List Bytes32 → Pool → Pool × Except ShieldedError Unit
  | [], s => (s, .ok ())
  | cm :: cms, s =>
    if s.tree.contains cm then (s, .error .commitmentAlreadyExists)
    else if s.tree.count ≥ maxCommitments then (s, .error .merkleTreeFull)
    else insertAll currentBlock cms { s with tree := s.tree.append hash cm currentBlock }

def transfer (s : Pool) (assetId : U64) (proofData : Bytes) (nullifiers commitments : List Bytes32)
    (merkleRoot : Bytes32) (keyVersion : U32) (caller : Address) (currentBlock : U64) :
    Pool × Except ShieldedError Unit :=
  if s.paused then (s, .error .paused)
  else match s.checkRateLimit caller currentBlock with
  | .error e => (s, .error e)
  | .ok s =>
    if nullifiers.length > maxTransferNullifiers then (s, .error .invalidZkProof)
    else if commitments.length > maxTransferCommitments then (s, .error .invalidZkProof)
    else if nullifiers = [] ∨ commitments = [] then (s, .error .emptyBatch)
    else if nullifiers.length ≠ commitments.length then (s, .error .invalidZkProof)
    else if ¬ s.tree.isValidRoot merkleRoot then (s, .error .merkleRootMismatch)
    else if proofData = [] ∨ proofData.length > 20000 then (s, .error .invalidZkProof)
    else match checkProof (verify proofData keyVersion
        (.transfer nullifiers commitments assetId merkleRoot)) with
    | .error e => (s, .error e)
    | .ok () =>
      if ¬ nullifiers.Nodup then (s, .error .nullifierAlreadySpent)
      else if nullifiers.any s.nullifiers.spent then (s, .error .nullifierAlreadySpent)
      else
        let s := { s with nullifiers := s.nullifiers.markAll nullifiers currentBlock }
        match insertAll hash currentBlock commitments s with
        | (s, .error e) => (s, .error e)
        | (s, .ok ()) =>
          ({ s with nullifiers := (s.nullifiers.pruneExpired currentBlock).1 }, .ok ())

/-- Anybody may call it, but not more often than every `minPruneIntervalBlocks`. -/
def pruneNullifiers (s : Pool) (currentBlock : U64) : Pool × Except ShieldedError Unit :=
  if s.lastPruneBlock ≠ 0 ∧ currentBlock.toNat - s.lastPruneBlock.toNat < minPruneIntervalBlocks then
    (s, .error .pruneTooFrequent)
  else
    ({ s with
      lastPruneBlock := currentBlock
      nullifiers := (s.nullifiers.pruneExpired currentBlock).1 }, .ok ())

end Pool

/-! ### Calls -/

inductive Op where
  | deposit (assetId : U64) (amount : U128) (commitment : Bytes32)
  | withdraw (assetId : U64) (target : Address) (amount : U128) (nullifier merkleRoot : Bytes32)
  | transfer (assetId : U64) (nullifiers commitments : List Bytes32) (merkleRoot : Bytes32)
  | pruneNullifiers

structure Call where
  op : Op
  proofData : Bytes := []
  keyVersion : U32 := 0
  caller : Address
  block : U64

def Call.statement (c : Call) : Option Statement :=
  match c.op with
  | .deposit assetId amount commitment => some (.deposit commitment amount assetId)
  | .withdraw assetId target amount nullifier merkleRoot =>
    some (.withdraw nullifier assetId amount merkleRoot target)
  | .transfer assetId nullifiers commitments merkleRoot =>
    some (.transfer nullifiers commitments assetId merkleRoot)
  | .pruneNullifiers => none

def Call.nullifiers (c : Call) : List Bytes32 := (c.statement.map Statement.nullifiers).getD []

section Nullifiers

variable {c : Call}

theorem Call.nullifiers_deposit {aid : U64} {amount : U128} {commitment : Bytes32}
    (hop : c.op = .deposit aid amount commitment) : c.nullifiers = [] := by
  rw [Call.nullifiers, Call.statement, hop]
  rfl

theorem Call.nullifiers_withdraw {aid : U64} {target : Address} {amount : U128}
    {nullifier root : Bytes32} (hop : c.op = .withdraw aid target amount nullifier root) :
    c.nullifiers = [nullifier] := by
  rw [Call.nullifiers, Call.statement, hop]
  rfl

theorem Call.nullifiers_transfer {aid : U64} {nullifiers cms : List Bytes32} {root : Bytes32}
    (hop : c.op = .transfer aid nullifiers cms root) : c.nullifiers = nullifiers := by
  rw [Call.nullifiers, Call.statement, hop]
  rfl

theorem Call.nullifiers_pruneNullifiers (hop : c.op = .pruneNullifiers) : c.nullifiers = [] := by
  rw [Call.nullifiers, Call.statement, hop]
  rfl

end Nullifiers

variable (verify : Verify)

def exec (s : Pool) (c : Call) : Pool × Except ShieldedError Unit :=
  match c.op with
  | .deposit assetId amount commitment =>
    s.deposit hash verify assetId amount commitment c.proofData c.keyVersion c.caller c.block
  | .withdraw assetId target amount nullifier merkleRoot =>
    s.withdraw verify assetId target amount nullifier merkleRoot c.proofData c.keyVersion c.caller c.block
  | .transfer assetId nullifiers commitments merkleRoot =>
    s.transfer hash verify assetId c.proofData nullifiers commitments merkleRoot c.keyVersion c.caller
      c.block
  | .pruneNullifiers => s.pruneNullifiers c.block

def Succeeds (s : Pool) (c : Call) : Bool := (exec hash verify s c).2.isOk

/-- The pool after the call; `reverting` says whether a failed call is taken
back. -/
def step (reverting : Bool) (s : Pool) (c : Call) : Pool :=
  if reverting && !Succeeds hash verify s c then s else (exec hash verify s c).1

/-- The nullifiers that a successful call spends. -/
def accepted (s : Pool) (c : Call) : List Bytes32 :=
  if Succeeds hash verify s c then c.nullifiers else []

/-! ### What a call can do -/

inductive Inserted (currentBlock : U64) : List Bytes32 → CommitmentTree → CommitmentTree → Prop
  | nil {t : CommitmentTree} : Inserted currentBlock [] t t
  | cons {cm : Bytes32} {cms : List Bytes32} {t t' : CommitmentTree} : t.contains cm = false →
      t.count < maxCommitments → Inserted currentBlock cms (t.append hash cm currentBlock) t' →
      Inserted currentBlock (cm :: cms) t t'

inductive Effect (s : Pool) (c : Call) : Pool × Except ShieldedError Unit → Prop
  | failed {t : Pool} {e : ShieldedError} :
      t.nullifiers = s.nullifiers ∨ t.nullifiers = s.nullifiers.markAll c.nullifiers c.block →
      Effect s c (t, .error e)
  | deposited {t : Pool} {assetId : U64} {amount : U128} {commitment : Bytes32} :
      c.op = .deposit assetId amount commitment →
      verify c.proofData c.keyVersion (.deposit commitment amount assetId) = .ok true →
      Inserted hash c.block [commitment] s.tree t.tree → t.nullifiers = s.nullifiers →
      Effect s c (t, .ok ())
  | withdrawn {t : Pool} {assetId : U64} {target : Address} {amount : U128}
      {nullifier merkleRoot : Bytes32} :
      c.op = .withdraw assetId target amount nullifier merkleRoot → s.tree.isValidRoot merkleRoot →
      verify c.proofData c.keyVersion (.withdraw nullifier assetId amount merkleRoot target) = .ok true →
      s.nullifiers.spent nullifier = false → t.tree = s.tree →
      t.nullifiers = ((s.nullifiers.markAll [nullifier] c.block).pruneExpired c.block).1 →
      Effect s c (t, .ok ())
  | transferred {t : Pool} {assetId : U64} {nullifiers commitments : List Bytes32}
      {merkleRoot : Bytes32} :
      c.op = .transfer assetId nullifiers commitments merkleRoot → s.tree.isValidRoot merkleRoot →
      verify c.proofData c.keyVersion (.transfer nullifiers commitments assetId merkleRoot) = .ok true →
      nullifiers.Nodup → (∀ nf ∈ nullifiers, s.nullifiers.spent nf = false) →
      Inserted hash c.block commitments s.tree t.tree →
      t.nullifiers = ((s.nullifiers.markAll nullifiers c.block).pruneExpired c.block).1 →
      Effect s c (t, .ok ())
  | pruned {t : Pool} : c.op = .pruneNullifiers → t.tree = s.tree →
      t.nullifiers = (s.nullifiers.pruneExpired c.block).1 → Effect s c (t, .ok ())

variable {hash verify} {s t : Pool}

theorem checkRateLimit_ok {addr : Address} {b : U64} (h : s.checkRateLimit addr b = .ok t) :
    t.nullifiers = s.nullifiers ∧ t.tree = s.tree := by
  unfold Pool.checkRateLimit at h
  dsimp only at h
  split_ifs at h
  · cases h
    exact ⟨rfl, rfl⟩
  · cases h
    exact ⟨rfl, rfl⟩

theorem checkProof_ok {r : Except String Bool} (h : Pool.checkProof r = .ok ()) : r = .ok true := by
  unfold Pool.checkProof at h
  split at h
  · rfl
  · cases h
  · cases h

theorem insertAll_spec (hash : List Fp → Fp) (b : U64) : ∀ (cms : List Bytes32) (s : Pool),
    (Pool.insertAll hash b cms s).1.nullifiers = s.nullifiers ∧
      ((Pool.insertAll hash b cms s).2 = .ok () →
        Inserted hash b cms s.tree (Pool.insertAll hash b cms s).1.tree)
  | [], s => ⟨rfl, fun _ => .nil⟩
  | cm :: cms, s => by
    unfold Pool.insertAll
    split_ifs with hc hn
    · exact ⟨rfl, fun h => by cases h⟩
    · exact ⟨rfl, fun h => by cases h⟩
    · obtain ⟨h1, h2⟩ := insertAll_spec hash b cms { s with tree := s.tree.append hash cm b }
      exact ⟨h1, fun h => .cons (by simpa using hc) (by simpa using hn) (h2 h)⟩

variable {c : Call}

theorem Effect.guard {p : Prop} [Decidable p] {e : ShieldedError}
    {out : Pool × Except ShieldedError Unit} (ht : t.nullifiers = s.nullifiers)
    (hout : ¬ p → Effect hash verify s c out) :
    Effect hash verify s c (if p then (t, .error e) else out) := by
  split_ifs with h
  · exact .failed (.inl ht)
  · exact hout h

theorem deposit_effect {aid : U64} {amount : U128} {commitment : Bytes32}
    (hop : c.op = .deposit aid amount commitment) :
    Effect hash verify s c (s.deposit hash verify aid amount commitment c.proofData c.keyVersion
      c.caller c.block) := by
  refine .guard rfl fun _ => ?_
  cases hr : s.checkRateLimit c.caller c.block with
  | error => exact .failed (.inl rfl)
  | ok =>
    obtain ⟨hn, ht⟩ := checkRateLimit_ok hr
    refine .guard hn fun _ => .guard hn fun _ => .guard hn fun _ => ?_
    cases hp : Pool.checkProof
        (verify c.proofData c.keyVersion (.deposit commitment amount aid)) with
    | error e => exact .failed (.inl hn)
    | ok u =>
      refine .guard hn fun hnew => .guard hn fun _ => .guard hn fun hfull => ?_
      refine .deposited hop (checkProof_ok hp) ?_ hn
      rw [← ht]
      exact .cons (by simpa using hnew) (by simpa [Pool.saveBal] using hfull) .nil

theorem withdraw_effect {aid : U64} {target : Address} {amount : U128}
    {nullifier root : Bytes32} (hop : c.op = .withdraw aid target amount nullifier root) :
    Effect hash verify s c (s.withdraw verify aid target amount nullifier root c.proofData
      c.keyVersion c.caller c.block) := by
  have hnf : c.nullifiers = [nullifier] := Call.nullifiers_withdraw hop
  refine .guard rfl fun _ => ?_
  cases hr : s.checkRateLimit c.caller c.block with
  | error => exact .failed (.inl rfl)
  | ok =>
    obtain ⟨hn, ht⟩ := checkRateLimit_ok hr
    refine .guard hn fun _ => .guard hn fun _ => .guard hn fun hroot => .guard hn fun _ => ?_
    cases hp : Pool.checkProof
        (verify c.proofData c.keyVersion (.withdraw nullifier aid amount root target)) with
    | error e => exact .failed (.inl hn)
    | ok u =>
      refine .guard hn fun hspe => ?_
      dsimp only
      split_ifs
      · -- the nullifier is marked before the target's balance is found too large
        refine .failed (.inr ?_)
        rw [hnf, ← hn]
        rfl
      · rw [ht] at hroot
        rw [hn] at hspe
        refine .withdrawn hop (by simpa using hroot) (checkProof_ok hp) (by simpa using hspe) ht ?_
        rw [← hn]
        rfl

theorem transfer_effect {aid : U64} {nullifiers cms : List Bytes32}
    {root : Bytes32} (hop : c.op = .transfer aid nullifiers cms root) :
    Effect hash verify s c (s.transfer hash verify aid c.proofData nullifiers cms
      root c.keyVersion c.caller c.block) := by
  have hnf : c.nullifiers = nullifiers := Call.nullifiers_transfer hop
  refine .guard rfl fun _ => ?_
  cases hr : s.checkRateLimit c.caller c.block with
  | error => exact .failed (.inl rfl)
  | ok t =>
    obtain ⟨hn, ht⟩ := checkRateLimit_ok hr
    refine .guard hn fun _ => .guard hn fun _ => .guard hn fun _ => .guard hn fun _ =>
      .guard hn fun hroot => .guard hn fun _ => ?_
    cases hp : Pool.checkProof
        (verify c.proofData c.keyVersion (.transfer nullifiers cms aid root)) with
    | error e => exact .failed (.inl hn)
    | ok u =>
      refine .guard hn fun hnod => .guard hn fun hspe => ?_
      obtain ⟨h1, h2⟩ := insertAll_spec hash c.block cms
        { t with nullifiers := t.nullifiers.markAll nullifiers c.block }
      dsimp only
      generalize Pool.insertAll hash c.block cms
        { t with nullifiers := t.nullifiers.markAll nullifiers c.block } = out at h1 h2 ⊢
      obtain ⟨t', r⟩ := out
      rw [hn] at h1 hspe
      rw [ht] at hroot h2
      cases r with
      | error => exact .failed (.inr (h1.trans (by rw [hnf])))
      | ok =>
        refine .transferred hop (by simpa using hroot) (checkProof_ok hp) (by simpa using hnod)
          (by simpa using hspe) (h2 rfl) ?_
        rw [h1]

theorem exec_effect (c : Call) : Effect hash verify s c (exec hash verify s c) := by
  cases hop : c.op with rw [exec, hop]
  | deposit => exact deposit_effect hop
  | withdraw => exact withdraw_effect hop
  | transfer => exact transfer_effect hop
  | pruneNullifiers => exact .guard rfl fun _ => .pruned hop rfl rfl

end Callchain.Shielded

/-
# The header chain of the Ethereum light client

The client keeps verified headers by block number, from a trusted anchor on. A header
enters them on three ways: `submit_header` inserts it above its verified parent,
`flush_buffer` moves it from the buffer of early arrivals once its number is next, and
`handle_reorg` inserts it after it has unwound the headers above the one its parent hash
names. Block numbers are `u64`; sums wrap.
-/
import Callchain.LightClient.Types
import Callchain.Lib.Run

namespace Callchain.LightClient

structure SyncCommittee where
  pubkeys : List (BitVec 384)
  aggregatePubkey : BitVec 384
  deriving DecidableEq

structure BeaconConfig where
  forkVersion : BitVec 32
  genesisValidatorsRoot : B256

/-- The buffer is the `BTreeMap`'s list of entries, the least number first. -/
structure EthLightClient where
  genesis : GenesisState
  verifiedHeaders : ℕ → Option EthHeader
  latestBlock : ℕ
  finalizedBlock : Option (ℕ × B256)
  buffer : List (ℕ × EthHeader)
  beaconConfig : Option BeaconConfig
  syncCommittee : Option SyncCommittee
  currentSyncPeriod : ℕ

def MAX_BUFFER_SIZE : ℕ := 64

def insertAt (m : ℕ → Option EthHeader) (n : ℕ) (h : EthHeader) : ℕ → Option EthHeader :=
  fun k => if k = n then some h else m k

@[simp] theorem insertAt_self (m : ℕ → Option EthHeader) (n : ℕ) (h : EthHeader) :
    insertAt m n h n = some h := if_pos rfl

variable {n : ℕ} {h : EthHeader} {s s' : EthLightClient}

theorem insertAt_of_ne {m : ℕ → Option EthHeader} {k : ℕ} (h : EthHeader) (hk : k ≠ n) :
    insertAt m n h k = m k := if_neg hk

/-- `BTreeMap::insert` -/
def bufferInsert (n : ℕ) (h : EthHeader) : List (ℕ × EthHeader) → List (ℕ × EthHeader)
  | [] => [(n, h)]
  | (m, g) :: rest =>
    if n < m then (n, h) :: (m, g) :: rest
    else if n = m then (n, h) :: rest
    else (m, g) :: bufferInsert n h rest

theorem mem_bufferInsert {e : ℕ × EthHeader} :
    ∀ {b : List (ℕ × EthHeader)}, e ∈ bufferInsert n h b → e = (n, h) ∨ e ∈ b
  | [], he => Or.inl (List.mem_singleton.1 he)
  | (m, g) :: rest, he => by
    unfold bufferInsert at he
    split_ifs at he with h1 h2
    · exact List.mem_cons.1 he
    · rcases List.mem_cons.1 he with he | he
      · exact .inl he
      · exact .inr (List.mem_cons_of_mem _ he)
    · rcases List.mem_cons.1 he with he | he
      · exact .inr (he ▸ List.mem_cons_self)
      · exact (mem_bufferInsert he).imp_right (List.mem_cons_of_mem _)

namespace EthLightClient

def initWithBeaconConfig (genesis : GenesisState) (beaconConfig : Option BeaconConfig) :
    EthLightClient where
  genesis := genesis
  verifiedHeaders :=
    insertAt (fun _ => none) genesis.anchorBlock ⟨[], genesis.anchorHash⟩
  latestBlock := genesis.anchorBlock
  finalizedBlock := none
  buffer := []
  beaconConfig := beaconConfig
  syncCommittee := none
  currentSyncPeriod := 0

def init (genesis : GenesisState) : EthLightClient := initWithBeaconConfig genesis none

def buffered (s : EthLightClient) (n : ℕ) : Bool := s.buffer.any (·.1 = n)

def insertHeader (s : EthLightClient) (n : ℕ) (h : EthHeader) : EthLightClient :=
  { s with
    verifiedHeaders := insertAt s.verifiedHeaders n h
    latestBlock := if n > s.latestBlock then n else s.latestBlock }

/-- No check but that the number is free. -/
def insertVerifiedHeader (s : EthLightClient) (h : EthHeader) :
    Except LightClientError EthLightClient := do
  let blockNum ← orInvalidHeader "cannot decode block number" h.number
  if (s.verifiedHeaders blockNum).isSome then .error (.duplicateHeader blockNum)
  else .ok (s.insertHeader blockNum h)

/-- The lowest buffered header whose parent's number is verified. -/
def nextBuffered (s : EthLightClient) : Option (ℕ × EthHeader) :=
  s.buffer.find? fun e => (s.verifiedHeaders (e.1 - 1)).isSome

/-- The entry at `n` leaves the buffer and its header is inserted, or dropped. -/
def takeBuffered (s : EthLightClient) (n : ℕ) (h : EthHeader) : EthLightClient :=
  let s := { s with buffer := s.buffer.filter (·.1 ≠ n) }
  match s.insertVerifiedHeader h with
  | .ok s' => s'
  | .error _ => s

/-- The loop of `flush_buffer`, for at most `fuel` turns. -/
def flushLoop : ℕ → EthLightClient → EthLightClient
  | 0, s => s
  | fuel + 1, s =>
    match s.nextBuffered with
    | none => s
    | some (n, h) => flushLoop fuel (s.takeBuffered n h)

/-- Every turn takes an entry from the buffer. -/
def flushBuffer (s : EthLightClient) : EthLightClient := flushLoop s.buffer.length s

/-- The search of `handle_reorg` from `anchor + k - 1` down to the anchor. -/
def forkSearch (s : EthLightClient) (parentHash : B256) : ℕ → Option ℕ
  | 0 => none
  | k + 1 =>
    if (s.verifiedHeaders (s.genesis.anchorBlock + k)).any (·.blockHash = parentHash) then
      some (s.genesis.anchorBlock + k)
    else forkSearch s parentHash k

def forkPoint (s : EthLightClient) (parentHash : B256) : Option ℕ :=
  s.forkSearch parentHash (s.latestBlock + 1 - s.genesis.anchorBlock)

def unwind (s : EthLightClient) (fork : ℕ) : EthLightClient :=
  { s with
    verifiedHeaders := fun n =>
      if (fork + 1) % 2 ^ 64 ≤ n ∧ n ≤ s.latestBlock then none else s.verifiedHeaders n
    latestBlock := fork }

def unwound (s : EthLightClient) (fork : ℕ) : List EthHeader :=
  (List.range' ((fork + 1) % 2 ^ 64) (s.latestBlock + 1 - (fork + 1) % 2 ^ 64)).filterMap
    s.verifiedHeaders

/-- The unwound headers and the new state. -/
def handleReorg (s : EthLightClient) (h : EthHeader) :
    Except LightClientError (List EthHeader × EthLightClient) := do
  let blockNum ← orInvalidHeader "cannot decode block number" h.number
  let parentHash ← orInvalidHeader "cannot decode parent hash" h.parentHash
  match s.forkPoint parentHash with
  | none => .error (.headerNotFound (blockNum - 1))
  | some fork =>
    if s.finalizedBlock.any fun f => fork ≤ f.1 then .error (.beforeFinalized fork)
    else .ok (s.unwound fork, (s.unwind fork).insertHeader blockNum h)

def handleReorgAndSubmit (s : EthLightClient) (h : EthHeader) :
    Except LightClientError EthLightClient := do
  let (_, s) ← s.handleReorg h
  .ok s.flushBuffer

/-- `submit_header` where the parent's number is not verified: the header is kept for
later, if there is room and it is not too far ahead. -/
def bufferHeader (s : EthLightClient) (blockNum : ℕ) (h : EthHeader) :
    Except LightClientError EthLightClient :=
  if s.buffer.length ≥ MAX_BUFFER_SIZE then .error .bufferFull
  else if s.buffered (blockNum - 1) ∨
      blockNum ≤ (s.latestBlock + MAX_BUFFER_SIZE) % 2 ^ 64 then
    .ok { s with buffer := bufferInsert blockNum h s.buffer }
  else .error (.headerNotVerified (blockNum - 1) s.latestBlock)

def submitHeader (keccak : Bytes → B256) (s : EthLightClient) (h : EthHeader) :
    Except LightClientError EthLightClient := do
  let blockNum ← orInvalidHeader "cannot decode block number" h.number
  if blockNum ≤ s.genesis.anchorBlock then .error (.beforeAnchor blockNum)
  else if (s.verifiedHeaders blockNum).isSome then .error (.duplicateHeader blockNum)
  else if s.buffered blockNum then .error (.duplicateHeader blockNum)
  else
    match s.verifiedHeaders (blockNum - 1) with
    | some parent => do
      let actualParent ← orInvalidHeader "cannot decode parent hash" h.parentHash
      if actualParent ≠ parent.blockHash then s.handleReorgAndSubmit h
      else if keccak h.rlpBytes ≠ h.blockHash then
        .error (.invalidHeader "block hash does not match RLP encoding")
      else .ok (s.insertHeader blockNum h).flushBuffer
    | none => s.bufferHeader blockNum h

def setFinalizedBlock (s : EthLightClient) (block : ℕ) (hash : B256) : EthLightClient :=
  { s with finalizedBlock := some (block, hash) }

def isConsensusVerified (s : EthLightClient) (block : ℕ) : Bool :=
  s.finalizedBlock.any fun f => block ≤ f.1

/-- The least number to keep: that of the anchor or of the finalized block, `u64::MAX`
standing for none. -/
def minKeep (s : EthLightClient) : ℕ :=
  min s.genesis.anchorBlock ((s.finalizedBlock.map (·.1)).getD (2 ^ 64 - 1))

/-- `verified_headers.retain(|&k, _| k >= from)` -/
def retainFrom (s : EthLightClient) (n : ℕ) : EthLightClient :=
  { s with verifiedHeaders := fun k => if n ≤ k then s.verifiedHeaders k else none }

def setAnchor (s : EthLightClient) (block : ℕ) (hash : B256) : EthLightClient :=
  { s with genesis := { s.genesis with anchorBlock := block, anchorHash := hash } }

/-- With `prune_headers_before` at its end. -/
def advanceAnchor (s : EthLightClient) (block : ℕ) (hash : B256) :
    Except LightClientError EthLightClient :=
  if (s.verifiedHeaders block).isNone then .error (.anchorNotVerified block)
  else
    match s.finalizedBlock.filter (block ≤ ·.1) with
    | some (n, _) => .error (.beforeFinalized n)
    | none => .ok ((s.setAnchor block hash).retainFrom (s.setAnchor block hash).minKeep)

/-- The number of headers removed is not modelled. -/
def pruneHeaders (s : EthLightClient) (beforeBlock : ℕ) : EthLightClient :=
  s.retainFrom (max beforeBlock ((s.minKeep + 1) % 2 ^ 64))

end EthLightClient

open EthLightClient

inductive HeaderOp
  | submitHeader (h : EthHeader)
  | handleReorg (h : EthHeader)
  | setFinalizedBlock (block : ℕ) (hash : B256)
  | advanceAnchor (block : ℕ) (hash : B256)
  | pruneHeaders (beforeBlock : ℕ)

/-- What a call leaves; a call that returns an error changes nothing. -/
def headerStep (keccak : Bytes → B256) (s : EthLightClient) : HeaderOp → EthLightClient
  | .submitHeader h => (s.submitHeader keccak h).toOption.getD s
  | .handleReorg h => ((s.handleReorg h).toOption.map (·.2)).getD s
  | .setFinalizedBlock block hash => s.setFinalizedBlock block hash
  | .advanceAnchor block hash => (s.advanceAnchor block hash).toOption.getD s
  | .pruneHeaders beforeBlock => s.pruneHeaders beforeBlock

/-! ### What a call does -/

/-- Every way out of `headerStep`, with the checks that led there. -/
inductive HeaderEffect (keccak : Bytes → B256) (s : EthLightClient) :
    HeaderOp → EthLightClient → Prop
  | failed (op : HeaderOp) : HeaderEffect keccak s op s
  | buffered {h : EthHeader} {n : ℕ} (number : h.number = .ok n) :
    HeaderEffect keccak s (.submitHeader h) { s with buffer := bufferInsert n h s.buffer }
  | inserted {h parent : EthHeader} {n : ℕ} (number : h.number = .ok n)
    (above : s.genesis.anchorBlock < n) (free : s.verifiedHeaders n = none)
    (stored : s.verifiedHeaders (n - 1) = some parent)
    (links : h.parentHash = .ok parent.blockHash) (hash : keccak h.rlpBytes = h.blockHash) :
    HeaderEffect keccak s (.submitHeader h) (s.insertHeader n h).flushBuffer
  | reorgSubmitted {h parent : EthHeader} {n fork : ℕ} {parentHash : B256}
    (number : h.number = .ok n) (stored : s.verifiedHeaders (n - 1) = some parent)
    (parentOk : h.parentHash = .ok parentHash) (differs : parentHash ≠ parent.blockHash)
    (found : s.forkPoint parentHash = some fork) (open_ : s.isConsensusVerified fork = false) :
    HeaderEffect keccak s (.submitHeader h) ((s.unwind fork).insertHeader n h).flushBuffer
  | reorged {h : EthHeader} {n fork : ℕ} {parentHash : B256}
    (number : h.number = .ok n) (parentOk : h.parentHash = .ok parentHash)
    (found : s.forkPoint parentHash = some fork) (open_ : s.isConsensusVerified fork = false) :
    HeaderEffect keccak s (.handleReorg h) ((s.unwind fork).insertHeader n h)
  | finalized (block : ℕ) (hash : B256) :
    HeaderEffect keccak s (.setFinalizedBlock block hash) (s.setFinalizedBlock block hash)
  | advanced {block : ℕ} {hash : B256} (n : ℕ) :
    HeaderEffect keccak s (.advanceAnchor block hash) ((s.setAnchor block hash).retainFrom n)
  | pruned (beforeBlock n : ℕ) :
    HeaderEffect keccak s (.pruneHeaders beforeBlock) (s.retainFrom n)

theorem handleReorg_ok {old : List EthHeader} (hok : s.handleReorg h = .ok (old, s')) :
    ∃ n parentHash fork, h.number = .ok n ∧ h.parentHash = .ok parentHash ∧
      s.forkPoint parentHash = some fork ∧ s.isConsensusVerified fork = false ∧
      s' = (s.unwind fork).insertHeader n h := by
  obtain ⟨n, hn, hok⟩ := except_bind_eq_ok.1 hok
  obtain ⟨parentHash, hp, hok⟩ := except_bind_eq_ok.1 hok
  cases hf : s.forkPoint parentHash with
  | none => rw [hf] at hok; simp at hok
  | some fork =>
    rw [hf] at hok
    dsimp only at hok
    split_ifs at hok with hfin
    obtain ⟨-, rfl⟩ := Prod.mk.inj (Except.ok.inj hok)
    exact ⟨n, parentHash, fork, orInvalidHeader_eq_ok.1 hn, orInvalidHeader_eq_ok.1 hp, hf,
      by simpa [isConsensusVerified] using hfin, rfl⟩

theorem submitHeader_ok {keccak : Bytes → B256} (hok : s.submitHeader keccak h = .ok s') :
    ∃ n, h.number = .ok n ∧ s.genesis.anchorBlock < n ∧ s.verifiedHeaders n = none ∧
      s.buffered n = false ∧ (s' = { s with buffer := bufferInsert n h s.buffer } ∨
        ∃ parent parentHash, s.verifiedHeaders (n - 1) = some parent ∧
          h.parentHash = .ok parentHash ∧
          ((parentHash = parent.blockHash ∧ keccak h.rlpBytes = h.blockHash ∧
              s' = (s.insertHeader n h).flushBuffer) ∨
            (parentHash ≠ parent.blockHash ∧ ∃ fork, s.forkPoint parentHash = some fork ∧
              s.isConsensusVerified fork = false ∧
              s' = ((s.unwind fork).insertHeader n h).flushBuffer))) := by
  obtain ⟨n, hn, hok⟩ := except_bind_eq_ok.1 hok
  have hnum := orInvalidHeader_eq_ok.1 hn
  obtain ⟨habo, hok⟩ := ite_error_eq_ok.1 hok
  obtain ⟨hdup, hok⟩ := ite_error_eq_ok.1 hok
  obtain ⟨hbuf, hok⟩ := ite_error_eq_ok.1 hok
  refine ⟨n, hnum, not_le.1 habo, by simpa using hdup, by simpa using hbuf, ?_⟩
  cases hpar : s.verifiedHeaders (n - 1) with rw [hpar] at hok
  | none =>
    dsimp only [bufferHeader] at hok
    split_ifs at hok
    exact .inl (Except.ok.inj hok).symm
  | some parent =>
    obtain ⟨parentHash, hp, hok⟩ := except_bind_eq_ok.1 hok
    refine .inr ⟨parent, parentHash, rfl, orInvalidHeader_eq_ok.1 hp, ?_⟩
    split_ifs at hok with hdiff hhash
    · -- the parent differs: reorg, then flush
      obtain ⟨⟨old, s1⟩, hr, hflu⟩ := except_bind_eq_ok.1 hok
      obtain ⟨n', ph', fork, hn', hph', hf, hopen, rfl⟩ := handleReorg_ok hr
      obtain rfl : n' = n := by simpa [hnum] using hn'.symm
      obtain rfl : ph' = parentHash := by simpa [orInvalidHeader_eq_ok.1 hp] using hph'.symm
      exact .inr ⟨hdiff, fork, hf, hopen, (Except.ok.inj hflu).symm⟩
    · exact .inl ⟨not_not.1 hdiff, not_not.1 hhash, (Except.ok.inj hok).symm⟩

theorem submitHeader_effect {keccak : Bytes → B256}
    (hok : s.submitHeader keccak h = .ok s') : HeaderEffect keccak s (.submitHeader h) s' := by
  obtain ⟨n, hn, habo, hfree, -, rfl | ⟨parent, parentHash, hpar, hp, ⟨rfl, hhash, rfl⟩ |
    ⟨hdiff, fork, hf, hopen, rfl⟩⟩⟩ := submitHeader_ok hok
  · exact .buffered hn
  · exact .inserted hn habo hfree hpar hp hhash
  · exact .reorgSubmitted hn hpar hp hdiff hf hopen

theorem HeaderEffect.of_step (keccak : Bytes → B256) (s : EthLightClient) (op : HeaderOp) :
    HeaderEffect keccak s op (headerStep keccak s op) := by
  cases op with
  | submitHeader h =>
    cases hr : s.submitHeader keccak h with
    | error => simpa [headerStep, hr, Except.toOption] using HeaderEffect.failed _
    | ok => simpa [headerStep, hr, Except.toOption] using submitHeader_effect hr
  | handleReorg h =>
    cases hr : s.handleReorg h with
    | error => simpa [headerStep, hr, Except.toOption] using HeaderEffect.failed _
    | ok r =>
      obtain ⟨old, s'⟩ := r
      obtain ⟨n, ph, fork, hn, hph, hf, hopen, rfl⟩ := handleReorg_ok hr
      simpa [headerStep, hr, Except.toOption] using HeaderEffect.reorged hn hph hf hopen
  | setFinalizedBlock block hash => exact .finalized block hash
  | advanceAnchor block =>
    simp only [headerStep, advanceAnchor]
    by_cases hv : (s.verifiedHeaders block).isNone
    · rw [if_pos hv]
      exact .failed _
    · rw [if_neg hv]
      cases hf : s.finalizedBlock.filter (block ≤ ·.1) with
      | none => exact .advanced _
      | some => exact .failed _
  | pruneHeaders => exact .pruned _ _

/-! ### The search and the flush -/

theorem forkSearch_some {parentHash : B256} : ∀ {k fork : ℕ},
    s.forkSearch parentHash k = some fork →
      ∃ h, s.verifiedHeaders fork = some h ∧ h.blockHash = parentHash
  | 0, _, h => by simp [forkSearch] at h
  | k + 1, fork, h => by
    unfold forkSearch at h
    split_ifs at h with hk
    · obtain rfl : s.genesis.anchorBlock + k = fork := by simpa using h
      cases hv : s.verifiedHeaders (s.genesis.anchorBlock + k) with
      | none => rw [hv] at hk; simp at hk
      | some g => rw [hv] at hk; exact ⟨g, rfl, by simpa using hk⟩
    · exact forkSearch_some h

theorem nextBuffered_some (hn : s.nextBuffered = some (n, h)) :
    (n, h) ∈ s.buffer ∧ ∃ parent, s.verifiedHeaders (n - 1) = some parent := by
  refine ⟨List.mem_of_find?_eq_some hn, ?_⟩
  have hp := List.find?_some hn
  exact Option.isSome_iff_exists.1 hp

@[simp] theorem takeBuffered_buffer (s : EthLightClient) (n : ℕ) (h : EthHeader) :
    (s.takeBuffered n h).buffer = s.buffer.filter (·.1 ≠ n) := by
  unfold takeBuffered insertVerifiedHeader
  cases orInvalidHeader "cannot decode block number" h.number with
  | error => rfl
  | ok k =>
    simp only [bind, Except.bind]
    by_cases hk : (s.verifiedHeaders k).isSome = true
    · rw [if_pos hk]
    · rw [if_neg hk]
      rfl

theorem takeBuffered_buffer_lt (hn : s.nextBuffered = some (n, h)) :
    (s.takeBuffered n h).buffer.length < s.buffer.length := by
  rw [takeBuffered_buffer]
  exact List.length_filter_lt_length_iff_exists.2 ⟨_, (nextBuffered_some hn).1, by simp⟩

/-- The turns that `flush_buffer` is given here are enough: it ends with no
buffered header that is next. -/
theorem flushLoop_done : ∀ (fuel : ℕ) (s : EthLightClient), s.buffer.length ≤ fuel →
    (flushLoop fuel s).nextBuffered = none
  | 0, s, hlen => by
    have hb : s.buffer = [] := List.eq_nil_of_length_eq_zero (by omega)
    simp [flushLoop, nextBuffered, hb]
  | fuel + 1, s, hlen => by
    unfold flushLoop
    cases hn : s.nextBuffered with
    | none => exact hn
    | some e =>
      have hlt := takeBuffered_buffer_lt (n := e.1) (h := e.2) hn
      exact flushLoop_done fuel _ (by omega)

theorem flushBuffer_done (s : EthLightClient) : s.flushBuffer.nextBuffered = none :=
  flushLoop_done _ s le_rfl

theorem flushBuffer_induction {P : EthLightClient → Prop}
    (hstep : ∀ s n h, P s → s.nextBuffered = some (n, h) → P (s.takeBuffered n h)) :
    ∀ {s : EthLightClient}, P s → P s.flushBuffer := by
  have hloop : ∀ (fuel : ℕ) (s : EthLightClient), P s → P (flushLoop fuel s) := by
    intro fuel
    induction fuel with
    | zero => exact fun s hs => hs
    | succ fuel ih =>
      intro s hs
      unfold flushLoop
      cases hn : s.nextBuffered with
      | none => exact hs
      | some e => exact ih _ (hstep s e.1 e.2 hs hn)
  exact fun {s} hs => hloop _ s hs

theorem flushBuffer_kept {b : ℕ} {g : EthHeader}
    (hb : s.verifiedHeaders b = some g) : s.flushBuffer.verifiedHeaders b = some g := by
  refine flushBuffer_induction (P := fun s => s.verifiedHeaders b = some g) ?_ hb
  intro s n h hs _
  unfold takeBuffered insertVerifiedHeader
  cases orInvalidHeader "cannot decode block number" h.number with
  | error => exact hs
  | ok k =>
    simp only [bind, Except.bind]
    by_cases hk : (s.verifiedHeaders k).isSome = true
    · rw [if_pos hk]
      exact hs
    · rw [if_neg hk]
      refine (insertAt_of_ne h ?_).trans hs
      rintro rfl
      simp [hs] at hk

end Callchain.LightClient

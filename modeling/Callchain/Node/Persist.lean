/-
# The consensus driver across a restart

The driver is saved as `postcard` writes it, numbers as varints and the hash as its
bytes, and the entry is read back as JSON. What `serde_json` accepts is a text, with the
last hash in it as digits. The saved bytes hold no such text (`fromSlice_toAllocvec`),
so no saved driver is ever loaded, and a restarted node begins at height zero
(`never_restored`).
-/
import Callchain.Lib.Run
import Callchain.Lib.Varint
import Callchain.Consensus.Simplex

namespace Callchain
namespace Consensus

open Validator Varint

structure PersistedConsensusState where
  currentHeight : U64
  currentRound : U64
  proposerSubset : List ValidatorId
  lastBlockHash : B256
  params : ConsensusParams
  deriving DecidableEq

namespace SimplexConsensus

def persistState (c : SimplexConsensus) : PersistedConsensusState where
  currentHeight := c.currentHeight
  currentRound := c.currentRound
  proposerSubset := c.proposerSubset
  lastBlockHash := c.lastBlockHash
  params := c.params

/-- The subset that was saved is not used. -/
def restoreFromPersisted (C : Crypto) (state : PersistedConsensusState) (v : ValidatorStorage) :
    SimplexConsensus where
  params := state.params
  currentRound := state.currentRound
  currentHeight := state.currentHeight
  proposerSubset := subsetFor C v state.params state.lastBlockHash state.currentRound
  lastBlockHash := state.lastBlockHash

end SimplexConsensus

/-! ### The bytes -/

def ConsensusParams.numbers (p : ConsensusParams) : List ℕ :=
  [p.maxValidators.toNat, p.subsetSize.toNat, p.blockTimeMillis.toNat, p.slashingWindow.toNat,
    p.oracleRequestDelayMs.toNat, p.epochLength.toNat, p.minSelfStake.toNat,
    p.unbondingPeriodBlocks.toNat, p.offlineSlashRateBps.toNat, p.keyRotationGraceBlocks.toNat,
    p.churnLimitQuotient.toNat, p.minChurnLimit.toNat, p.safetyRatioNum.toNat,
    p.safetyRatioDen.toNat, p.unbondingSlashExtend.toNat, p.maxUnbondingMultiplier.toNat]

namespace PersistedConsensusState

variable (state : PersistedConsensusState)

def tailBytes : Bytes :=
  varint 32 ++ state.lastBlockHash.asSlice ++ state.params.numbers.flatMap varint

/-- Every number is a varint, and a list and a byte string come after their length. -/
def toAllocvec : Bytes :=
  varint state.currentHeight.toNat ++ varint state.currentRound.toNat ++
    varint state.proposerSubset.length ++
    (state.proposerSubset.map BitVec.toNat).flatMap varint ++ state.tailBytes

theorem toAllocvec_eq : state.toAllocvec = [state.currentHeight.toNat, state.currentRound.toNat,
        state.proposerSubset.length].flatMap varint ++
      ((state.proposerSubset.map BitVec.toNat).flatMap varint ++ state.tailBytes) := by
  simp [toAllocvec, List.flatMap_cons, List.append_assoc]

theorem countP_low_tailBytes : state.tailBytes.countP low ≤ 49 := by
  have hlen : (varint 32).countP low = 1 := by
    simpa using countP_low_varints [32]
  have hhash : state.lastBlockHash.asSlice.countP low ≤ 32 :=
    List.countP_le_length.trans_eq (B256.asSlice_length _)
  have hpar : (state.params.numbers.flatMap varint).countP low = 16 := countP_low_varints _
  rw [tailBytes, List.countP_append, List.countP_append]
  omega

end PersistedConsensusState

/-! ### The text that a reader of JSON accepts -/

def jsonSpace : Bytes := [0x20, 0x0a, 0x0d, 0x09]

/-- `,` and `:` -/
def jsonSeparator : Bytes := [0x2c, 0x3a]

/-- The characters of a string of hex digits: the digits, the `x` of a `0x`, and
the backslash and the `u` of an escape. -/
def hexText : Bytes :=
  ['0', '1', '2', '3', '4', '5', '6', '7', '8', '9', 'a', 'b', 'c', 'd', 'e', 'f',
    'A', 'B', 'C', 'D', 'E', 'F', 'x', '\\', 'u'].map fun c => UInt8.ofNat c.toNat

def arrayText : Bytes :=
  ['0', '1', '2', '3', '4', '5', '6', '7', '8', '9', ',', ' ', '\n', '\r', '\t'].map
    fun c => UInt8.ofNat c.toNat

/-- A value of 32 bytes with the separator before it: a string of 64 hex digits,
or an array of 32 numbers, which has 31 commas. -/
inductive HashText : Bytes → Prop
  | string {sep : UInt8} {space digits : Bytes} (hsep : sep ∈ jsonSeparator)
      (hspace : space ⊆ jsonSpace) (hdigits : digits ⊆ hexText) (hlength : 64 ≤ digits.length) :
      HashText (sep :: (space ++ 0x22 :: digits))
  | array {sep : UInt8} {space entries : Bytes} (hsep : sep ∈ jsonSeparator)
      (hspace : space ⊆ jsonSpace) (hentries : entries ⊆ arrayText)
      (hlength : 63 ≤ entries.length) :
      HashText (sep :: (space ++ 0x5b :: entries))

/-- `serde_json::from_slice` for `PersistedConsensusState`. A text it accepts is an
object or an array with the last hash in it, so it is the text of a hash with three
characters or more before it. -/
structure SerdeJson where
  fromSlice : Bytes → Option PersistedConsensusState
  hash : ∀ {data : Bytes} {state : PersistedConsensusState}, fromSlice data = some state →
    ∃ pre text post, data = pre ++ (text ++ post) ∧ 3 ≤ pre.countP low ∧ HashText text

theorem low_of_mem_jsonSeparator : ∀ b ∈ jsonSeparator, low b = true := by simp [jsonSeparator, low]

theorem low_of_mem_jsonSpace : ∀ b ∈ jsonSpace, low b = true := by simp [jsonSpace, low]

theorem low_of_mem_hexText : ∀ b ∈ hexText, low b = true := by simp [hexText, low]

theorem low_of_mem_arrayText : ∀ b ∈ arrayText, low b = true := by simp [arrayText, low]

theorem quote_lt_separator : ∀ sep ∈ jsonSeparator, (0x22 : UInt8) < sep := by
  simp [jsonSeparator]

theorem space_lt_separator : ∀ b ∈ jsonSpace, ∀ sep ∈ jsonSeparator, b < sep := by
  simp [jsonSpace, jsonSeparator]

theorem arrayText_lt_bracket : ∀ b ∈ arrayText, b < (0x5b : UInt8) := by simp [arrayText]

theorem length_le_countP_low {part whole : Bytes} (hlow : ∀ b ∈ part, low b = true)
    (h : part <:+: whole) : part.length ≤ whole.countP low := by
  rw [← List.countP_eq_length.2 hlow]
  exact h.sublist.countP_le

/-- Where numbers in order and a rest hold the text of a hash, its digits are in the
rest: the text has a descent before them. -/
theorem HashText.le_countP_low {text : Bytes} (htext : HashText text) {ns : List ℕ}
    (hns : ns.Pairwise (· ≤ ·)) {rest pre post : Bytes}
    (h : ns.flatMap varint ++ rest = pre ++ (text ++ post)) : 63 ≤ rest.countP low := by
  cases htext with
  | @string sep space digits hsep hspa hdig hlen =>
    have hlow : ∀ b ∈ digits, low b = true := fun b hb => low_of_mem_hexText b (hdig hb)
    suffices hin : digits <:+: rest from
      (Nat.le_of_succ_le hlen).trans (length_le_countP_low hlow hin)
    cases space with
    | nil =>
      obtain ⟨pre', hrest⟩ := descent_after hns h (low_of_mem_jsonSeparator sep hsep) (by decide)
        (quote_lt_separator sep hsep)
      exact ⟨pre' ++ [0x22], post, by simp [hrest]⟩
    | cons b space =>
      have hb : b ∈ jsonSpace := hspa List.mem_cons_self
      obtain ⟨pre', hrest⟩ := descent_after hns h (low_of_mem_jsonSeparator sep hsep)
        (low_of_mem_jsonSpace b hb) (space_lt_separator b hb sep hsep)
      exact ⟨pre' ++ b :: space ++ [0x22], post, by simp [hrest]⟩
  | @array sep space entries hsep hspa hent hlen =>
    have hlow : ∀ b ∈ entries, low b = true := fun b hb => low_of_mem_arrayText b (hent hb)
    suffices hin : entries <:+: rest from hlen.trans (length_le_countP_low hlow hin)
    cases entries with
    | nil => exact absurd hlen (by decide)
    | cons e entries =>
      have he : e ∈ arrayText := hent List.mem_cons_self
      have h' : ns.flatMap varint ++ rest =
          (pre ++ sep :: space) ++ 0x5b :: e :: (entries ++ post) := by simp [h]
      obtain ⟨pre', hrest⟩ := descent_after hns h' (by decide) (hlow e List.mem_cons_self)
        (arrayText_lt_bracket e he)
      exact ⟨pre', post, by simp [hrest]⟩

theorem fromSlice_toAllocvec (J : SerdeJson) {state : PersistedConsensusState}
    (hsor : state.proposerSubset.Pairwise (· ≤ ·)) : J.fromSlice state.toAllocvec = none := by
  rw [Option.eq_none_iff_forall_ne_some]
  intro state' hacc
  obtain ⟨pre, text, post, hdata, hpre, htext⟩ := J.hash hacc
  have hids : (state.proposerSubset.map BitVec.toNat).Pairwise (· ≤ ·) :=
    List.pairwise_map.2 (hsor.imp fun hle => BitVec.le_def.1 hle)
  -- the three numbers before the subset have a low byte each, so the text comes after them
  have haft : ∃ pre', (state.proposerSubset.map BitVec.toNat).flatMap varint ++
      state.tailBytes = pre' ++ (text ++ post) := by
    rw [state.toAllocvec_eq] at hdata
    cases htext with
    | string hsep => exact after_varints hdata (low_of_mem_jsonSeparator _ hsep) hpre
    | array hsep => exact after_varints hdata (low_of_mem_jsonSeparator _ hsep) hpre
  obtain ⟨pre', haft⟩ := haft
  have hmany := htext.le_countP_low hids haft
  have hfew := state.countP_low_tailBytes
  omega

/-! ### A subset is in order -/

theorem selectProposerSubset_sorted (C : Crypto) (validators : List ValidatorId)
    (validatorPubkeys : ValidatorId → Option Bytes32) (seed : B256) (subsetSize : BitVec 32) :
    (selectProposerSubset C validators validatorPubkeys seed subsetSize).Pairwise (· ≤ ·) := by
  unfold selectProposerSubset
  split_ifs
  · exact List.Pairwise.nil
  · exact List.pairwise_insertionSort _ _

end Consensus

namespace Node

open Consensus Validator

/-! ### Save and load -/

/-- The entry is not read, or there is none. -/
inductive LoadError where
  | deserializeConsensus
  | noConsensusState
  deriving DecidableEq

/-- `save_consensus_state_inner`: the entry of the table. -/
def saveConsensusState (c : SimplexConsensus) : Option Bytes :=
  some c.persistState.toAllocvec

/-- `load_consensus_state_inner`, with the function that reads the entry and the
validators of the database. -/
def loadConsensusState (fromSlice : Bytes → Option PersistedConsensusState) (C : Crypto)
    (entry : Option Bytes) (v : ValidatorStorage) : Except LoadError SimplexConsensus :=
  match entry with
  | some data =>
    match fromSlice data with
    | some state => .ok (SimplexConsensus.restoreFromPersisted C state v)
    | none => .error .deserializeConsensus
  | none => .error .noConsensusState

/-- The driver that a node starts with: after a crash, or if none is loaded, one
at height zero with the default parameters. -/
def restart (fromSlice : Bytes → Option PersistedConsensusState) (C : Crypto)
    (recoveryNeeded : Bool) (entry : Option Bytes) (v : ValidatorStorage) : SimplexConsensus :=
  if recoveryNeeded then SimplexConsensus.new C v {}
  else
    match loadConsensusState fromSlice C entry v with
    | .ok consensus => consensus
    | .error _ => SimplexConsensus.new C v {}

/-! ### The runs of the driver -/

inductive DriverCall where
  | commitBlock (block : Block)
  | advanceRound
  | processEpochChurn
  | handleDoubleSign (validatorId : ValidatorId)
  | handleOffline (validatorId : ValidatorId) (roundsOffline : U64)
  | handleOracleOutlier (validatorId : ValidatorId)

/-- A call; one that fails changes nothing. -/
def driverStep (C : Crypto) (s : SimplexConsensus × ValidatorStorage) :
    DriverCall → SimplexConsensus × ValidatorStorage
  | .commitBlock block =>
    match s.1.commitBlock C block with
    | .ok c => (c, s.2)
    | .error _ => s
  | .advanceRound => s.1.advanceRound C s.2
  | .processEpochChurn => (s.1, s.1.processEpochChurn s.2)
  | .handleDoubleSign validatorId =>
    (s.1, settled s.2 (SimplexConsensus.handleDoubleSign s.2 validatorId))
  | .handleOffline validatorId roundsOffline =>
    (s.1, settled s.2 (s.1.handleOffline s.2 validatorId roundsOffline))
  | .handleOracleOutlier validatorId =>
    (s.1, settled s.2 (SimplexConsensus.handleOracleOutlier s.2 validatorId))

theorem driverStep_sorted {C : Crypto} {s : SimplexConsensus × ValidatorStorage}
    (h : s.1.proposerSubset.Pairwise (· ≤ ·)) (call : DriverCall) :
    (driverStep C s call).1.proposerSubset.Pairwise (· ≤ ·) := by
  cases call with
  | commitBlock block =>
    dsimp only [driverStep]
    cases hcom : s.1.commitBlock C block with
    | error => exact h
    | ok =>
      obtain ⟨-, rfl⟩ := (SimplexConsensus.commitBlock_eq_ok C).1 hcom
      exact h
  | advanceRound =>
    dsimp only [driverStep, SimplexConsensus.advanceRound]
    split_ifs
    · exact selectProposerSubset_sorted ..
    · exact h
  | _ => exact h

theorem run_sorted (C : Crypto) (v : ValidatorStorage) (params : ConsensusParams)
    (calls : List DriverCall) :
    (Run.run (driverStep C) (SimplexConsensus.new C v params, v) calls).1.proposerSubset.Pairwise
      (· ≤ ·) := by
  have hnew : (SimplexConsensus.new C v params).proposerSubset.Pairwise (· ≤ ·) :=
    selectProposerSubset_sorted ..
  have hstep : ∀ (s : SimplexConsensus × ValidatorStorage) (call : DriverCall),
      s.1.proposerSubset.Pairwise (· ≤ ·) → True →
      (driverStep C s call).1.proposerSubset.Pairwise (· ≤ ·) :=
    fun _ call hs _ => driverStep_sorted hs call
  exact Run.invariant hstep (Run.along_of_forall fun _ _ => trivial) hnew

/-! ### Across a restart -/

/-- A restart loads the driver that was saved: it has the same height, round,
last hash, subset and proposer, and the same verdict on every block. -/
def Restores (fromSlice : Bytes → Option PersistedConsensusState) (C : Crypto)
    (c : SimplexConsensus) (v : ValidatorStorage) : Prop :=
  ∃ c', loadConsensusState fromSlice C (saveConsensusState c) v = .ok c' ∧
    c'.currentHeight = c.currentHeight ∧ c'.currentRound = c.currentRound ∧
    c'.lastBlockHash = c.lastBlockHash ∧ c'.proposerSubset = c.proposerSubset ∧
    c'.currentProposer = c.currentProposer ∧
    ∀ block parentHash fm,
      c'.validateBlock block parentHash fm = c.validateBlock block parentHash fm

variable {fromSlice : Bytes → Option PersistedConsensusState}

theorem load_of_none {C : Crypto}
    {c : SimplexConsensus} {v : ValidatorStorage} (h : fromSlice c.persistState.toAllocvec = none) :
    loadConsensusState fromSlice C (saveConsensusState c) v = .error .deserializeConsensus := by
  simp only [loadConsensusState, saveConsensusState, h]

theorem restores_iff {C : Crypto} {c : SimplexConsensus} {v : ValidatorStorage}
    (h : fromSlice c.persistState.toAllocvec = some c.persistState) : Restores fromSlice C c v ↔
      SimplexConsensus.subsetFor C v c.params c.lastBlockHash c.currentRound =
        c.proposerSubset := by
  have hload : loadConsensusState fromSlice C (saveConsensusState c) v =
      .ok (c.recomputeProposerSubset C v) := by
    simp only [loadConsensusState, saveConsensusState, h]
    rfl
  constructor
  · rintro ⟨c', hc', -, -, -, hsub, -, -⟩
    rw [hload, Except.ok.injEq] at hc'
    rw [← hc'] at hsub
    exact hsub
  · intro hsub
    have hsame : c.recomputeProposerSubset C v = c := by
      rw [SimplexConsensus.recomputeProposerSubset, hsub]
    rw [hsame] at hload
    exact ⟨c, hload, rfl, rfl, rfl, rfl, rfl, fun _ _ _ => rfl⟩

/-- **No driver is restored.** A driver that is saved in any run from a new one is not loaded
again. Were the entry read as it was written, the restart would lead back to the driver exactly if
its subset is the one of the last hash and the round of the moment. -/
theorem never_restored (J : SerdeJson) (C : Crypto) (v : ValidatorStorage)
    (params : ConsensusParams) (calls : List DriverCall) :
    let s := Run.run (driverStep C) (SimplexConsensus.new C v params, v) calls
    ¬ Restores J.fromSlice C s.1 s.2 ∧
      loadConsensusState J.fromSlice C (saveConsensusState s.1) s.2 = .error .deserializeConsensus ∧
      (∀ recoveryNeeded,
        restart J.fromSlice C recoveryNeeded (saveConsensusState s.1) s.2 = .new C s.2 {}) ∧
      ∀ fromSlice, fromSlice s.1.persistState.toAllocvec = some s.1.persistState →
        (Restores fromSlice C s.1 s.2 ↔
          SimplexConsensus.subsetFor C s.2 s.1.params s.1.lastBlockHash s.1.currentRound =
            s.1.proposerSubset) := by
  intro s
  have hsor : s.1.persistState.proposerSubset.Pairwise (· ≤ ·) := run_sorted C v params calls
  have hload : loadConsensusState J.fromSlice C (saveConsensusState s.1) s.2 =
      .error .deserializeConsensus := load_of_none (fromSlice_toAllocvec J hsor)
  refine ⟨?_, hload, ?_, fun fromSlice h => restores_iff h⟩
  · rintro ⟨c', hc', -⟩
    rw [hload] at hc'
    cases hc'
  · intro recoveryNeeded
    cases recoveryNeeded with
    | true => rfl
    | false =>
      rw [restart, hload]
      rfl

/-- A reader that accepts the one text `[0,0,[],"00…00",{}]`. -/
def oneText : SerdeJson where
  fromSlice := fun data =>
    if data = [0x5b, 0x30, 0x2c, 0x30, 0x2c, 0x5b, 0x5d] ++
        (0x2c :: ([] ++ 0x22 :: List.replicate 64 0x30) ++ [0x22, 0x2c, 0x7b, 0x7d, 0x5d])
    then some ⟨0, 0, [], 0, {}⟩ else none
  hash := by
    intro data state h
    split_ifs at h with hdata
    refine ⟨_, _, _, hdata, by decide, .string (by decide) (List.nil_subset _) ?_ ?_⟩
    · intro b hb
      rw [List.eq_of_mem_replicate hb]
      simp [hexText]
    · exact (List.length_replicate ..).ge

def roundCrypto : Crypto where
  keccak256 := fun bytes => BitVec.ofNat 256 (bytes.getD 32 0).toNat
  vrfSortitionScore := fun pubkey seed => pubkey ^^^ seed

def twoValidators : ValidatorStorage where
  validatorAddr := fun id => id.setWidth 160
  stake := fun _ => 1
  pubkey := fun addr => addr.setWidth 256 - 1
  status := fun _ => 1
  validatorCount := 2

def oneRoundOn : SimplexConsensus × ValidatorStorage :=
  Run.run (driverStep roundCrypto)
    (.new roundCrypto twoValidators { subsetSize := 1, minSelfStake := 1 }, twoValidators)
    [.advanceRound]

theorem never_restored_one_round_on :
    ¬ Restores oneText.fromSlice roundCrypto oneRoundOn.1 oneRoundOn.2 ∧ ¬ Restores
        (fun data => if data = oneRoundOn.1.persistState.toAllocvec
          then some oneRoundOn.1.persistState else none) roundCrypto oneRoundOn.1 oneRoundOn.2 := by
  obtain ⟨hjson, -, -, hpos⟩ := never_restored oneText roundCrypto twoValidators
    { subsetSize := 1, minSelfStake := 1 } [.advanceRound]
  refine ⟨hjson, fun h => ?_⟩
  have hsub := (hpos _ (if_pos rfl)).1 h
  exact absurd hsub (by decide)

/-- One round on, no reader of JSON loads the driver; and the subset of its epoch
is the first validator, where a restored driver would have the second. -/
theorem saved_driver_lost : (∀ J : SerdeJson,
      loadConsensusState J.fromSlice roundCrypto (saveConsensusState oneRoundOn.1) oneRoundOn.2 =
        .error .deserializeConsensus) ∧ oneRoundOn.1.proposerSubset = [1] ∧
      (SimplexConsensus.restoreFromPersisted roundCrypto oneRoundOn.1.persistState
        oneRoundOn.2).proposerSubset = [2] := by
  refine ⟨fun J => load_of_none (fromSlice_toAllocvec J ?_), by decide, by decide⟩
  exact run_sorted ..

end Node
end Callchain

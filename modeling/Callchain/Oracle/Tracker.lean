/-
# The oracle's tracker

`OracleTracker` (`oracle/src/tracker.rs`) buffers one submission for each validator and
pair. A submission that brings a pair to two thirds of the active validators closes it:
what is pending is aggregated and taken out. A submission is checked when it comes in,
not when it is used, so the ones already there may be of another block, or of a
validator that has been disabled or has left since.

The order in which the hash maps yield their entries is an argument of the calls.
-/
import Callchain.Consensus.Rollback
import Callchain.Oracle.Aggregate

namespace Callchain.Oracle

open Consensus Run

structure OracleValidatorInfo where
  validatorId : ValidatorId
  address : Address
  publicKey : Bytes32
  isActive : Bool
  outlierCount : BitVec 32
  lastSubmissionBlock : U64
  submissionCount : U64

abbrev Validators := AList fun _ : ValidatorId => OracleValidatorInfo

/-- `get_mut` and a write through it; nothing happens to an absent id. -/
def Validators.modify (validators : Validators) (id : ValidatorId)
    (f : OracleValidatorInfo → OracleValidatorInfo) : Validators where
  entries := validators.entries.map fun e => ⟨e.1, if e.1 = id then f e.2 else e.2⟩
  nodupKeys := by
    have hkeys : (validators.entries.map fun e => (⟨e.1, if e.1 = id then f e.2 else e.2⟩ :
        Sigma fun _ : ValidatorId => OracleValidatorInfo)).keys = validators.entries.keys := by
      simp [List.keys]
    rw [List.NodupKeys, hkeys]
    exact validators.nodupKeys

/-- Beside the contributors and outliers that the node reads, the pending submissions by
pair and validator, the strikes and the disabled validators. An absent count is zero. -/
structure OracleTracker extends Node.OracleTracker where
  pending : PricePair → AList fun _ : ValidatorId => OracleSubmission := fun _ => ∅
  outlierCounts : ValidatorId → BitVec 32 := fun _ => 0
  disabledValidators : Finset ValidatorId := ∅

inductive OracleError where
  | validatorNotFound
  | validatorDisabled
  | wrongPeriod
  | invalidSignature
  | insufficientDataSources (got need : ℕ)
  | disallowedSource (source : String)
  deriving DecidableEq

def maxPendingPerPair : ℕ := 256

def oracleQuorum (activeCount : ℕ) : ℕ :=
  if activeCount = 0 then 0 else max (min ((2 * activeCount + 2) / 3) activeCount) 1

/-- `oracle_message_hash` of a submission's fields. -/
def oracleMessageHash (s : OracleSubmission) : Bytes :=
  "CALL_ORACLE_V1".toUTF8.data.toList ++ toLeBytes 4 s.validatorId.toNat ++
    toLeBytes 8 s.pair.base.toNat ++ toLeBytes 8 s.pair.quote.toNat ++
    toLeBytes 16 s.price.toNat ++ toLeBytes 8 s.blockNumber.toNat ++ toLeBytes 8 s.timestamp.toNat

/-- The order in which a `HashMap` yields its values: any. -/
structure IterationOrder where
  values : List OracleSubmission → List OracleSubmission
  perm : ∀ l, (values l).Perm l

section Submit

variable (verify : Ed25519Verify) (t : OracleTracker) (submission : OracleSubmission)
  (config : OracleConfig) (validators : Validators)

/-- The checks of `submit_price`, in order. -/
def checkSubmission : Except OracleError Unit :=
  match validators.lookup submission.validatorId with
  | none => .error .validatorNotFound
  | some validator =>
    if validator.isActive = false ∨ submission.validatorId ∈ t.disabledValidators then
      .error .validatorDisabled
    else if ¬ config.updateInterval.toNat ∣ submission.blockNumber.toNat then .error .wrongPeriod
    else if verify validator.publicKey submission.signature (oracleMessageHash submission) = false
    then .error .invalidSignature
    else if submission.sources.length < config.minDataSources then
      .error (.insufficientDataSources submission.sources.length config.minDataSources)
    else if config.allowedSources.isEmpty then .ok ()
    else match submission.sources.find? (· ∉ config.allowedSources) with
      | some source => .error (.disallowedSource source)
      | none => .ok ()

def penalize (s : OracleTracker × Validators) (vid : ValidatorId) : OracleTracker × Validators :=
  let count := s.1.outlierCounts vid + 1
  let t := { s.1 with outlierCounts := Function.update s.1.outlierCounts vid count }
  if vid ∈ s.2 then
    if config.outlierTolerance ≤ count then
      ({ t with disabledValidators := insert vid t.disabledValidators },
        s.2.modify vid fun v => { v with outlierCount := count, isActive := false })
    else (t, s.2.modify vid fun v => { v with outlierCount := count })
  else (t, s.2)

def submissionsWith : AList fun _ : ValidatorId => OracleSubmission :=
  (t.pending submission.pair).insert submission.validatorId submission

def setPending (pair : PricePair) (subs : AList fun _ : ValidatorId => OracleSubmission) :
    OracleTracker :=
  { t with pending := Function.update t.pending pair subs }

def activeCount : ℕ := (validators.entries.filter (·.2.isActive)).length

variable (order : IterationOrder)

def usedSubmissions : List OracleSubmission :=
  order.values ((submissionsWith t submission).entries.map (·.2))

def recordSubmission : Validators :=
  validators.modify submission.validatorId fun v =>
    { v with
      lastSubmissionBlock := if v.lastSubmissionBlock < submission.blockNumber
        then submission.blockNumber else v.lastSubmissionBlock
      submissionCount := v.submissionCount + 1 }

/-- The rest of `submit_price`, for a submission that passed the checks. -/
def accept : (OracleTracker × Validators) × Option AggregatedPrice :=
  let pair := submission.pair
  let submissions := submissionsWith t submission
  let validators := recordSubmission submission validators
  if oracleQuorum (activeCount validators) ≤ submissions.entries.length then
    match aggregateSubmissions config (usedSubmissions t submission order) with
    -- a submission is in, so there is a middle one
    | none => ((setPending t pair ∅, validators), none)
    | some (aggregated, outliers, contributors) =>
      let t := { setPending t pair ∅ with
        lastOutliers := outliers, currentContributors := contributors }
      (outliers.foldl (penalize config) (t, validators), some aggregated)
  else if maxPendingPerPair ≤ submissions.entries.length then
    ((setPending t pair ∅, validators), none)
  else ((setPending t pair submissions, validators), none)

def OracleTracker.submitPrice :
    (OracleTracker × Validators) × Except OracleError (Option AggregatedPrice) :=
  match checkSubmission verify t submission config validators with
  | .error e => ((t, validators), .error e)
  | .ok () =>
    let r := accept t submission config validators order
    (r.1, .ok r.2)

end Submit

/-! ### Runs -/

inductive TrackerCall where
  | submitPrice (submission : OracleSubmission) (config : OracleConfig) (validators : Validators)
      (order : IterationOrder)
  | clearTracking
  | clearPending

def OracleTracker.step (verify : Ed25519Verify) (t : OracleTracker) : TrackerCall → OracleTracker
  | .submitPrice submission config validators order =>
    (t.submitPrice verify submission config validators order).1.1
  | .clearTracking => { t with currentContributors := [], lastOutliers := [] }
  | .clearPending => { t with pending := fun _ => ∅ }

variable (verify : Ed25519Verify)

def Signed (calls : List TrackerCall) (s : OracleSubmission) : Prop :=
  ∃ config validators order, TrackerCall.submitPrice s config validators order ∈ calls ∧
    ∃ v, validators.lookup s.validatorId = some v ∧
      verify v.publicKey s.signature (oracleMessageHash s) = true

def ActiveIn (t : OracleTracker) (validators : Validators) (id : ValidatorId) : Prop :=
  (∃ v, validators.lookup id = some v ∧ v.isActive = true) ∧ id ∉ t.disabledValidators

def eligibleCount (t : OracleTracker) (validators : Validators) : ℕ :=
  (validators.entries.filter fun e => e.2.isActive && e.1 ∉ t.disabledValidators).length

/-- The price is the aggregate of a quorum of signed submissions of one block. -/
structure SoundPrice (calls : List TrackerCall) (t : OracleTracker) (submission : OracleSubmission)
    (config : OracleConfig) (validators : Validators) (order : IterationOrder)
    (price : AggregatedPrice) : Prop where
  aggregated : (aggregateSubmissions config (usedSubmissions t submission order)).map (·.1) =
    some price
  distinct : ((usedSubmissions t submission order).map (·.validatorId)).Nodup
  quorum : (2 * eligibleCount t validators + 2) / 3 ≤ (usedSubmissions t submission order).length
  used : ∀ s ∈ usedSubmissions t submission order, s.pair = submission.pair ∧
    s.blockNumber = submission.blockNumber ∧ ActiveIn t validators s.validatorId ∧
    Signed verify calls s

/-- All other pending submissions are of this block and by active validators. -/
def Current (t : OracleTracker) (submission : OracleSubmission) (validators : Validators) : Prop :=
  ∀ id s, (t.pending submission.pair).lookup id = some s → id ≠ submission.validatorId →
    s.blockNumber = submission.blockNumber ∧ ActiveIn t validators id

/-! ### What a submission does -/

section Submitted

variable {verify} {t : OracleTracker} {sub : OracleSubmission} {config : OracleConfig}
  {validators : Validators} {order : IterationOrder}

theorem checkSubmission_ok (h : checkSubmission verify t sub config validators = .ok ()) :
    ∃ v, validators.lookup sub.validatorId = some v ∧ v.isActive = true ∧
      sub.validatorId ∉ t.disabledValidators ∧
      verify v.publicKey sub.signature (oracleMessageHash sub) = true := by
  unfold checkSubmission at h
  cases hv : validators.lookup sub.validatorId with
  | none => simp [hv] at h
  | some v =>
    rw [hv] at h
    obtain ⟨hact, h⟩ := ite_error_eq_ok.1 h
    obtain ⟨-, h⟩ := ite_error_eq_ok.1 h
    obtain ⟨hver, -⟩ := ite_error_eq_ok.1 h
    rw [not_or] at hact
    exact ⟨v, rfl, by simpa using hact.1, hact.2, by simpa using hver⟩

theorem foldl_penalize (vids : List ValidatorId) (s : OracleTracker × Validators) :
    let t := (vids.foldl (penalize config) s).1
    t.toOracleTracker = s.1.toOracleTracker ∧ t.pending = s.1.pending := by
  induction vids generalizing s with
  | nil => exact ⟨rfl, rfl⟩
  | cons vid vids ih =>
    rw [List.foldl_cons]
    dsimp only
    rw [(ih _).1, (ih _).2]
    unfold penalize
    dsimp only
    split_ifs <;> exact ⟨rfl, rfl⟩

theorem activeCount_recordSubmission :
    activeCount (recordSubmission sub validators) = activeCount validators := by
  unfold activeCount recordSubmission Validators.modify
  rw [← List.countP_eq_length_filter, ← List.countP_eq_length_filter, List.countP_map]
  refine List.countP_congr fun e _ => ?_
  dsimp only [Function.comp]
  split_ifs <;> rfl

theorem accept_pending (t : OracleTracker) (sub : OracleSubmission)
    (config : OracleConfig) (validators : Validators) (order : IterationOrder) :
    ∃ subs, (accept t sub config validators order).1.1.pending =
        Function.update t.pending sub.pair subs ∧ (subs = ∅ ∨ subs = submissionsWith t sub) := by
  unfold accept
  dsimp only
  split_ifs
  · split
    · exact ⟨∅, rfl, Or.inl rfl⟩
    · refine ⟨∅, ?_, Or.inl rfl⟩
      rw [(foldl_penalize _ _).2]
      rfl
  · exact ⟨∅, rfl, Or.inl rfl⟩
  · exact ⟨_, rfl, Or.inr rfl⟩

theorem accept_price {price : AggregatedPrice}
    (h : (accept t sub config validators order).2 = some price) :
    (aggregateSubmissions config (usedSubmissions t sub order)).map (·.1) = some price ∧
      oracleQuorum (activeCount validators) ≤ (usedSubmissions t sub order).length := by
  have hlen : (usedSubmissions t sub order).length = (submissionsWith t sub).entries.length := by
    rw [usedSubmissions, (order.perm _).length_eq, List.length_map]
  unfold accept at h
  dsimp only at h
  rw [activeCount_recordSubmission] at h
  split_ifs at h with hquo
  · rw [hlen]
    cases hused : aggregateSubmissions config (usedSubmissions t sub order) with
    | none => simp [hused] at h
    | some =>
      simp only [hused] at h
      exact ⟨h, hquo⟩

theorem oracleQuorum_eq (n : ℕ) : oracleQuorum n = (2 * n + 2) / 3 := by
  unfold oracleQuorum
  split_ifs with h
  · rw [h]
  · omega

theorem eligibleCount_le : eligibleCount t validators ≤ activeCount validators := by
  unfold eligibleCount activeCount
  rw [← List.countP_eq_length_filter, ← List.countP_eq_length_filter]
  refine List.countP_mono_left fun e _ he => ?_
  exact (Bool.and_eq_true_iff.1 he).1

theorem mem_usedSubmissions {s : OracleSubmission} :
    s ∈ usedSubmissions t sub order ↔ ∃ id, (submissionsWith t sub).lookup id = some s := by
  rw [usedSubmissions, (order.perm _).mem_iff, List.mem_map]
  constructor
  · rintro ⟨e, he, rfl⟩
    exact ⟨e.1, AList.mem_lookup_iff.2 he⟩
  · rintro ⟨id, hid⟩
    exact ⟨⟨id, s⟩, AList.mem_lookup_iff.1 hid, rfl⟩

theorem lookup_submissionsWith {id : ValidatorId} {s : OracleSubmission} :
    (submissionsWith t sub).lookup id = some s ↔ (id = sub.validatorId ∧ s = sub) ∨
        (id ≠ sub.validatorId ∧ (t.pending sub.pair).lookup id = some s) := by
  unfold submissionsWith
  by_cases hid : id = sub.validatorId
  · subst hid
    simp [AList.lookup_insert, eq_comm]
  · simp [AList.lookup_insert_ne hid, hid]

end Submitted

/-! ### What is pending -/

/-- Every pending submission is under its pair and validator, and was signed. -/
def Held (calls : List TrackerCall) (t : OracleTracker) : Prop :=
  ∀ pair id s, (t.pending pair).lookup id = some s →
    s.pair = pair ∧ s.validatorId = id ∧ Signed verify calls s

variable {verify}

theorem Signed.mono {calls calls' : List TrackerCall} {s : OracleSubmission}
    (h : Signed verify calls s) (hsub : calls ⊆ calls') : Signed verify calls' s := by
  obtain ⟨config, validators, order, hmem, hv⟩ := h
  exact ⟨config, validators, order, hsub hmem, hv⟩

variable {t : OracleTracker}

theorem Held.mono {calls calls' : List TrackerCall} (h : Held verify calls t)
    (hsub : calls ⊆ calls') : Held verify calls' t := fun pair id s hs =>
  let ⟨hpair, hid, hsig⟩ := h pair id s hs
  ⟨hpair, hid, hsig.mono hsub⟩

variable {calls : List TrackerCall}

theorem Held.of_empty (h : ∀ pair, t.pending pair = ∅) : Held verify calls t := by
  intro pair id s hs
  rw [h pair] at hs
  cases hs

theorem Held.submitPrice (h : Held verify calls t)
    {sub : OracleSubmission} {config : OracleConfig} {validators : Validators}
    {order : IterationOrder} (hcall : .submitPrice sub config validators order ∈ calls) :
    Held verify calls (t.submitPrice verify sub config validators order).1.1 := by
  unfold OracleTracker.submitPrice
  cases hche : checkSubmission verify t sub config validators with
  | error => exact h
  | ok =>
    obtain ⟨v, hv, -, -, hver⟩ := checkSubmission_ok hche
    obtain ⟨subs, hpen, hsubs⟩ := accept_pending t sub config validators order
    intro pair id s hs
    rw [hpen] at hs
    by_cases hpair : pair = sub.pair
    · rw [hpair, Function.update_self] at hs
      rcases hsubs with rfl | rfl
      · cases hs
      · rcases lookup_submissionsWith.1 hs with ⟨rfl, rfl⟩ | ⟨-, hs⟩
        · exact ⟨hpair.symm, rfl, config, validators, order, hcall, v, hv, hver⟩
        · rw [hpair]
          exact h _ id s hs
    · rw [Function.update_of_ne hpair] at hs
      exact h pair id s hs

theorem Held.run (calls : List TrackerCall) :
    Held verify calls (Run.run (OracleTracker.step verify) {} calls) := by
  induction calls using List.reverseRecOn with
  | nil => exact Held.of_empty fun _ => rfl
  | append_singleton calls call ih =>
    rw [run_append]
    have hheld := ih.mono (List.subset_append_left calls [call])
    cases call with
    | submitPrice => exact hheld.submitPrice (by simp)
    | clearTracking => exact hheld
    | clearPending => exact Held.of_empty fun _ => rfl

/-! ### The prices of a run -/

theorem usedSubmissions_nodup
    (hheld : Held verify calls t) (sub : OracleSubmission) (order : IterationOrder) :
    ((usedSubmissions t sub order).map (·.validatorId)).Nodup := by
  have hkeys : ((submissionsWith t sub).entries.map (·.2.validatorId)) =
      (submissionsWith t sub).keys := by
    refine List.map_congr_left fun e he => ?_
    rcases lookup_submissionsWith.1 (AList.mem_lookup_iff.2 he) with ⟨hid, hs⟩ | ⟨-, hs⟩
    · rw [hid, hs]
    · exact (hheld _ _ _ hs).2.1
  rw [usedSubmissions, ((order.perm _).map _).nodup_iff, List.map_map]
  exact hkeys ▸ AList.keys_nodup _

/-- **A price has a quorum.** Whatever the calls before it, a submission that returns a price has
computed it from submissions for one period by two thirds of the eligible validators, exactly when
what other validators had pending was current. -/
theorem price_sound_iff (verify : Ed25519Verify) (calls : List TrackerCall)
    (submission : OracleSubmission) (config : OracleConfig) (validators : Validators)
    (order : IterationOrder) (price : AggregatedPrice)
    (h : ((run (OracleTracker.step verify) {} calls).submitPrice verify submission config
      validators order).2 = .ok (some price)) :
    SoundPrice verify (calls ++ [.submitPrice submission config validators order])
        (run (OracleTracker.step verify) {} calls) submission config validators order price ↔
      Current (run (OracleTracker.step verify) {} calls) submission validators := by
  have hheld : Held verify calls (run (OracleTracker.step verify) {} calls) := Held.run calls
  generalize run (OracleTracker.step verify) {} calls = t at h hheld ⊢
  unfold OracleTracker.submitPrice at h
  cases hche : checkSubmission verify t submission config validators with
  | error => simp [hche] at h
  | ok =>
    obtain ⟨v, hv, hact, hena, hver⟩ := checkSubmission_ok hche
    simp only [hche, Except.ok.injEq] at h
    obtain ⟨hagg, hquo⟩ := accept_price h
    constructor
    · intro hsou id s hs hid
      have hused : s ∈ usedSubmissions t submission order :=
        mem_usedSubmissions.2 ⟨id, lookup_submissionsWith.2 (Or.inr ⟨hid, hs⟩)⟩
      obtain ⟨-, hblo, hin, -⟩ := hsou.used s hused
      exact ⟨hblo, (hheld _ _ _ hs).2.1 ▸ hin⟩
    · intro hcur
      refine ⟨hagg, usedSubmissions_nodup hheld submission order, ?_, fun s hs => ?_⟩
      · have hle : eligibleCount t validators ≤ activeCount validators := eligibleCount_le
        rw [oracleQuorum_eq] at hquo
        omega
      · obtain ⟨id, hid⟩ := mem_usedSubmissions.1 hs
        rcases lookup_submissionsWith.1 hid with ⟨rfl, rfl⟩ | ⟨hne, hpen⟩
        · exact ⟨rfl, rfl, ⟨⟨v, hv, hact⟩, hena⟩, config, validators, order, by simp, v, hv, hver⟩
        · obtain ⟨hpair, hsid, hsig⟩ := hheld _ _ _ hpen
          obtain ⟨hblo, hin⟩ := hcur id s hpen hne
          exact ⟨hpair, hblo, hsid ▸ hin, hsig.mono (List.subset_append_left _ _)⟩

def listedOrder : IterationOrder := ⟨id, fun _ => List.Perm.refl _⟩

def activeInfo (id : ValidatorId) : OracleValidatorInfo :=
  ⟨id, 0, id.setWidth 256, true, 0, 0, 0⟩

def threeActive : Validators :=
  ⟨[⟨1, activeInfo 1⟩, ⟨2, activeInfo 2⟩, ⟨3, activeInfo 3⟩], by unfold List.NodupKeys; decide⟩

def sourcedSubmission (id : ValidatorId) (price : U128) (blockNumber : U64) : OracleSubmission :=
  { submissionOf id price blockNumber with
    signature := [UInt8.ofNat id.toNat]
    sources := ["binance", "coinbase"] }

theorem price_sound_of_one_period : ∃ price, SoundPrice plainVerify
      [.submitPrice (sourcedSubmission 1 100 1000) {} threeActive listedOrder,
        .submitPrice (sourcedSubmission 2 101 1000) {} threeActive listedOrder]
      (run (OracleTracker.step plainVerify) {}
        [.submitPrice (sourcedSubmission 1 100 1000) {} threeActive listedOrder])
      (sourcedSubmission 2 101 1000) {} threeActive listedOrder price := by
  refine ⟨⟨⟨1, 0⟩, 101, 1000, 0, 2, 0⟩, (price_sound_iff plainVerify
    [.submitPrice (sourcedSubmission 1 100 1000) {} threeActive listedOrder] _ _ _ _ _ ?_).2 ?_⟩
  · decide
  · intro id s hs _
    have hs : ((∅ : AList fun _ : ValidatorId => OracleSubmission).insert 1
        (sourcedSubmission 1 100 1000)).lookup id = some s := hs
    by_cases hid : id = 1
    · subst hid
      rw [AList.lookup_insert] at hs
      cases hs
      exact ⟨rfl, ⟨activeInfo 1, rfl, rfl⟩, by decide⟩
    · rw [AList.lookup_insert_ne hid, AList.lookup_empty] at hs
      cases hs

/-- A submission for block 1000 and one for block 2000 make one price. -/
theorem price_of_two_periods : ((run (OracleTracker.step plainVerify) {}
      [.submitPrice (sourcedSubmission 1 100 1000) {} threeActive listedOrder]).submitPrice
        plainVerify (sourcedSubmission 2 101 2000) {} threeActive listedOrder).2 =
      .ok (some ⟨⟨1, 0⟩, 101, 2000, 0, 2, 0⟩) ∧
    (usedSubmissions (run (OracleTracker.step plainVerify) {}
      [.submitPrice (sourcedSubmission 1 100 1000) {} threeActive listedOrder])
        (sourcedSubmission 2 101 2000) listedOrder).map (·.blockNumber) = [2000, 1000] := by
  decide

end Callchain.Oracle

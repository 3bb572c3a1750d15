/-
# Aggregating price submissions

`aggregate_submissions` (`oracle/src/tracker.rs`) takes the pending submissions of a
pair out of a hash map, one for each validator: it sorts them by price, takes the middle
one as the price, marks what deviates too far as outliers and pays the others, in sorted
order. The sort is stable, so submissions of one price stay in the order in which the
map yields them, and the remainder of the reward goes to the first of them; the block
number is that of whichever submission comes first.
-/
import Callchain.Lib.SortByKey
import Callchain.Node.Finalize

namespace Callchain.Oracle

open Consensus

structure PricePair where
  base : U64
  quote : U64
  deriving DecidableEq

structure OracleSubmission where
  validatorId : ValidatorId
  pair : PricePair
  price : U128
  blockNumber : U64
  timestamp : U64
  signature : Bytes
  sources : List String
  deriving DecidableEq

structure AggregatedPrice where
  pair : PricePair
  medianPrice : U128
  blockNumber : U64
  timestamp : U64
  submissionCount : ℕ
  outlierCount : ℕ
  deriving DecidableEq

/-- The fields of `OracleConfig` that the tracker reads, with their defaults. -/
structure OracleConfig where
  updateInterval : U64 := 1000
  outlierThresholdBps : U64 := 500
  outlierTolerance : BitVec 32 := 10
  minDataSources : ℕ := 2
  /-- allowed data source names; none is no restriction -/
  allowedSources : List String := []

variable (config : OracleConfig)

/-- The deviation of a price from the median, in basis points; the product wraps,
as in a release build. -/
def deviationBps (price median : U128) : U128 :=
  if median < price then (price - median) * 10000 / median else (median - price) * 10000 / median

/-- The test of the outlier filter; with a median of zero there are none. -/
def isOutlier (median price : U128) : Bool :=
  median ≠ 0 && config.outlierThresholdBps.setWidth 128 < deviationBps price median

variable (submissions : List OracleSubmission)

def sortedPrices : List (ValidatorId × U128) :=
  sortByKey (·.2.toNat) (submissions.map fun s => (s.validatorId, s.price))

/-- The middle price; there is none where the index is out of bounds. -/
def median : Option U128 :=
  (sortedPrices submissions)[(sortedPrices submissions).length / 2]?.map Prod.snd

def outlierValidators (median : U128) : List ValidatorId :=
  ((sortedPrices submissions).filter fun e => isOutlier config median e.2).map Prod.fst

def contributors (median : U128) : List ValidatorId :=
  ((sortedPrices submissions).filter
    fun e => !(outlierValidators config submissions median).contains e.1).map Prod.fst

/-- The aggregated price; pair and block number are those of the first submission. -/
def aggregatedPrice (median : U128) : AggregatedPrice where
  pair := (submissions.head?.map (·.pair)).getD ⟨0, 0⟩
  medianPrice := median
  blockNumber := (submissions.head?.map (·.blockNumber)).getD 0
  timestamp := BitVec.ofNat 64 ((submissions.map (·.timestamp.toNat)).min?.getD 0)
  submissionCount := submissions.length
  outlierCount := (outlierValidators config submissions median).length

/-- The price, the outliers and the contributors, for the submissions in the order in
which the map yields them. Without submissions the index panics. -/
def aggregateSubmissions : Option (AggregatedPrice × List ValidatorId × List ValidatorId) :=
  (median submissions).map fun m =>
    (aggregatedPrice config submissions m, outlierValidators config submissions m,
      contributors config submissions m)

/-- The aggregate, its contributors as a set and the outliers in order. -/
def outcome : Option (AggregatedPrice × Finset ValidatorId × List ValidatorId) :=
  (aggregateSubmissions config submissions).map fun r => (r.1, r.2.1.toFinset, r.2.2)

/-- What `distribute_rewards` pays from the pool after the aggregation. -/
def rewards (pool : U128) : Option (List (ValidatorId × U128)) :=
  (aggregateSubmissions config submissions).map fun r =>
    Node.OracleTracker.distributeRewards
      { currentContributors := r.2.2, lastOutliers := r.2.1 } pool

/-! ### What does not depend on the order -/

variable {config submissions} {submissions' : List OracleSubmission}

theorem sortedPrices_perm :
    (sortedPrices submissions).Perm (submissions.map fun s => (s.validatorId, s.price)) :=
  sortByKey_perm _ _

theorem sortedPrices_length : (sortedPrices submissions).length = submissions.length := by
  rw [sortedPrices_perm.length_eq, List.length_map]

section

variable (h : submissions'.Perm submissions)
include h

theorem sortedPrices_of_perm : (sortedPrices submissions').Perm (sortedPrices submissions) :=
  (sortedPrices_perm.trans (h.map _)).trans sortedPrices_perm.symm

theorem map_price_sortedPrices :
    (sortedPrices submissions').map Prod.snd = (sortedPrices submissions).map Prod.snd := by
  have hkeys : (sortedPrices submissions').map (·.2.toNat) =
      (sortedPrices submissions).map (·.2.toNat) := map_key_sortByKey_of_perm (h.map _)
  have hpri := congrArg (List.map (BitVec.ofNat 128)) hkeys
  simpa only [List.map_map, Function.comp_def, BitVec.ofNat_toNat, BitVec.setWidth_eq] using hpri

theorem median_of_perm : median submissions' = median submissions := by
  unfold median
  rw [← List.getElem?_map, ← List.getElem?_map, map_price_sortedPrices h, sortedPrices_length,
    sortedPrices_length, h.length_eq]

theorem outlierValidators_of_perm (m : U128) :
    (outlierValidators config submissions' m).Perm (outlierValidators config submissions m) :=
  ((sortedPrices_of_perm h).filter _).map _

end

theorem contributors_eq (hids : (submissions.map (·.validatorId)).Nodup) (m : U128) :
    contributors config submissions m =
      ((sortedPrices submissions).filter fun e => !isOutlier config m e.2).map Prod.fst := by
  have hnod : ((sortedPrices submissions).map Prod.fst).Nodup := by
    rw [(sortedPrices_perm.map Prod.fst).nodup_iff, List.map_map]
    exact hids
  refine congrArg (List.map Prod.fst) (List.filter_congr fun e he => ?_)
  congr 1
  rw [Bool.eq_iff_iff, List.contains_iff_mem, outlierValidators, List.mem_map]
  constructor
  · rintro ⟨e', he', hid⟩
    obtain ⟨hmem, hout⟩ := List.mem_filter.1 he'
    rw [← List.inj_on_of_nodup_map hnod hmem he hid]
    exact hout
  · intro hout
    exact ⟨e, List.mem_filter.2 ⟨he, hout⟩, rfl⟩

theorem timestamps_of_perm (h : submissions'.Perm submissions) :
    (submissions'.map (·.timestamp.toNat)).min? = (submissions.map (·.timestamp.toNat)).min? := by
  have hmem : ∀ n, n ∈ submissions'.map (·.timestamp.toNat) ↔
      n ∈ submissions.map (·.timestamp.toNat) := fun n => (h.map _).mem_iff
  refine Option.ext fun n => ?_
  simp only [List.min?_eq_some_iff, hmem]

theorem head?_getD_of_perm {β : Type*} {f : OracleSubmission → β} {d : β}
    (hf : ∀ s ∈ submissions, ∀ t ∈ submissions, f s = f t) (h : submissions'.Perm submissions) :
    (submissions'.head?.map f).getD d = (submissions.head?.map f).getD d := by
  cases submissions' with
  | nil => rw [h.symm.eq_nil]
  | cons s rest =>
    cases submissions with
    | nil => exact absurd h.eq_nil (List.cons_ne_nil s rest)
    | cons t => exact hf s (h.mem_iff.1 List.mem_cons_self) t List.mem_cons_self

theorem aggregatedPrice_of_perm (hpair : ∀ s ∈ submissions, ∀ t ∈ submissions, s.pair = t.pair)
    (hblo : ∀ s ∈ submissions, ∀ t ∈ submissions, s.blockNumber = t.blockNumber)
    (h : submissions'.Perm submissions) (m : U128) :
    aggregatedPrice config submissions' m = aggregatedPrice config submissions m := by
  unfold aggregatedPrice
  rw [head?_getD_of_perm hpair h, head?_getD_of_perm hblo h, timestamps_of_perm h, h.length_eq,
    (outlierValidators_of_perm h m).length_eq]

/-! ### What does -/

theorem contributors_order_free_iff (hids : (submissions.map (·.validatorId)).Nodup) (m : U128) :
    (∀ submissions', submissions'.Perm submissions →
        contributors config submissions' m = contributors config submissions m) ↔
      ∀ s ∈ submissions, ∀ t ∈ submissions, s.validatorId ≠ t.validatorId → s.price = t.price →
        isOutlier config m s.price = true := by
  have hkept : ∀ submissions', submissions'.Perm submissions → contributors config submissions' m =
        ((sortByKey (·.price.toNat) submissions').filter fun s => !isOutlier config m s.price).map
          (·.validatorId) := by
    intro submissions' h
    rw [contributors_eq ((h.map _).nodup_iff.2 hids), sortedPrices, sortByKey_map, List.filter_map,
      List.map_map]
    rfl
  have hsort : (∀ submissions' : List OracleSubmission, submissions'.Perm submissions → _) ↔
      (submissions.filter fun s => !isOutlier config m s.price).Pairwise
        fun s t => s.price.toNat ≠ t.price.toNat := sortByKey_filter_map_perm_iff hids
  have hfree : (∀ submissions', submissions'.Perm submissions →
      contributors config submissions' m = contributors config submissions m) ↔
      (submissions.filter fun s => !isOutlier config m s.price).Pairwise
        fun s t => s.price.toNat ≠ t.price.toNat := by
    rw [← hsort]
    refine forall_congr' fun submissions' => forall_congr' fun h => ?_
    rw [hkept submissions' h, hkept submissions (List.Perm.refl _)]
  rw [hfree]
  constructor
  · intro h s hs t ht hne hpri
    by_contra hin
    have hin' : isOutlier config m s.price = false := by simpa using hin
    have hst : s ≠ t := fun he => hne (congrArg (·.validatorId) he)
    have hsymm := symmKeyNe fun s : OracleSubmission => s.price.toNat
    exact h.forall (List.mem_filter.2 ⟨hs, by rw [hin']; rfl⟩)
      (List.mem_filter.2 ⟨ht, by rw [← hpri, hin']; rfl⟩) hst (congrArg BitVec.toNat hpri)
  · intro h
    have hnod : (submissions.filter fun s => !isOutlier config m s.price).Nodup :=
      (List.Nodup.of_map _ hids).filter _
    refine hnod.pairwise_of_forall_ne fun s hs t ht hst hpri => ?_
    obtain ⟨hs, hin⟩ := List.mem_filter.1 hs
    obtain ⟨ht, -⟩ := List.mem_filter.1 ht
    have hid : s.validatorId ≠ t.validatorId := fun he =>
      hst (List.inj_on_of_nodup_map hids hs ht he)
    rw [h s hs t ht hid (BitVec.eq_of_toNat_eq hpri)] at hin
    exact absurd hin (by simp)

theorem median_isSome (hne : submissions ≠ []) : ∃ m, median submissions = some m := by
  have hlt : (sortedPrices submissions).length / 2 < (sortedPrices submissions).length :=
    Nat.div_lt_self (by rw [sortedPrices_length]; exact List.length_pos_iff.2 hne) (by norm_num)
  exact ⟨_, by rw [median, List.getElem?_eq_getElem hlt]; rfl⟩

/-- **The order does not matter.** The price, the block number, the outliers, the contributors and
their rewards are the same in every order of the map exactly when the submissions are for one
block and any two of one price are outliers. -/
theorem aggregation_order_free_iff (config : OracleConfig) (submissions : List OracleSubmission)
    (pair : PricePair) (hpair : ∀ s ∈ submissions, s.pair = pair)
    (hids : (submissions.map (·.validatorId)).Nodup) :
    (∀ submissions', submissions'.Perm submissions →
        outcome config submissions' = outcome config submissions ∧
          ∀ pool, rewards config submissions' pool = rewards config submissions pool) ↔
      (∀ s ∈ submissions, ∀ t ∈ submissions, s.blockNumber = t.blockNumber) ∧
        ∀ m, median submissions = some m → ∀ s ∈ submissions, ∀ t ∈ submissions,
          s.validatorId ≠ t.validatorId → s.price = t.price →
            isOutlier config m s.price = true := by
  constructor
  · intro h
    constructor
    · -- either submission may come first, and then its block number is taken
      have hfir : ∀ s ∈ submissions, (outcome config submissions).map (·.1.blockNumber) =
          some s.blockNumber := by
        intro s hs
        have hperm := (List.perm_cons_erase hs).symm
        obtain ⟨m, hm⟩ := median_isSome (List.cons_ne_nil s (submissions.erase s))
        rw [← (h _ hperm).1, outcome, aggregateSubmissions, hm]
        rfl
      intro s hs t ht
      exact Option.some.inj ((hfir s hs).symm.trans (hfir t ht))
    · intro m hm
      refine (contributors_order_free_iff hids m).1 fun submissions' hperm => ?_
      have heq := (h submissions' hperm).1
      rw [outcome, outcome, aggregateSubmissions, aggregateSubmissions, median_of_perm hperm, hm] at heq
      exact congrArg (·.2.2) (Option.some.inj heq)
  · rintro ⟨hblo, hpri⟩ submissions' hperm
    have hpai : ∀ s ∈ submissions, ∀ t ∈ submissions, s.pair = t.pair := fun s hs t ht =>
      (hpair s hs).trans (hpair t ht).symm
    unfold outcome rewards aggregateSubmissions
    rw [median_of_perm hperm]
    cases hm : median submissions with
    | none => exact ⟨rfl, fun _ => rfl⟩
    | some m =>
      have hcon := (contributors_order_free_iff hids m).2 (hpri m hm) submissions' hperm
      have hout : (outlierValidators config submissions' m).toFinset =
          (outlierValidators config submissions m).toFinset :=
        List.toFinset_eq_of_perm _ _ (outlierValidators_of_perm hperm m)
      constructor
      · simp only [Option.map_some, aggregatedPrice_of_perm hpai hblo hperm, hout, hcon]
      · intro pool
        simp only [Option.map_some, Node.OracleTracker.distributeRewards, hcon]

def submissionOf (id : ValidatorId) (price : U128) (blockNumber : U64) : OracleSubmission :=
  { validatorId := id, pair := ⟨1, 0⟩, price, blockNumber, timestamp := 0, signature := []
    sources := [] }

theorem aggregation_order_free_of_two_prices :
    outcome {} [submissionOf 2 101 1000, submissionOf 1 100 1000] =
      outcome {} [submissionOf 1 100 1000, submissionOf 2 101 1000] :=
  ((aggregation_order_free_iff {} [submissionOf 1 100 1000, submissionOf 2 101 1000] ⟨1, 0⟩
    (by decide) (by decide)).2 ⟨by decide, fun m _ => by simp [submissionOf]⟩ _
    (List.Perm.swap _ _ _)).1

/-- Two validators of one price: the odd unit of the reward goes to the one that
the map yields first. -/
theorem equal_prices_paid_in_map_order : [submissionOf 2 100 1000, submissionOf 1 100 1000].Perm
        [submissionOf 1 100 1000, submissionOf 2 100 1000] ∧
      rewards {} [submissionOf 1 100 1000, submissionOf 2 100 1000] 3 = some [(1, 2), (2, 1)] ∧
      rewards {} [submissionOf 2 100 1000, submissionOf 1 100 1000] 3 = some [(2, 2), (1, 1)] :=
  ⟨List.Perm.swap _ _ _, by decide, by decide⟩

/-! ### The shares of the contributors -/

section

variable (config) {m : U128} (hids : (submissions.map (·.validatorId)).Nodup)
include hids

theorem outliers_contributors_perm (m : U128) :
    (outlierValidators config submissions m ++ contributors config submissions m).Perm
      (submissions.map (·.validatorId)) := by
  rw [contributors_eq hids, outlierValidators, ← List.map_append]
  refine ((List.filter_append_perm _ _).map _).trans ((sortedPrices_perm.map Prod.fst).trans ?_)
  rw [List.map_map]
  rfl

theorem contributors_ne_nil (hm : median submissions = some m) :
    contributors config submissions m ≠ [] := by
  obtain ⟨e, he, rfl⟩ := Option.map_eq_some_iff.1 hm
  have hself : isOutlier config e.2 e.2 = false := by
    simp [isOutlier, deviationBps]
  rw [contributors_eq hids]
  refine List.ne_nil_of_mem (List.mem_map_of_mem (List.mem_filter.2 ⟨List.mem_of_getElem? he, ?_⟩))
  rw [hself]
  rfl

end

/-- The share of the contributor at a position, of `n`. -/
def share (pool n i : ℕ) : ℕ := pool / n + if i < pool % n then 1 else 0

theorem sum_range_share {pool n : ℕ} (hn : 0 < n) :
    ((List.range n).map (share pool n)).sum = pool := by
  have hsum : ∀ k, ((List.range k).map (share pool n)).sum = k * (pool / n) + min k (pool % n) := by
    intro k
    induction k with
    | zero => simp
    | succ k ih =>
      rw [List.range_succ, List.map_append, List.sum_append, ih, Nat.succ_mul, List.map_singleton,
        List.sum_singleton, share]
      split_ifs <;> omega
  rw [hsum, min_eq_right (Nat.mod_lt _ hn).le, Nat.div_add_mod]

theorem distributeRewards_fst {pool : U128} (hpool : pool ≠ 0) (t : Node.OracleTracker) :
    (t.distributeRewards pool).map Prod.fst = t.currentContributors := by
  unfold Node.OracleTracker.distributeRewards
  split_ifs with hnone
  · exact (List.isEmpty_iff.1 (hnone.resolve_left hpool)).symm
  · rw [List.map_map]
    exact List.zipIdx_map_fst 0 _

theorem distributeRewards_snd {t : Node.OracleTracker} {pool : U128} (hpool : pool ≠ 0)
    (hne : t.currentContributors ≠ []) (hlen : t.currentContributors.length < 2 ^ 128) :
    (t.distributeRewards pool).map (·.2.toNat) = (List.range t.currentContributors.length).map
      (share pool.toNat t.currentContributors.length) := by
  have hpos := List.length_pos_iff.2 hne
  rw [Node.OracleTracker.distributeRewards, if_neg (not_or.2 ⟨hpool, by simp [hne]⟩), List.map_map,
    List.range_eq_range', ← List.zipIdx_map_snd 0 t.currentContributors, List.map_map]
  refine List.map_congr_left fun e he => ?_
  have hidx := List.snd_lt_of_mem_zipIdx he
  dsimp only [Function.comp_apply]
  rw [Nat.add_zero] at hidx
  generalize t.currentContributors.length = n at *
  have hn : (BitVec.ofNat 128 n).toNat = n := Nat.mod_eq_of_lt hlen
  have hi : (BitVec.ofNat 128 e.2).toNat = e.2 := Nat.mod_eq_of_lt (hidx.trans hlen)
  have hlow : BitVec.ofNat 128 e.2 < pool % BitVec.ofNat 128 n ↔ e.2 < pool.toNat % n := by
    rw [BitVec.lt_def, BitVec.toNat_umod, hn, hi]
  simp only [share, hlow]
  split_ifs
  · -- a remainder is left, so there is room for one more
    have hdiv := Nat.div_add_mod pool.toNat n
    have hle : pool.toNat / n ≤ n * (pool.toNat / n) := Nat.le_mul_of_pos_left _ hpos
    have hlt := pool.isLt
    rw [BitVec.toNat_add, BitVec.toNat_udiv, hn]
    exact Nat.mod_eq_of_lt (show _ + 1 < _ by omega)
  · rw [add_zero, add_zero, BitVec.toNat_udiv, hn]

/-- **Rewards are paid in full.** An aggregation splits the submitters into outliers and
contributors, of which there is one at least, and a reward pool is paid out in full to the
contributors, in shares that differ by one at most. -/
theorem shares_exact (config : OracleConfig) (submissions : List OracleSubmission)
    (hids : (submissions.map (·.validatorId)).Nodup) (hne : submissions ≠ []) :
    ∃ price outliers contributors,
      aggregateSubmissions config submissions = some (price, outliers, contributors) ∧
      (outliers ++ contributors).Nodup ∧
      (outliers ++ contributors).Perm (submissions.map (·.validatorId)) ∧ contributors ≠ [] ∧
      ∀ pool : U128, pool ≠ 0 →
        let paid := Node.OracleTracker.distributeRewards
          { currentContributors := contributors, lastOutliers := outliers } pool
        paid.map Prod.fst = contributors ∧ (paid.map (·.2.toNat)).sum = pool.toNat ∧
          ∀ r ∈ paid, ∀ r' ∈ paid, r.2.toNat ≤ r'.2.toNat + 1 := by
  obtain ⟨m, hm⟩ := median_isSome hne
  have hperm := outliers_contributors_perm config hids m
  have hnod := hperm.nodup_iff.2 hids
  have hcon := contributors_ne_nil config hids hm
  have hlen : (contributors config submissions m).length < 2 ^ 128 :=
    ((List.Nodup.of_append_right hnod).length_le_card.trans
      (Fintype.card_le_of_injective BitVec.toFin fun _ _ => BitVec.eq_of_toFin_eq)).trans_lt (by simp)
  refine ⟨_, _, _, congrArg (Option.map _) hm, hnod, hperm, hcon, fun pool hpool => ?_⟩
  intro paid
  have hsnd : paid.map (·.2.toNat) = _ := distributeRewards_snd hpool hcon hlen
  refine ⟨distributeRewards_fst hpool _, ?_, fun r hr r' hr' => ?_⟩
  · rw [hsnd]
    exact sum_range_share (List.length_pos_iff.2 hcon)
  · have hr := List.mem_map_of_mem (f := (·.2.toNat)) hr
    have hr' := List.mem_map_of_mem (f := (·.2.toNat)) hr'
    rw [hsnd] at hr hr'
    obtain ⟨i, -, hi⟩ := List.mem_map.1 hr
    obtain ⟨j, -, hj⟩ := List.mem_map.1 hr'
    rw [← hi, ← hj, share, share]
    split_ifs <;> omega

theorem shares_exact_of_two : ∃ price outliers contributors,
    aggregateSubmissions {} [submissionOf 1 100 1000, submissionOf 2 1 1000] =
      some (price, outliers, contributors) ∧ contributors ≠ [] := by
  obtain ⟨price, outliers, contributors, hagg, -, -, hcon, -⟩ :=
    shares_exact {} [submissionOf 1 100 1000, submissionOf 2 1 1000] (by decide) (by decide)
  exact ⟨price, outliers, contributors, hagg, hcon⟩

end Callchain.Oracle

/-
# The outliers and contributors of a period

Several pairs may reach their quorum between two calls of `clear_tracking`. The tracker
keeps what the last aggregation found, so at the end of the period the outliers of the
others are not slashed and their contributors not paid.
-/
import Callchain.Oracle.Tracker

namespace Callchain.Oracle

open Consensus Run

/-- The outliers and the contributors of an aggregation. -/
abbrev Found := List ValidatorId × List ValidatorId

def nextFound (verify : Ed25519Verify) (t : OracleTracker) (call : TrackerCall)
    (period : List Found) : List Found :=
  match call with
  | .submitPrice submission config validators order =>
    match (t.submitPrice verify submission config validators order).2 with
    | .ok (some _) => period ++
        ((aggregateSubmissions config (usedSubmissions t submission order)).map (·.2)).toList
    | _ => period
  | .clearTracking => []
  | .clearPending => period

/-- The tracker after the calls, and what was found in the period that it is in. -/
def tracked (verify : Ed25519Verify) (calls : List TrackerCall) : OracleTracker × List Found :=
  run (watched (OracleTracker.step verify) (nextFound verify)) ({}, []) calls

/-- Every outlier of the period is there to be slashed, and every contributor that
was an outlier in no aggregation is paid. -/
def Kept (w : OracleTracker × List Found) : Prop :=
  (∀ r ∈ w.2, ∀ vid ∈ r.1, vid ∈ w.1.lastOutliers) ∧
    ∀ vid, (∃ r ∈ w.2, vid ∈ r.2) → (∀ r ∈ w.2, vid ∉ r.1) → ∀ pool : U128, pool ≠ 0 →
      vid ∈ (w.1.distributeRewards pool).map Prod.fst

/-- The tracker has what was found last. -/
def HasLast (w : OracleTracker × List Found) : Prop :=
  ∀ r, w.2.getLast? = some r → r = (w.1.lastOutliers, w.1.currentContributors)

theorem HasLast.step {verify : Ed25519Verify} {w : OracleTracker × List Found} (h : HasLast w)
    (call : TrackerCall) :
    HasLast (watched (OracleTracker.step verify) (nextFound verify) w call) := by
  cases call with
  | clearTracking => exact nofun
  | clearPending => exact h
  | submitPrice sub config validators order =>
    unfold watched nextFound OracleTracker.step OracleTracker.submitPrice
    dsimp only
    cases checkSubmission verify w.1 sub config validators with
    | error => exact h
    | ok =>
      unfold accept
      dsimp only
      split_ifs
      · cases aggregateSubmissions config (usedSubmissions w.1 sub order) with
        | none => exact h
        | some =>
          intro r hr
          dsimp only
          rw [(foldl_penalize _ _).1]
          exact (Option.some.inj (List.getLast?_concat.symm.trans hr)).symm
      · exact h
      · exact h

/-- **A period is kept.** Whatever the calls before it, the outliers of a period are kept and its
contributors paid if at most one submission of the period has brought its pair to quorum. -/
theorem period_kept (verify : Ed25519Verify) (calls : List TrackerCall)
    (hone : (tracked verify calls).2.length ≤ 1) : Kept (tracked verify calls) := by
  have hlast : HasLast (tracked verify calls) :=
    invariant_mem (fun w call _ h => h.step call) nofun
  generalize tracked verify calls = w at hone hlast
  have hall : ∀ r ∈ w.2, r = (w.1.lastOutliers, w.1.currentContributors) := by
    intro r hr
    obtain ⟨t, period⟩ := w
    match period, hone with
    | [found], _ =>
      obtain rfl := List.mem_singleton.1 hr
      exact hlast r rfl
  refine ⟨fun r hr vid hvid => ?_, ?_⟩
  · rw [hall r hr] at hvid
    exact hvid
  · rintro vid ⟨r, hr, hvid⟩ - pool hpool
    rw [hall r hr] at hvid
    rw [distributeRewards_fst hpool]
    exact hvid

def twoPairs : List TrackerCall :=
  [sourcedSubmission 1 100 1000, sourcedSubmission 2 1 1000,
    { sourcedSubmission 1 100 1000 with pair := ⟨2, 0⟩ },
    { sourcedSubmission 3 100 1000 with pair := ⟨2, 0⟩ }].map
      (.submitPrice · {} threeActive listedOrder)

theorem period_kept_at_first_pair :
    (tracked plainVerify (twoPairs.take 2)).2 = [([2], [1])] ∧
      Kept (tracked plainVerify (twoPairs.take 2)) :=
  ⟨by decide, period_kept _ _ (by decide)⟩

/-- The second pair reaches its quorum, and the outlier of the first is forgotten. -/
theorem outlier_forgotten : (tracked plainVerify twoPairs).2.map Prod.fst = [[2], []] ∧
      (tracked plainVerify twoPairs).1.lastOutliers = [] := by
  decide

end Callchain.Oracle

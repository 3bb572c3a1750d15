/-
# Bit decomposition by a running sum

A number is decomposed into bits by the sums `s (j + 1) = s j * 2 + bit j`, most
significant bit first. Started at 0, the last sum is the number of the bits
(`runningSum_lt`), and from `r` it is that number plus `r * 2 ^ n` (`runningSum_add`).
Modulo `p` a nonzero start can put it anywhere; `val_lt_iff` says when it is below `2 ^
n` all the same.
-/
import Mathlib.Data.ZMod.Basic
import Mathlib.Tactic.Ring

namespace Callchain.RunningSum

section

variable {F : Type*} [CommSemiring F]

/-- The sum after `n` bits, started at `r`. -/
def runningSum (r : F) (bit : ℕ → F) : ℕ → F
  | 0 => r
  | n + 1 => runningSum r bit n * (2 : ℕ) + bit n

theorem runningSum_succ (r : F) (bit : ℕ → F) (n : ℕ) :
    runningSum r bit (n + 1) = runningSum r bit n * 2 + bit n := by
  rw [runningSum, Nat.cast_ofNat]

theorem eq_runningSum {s bit : ℕ → F} {n : ℕ} (h : ∀ j < n, s (j + 1) = s j * 2 + bit j) :
    s n = runningSum (s 0) bit n := by
  induction n with
  | zero => rfl
  | succ n ih =>
    rw [h n (Nat.lt_succ_self n), ih fun j hj => h j (hj.trans (Nat.lt_succ_self n)),
      runningSum_succ]

theorem runningSum_add (r : F) (bit : ℕ → F) (n : ℕ) :
    runningSum r bit n = r * 2 ^ n + runningSum 0 bit n := by
  induction n with
  | zero => simp [runningSum]
  | succ n ih =>
    rw [runningSum_succ, runningSum_succ, ih]
    ring

theorem cast_runningSum (bit : ℕ → ℕ) (n : ℕ) :
    ((runningSum 0 bit n : ℕ) : F) = runningSum 0 (fun j => (bit j : F)) n := by
  induction n with
  | zero => simp [runningSum]
  | succ n ih => rw [runningSum_succ, runningSum_succ, ← ih]; push_cast; ring

end

theorem runningSum_lt {bit : ℕ → ℕ} {n : ℕ} (h : ∀ j < n, bit j < 2) : runningSum 0 bit n < 2 ^ n := by
  induction n with
  | zero => simp [runningSum]
  | succ n ih =>
    have hn := h n (Nat.lt_succ_self n)
    have hlt := ih fun j hj => h j (hj.trans (Nat.lt_succ_self n))
    rw [runningSum_succ]
    omega

/-- Bit `j` of the `n`-bit number `v`, most significant first. -/
def bitAt (n v j : ℕ) : ℕ := v >>> (n - 1 - j) &&& 1

theorem bitAt_eq (n v j : ℕ) : bitAt n v j = v / 2 ^ (n - 1 - j) % 2 := by
  rw [bitAt, Nat.and_one_is_mod, Nat.shiftRight_eq_div_pow]

theorem bitAt_lt (n v j : ℕ) : bitAt n v j < 2 := by
  rw [bitAt_eq]
  exact Nat.mod_lt _ (by decide)

theorem runningSum_bitAt {n v : ℕ} (hv : v < 2 ^ n) : runningSum 0 (bitAt n v) n = v := by
  have key : ∀ m ≤ n, runningSum 0 (bitAt n v) m = v / 2 ^ (n - m) := by
    intro m hm
    induction m with
    | zero => rw [runningSum, Nat.sub_zero, Nat.div_eq_of_lt hv]
    | succ m ih =>
      rw [runningSum_succ, ih (by omega), bitAt_eq]
      have hspl : 2 ^ (n - m) = 2 ^ (n - (m + 1)) * 2 := by
        rw [← pow_succ]
        congr 1
        omega
      have hexp : n - 1 - m = n - (m + 1) := by omega
      rw [hspl, ← Nat.div_div_eq_div_mul, hexp]
      omega
  have h := key n le_rfl
  rwa [Nat.sub_self, pow_zero, Nat.div_one] at h

/-- A running sum modulo `p` that starts at `r` ends below `2 ^ n` exactly if the number
of its bits, on top of the shifted start, stays below `2 ^ n` or wraps around. -/
theorem val_lt_iff {p n : ℕ} [NeZero p] {r : ZMod p} {b : ℕ} (hb : b < 2 ^ n) (hn : 2 ^ n ≤ p) :
    (r * 2 ^ n + (b : ZMod p)).val < 2 ^ n ↔
      (r * 2 ^ n).val + b < 2 ^ n ∨ p ≤ (r * 2 ^ n).val + b := by
  have hc : (r * 2 ^ n).val < p := ZMod.val_lt _
  have hbp : (b : ZMod p).val = b := ZMod.val_natCast_of_lt (hb.trans_le hn)
  rw [ZMod.val_add, hbp]
  rcases lt_or_ge ((r * 2 ^ n).val + b) p with hlt | hge
  · rw [Nat.mod_eq_of_lt hlt]
    omega
  · have hmod : ((r * 2 ^ n).val + b) % p = (r * 2 ^ n).val + b - p := by
      rw [Nat.mod_eq_sub_mod hge, Nat.mod_eq_of_lt (by omega)]
    omega

end Callchain.RunningSum

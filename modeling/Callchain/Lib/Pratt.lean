/-
# Primality from a checked factorisation of `n - 1`

Lucas's test proves `n` prime from an element of order `n - 1`, once every prime factor
of `n - 1` is known. A `Step` names the number, the element and the factors; `Step.ok`
runs the test with square-and-multiply, which the kernel evaluates on numbers of a few
hundred bits. Steps chain: the factors of a large step are known primes or the numbers
of earlier steps (`prime_of_chainOk`).
-/
import Mathlib.NumberTheory.LucasPrimality
import Mathlib.Data.List.Prime

namespace Callchain.Pratt

/-- `a ^ e % n`, halving the exponent `fuel` times. -/
def powMod (n : ℕ) : ℕ → ℕ → ℕ → ℕ
  | 0, _, _ => 1 % n
  | fuel + 1, a, e =>
    if e % 2 = 0 then powMod n fuel (a * a % n) (e / 2)
    else a * powMod n fuel (a * a % n) (e / 2) % n

theorem powMod_eq (n : ℕ) : ∀ fuel a e : ℕ, e < 2 ^ fuel → powMod n fuel a e = a ^ e % n
  | 0, a, e, h => by
    obtain rfl : e = 0 := by simpa using h
    simp [powMod]
  | fuel + 1, a, e, h => by
    have hlt : e / 2 < 2 ^ fuel := by omega
    have ih := powMod_eq n fuel (a * a % n) (e / 2) hlt
    have hsq : (a * a % n) ^ (e / 2) % n = a ^ (2 * (e / 2)) % n := by
      rw [← Nat.pow_mod, pow_mul, pow_two]
    unfold powMod
    split_ifs with he
    · rw [ih, hsq, show 2 * (e / 2) = e by omega]
    · rw [ih, hsq, Nat.mul_mod_mod, ← pow_succ']
      congr 2
      omega

structure Step where
  n : ℕ
  base : ℕ
  factors : List (ℕ × ℕ)

/-- Lucas's test: the factors multiply to `n - 1`, and `base` has order
exactly `n - 1` modulo `n`. -/
def Step.ok (s : Step) (bits : ℕ) : Bool :=
  decide (1 < s.n) && decide (s.n ≤ 2 ^ bits) &&
    (s.factors.map fun f => f.1 ^ f.2).prod == s.n - 1 &&
    powMod s.n bits s.base (s.n - 1) == 1 &&
    s.factors.all fun f => powMod s.n bits s.base ((s.n - 1) / f.1) != 1

theorem cast_pow_eq_one {n : ℕ} (hn : 1 < n) (a e : ℕ) :
    ((a : ZMod n) ^ e = 1) ↔ a ^ e % n = 1 := by
  have h := ZMod.natCast_eq_natCast_iff' (a ^ e) 1 n
  rw [Nat.mod_eq_of_lt hn] at h
  simpa using h

theorem Step.prime (s : Step) (bits : ℕ) (h : s.ok bits = true)
    (hf : ∀ f ∈ s.factors, f.1.Prime) : s.n.Prime := by
  simp only [Step.ok, Bool.and_eq_true, decide_eq_true_eq, beq_iff_eq, List.all_eq_true,
    bne_iff_ne] at h
  obtain ⟨⟨⟨⟨hn, hbits⟩, hprod⟩, hone⟩, hne⟩ := h
  have hfit : ∀ e ≤ s.n - 1, e < 2 ^ bits := fun e he => by omega
  apply lucas_primality s.n (s.base : ZMod s.n)
  · rw [cast_pow_eq_one hn, ← powMod_eq s.n bits s.base _ (hfit _ le_rfl)]
    exact hone
  · intro q hq hdvd
    rw [← hprod, hq.prime.dvd_prod_iff] at hdvd
    obtain ⟨y, hy, hqy⟩ := hdvd
    obtain ⟨f, hmem, rfl⟩ := List.mem_map.mp hy
    -- a prime dividing a power of a prime is that prime
    obtain rfl : q = f.1 := (Nat.prime_dvd_prime_iff_eq hq (hf f hmem)).mp (hq.dvd_of_dvd_pow hqy)
    rw [ne_eq, cast_pow_eq_one hn, ← powMod_eq s.n bits s.base _ (hfit _ (Nat.div_le_self _ _))]
    exact hne f hmem

def chainOk (bits : ℕ) : List ℕ → List Step → Bool
  | _, [] => true
  | known, s :: steps =>
    s.ok bits && s.factors.all (fun f => known.contains f.1) && chainOk bits (s.n :: known) steps

theorem prime_of_chainOk {bits : ℕ} : ∀ {known : List ℕ} {steps : List Step},
    chainOk bits known steps = true → (∀ p ∈ known, p.Prime) → ∀ s ∈ steps, s.n.Prime
  | _, [], _, _ => fun _ hs => absurd hs List.not_mem_nil
  | known, s :: steps, h, hkno => by
    simp only [chainOk, Bool.and_eq_true, List.all_eq_true, List.contains_iff_mem] at h
    obtain ⟨⟨hok, hfac⟩, hrest⟩ := h
    have hs : s.n.Prime := s.prime bits hok fun f hf => hkno f.1 (hfac f hf)
    have hlat := prime_of_chainOk hrest (List.forall_mem_cons.2 ⟨hs, hkno⟩)
    exact List.forall_mem_cons.2 ⟨hs, hlat⟩

end Callchain.Pratt

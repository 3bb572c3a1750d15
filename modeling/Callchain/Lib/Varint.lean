/-
# Varints

A number in groups of seven bits, the lowest first, with the high bit set in every byte
but the last. So in the bytes of a list of numbers the low bytes count the numbers
(`varints_split`). If the numbers are in order, a low byte is not followed by a smaller
one before the list ends (`descent_after`).
-/
import Mathlib.Data.List.Basic

namespace Callchain.Varint

def varint (n : ℕ) : List UInt8 :=
  if n < 128 then [UInt8.ofNat n] else UInt8.ofNat (n % 128 + 128) :: varint (n / 128)
termination_by n
decreasing_by omega

def low (b : UInt8) : Bool := b.toNat < 128

/-- A number of at most so many bytes and what follows it. A last byte that uses all of them
is at most `top`. -/
def readVarint (top : ℕ) : ℕ → List UInt8 → Option (ℕ × List UInt8)
  | 0, _ => none
  | _, [] => none
  | i + 1, b :: rest =>
    if low b then if i = 0 ∧ top < b.toNat then none else some (b.toNat, rest)
    else (readVarint top i rest).map fun r => (b.toNat % 128 + 128 * r.1, r.2)

/-- As many bytes as the number before them says. -/
def readBytes (input : List UInt8) : Option (List UInt8 × List UInt8) :=
  match readVarint 1 10 input with
  | none => none
  | some (n, rest) => if n ≤ rest.length then some (rest.take n, rest.drop n) else none

def readMany {α : Type} (read : List UInt8 → Option (α × List UInt8)) :
    ℕ → List UInt8 → Option (List α × List UInt8)
  | 0, input => some ([], input)
  | n + 1, input => do
    let (x, rest) ← read input
    let (xs, rest) ← readMany read n rest
    some (x :: xs, rest)

variable {n : ℕ} {ns : List ℕ} {rest pre post : List UInt8} {b : UInt8}

theorem readBytes_append (bytes rest : List UInt8) {input : List UInt8}
    (h : readVarint 1 10 input = some (bytes.length, bytes ++ rest)) :
    readBytes input = some (bytes, rest) := by
  rw [readBytes, h]
  dsimp only
  rw [if_pos (by simp), List.take_left, List.drop_left]

theorem varint_of_lt (h : n < 128) : varint n = [UInt8.ofNat n] := by
  rw [varint, if_pos h]

theorem varint_of_le (h : 128 ≤ n) :
    varint n = UInt8.ofNat (n % 128 + 128) :: varint (n / 128) := by
  rw [varint, if_neg (by omega)]

theorem low_ofNat (h : n < 128) : low (UInt8.ofNat n) = true := by
  rw [low, UInt8.toNat_ofNat', decide_eq_true_eq]
  omega

theorem low_high (n : ℕ) : low (UInt8.ofNat (n % 128 + 128)) = false := by
  rw [low, UInt8.toNat_ofNat', decide_eq_false_iff_not]
  omega

theorem exists_varint_eq (n : ℕ) :
    ∃ (highs : List UInt8) (last : UInt8), varint n = highs ++ [last] ∧
      highs.countP low = 0 ∧ low last = true ∧ last.toNat ≤ n := by
  induction n using Nat.strongRecOn with
  | _ n ih =>
    rcases Nat.lt_or_ge n 128 with hlt | hge
    · refine ⟨[], UInt8.ofNat n, varint_of_lt hlt, rfl, low_ofNat hlt, ?_⟩
      exact Nat.mod_le _ _
    · obtain ⟨highs, last, heq, hhig, hlast, hle⟩ := ih (n / 128) (by omega)
      refine ⟨UInt8.ofNat (n % 128 + 128) :: highs, last, ?_, ?_, hlast, by omega⟩
      · rw [varint_of_le hge, heq, List.cons_append]
      · rw [List.countP_cons_of_neg (by rw [low_high]; decide), hhig]

theorem countP_low_varints (ns : List ℕ) : (ns.flatMap varint).countP low = ns.length := by
  induction ns with
  | nil => rfl
  | cons n =>
    obtain ⟨highs, last, heq, hhig, hlast, -⟩ := exists_varint_eq n
    rw [List.flatMap_cons, heq, List.countP_append, List.countP_append,
      List.countP_cons_of_pos hlast, List.length_cons]
    simp only [List.countP_nil]
    omega

theorem varints_split (h : ns.flatMap varint ++ rest = pre ++ b :: post) (hb : low b = true) :
    (∃ pre', rest = pre' ++ b :: post) ∨
      ∃ ns₁ n ns₂, ns = ns₁ ++ n :: ns₂ ∧ ns₁.length = pre.countP low ∧ b.toNat ≤ n ∧
        post = ns₂.flatMap varint ++ rest := by
  induction ns generalizing pre with
  | nil => exact .inl ⟨pre, h⟩
  | cons n ns ih =>
    obtain ⟨highs, last, heq, hhig, hlast, hle⟩ := exists_varint_eq n
    rw [List.flatMap_cons, heq, List.append_assoc, List.append_assoc] at h
    rcases List.append_eq_append_iff.1 h with ⟨more, hpre, hmore⟩ | ⟨more, hhigh, hmore⟩
    · cases more with
      | nil =>
        -- the byte is the last one of the first number
        obtain ⟨rfl, hpost⟩ := List.cons.inj hmore
        refine .inr ⟨[], n, ns, rfl, ?_, hle, hpost.symm⟩
        rw [hpre, List.append_nil, hhig, List.length_nil]
      | cons =>
        obtain ⟨rfl, htail⟩ := List.cons.inj hmore
        rcases ih htail with hrest | ⟨ns₁, m, ns₂, rfl, hlen, hm, hpost⟩
        · exact .inl hrest
        · refine .inr ⟨n :: ns₁, m, ns₂, rfl, ?_, hm, hpost⟩
          rw [hpre, List.countP_append, List.countP_cons_of_pos hlast, hhig, List.length_cons,
            hlen, Nat.zero_add]
    · -- the byte is not one of the high ones, nor can it come before the last
      cases more with
      | nil =>
        obtain ⟨rfl, hpost⟩ := List.cons.inj hmore
        refine .inr ⟨[], n, ns, rfl, ?_, hle, hpost⟩
        rw [List.append_nil] at hhigh
        rw [← hhigh, hhig, List.length_nil]
      | cons =>
        obtain ⟨rfl, -⟩ := List.cons.inj hmore
        rw [hhigh, List.countP_append, List.countP_cons_of_pos hb] at hhig
        omega

theorem after_varints (h : ns.flatMap varint ++ rest = pre ++ b :: post) (hb : low b = true)
    (hpre : ns.length ≤ pre.countP low) : ∃ pre', rest = pre' ++ b :: post := by
  rcases varints_split h hb with hrest | ⟨ns₁, n, ns₂, rfl, hlen, -, -⟩
  · exact hrest
  · rw [List.length_append, List.length_cons] at hpre
    omega

/-- A low byte that the bytes of the numbers and a rest begin with is the first
number, unless there are no numbers. -/
theorem head_varints (h : b :: post = ns.flatMap varint ++ rest) (hb : low b = true) :
    ns = [] ∨ b.toNat ∈ ns := by
  cases ns with
  | nil => exact .inl rfl
  | cons n =>
    refine .inr (List.mem_cons.2 (.inl ?_))
    rcases Nat.lt_or_ge n 128 with hlt | hge
    · rw [List.flatMap_cons, varint_of_lt hlt] at h
      rw [(List.cons.inj h).1]
      exact Nat.mod_eq_of_lt (by omega)
    · rw [List.flatMap_cons, varint_of_le hge] at h
      rw [(List.cons.inj h).1, low_high] at hb
      exact absurd hb (by decide)

theorem descent_after (hns : ns.Pairwise (· ≤ ·)) {b' : UInt8}
    (h : ns.flatMap varint ++ rest = pre ++ b :: b' :: post) (hb : low b = true)
    (hb' : low b' = true) (hlt : b' < b) : ∃ pre', rest = pre' ++ b' :: post := by
  rcases varints_split h hb with ⟨pre', hrest⟩ | ⟨ns₁, n, ns₂, rfl, -, hn, hpost⟩
  · refine ⟨pre' ++ [b], ?_⟩
    rw [hrest, List.append_assoc, List.singleton_append]
  · rcases head_varints hpost hb' with rfl | hmem
    · exact ⟨[], hpost.symm⟩
    · have hle : n ≤ b'.toNat := List.rel_of_pairwise_cons (List.pairwise_append.1 hns).2.1 hmem
      have hlt' : b'.toNat < b.toNat := UInt8.lt_iff_toNat_lt.1 hlt
      omega

end Callchain.Varint

/-
# The recursive length encoding of byte strings and lists

A byte below `0x80` stands for itself. Any other string is its bytes after a
header, and a list is the concatenation of its encoded items after a header:
one byte that carries the length up to 55, or one that carries the number of
bytes of the length and these bytes, the most significant first.
-/
import Callchain.Primitives

namespace Callchain.Rlp

def byteLen (n : ℕ) : ℕ := n.log2 / 8 + 1

theorem lt_pow_byteLen (n : ℕ) : n < 256 ^ byteLen n := by
  have h : n < 2 ^ (n.log2 + 1) := Nat.lt_log2_self
  have hle : n.log2 + 1 ≤ 8 * byteLen n := by unfold byteLen; omega
  calc n < 2 ^ (n.log2 + 1) := h
    _ ≤ 2 ^ (8 * byteLen n) := Nat.pow_le_pow_right (by norm_num) hle
    _ = 256 ^ byteLen n := by rw [pow_mul]; norm_num

theorem byteLen_le_eight {n : ℕ} (h : n < 2 ^ 64) : byteLen n ≤ 8 := by
  have hlog : n.log2 < 64 := by
    rcases Nat.eq_zero_or_pos n with h0 | hpos
    · subst h0; decide
    · exact (Nat.log2_lt (by omega)).2 h
  unfold byteLen
  omega

def lengthBytes (n : ℕ) : Bytes := beBytes (byteLen n) n

@[simp] theorem lengthBytes_length (n : ℕ) : (lengthBytes n).length = byteLen n :=
  beBytes_length _ _

@[simp] theorem beValue_lengthBytes (n : ℕ) : beValue (lengthBytes n) = n := by
  rw [lengthBytes, beValue_beBytes, Nat.mod_eq_of_lt (lt_pow_byteLen n)]

/-- The header of `n` bytes, for the bases of the short and of the long form. -/
def header (short long n : ℕ) : Bytes :=
  if n < 56 then [UInt8.ofNat (short + n)]
  else UInt8.ofNat (long + byteLen n) :: lengthBytes n

theorem header_short {short long n : ℕ} (h : n < 56) :
    header short long n = [UInt8.ofNat (short + n)] := if_pos h

theorem header_long {short long n : ℕ} (h : 56 ≤ n) :
    header short long n = UInt8.ofNat (long + byteLen n) :: lengthBytes n :=
  if_neg (by omega)

def encodeBytes (b : Bytes) : Bytes :=
  if b.length = 1 ∧ beValue b < 0x80 then b else header 0x80 0xB7 b.length ++ b

/-- The encoding of a list whose encoded items concatenate to `payload`. -/
def encodeList (payload : Bytes) : Bytes := header 0xC0 0xF7 payload.length ++ payload

/-- The encoding of a number: its bytes without leading zeros, none for 0. -/
def encodeNat (n : ℕ) : Bytes := encodeBytes (if n = 0 then [] else lengthBytes n)

theorem toNat_ofNat_of_lt {k : ℕ} (h : k < 256) : (UInt8.ofNat k).toNat = k := by
  exact Nat.mod_eq_of_lt h

theorem encodeBytes_ne_nil (b : Bytes) : encodeBytes b ≠ [] := by
  unfold encodeBytes header
  split_ifs with h1 h2
  · intro h0
    rw [h0] at h1
    simp at h1
  · simp
  · simp

theorem length_le_encodeList (payload : Bytes) : payload.length ≤ (encodeList payload).length := by
  rw [encodeList, List.length_append]
  omega

end Callchain.Rlp

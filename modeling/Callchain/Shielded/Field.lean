/-
# The Pallas base field and its byte strings

The shielded pool computes in the base field `Fp` of the Pallas curve, and stores and
transmits field elements as 32 little-endian bytes. The prime has 255 bits, so two or
more byte strings stand for each element: `bytesToFp` is the number modulo the prime
(`bytesToFp_eq`), and injective exactly on the canonical strings, those below it
(`bytesToFp_inj`).
-/
import Callchain.Primitives
import Callchain.Lib.Pratt
import Mathlib.Algebra.Field.ZMod
import Mathlib.Tactic.NormNum.Prime

namespace Callchain.Shielded

def pallas : ℕ := 0x40000000000000000000000000000000224698fc094cf91b992d30ed00000001

/-! ### Primality -/

def smallPrimes : List ℕ :=
  [2, 3, 7, 11, 19, 59, 89, 463, 509, 1973, 2531, 14923, 115603, 413527, 772231, 897019, 1197907,
    41655379]

theorem prime_of_mem_smallPrimes : ∀ p ∈ smallPrimes, p.Prime := by
  simp only [smallPrimes, List.forall_mem_cons]
  norm_num

def pallasSteps : List Pratt.Step :=
  [⟨417677162933, 2, [(2, 2), (59, 1), (1973, 1), (897019, 1)]⟩,
    ⟨539204044132271846773, 5, [(2, 2), (3, 5), (89, 1), (14923, 1), (417677162933, 1)]⟩,
    ⟨22160661629, 3, [(2, 2), (7, 1), (19, 1), (41655379, 1)]⟩,
    ⟨325086459374267, 2, [(2, 1), (509, 1), (413527, 1), (772231, 1)]⟩,
    ⟨8999194758858563409123804352480028797519453, 2, [(2, 2), (3, 4), (11, 1), (2531, 1),
      (115603, 1), (1197907, 1), (22160661629, 1), (325086459374267, 1)]⟩,
    ⟨pallas, 5, [(2, 32), (3, 1), (463, 1), (539204044132271846773, 1),
      (8999194758858563409123804352480028797519453, 1)]⟩]

theorem pallas_prime : pallas.Prime := by
  have hok : Pratt.chainOk 256 smallPrimes pallasSteps = true := by decide +kernel
  have hall := Pratt.prime_of_chainOk hok prime_of_mem_smallPrimes
  exact hall _ (List.mem_of_mem_getLast? rfl)

instance : Fact pallas.Prime := ⟨pallas_prime⟩

instance : NeZero pallas := ⟨pallas_prime.ne_zero⟩

abbrev Fp := ZMod pallas

/-! ### Byte strings -/

def byteAt (bytes : Bytes32) (i : ℕ) : ℕ := bytes.toNat / 256 ^ i % 256

/-- The string is below the prime: the representation `to_repr` would give. -/
def Canonical (bytes : Bytes32) : Prop := bytes.toNat < pallas

instance (bytes : Bytes32) : Decidable (Canonical bytes) := by unfold Canonical; infer_instance

/-- It takes canonical strings only. -/
def fromReprVartime (repr : Bytes32) : Option Fp :=
  if Canonical repr then some (repr.toNat : Fp) else none

def bytesToFp (bytes : Bytes32) : Fp :=
  match fromReprVartime bytes with
  | some fp => fp
  -- the other strings byte by byte, the last byte first
  | none => (List.range 32).reverse.foldl (fun result i => result * 256 + (byteAt bytes i : Fp)) 0

def fpToBytes (fp : Fp) : Bytes32 := BitVec.ofNat 256 fp.val

def valueToFpBytes (value : U128) : Bytes32 := BitVec.ofNat 256 value.toNat

def assetBytes (assetId : U64) : Bytes32 := BitVec.ofNat 256 assetId.toNat

def leNat (bytes : Bytes) : ℕ := bytes.foldr (fun byte n => byte.toNat + 256 * n) 0

def ofLeBytes (bytes : Bytes) : Bytes32 := BitVec.ofNat 256 (leNat (bytes.take 32))

def leBytes (bytes : Bytes32) : Bytes := (List.range 32).map fun i => UInt8.ofNat (byteAt bytes i)

def tagToBytes (tag : String) : Bytes32 := ofLeBytes tag.toUTF8.data.toList

namespace Domain

def ivkFromSk : String := "call/shielded/ivk"
def fvkFromIvk : String := "fvk_from_ivk"
def rcm : String := "rcm"

end Domain

def tagFp (tag : String) : Fp := bytesToFp (tagToBytes tag)

theorem leNat_append (xs ys : Bytes) : leNat (xs ++ ys) = leNat xs + 256 ^ xs.length * leNat ys := by
  induction xs with
  | nil => simp [leNat]
  | cons x xs ih =>
    have hcons : ∀ zs : Bytes, leNat (x :: zs) = x.toNat + 256 * leNat zs := fun _ => rfl
    rw [List.cons_append, hcons, hcons, ih, List.length_cons]
    ring

variable (bytes : Bytes32)

theorem byteAt_digit (n : ℕ) :
    bytes.toNat % 256 ^ (n + 1) = bytes.toNat % 256 ^ n + 256 ^ n * byteAt bytes n := by
  rw [pow_succ, Nat.mod_mul, byteAt]

theorem leNat_digits (n : ℕ) :
    leNat ((List.range n).map fun i => UInt8.ofNat (byteAt bytes i)) = bytes.toNat % 256 ^ n := by
  induction n with
  | zero => simp [leNat, Nat.mod_one]
  | succ n ih =>
    have hlt : byteAt bytes n < 256 := Nat.mod_lt _ (by decide)
    have hbyte : (UInt8.ofNat (byteAt bytes n)).toNat = byteAt bytes n := by
      rw [UInt8.toNat_ofNat', Nat.mod_eq_of_lt hlt]
    have hone : leNat [UInt8.ofNat (byteAt bytes n)] = byteAt bytes n := by
      simp only [leNat, List.foldr_cons, List.foldr_nil, hbyte, Nat.mul_zero, Nat.add_zero]
    rw [List.range_succ, List.map_append, leNat_append, ih, List.map_singleton, hone, byteAt_digit,
      List.length_map, List.length_range]

theorem length_leBytes : (leBytes bytes).length = 32 := by simp [leBytes]

theorem ofLeBytes_leBytes : ofLeBytes (leBytes bytes) = bytes := by
  have hlt : bytes.toNat < 256 ^ 32 := bytes.isLt.trans_eq (by norm_num)
  rw [ofLeBytes, List.take_of_length_le (length_leBytes bytes).le, leBytes, leNat_digits,
    Nat.mod_eq_of_lt hlt, BitVec.ofNat_toNat, BitVec.setWidth_eq]

theorem foldl_byteAt (n : ℕ) (fp : Fp) :
    (List.range n).reverse.foldl (fun result i => result * 256 + (byteAt bytes i : Fp)) fp =
      fp * 256 ^ n + ((bytes.toNat % 256 ^ n : ℕ) : Fp) := by
  induction n generalizing fp with
  | zero => simp [Nat.mod_one]
  | succ n ih =>
    rw [List.range_succ, List.reverse_append, List.reverse_singleton, List.singleton_append,
      List.foldl_cons, ih, byteAt_digit]
    push_cast
    ring

theorem bytesToFp_eq : bytesToFp bytes = (bytes.toNat : Fp) := by
  unfold bytesToFp fromReprVartime
  split_ifs with h
  · rfl
  · have hlt : bytes.toNat < 256 ^ 32 := bytes.isLt.trans_eq (by norm_num)
    rw [foldl_byteAt, Nat.mod_eq_of_lt hlt, zero_mul, zero_add]

theorem val_bytesToFp {bytes : Bytes32} (h : Canonical bytes) : (bytesToFp bytes).val = bytes.toNat := by
  rw [bytesToFp_eq]
  exact ZMod.val_natCast_of_lt h

theorem bytesToFp_inj {x y : Bytes32} (hx : Canonical x) (hy : Canonical y)
    (h : bytesToFp x = bytesToFp y) : x = y := by
  apply BitVec.eq_of_toNat_eq
  rw [← val_bytesToFp hx, ← val_bytesToFp hy, h]

theorem canonical_fpToBytes (fp : Fp) : Canonical (fpToBytes fp) := by
  have h : fp.val < pallas := ZMod.val_lt fp
  have hp : pallas < 2 ^ 256 := by decide
  rw [Canonical, fpToBytes, BitVec.toNat_ofNat, Nat.mod_eq_of_lt (h.trans hp)]
  exact h

theorem bytesToFp_fpToBytes (fp : Fp) : bytesToFp (fpToBytes fp) = fp := by
  have h : fp.val < 2 ^ 256 := (ZMod.val_lt fp).trans (by decide)
  rw [bytesToFp_eq, fpToBytes, BitVec.toNat_ofNat, Nat.mod_eq_of_lt h]
  exact ZMod.natCast_zmod_val fp

theorem fpToBytes_bytesToFp {bytes : Bytes32} (h : Canonical bytes) : fpToBytes (bytesToFp bytes) = bytes :=
  bytesToFp_inj (canonical_fpToBytes _) h (bytesToFp_fpToBytes _)

theorem bytesToFp_valueToFpBytes (value : U128) : bytesToFp (valueToFpBytes value) = (value.toNat : Fp) := by
  have h : value.toNat < 2 ^ 256 := value.isLt.trans (by decide)
  rw [bytesToFp_eq, valueToFpBytes, BitVec.toNat_ofNat, Nat.mod_eq_of_lt h]

end Callchain.Shielded

/-
# Machine words, addresses and byte strings

The fixed-width types of the node (`alloy_primitives`): addresses, 256-bit words with
wrapping arithmetic, and the byte strings they are serialised to. A `[u8; 32]` that the
code treats as a field element or as a key (a nullifier, a commitment, a root) is a
`Bytes32`: byte `i` is bits `8 i` to `8 i + 7`, so its value as a number is the
little-endian one.
-/
import Mathlib.Data.FinEnum
import Mathlib.Data.BitVec
import Mathlib.Data.Nat.Digits.Lemmas

namespace Callchain

abbrev U8 := BitVec 8
abbrev U64 := BitVec 64
abbrev U128 := BitVec 128
abbrev U256 := BitVec 256
abbrev Address := BitVec 160
abbrev B256 := BitVec 256
abbrev Bytes := List UInt8
/-- A `[u8; 32]`, byte `i` in bits `8 i ..< 8 i + 8`. -/
abbrev Bytes32 := BitVec 256

instance lawfulBEqU64 : LawfulBEq U64 := inferInstance
instance lawfulBEqAddress : LawfulBEq Address := inferInstance

/-- `to_be_bytes`: the `n` low bytes of `v`, the most significant first. -/
def beBytes : ℕ → ℕ → Bytes
  | 0, _ => []
  | n + 1, v => UInt8.ofNat (v / 256 ^ n % 256) :: beBytes n v

theorem beBytes_length : ∀ n v : ℕ, (beBytes n v).length = n
  | 0, _ => rfl
  | n + 1, v => by simp [beBytes, beBytes_length n v]

/-- The `n` low bytes of `v`, the least significant first. -/
def toLeBytes (n v : ℕ) : Bytes := (beBytes n v).reverse

/-- `from_be_bytes`: the number of a byte string, the most significant byte first. -/
def beValue : Bytes → ℕ
  | [] => 0
  | b :: bs => b.toNat * 256 ^ bs.length + beValue bs

theorem beValue_lt : ∀ bs : Bytes, beValue bs < 256 ^ bs.length
  | [] => Nat.one_pos
  | b :: bs => by
    have hb : b.toNat < 256 := b.toNat_lt
    have ih := beValue_lt bs
    calc b.toNat * 256 ^ bs.length + beValue bs
        < b.toNat * 256 ^ bs.length + 256 ^ bs.length := by omega
      _ = (b.toNat + 1) * 256 ^ bs.length := by ring
      _ ≤ 256 * 256 ^ bs.length := Nat.mul_le_mul_right _ hb
      _ = 256 ^ (b :: bs).length := by rw [List.length_cons]; ring

theorem beValue_beBytes : ∀ n v : ℕ, beValue (beBytes n v) = v % 256 ^ n
  | 0, v => by simp [beBytes, beValue, Nat.mod_one]
  | n + 1, v => by
    have hd : (UInt8.ofNat (v / 256 ^ n % 256)).toNat = v / 256 ^ n % 256 := by
      simp
    rw [beBytes, beValue, beValue_beBytes n v, beBytes_length, hd, pow_succ, Nat.mod_mul]
    ring

theorem beValue_dropWhile : ∀ bs : Bytes, beValue (bs.dropWhile (· = 0)) = beValue bs
  | [] => rfl
  | b :: bs => by by_cases hb : b = 0 <;> simp [hb, beValue, beValue_dropWhile bs]

theorem beBytes_mod : ∀ n v : ℕ, beBytes n (v % 256 ^ n) = beBytes n v := by
  intro n v
  have hmod : ∀ m ≤ n, beBytes m (v % 256 ^ n) = beBytes m v := by
    intro m
    induction m with
    | zero => intro _; rfl
    | succ m ih =>
      intro hm
      have hdig : v % 256 ^ n / 256 ^ m % 256 = v / 256 ^ m % 256 := by
        obtain ⟨k, rfl⟩ := Nat.exists_eq_add_of_le hm
        rw [show m + 1 + k = m + (1 + k) by omega, pow_add, Nat.mod_mul_right_div_self, pow_add,
          pow_one, Nat.mod_mul_right_mod]
      rw [beBytes, beBytes, hdig, ih (by omega)]
  exact hmod n le_rfl

theorem beBytes_beValue : ∀ bs : Bytes, beBytes bs.length (beValue bs) = bs
  | [] => rfl
  | b :: bs => by
    have hlt := beValue_lt bs
    have hpos : 0 < 256 ^ bs.length := Nat.pow_pos (by norm_num)
    have hhead : (b.toNat * 256 ^ bs.length + beValue bs) / 256 ^ bs.length % 256 = b.toNat := by
      rw [Nat.mul_comm, Nat.mul_add_div hpos, Nat.div_eq_of_lt hlt, Nat.add_zero,
        Nat.mod_eq_of_lt b.toNat_lt]
    have htail : beBytes bs.length (b.toNat * 256 ^ bs.length + beValue bs) = bs := by
      rw [← beBytes_mod, Nat.mul_add_mod', Nat.mod_eq_of_lt hlt, beBytes_beValue bs]
    rw [List.length_cons, beBytes, beValue, hhead, htail, UInt8.ofNat_toNat]

theorem beBytes_inj {n v w : ℕ} (hv : v < 256 ^ n) (hw : w < 256 ^ n)
    (h : beBytes n v = beBytes n w) : v = w := by
  have hval := congrArg beValue h
  rwa [beValue_beBytes, beValue_beBytes, Nat.mod_eq_of_lt hv, Nat.mod_eq_of_lt hw] at hval

def isContinuation (b : UInt8) : Bool := 0x80 ≤ b && b ≤ 0xBF

/-- `String::from_utf8` accepts the bytes. -/
def validUtf8 : Bytes → Bool
  | [] => true
  | a :: rest =>
    if a < 0x80 then validUtf8 rest
    else match rest with
      | [] => false
      | b :: rest =>
        if 0xC2 ≤ a && a ≤ 0xDF then isContinuation b && validUtf8 rest
        else match rest with
          | [] => false
          | c :: rest =>
            if 0xE0 ≤ a && a ≤ 0xEF then
              -- no overlong form, no surrogate
              isContinuation b && (a != 0xE0 || 0xA0 ≤ b) && (a != 0xED || b ≤ 0x9F) &&
                isContinuation c && validUtf8 rest
            else match rest with
              | [] => false
              | d :: rest =>
                0xF0 ≤ a && a ≤ 0xF4 && isContinuation b && (a != 0xF0 || 0x90 ≤ b) &&
                  (a != 0xF4 || b ≤ 0x8F) && isContinuation c && isContinuation d && validUtf8 rest

theorem validUtf8_of_ascii : ∀ {bytes : Bytes}, (∀ b ∈ bytes, b < 0x80) → validUtf8 bytes = true
  | [], _ => rfl
  | a :: rest, h => by
    have ha : a < 0x80 := h a List.mem_cons_self
    have hrest : validUtf8 rest = true :=
      validUtf8_of_ascii fun b hb => h b (List.mem_cons_of_mem a hb)
    unfold validUtf8
    rw [if_pos ha]
    exact hrest

def B256.fromSlice (bs : Bytes) : B256 := BitVec.ofNat 256 (beValue bs)

/-- The 32 bytes of a hash. -/
def B256.asSlice (h : B256) : Bytes := beBytes 32 h.toNat

@[simp] theorem B256.asSlice_length (h : B256) : h.asSlice.length = 32 := beBytes_length _ _

@[simp] theorem B256.fromSlice_asSlice (h : B256) : B256.fromSlice h.asSlice = h := by
  have hlt : h.toNat < 256 ^ 32 := lt_of_lt_of_eq h.isLt (by norm_num)
  rw [fromSlice, asSlice, beValue_beBytes, Nat.mod_eq_of_lt hlt, BitVec.ofNat_toNat,
    BitVec.setWidth_eq]

theorem B256.asSlice_fromSlice {bs : Bytes} (h : bs.length = 32) :
    B256.asSlice (B256.fromSlice bs) = bs := by
  have hlt : beValue bs < 2 ^ 256 := by
    calc beValue bs < 256 ^ bs.length := beValue_lt bs
      _ = 2 ^ 256 := by rw [h]; norm_num
  rw [asSlice, fromSlice, BitVec.toNat_ofNat, Nat.mod_eq_of_lt hlt, ← h, beBytes_beValue]

namespace U256

def saturatingSub (a b : U256) : U256 := if a < b then 0 else a - b

theorem saturatingSub_toNat (a b : U256) : (saturatingSub a b).toNat = a.toNat - b.toNat := by
  unfold saturatingSub
  split_ifs with h
  · rw [BitVec.lt_def] at h
    simp; omega
  · rw [BitVec.lt_def, not_lt] at h
    exact BitVec.toNat_sub_of_le (BitVec.le_def.mpr h)

end U256

def U128.saturatingAdd (a b : U128) : U128 :=
  if a.toNat + b.toNat < 2 ^ 128 then a + b else BitVec.allOnes 128

theorem ite_error_eq_ok {ε α : Type*} {p : Prop} [Decidable p] {e : ε} {r : Except ε α} {a : α} :
    (if p then .error e else r) = .ok a ↔ ¬ p ∧ r = .ok a := by
  by_cases hp : p
  · simp [hp]
  · simp [hp]

theorem ite_failed_eq_ok {σ ε α : Type*} {p : Prop} [Decidable p] {s t : σ} {e : ε} {a : α}
    {r : σ × Except ε α} :
    (if p then (s, .error e) else r) = (t, .ok a) ↔ ¬ p ∧ r = (t, .ok a) := by
  split_ifs with h
  · exact iff_of_false (fun he => by cases he) fun he => he.1 h
  · exact (and_iff_right h).symm

theorem except_bind_eq_ok {ε α β : Type} {x : Except ε α} {f : α → Except ε β} {b : β} :
    (x >>= f) = .ok b ↔ ∃ a, x = .ok a ∧ f a = .ok b := by
  cases x with
  | error | ok => simp [bind, Except.bind]

theorem error_ne_ok {σ ε α : Type*} {s t : σ} {e : ε} {a : α} :
    ((s, .error e) : σ × Except ε α) ≠ (t, .ok a) := fun h => nomatch congrArg Prod.snd h

end Callchain

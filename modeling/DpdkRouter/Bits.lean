import Mathlib.Tactic.Common
import Mathlib.Tactic.NormNum

/-!
Bit-level facts about 32-bit words: the masks `(1 << s) - 1` and
`~((1 << s) - 1)`, the halves of a word and the nibbles of a byte, left shifts of a signed word,
and the conversions of a small `long` through `int` to a byte.
Each turns a bitwise operation or a conversion of C into arithmetic on `ℕ`.
-/

namespace Bits

/-- `(1 << s) - 1` as an unsigned 32-bit value, for `s < 32`. -/
theorem toNat_low_mask (s : UInt32) (hs : s.toNat < 32) :
    (((1 : UInt32) <<< s) - 1).toNat = 2 ^ s.toNat - 1 := by
  have hpow : 2 ^ s.toNat < 2 ^ 32 := Nat.pow_lt_pow_right (by norm_num) hs
  have hshl : ((1 : UInt32) <<< s).toNat = 2 ^ s.toNat := by
    simp only [UInt32.toNat_shiftLeft, Nat.mod_eq_of_lt hs, UInt32.toNat_one, Nat.shiftLeft_eq,
      Nat.one_mul]
    exact Nat.mod_eq_of_lt hpow
  rw [UInt32.toNat_sub_of_le, hshl]
  · rfl
  · rw [UInt32.le_iff_toNat_le, hshl]
    exact Nat.one_le_two_pow

theorem mul_two_pow_or {x k : ℕ} : x * 2 ^ k ||| (2 ^ k - 1) = x * 2 ^ k + (2 ^ k - 1) := by
  have hpos : 1 ≤ 2 ^ k := Nat.one_le_two_pow
  rw [← Nat.shiftLeft_eq, Nat.shiftLeft_add_eq_or_of_lt (by omega)]

/-- Clearing the low `s` bits of a `w`-bit value. -/
theorem and_high_mask {x s w : ℕ} (hx : x < 2 ^ w) (hs : s ≤ w) :
    x &&& (2 ^ (w - s) - 1) * 2 ^ s = x / 2 ^ s * 2 ^ s := by
  apply Nat.eq_of_testBit_eq
  intro i
  rw [Nat.testBit_and, Nat.testBit_mul_two_pow, Nat.testBit_mul_two_pow, Nat.testBit_div_two_pow,
    Nat.testBit_two_pow_sub_one]
  by_cases hi : s ≤ i
  · by_cases hi' : i < w
    · simp [hi, show i - s < w - s by omega, show i - s + s = i by omega]
    · have hbit : x.testBit i = false :=
        Nat.testBit_lt_two_pow (lt_of_lt_of_le hx (Nat.pow_le_pow_right (by norm_num) (by omega)))
      simp [hi, hbit, show ¬ i - s < w - s by omega, show i - s + s = i by omega]
  · simp [hi]

/-- The high half of a 32-bit word, as `__rte_raw_cksum_reduce` takes it. -/
theorem toNat_high_half (s : UInt32) : ((s &&& 0xffff0000) >>> 16).toNat = s.toNat / 2 ^ 16 := by
  have hmask : (0xffff0000 : UInt32).toNat = (2 ^ (32 - 16) - 1) * 2 ^ 16 := rfl
  rw [UInt32.toNat_shiftRight, UInt32.toNat_and, hmask, and_high_mask s.toNat_lt (by norm_num)]
  simp [Nat.shiftRight_eq_div_pow]

/-- The high nibble of a byte, as `(version_ihl & 0xf0) >> 4` takes it. -/
theorem toNat_high_nibble (x : UInt8) : ((x &&& 0xf0) >>> 4).toNat = x.toNat / 2 ^ 4 := by
  have hmask : (0xf0 : UInt8).toNat = (2 ^ (8 - 4) - 1) * 2 ^ 4 := rfl
  rw [UInt8.toNat_shiftRight, UInt8.toNat_and, hmask, and_high_mask x.toNat_lt (by norm_num)]
  simp [Nat.shiftRight_eq_div_pow]

theorem toNat_low_nibble (x : UInt8) : (x &&& 0x0f).toNat = x.toNat % 2 ^ 4 := by
  rw [UInt8.toNat_and, show (0x0f : UInt8).toNat = 2 ^ 4 - 1 from rfl, Nat.and_two_pow_sub_one_eq_mod]

theorem toNat_low_half (s : UInt32) : (s &&& 0xffff).toNat = s.toNat % 2 ^ 16 := by
  rw [UInt32.toNat_and, show (0xffff : UInt32).toNat = 2 ^ 16 - 1 from rfl,
    Nat.and_two_pow_sub_one_eq_mod]

/-- A signed 32-bit left shift by less than 32, read as unsigned: the
product by a power of two, modulo `2 ^ 32`. -/
theorem toUInt32_shiftLeft_ofNat {v n : ℕ} (hn : n < 32) :
    (Int32.ofNat v <<< Int32.ofNat n).toUInt32 = UInt32.ofNat (v * 2 ^ n) := by
  have hsm : (Int32.ofNat n).toBitVec.smod 32 = BitVec.ofNat 32 n := by
    have hmsb : (BitVec.ofNat 32 n).msb = false := by
      rw [BitVec.msb_eq_false_iff_two_mul_lt, BitVec.toNat_ofNat]
      omega
    show (BitVec.ofNat 32 n).smod 32#32 = _
    rw [BitVec.smod_eq, hmsb, show (32#32).msb = false by decide]
    show BitVec.ofNat 32 n % 32#32 = BitVec.ofNat 32 n
    apply BitVec.eq_of_toNat_eq
    simp only [BitVec.toNat_umod, BitVec.toNat_ofNat, Nat.reducePow, Nat.reduceMod]
    omega
  apply UInt32.toBitVec_inj.mp
  show (Int32.ofNat v).toBitVec <<< ((Int32.ofNat n).toBitVec.smod 32) = _
  rw [hsm]
  apply BitVec.eq_of_toNat_eq
  simp [BitVec.toNat_shiftLeft, Int32.toBitVec, Nat.shiftLeft_eq, Nat.mod_eq_of_lt (show n < 4294967296 by omega)]

/-- A `long` below `2 ^ 31` keeps its value as an `int`. -/
theorem toInt_ofInt_of_lt {v : ℕ} (hv : v < 2 ^ 31) : (Int32.ofInt (v : Int)).toInt = v := by
  rw [Int32.toInt_ofInt]
  have hs : Int32.size = 2 ^ 32 := rfl
  exact Int.bmod_eq_of_le (by omega) (by rw [hs]; omega)

/-- `(uint8_t)` of an `int` converted from any natural: its low byte. -/
theorem toUInt8_toUInt32_ofInt_nat (v : ℕ) : (Int32.ofInt (v : Int)).toUInt32.toUInt8 = UInt8.ofNat v := by
  apply UInt8.toNat_inj.mp
  have h : (Int32.ofInt (v : Int)).toUInt32.toNat = v % 2 ^ 32 := by
    rw [Int32.ofInt_eq_ofNat]
    exact UInt32.toNat_ofNat
  rw [UInt32.toNat_toUInt8, h, UInt8.toNat_ofNat', Nat.mod_mod_of_dvd _ (by decide)]

/-- `(uint16_t)` of the same. -/
theorem toUInt16_toUInt32_ofInt_nat (v : ℕ) : (Int32.ofInt (v : Int)).toUInt32.toUInt16 = UInt16.ofNat v := by
  apply UInt16.toNat_inj.mp
  have h : (Int32.ofInt (v : Int)).toUInt32.toNat = v % 2 ^ 32 := by
    rw [Int32.ofInt_eq_ofNat]
    exact UInt32.toNat_ofNat
  rw [UInt32.toNat_toUInt16, h, UInt16.toNat_ofNat', Nat.mod_mod_of_dvd _ (by decide)]

/-- An `int` converted from a natural is a byte value exactly when the
natural is one modulo 2^32: the conversion keeps the low 32 bits. -/
theorem ofInt_nat_byte_iff (v : ℕ) :
    ((0 : Int32) ≤ Int32.ofInt (v : Int) ∧ Int32.ofInt (v : Int) ≤ 255) ↔ v % 2 ^ 32 ≤ 255 := by
  rw [Int32.le_iff_toInt_le, Int32.le_iff_toInt_le, Int32.toInt_ofInt, Int.bmod_def]
  have hs : Int32.size = 2 ^ 32 := rfl
  have hm : (v : Int) % (2 ^ 32 : ℕ) = ((v % 2 ^ 32 : ℕ) : Int) := by push_cast; rfl
  simp only [hs, hm]
  split_ifs <;> simp <;> omega

end Bits

import RvCodec.Proofs.Spellings

/-!
# The numbers of a field

A signed field of `n` bits holds the numbers from `-2 ^ (n - 1)` up to below
`2 ^ (n - 1)`, an unsigned one those from zero up to below `2 ^ n`.  The range
check takes exactly these.  The signed reading of a word is the one number of
the signed field that agrees with the word modulo `2 ^ n`, so a number passes
the check exactly when it is read back from the word it leaves
(`field_ranges_exact`).

Ranges and readings are defined over the integers here, where nothing is lost.
In 64-bit registers something is: the bit above the numbers of the widest
signed field is the sign, the least integer is its own opposite, and a shift by
the size of the register or more leaves nothing.  `Wrapping` has the check and
the reading as registers compute them.  Both agree with the integers at every
width that a register can hold, those without a field included
(`Wrapping.passes_eq`, `Wrapping.toInt_extend`).
-/

set_option autoImplicit false

namespace RvCodec

/-! ## Registers that wrap around -/

namespace Wrapping

/-- The integer with the one bit at this position, which is zero beyond bit 63. -/
def bit (n : BitVec 64) : BitVec 64 := 1#64 <<< n

/-- The least number of a field. -/
def least (bits : BitVec 64) (unsigned : Bool) : BitVec 64 :=
  if unsigned then 0 else -bit (bits - 1)

/-- The greatest number of a field. -/
def greatest (bits : BitVec 64) (unsigned : Bool) : BitVec 64 :=
  if unsigned then bit bits - 1 else bit (bits - 1) - 1

/-- The number is not below the least and not above the greatest one of the field. -/
def passes (v bits : BitVec 64) (unsigned : Bool) : Bool :=
  !(v.slt (least bits unsigned) || (greatest bits unsigned).slt v)

/-- The low bits of a word, moved up to the sign and back down with copies of it. -/
def extend (w : Word) (n : BitVec 64) : BitVec 64 :=
  (w.setWidth 64 <<< (64 - n)).sshiftRight' (64 - n)

/-! ### Bounds -/

/-- What a single bit stands for, the sign bit included. -/
def value (n : BitVec 64) : Int := if n.toNat < 64 then 2 ^ n.toNat else 0

theorem bit_eq (n : BitVec 64) : bit n = BitVec.ofInt 64 (value n) := by
  unfold bit value
  split
  · next inside =>
    have below : 2 ^ n.toNat < 2 ^ 64 := Nat.pow_lt_pow_right (by decide) inside
    apply BitVec.eq_of_toNat_eq
    rw [BitVec.shiftLeft_eq', BitVec.toNat_shiftLeft, Nat.shiftLeft_eq, BitVec.toNat_ofInt]
    norm_cast
    simp
  · next beyond =>
    rw [BitVec.shiftLeft_eq', BitVec.shiftLeft_eq_zero (by omega)]
    rfl

theorem value_bounds (n : BitVec 64) : 0 ≤ value n ∧ value n ≤ 2 ^ 63 := by
  unfold value
  split
  · next inside =>
    have top : (2 ^ n.toNat : Int) ≤ 2 ^ 63 := by
      exact_mod_cast Nat.pow_le_pow_right (by decide : 0 < 2) (by omega : n.toNat ≤ 63)
    exact ⟨by positivity, top⟩
  · decide

/-- The opposite of a bit is what it should be.  The sign bit is its own opposite already. -/
theorem toInt_neg_bit (n : BitVec 64) : (-bit n).toInt = -value n := by
  obtain ⟨lower, upper⟩ := value_bounds n
  rw [bit_eq, ← BitVec.ofInt_neg, BitVec.toInt_ofInt_eq_self (by decide) (by omega) (by omega)]

/-- So is the number before a bit.  The one before the sign bit is the greatest integer. -/
theorem toInt_bit_sub_one (n : BitVec 64) : (bit n - 1).toInt = value n - 1 := by
  obtain ⟨lower, upper⟩ := value_bounds n
  have shape : bit n - 1 = BitVec.ofInt 64 (value n + -1) := by
    rw [bit_eq, BitVec.ofInt_add, BitVec.sub_eq_add_neg]
    rfl
  rw [shape, BitVec.toInt_ofInt_eq_self (by decide) (by omega) (by omega), Int.sub_eq_add_neg]

/-- Half a signed field is the bit below its width.  A field of no bits has none, since the position
below the lowest one is the last position of all. -/
theorem value_sub_one (bits : BitVec 64) :
    value (bits - 1) = (⟨bits.toNat, false⟩ : ImmRange).half := by
  have small := bits.isLt
  have position : (bits - 1).toNat = (2 ^ 64 - 1 + bits.toNat) % 2 ^ 64 := by
    rw [BitVec.toNat_sub]
    rfl
  unfold value ImmRange.half
  rw [position, Nat.one_shiftLeft]
  by_cases inside : 1 ≤ bits.toNat ∧ bits.toNat ≤ 64
  · have same : (2 ^ 64 - 1 + bits.toNat) % 2 ^ 64 = bits.toNat - 1 := by omega
    rw [same, if_pos (by omega), if_pos inside]
    push_cast
    rfl
  · rw [if_neg (by omega), if_neg inside]

theorem toInt_least (bits : BitVec 64) (unsigned : Bool) :
    (least bits unsigned).toInt = (⟨bits.toNat, unsigned⟩ : ImmRange).lo := by
  cases unsigned with
  | true => exact BitVec.toInt_zero
  | false => exact (toInt_neg_bit _).trans (congrArg _ (value_sub_one bits))

theorem toInt_greatest (bits : BitVec 64) (unsigned : Bool) :
    (greatest bits unsigned).toInt = (⟨bits.toNat, unsigned⟩ : ImmRange).hi := by
  cases unsigned with
  | true =>
    refine (toInt_bit_sub_one bits).trans ?_
    rw [ImmRange.hi, if_pos rfl, value, Nat.one_shiftLeft]
    push_cast
    rfl
  | false => exact (toInt_bit_sub_one _).trans (congrArg (· - 1) (value_sub_one bits))

/-- **The range check of registers is the range check.** -/
theorem passes_eq (v bits : BitVec 64) (unsigned : Bool) :
    passes v bits unsigned = (⟨bits.toNat, unsigned⟩ : ImmRange).contains v.toInt := by
  rw [passes, BitVec.slt, BitVec.slt, toInt_least, toInt_greatest, ImmRange.contains,
    Bool.not_or, ← decide_not, ← decide_not]
  simp only [Int.not_lt]

/-! ### Readings -/

/-- Moving a number and the modulus up moves the balanced remainder up. -/
theorem bmod_mul_mul (x : Int) {m k : Nat} (positive : 0 < m) (scale : 0 < k) :
    (x * k).bmod (m * k) = x.bmod m * k := by
  have lower := Int.le_bmod (x := x) positive
  have upper := Int.bmod_lt (x := x) positive
  obtain ⟨q, quotient⟩ := Int.dvd_self_sub_bmod (x := x) (m := m)
  generalize x.bmod m = r at *
  obtain rfl : x = r + m * q := by omega
  have shape : (r + m * q) * k = r * k + ((m * k : Nat) : Int) * q := by
    push_cast
    ring
  have above : -(m : Int) * k ≤ r * 2 * k :=
    Int.mul_le_mul_of_nonneg_right (by omega) (by omega)
  have below : r * 2 * k < (m : Int) * k :=
    Int.mul_lt_mul_of_pos_right (by omega) (by omega)
  rw [shape, Int.add_mul_bmod_self_left]
  refine Int.bmod_eq_of_le_mul_two ?_ ?_ <;> rw [mul_right_comm] <;> push_cast
  · rwa [← Int.neg_mul]
  · exact below

/-- How far the bits are moved: beyond the register when they are more than it has. -/
theorem toNat_distance (n : BitVec 64) :
    (64 - n).toNat = if n.toNat ≤ 64 then 64 - n.toNat else 2 ^ 64 + 64 - n.toNat := by
  have small := n.isLt
  have wrapped : (64 - n).toNat = (2 ^ 64 - n.toNat + 64) % 2 ^ 64 := by
    rw [BitVec.toNat_sub]
    rfl
  rw [wrapped]
  split <;> omega

/-- **The signed reading of registers is the signed reading.** -/
theorem toInt_extend (w : Word) (n : BitVec 64) : (extend w n).toInt = signExtend w n.toNat := by
  rw [extend, BitVec.toInt_sshiftRight', BitVec.shiftLeft_eq', toNat_distance]
  split
  · next inside =>
    have split : 2 ^ 64 = 2 ^ n.toNat * 2 ^ (64 - n.toNat) := by
      rw [← Nat.pow_add, Nat.add_sub_cancel' inside]
    have fits : w.toNat % 2 ^ 64 = w.toNat := Nat.mod_eq_of_lt (by have := w.isLt; omega)
    have nonzero : ((2 ^ (64 - n.toNat) : Nat) : Int) ≠ 0 := by positivity
    rw [BitVec.toInt_shiftLeft, BitVec.toNat_setWidth, fits, split, signExtend_eq w inside,
      Nat.shiftLeft_eq, Nat.cast_mul, bmod_mul_mul _ (Nat.two_pow_pos _) (Nat.two_pow_pos _),
      Int.shiftRight_eq_div_pow, Int.mul_ediv_cancel _ nonzero]
  · next beyond =>
    rw [BitVec.shiftLeft_eq_zero (by have := n.isLt; omega), signExtend, if_neg beyond,
      BitVec.toInt_zero, Int.zero_shiftRight]

end Wrapping

/-! ## Ranges and readings -/

namespace Number

variable {n : Nat} {v : Int}

theorem check_signed_iff : check v ⟨n, false⟩ = .ok () ↔
    (1 ≤ n ∧ n ≤ 64) ∧ -2 ^ (n - 1) ≤ v ∧ v < 2 ^ (n - 1) := by
  rw [check_eq_ok]
  by_cases width : 1 ≤ n ∧ n ≤ 64
  · rw [ImmRange.contains_signed rfl width.1 width.2]
    exact (and_iff_right width).symm
  · have empty : (⟨n, false⟩ : ImmRange).half = 0 := if_neg width
    simp only [ImmRange.contains, ImmRange.lo, ImmRange.hi, empty, width, Bool.and_eq_true,
      decide_eq_true_eq, Bool.false_eq_true, if_false, false_and, iff_false]
    omega

theorem check_unsigned_iff : check v ⟨n, true⟩ = .ok () ↔ n ≤ 63 ∧ 0 ≤ v ∧ v < 2 ^ n := by
  rw [check_eq_ok]
  by_cases width : n < 64
  · rw [ImmRange.contains_unsigned rfl width]
    exact (and_iff_right (Nat.le_of_lt_succ width)).symm
  · have empty : (⟨n, true⟩ : ImmRange).hi = 0 - 1 := by
      rw [ImmRange.hi, if_pos rfl, if_neg width]
      rfl
    simp only [ImmRange.contains, ImmRange.lo, empty, Bool.and_eq_true, decide_eq_true_eq, if_true]
    omega

/-- A signed number passes the check when it is read back from its low 32 bits. -/
theorem check_iff_signExtend (positive : 1 ≤ n) (bounded : n ≤ 32) :
    check v ⟨n, false⟩ = .ok () ↔ signExtend (Word.ofInt v) n = v := by
  have agrees : v ≡ (Word.ofInt v).toNat [ZMOD 2 ^ n] := by
    rw [Word.toNat_ofInt]
    exact (Int.mod_modEq v (2 ^ 32)).symm.of_dvd (pow_dvd_pow 2 bounded)
  rw [check_signed_iff, signExtend_eq_iff positive (by omega), and_iff_left agrees,
    and_iff_right ⟨positive, by omega⟩]

/-- **The range check takes exactly the numbers of the field**, those that the signed reading can
give, and registers that wrap around compute both as they are. -/
theorem field_ranges_exact (n : Nat) :
    (∀ v, check v ⟨n, false⟩ = .ok () ↔
      (1 ≤ n ∧ n ≤ 64) ∧ -2 ^ (n - 1) ≤ v ∧ v < 2 ^ (n - 1)) ∧
    (∀ v, check v ⟨n, true⟩ = .ok () ↔ n ≤ 63 ∧ 0 ≤ v ∧ v < 2 ^ n) ∧
    (1 ≤ n → n ≤ 64 → ∀ u v, signExtend u n = v ↔
      (-2 ^ (n - 1) ≤ v ∧ v < 2 ^ (n - 1)) ∧ v ≡ u.toNat [ZMOD 2 ^ n]) ∧
    (1 ≤ n → n ≤ 32 → ∀ v,
      check v ⟨n, false⟩ = .ok () ↔ signExtend (Word.ofInt v) n = v) ∧
    ∀ bits : BitVec 64, bits.toNat = n →
      (∀ v unsigned, Wrapping.passes v bits unsigned = true ↔
        check v.toInt ⟨n, unsigned⟩ = .ok ()) ∧
      ∀ u, (Wrapping.extend u bits).toInt = signExtend u n := by
  refine ⟨fun v => check_signed_iff, fun v => check_unsigned_iff,
    fun positive bounded u v => signExtend_eq_iff positive bounded,
    fun positive bounded v => check_iff_signExtend positive bounded, ?_⟩
  rintro bits rfl
  refine ⟨fun v unsigned => ?_, fun u => Wrapping.toInt_extend u bits⟩
  rw [Wrapping.passes_eq, check_eq_ok]

/-- The bounds of the widest signed field wrap around. -/
theorem field_ranges_exact_widest :
    (1 ≤ 64 ∧ 64 ≤ 64 ∧ (64 : BitVec 64).toNat = 64) ∧
    check (-2 ^ 63) ⟨64, false⟩ = .ok () ∧
    Wrapping.passes (.ofInt 64 (2 ^ 63 - 1)) 64 false = true ∧
    signExtend 0xffffffff 64 = 0xffffffff ∧
    (check (-2 ^ 31) ⟨32, false⟩ = .ok () ↔ signExtend (Word.ofInt (-2 ^ 31)) 32 = -2 ^ 31) := by
  obtain ⟨signed, -, reading, -, registers⟩ := field_ranges_exact 64
  obtain ⟨-, -, -, readBack, -⟩ := field_ranges_exact 32
  refine ⟨by decide, (signed _).mpr (by decide), ((registers 64 rfl).1 _ false).mpr ?_,
    (reading (by decide) (by decide) _ _).mpr (by decide), readBack (by decide) (by decide) _⟩
  exact (signed _).mpr (by decide)

end Number

end RvCodec

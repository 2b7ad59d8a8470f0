import RvCodec.Proofs.Layouts

/-!
# Immediates in words

An immediate of an instruction is well formed when its layout is, and the
immediate bits that the layout keeps are exactly those from the lowest one up to
the width of the range.  Then the numbers that pass the check are exactly those
that a word can hold: what is packed is read back (`decode_eq`), and what is read
passes the check, unless it is a reserved zero, and is packed into the bits it
came from (`check_decode`, `pack_decode`).

Both readings of the bits, signed and unsigned, go through one number: the value
modulo two to the width.
-/

set_option autoImplicit false

namespace RvCodec

/-! ## Ranges -/

namespace ImmRange

/-- An unsigned field of fewer than 64 bits holds the numbers below a power of two. -/
theorem contains_unsigned {r : ImmRange} (unsigned : r.unsigned = true) (bits : r.bits < 64)
    (v : Int) : r.contains v = true ↔ 0 ≤ v ∧ v < 2 ^ r.bits := by
  simp only [contains, lo, hi, unsigned, bits, ↓reduceIte, Bool.and_eq_true, decide_eq_true_eq,
    Nat.one_shiftLeft, Nat.cast_pow, Nat.cast_ofNat]
  omega

/-- A signed field of up to 64 bits holds the numbers of half that size on either side of zero. -/
theorem contains_signed {r : ImmRange} (signed : r.unsigned = false) (positive : 1 ≤ r.bits)
    (bits : r.bits ≤ 64) (v : Int) :
    r.contains v = true ↔ -2 ^ (r.bits - 1) ≤ v ∧ v < 2 ^ (r.bits - 1) := by
  simp only [contains, lo, hi, half, signed, positive, bits, and_self, ↓reduceIte, Bool.and_eq_true,
    decide_eq_true_eq, Bool.false_eq_true, Nat.one_shiftLeft, Nat.cast_pow, Nat.cast_ofNat]
  omega

end ImmRange

/-! ## Words as numbers -/

theorem signExtend_eq (w : Word) {n : Nat} (bounded : n ≤ 64) :
    signExtend w n = Int.bmod w.toNat (2 ^ n) := by
  rw [signExtend, if_pos bounded, Nat.one_shiftLeft]

/-- The signed reading is the one number of the field that agrees with the word. -/
theorem signExtend_eq_iff {n : Nat} (positive : 1 ≤ n) (bounded : n ≤ 64) {w : Word} {v : Int} :
    signExtend w n = v ↔
      (-2 ^ (n - 1) ≤ v ∧ v < 2 ^ (n - 1)) ∧ v ≡ w.toNat [ZMOD 2 ^ n] := by
  have double : (2 ^ n : Int) = 2 * 2 ^ (n - 1) := by
    rw [← pow_succ', Nat.sub_add_cancel positive]
  have low : (2 ^ n : Int) / 2 = 2 ^ (n - 1) := by omega
  have high : (2 ^ n + 1 : Int) / 2 = 2 ^ (n - 1) := by omega
  rw [signExtend_eq w bounded, Int.bmod_eq_iff (Nat.two_pow_pos n), Int.modEq_comm,
    Int.modEq_iff_dvd, and_assoc]
  push_cast
  rw [low, high]

/-- The block of bits from `low` up to below `bits`, of a number whose lower bits are clear. -/
theorem Word.toNat_and_block {low bits : Nat} (ordered : low < bits) (bounded : bits ≤ 32)
    {u : Word} (multiple : 2 ^ low ∣ u.toNat) :
    (u &&& (⟨bits - 1, low⟩ : BitRange).mask).toNat = u.toNat % 2 ^ bits := by
  have valid : (⟨bits - 1, low⟩ : BitRange).Valid := ⟨by dsimp only; omega, by dsimp only; omega⟩
  obtain ⟨m, shape⟩ := multiple
  apply Nat.eq_of_testBit_eq
  intro k
  have bit := valid.getLsbD_mask k
  rw [BitVec.getLsbD] at bit
  rw [BitVec.toNat_and, Nat.testBit_and, bit, Nat.testBit_mod_two_pow, shape,
    Nat.testBit_two_pow_mul]
  grind

/-- A word within the block is a number below the width, a multiple of the lowest bit. -/
theorem Word.of_and_block {low bits : Nat} (ordered : low < bits) (bounded : bits ≤ 32) {u : Word}
    (within : u &&& (⟨bits - 1, low⟩ : BitRange).mask = u) :
    u.toNat < 2 ^ bits ∧ 2 ^ low ∣ u.toNat := by
  have valid : (⟨bits - 1, low⟩ : BitRange).Valid := ⟨by dsimp only; omega, by dsimp only; omega⟩
  have clear : ∀ k, ¬ (low ≤ k ∧ k ≤ bits - 1) → u.toNat.testBit k = false := by
    intro k outside
    have bit := congrArg (fun w : Word => w.getLsbD k) within
    simp only [BitVec.getLsbD_and, valid.getLsbD_mask, decide_eq_false outside,
      Bool.and_false] at bit
    exact bit.symm
  constructor
  · exact Nat.lt_pow_two_of_testBit _ fun k high => clear k (by omega)
  · have zero : u.toNat % 2 ^ low = 0 := by
      apply Nat.eq_of_testBit_eq
      intro k
      rw [Nat.testBit_mod_two_pow, Nat.zero_testBit]
      by_cases below : k < low
      · rw [clear k (by omega), Bool.and_false]
      · simp [below]
    exact Nat.dvd_of_mod_eq_zero zero

theorem Word.toNat_ofInt (v : Int) : ((Word.ofInt v).toNat : Int) = v % 2 ^ 32 := by
  rw [ofInt, BitVec.toNat_ofInt, Int.toNat_of_nonneg (Int.emod_nonneg _ (by decide))]
  rfl

theorem Word.ofInt_toNat (w : Word) : Word.ofInt w.toNat = w := by
  rw [ofInt, BitVec.ofInt_natCast, BitVec.ofNat_toNat, BitVec.setWidth_eq]

/-- The block of an integer's bits is the integer modulo two to the width. -/
theorem Word.toNat_ofInt_and_block {low bits : Nat} (ordered : low < bits) (bounded : bits ≤ 32)
    {v : Int} (multiple : (2 ^ low : Int) ∣ v) :
    ((Word.ofInt v &&& (⟨bits - 1, low⟩ : BitRange).mask).toNat : Int) = v % 2 ^ bits := by
  have wraps : (2 ^ bits : Int) ∣ 2 ^ 32 := pow_dvd_pow 2 bounded
  have number := Word.toNat_ofInt v
  have kept : 2 ^ low ∣ (Word.ofInt v).toNat := by
    have inInt : (2 ^ low : Int) ∣ ((Word.ofInt v).toNat : Int) := by
      apply Int.dvd_of_emod_eq_zero
      rw [number, Int.emod_emod_of_dvd _ ((pow_dvd_pow 2 (Nat.le_of_lt ordered)).trans wraps)]
      exact Int.emod_eq_zero_of_dvd multiple
    exact_mod_cast inInt
  rw [Word.toNat_and_block ordered bounded kept, Int.natCast_emod, number]
  push_cast
  exact Int.emod_emod_of_dvd v wraps

namespace Immediate

/-- The lowest bit that the layout keeps. -/
def low (f : Immediate) : Nat := f.layout.low?.getD 0

/-- The layout keeps exactly the bits from the lowest one up to the width of the range. -/
structure WellFormed (f : Immediate) : Prop where
  layout : f.layout.WellFormed
  low_lt : f.low < f.range.bits
  bits_le : f.range.bits ≤ 32
  filled : f.layout.valueMask = (⟨f.range.bits - 1, f.low⟩ : BitRange).mask

instance (f : Immediate) : Decidable f.WellFormed :=
  decidable_of_iff (f.layout.WellFormed ∧ f.low < f.range.bits ∧ f.range.bits ≤ 32 ∧
      f.layout.valueMask = (⟨f.range.bits - 1, f.low⟩ : BitRange).mask)
    ⟨fun h => ⟨h.1, h.2.1, h.2.2.1, h.2.2.2⟩, fun h => ⟨h.1, h.2, h.3, h.4⟩⟩

variable {f : Immediate}

/-- The check, said as a condition. -/
theorem check_eq_ok_iff (v : Int) :
    f.check v = .ok () ↔
      f.range.contains v = true ∧ v % f.layout.align = 0 ∧ (f.nonZero = true → v ≠ 0) := by
  unfold check
  split
  · simp_all
  · split
    · simp_all
    · split
      · simp_all
      · simp_all

namespace WellFormed

theorem align_eq (wf : f.WellFormed) : f.layout.align = 2 ^ f.low := by
  have bound : f.low < 63 := by have := wf.low_lt; have := wf.bits_le; omega
  unfold low at bound ⊢
  unfold Layout.align
  split
  · next none => simp [none]
  · next n found =>
    rw [found, Option.getD_some] at bound ⊢
    rw [if_pos bound, Nat.one_shiftLeft]
    push_cast
    rfl

theorem dvd_of_aligned (wf : f.WellFormed) {v : Int} (aligned : v % f.layout.align = 0) :
    (2 ^ f.low : Int) ∣ v := by
  rw [wf.align_eq] at aligned
  exact Int.dvd_of_emod_eq_zero aligned

theorem bits_pos (wf : f.WellFormed) : 1 ≤ f.range.bits := Nat.one_le_of_lt wf.low_lt

/-- A signed number that passes the check lies in the half-open interval of its width. -/
theorem signed_bounds (wf : f.WellFormed) (signed : f.range.unsigned = false) {v : Int}
    (checked : f.check v = .ok ()) : -2 ^ (f.range.bits - 1) ≤ v ∧ v < 2 ^ (f.range.bits - 1) := by
  obtain ⟨contained, -⟩ := (check_eq_ok_iff v).mp checked
  have positive := wf.bits_pos
  have bits := wf.bits_le
  exact (ImmRange.contains_signed signed positive (by omega) v).mp contained

/-- A number that passes the check has at most 32 bits. -/
theorem bounds (wf : f.WellFormed) {v : Int} (checked : f.check v = .ok ()) :
    -2 ^ 31 ≤ v ∧ v < 2 ^ 32 := by
  have bits := wf.bits_le
  cases sign : f.range.unsigned with
  | true =>
    obtain ⟨contained, -⟩ := (check_eq_ok_iff v).mp checked
    rw [ImmRange.contains_unsigned sign (by omega)] at contained
    have wider : (2 ^ f.range.bits : Int) ≤ 2 ^ 32 := by
      exact_mod_cast Nat.pow_le_pow_right (by decide : 0 < 2) bits
    omega
  | false =>
    have interval := wf.signed_bounds sign checked
    have wider : (2 ^ (f.range.bits - 1) : Int) ≤ 2 ^ 31 := by
      exact_mod_cast Nat.pow_le_pow_right (by decide : 0 < 2) (by omega : f.range.bits - 1 ≤ 31)
    omega

/-- The bits in a word, as a number below the width. -/
theorem toNat_unpack_of_kept (wf : f.WellFormed) {w : Word} {v : Int}
    (kept : w &&& f.layout.wordMask = f.layout.pack (Word.ofInt v))
    (multiple : (2 ^ f.low : Int) ∣ v) :
    ((f.layout.unpack w).toNat : Int) = v % 2 ^ f.range.bits := by
  rw [← Layout.unpack_and_wordMask wf.layout.valid, kept, wf.layout.unpack_pack, wf.filled]
  exact Word.toNat_ofInt_and_block wf.low_lt wf.bits_le multiple

/-- **What is packed is read back.** -/
theorem decode_eq (wf : f.WellFormed) {w : Word} {v : Int}
    (kept : w &&& f.layout.wordMask = f.layout.pack (Word.ofInt v)) (checked : f.check v = .ok ()) :
    f.decode w = v := by
  obtain ⟨contained, aligned, -⟩ := (check_eq_ok_iff v).mp checked
  have number := wf.toNat_unpack_of_kept kept (wf.dvd_of_aligned aligned)
  have positive := wf.bits_pos
  have bits := wf.bits_le
  unfold decode
  cases sign : f.range.unsigned with
  | true =>
    rw [ImmRange.contains_unsigned sign (by omega)] at contained
    simp only [↓reduceIte]
    rw [number, Int.emod_eq_of_lt contained.1 contained.2]
  | false =>
    rw [ImmRange.contains_signed sign positive (by omega)] at contained
    simp only [Bool.false_eq_true, ↓reduceIte]
    refine (signExtend_eq_iff positive (by omega)).mpr ⟨contained, ?_⟩
    rw [number]
    exact (Int.mod_modEq v _).symm

/-- The bits that are read lie in the block of the layout. -/
theorem unpack_bounds (wf : f.WellFormed) (w : Word) :
    (f.layout.unpack w).toNat < 2 ^ f.range.bits ∧ 2 ^ f.low ∣ (f.layout.unpack w).toNat := by
  refine Word.of_and_block wf.low_lt wf.bits_le ?_
  rw [← wf.filled]
  exact Layout.unpack_and_valueMask wf.layout.valid w

/-- The number that is read agrees with the bits modulo two to the width. -/
theorem decode_emod (wf : f.WellFormed) (w : Word) :
    f.decode w % 2 ^ f.range.bits = (f.layout.unpack w).toNat := by
  obtain ⟨below, -⟩ := wf.unpack_bounds w
  have belowInt : ((f.layout.unpack w).toNat : Int) < 2 ^ f.range.bits := by exact_mod_cast below
  unfold decode
  cases f.range.unsigned with
  | true =>
    simp only [↓reduceIte]
    exact Int.emod_eq_of_lt (Int.natCast_nonneg _) belowInt
  | false =>
    have positive := wf.bits_pos
    have bits := wf.bits_le
    have agrees := ((signExtend_eq_iff (w := f.layout.unpack w) positive (by omega)).mp rfl).2
    simp only [Bool.false_eq_true, ↓reduceIte]
    rw [agrees.eq, Int.emod_eq_of_lt (Int.natCast_nonneg _) belowInt]

theorem dvd_decode (wf : f.WellFormed) (w : Word) : (2 ^ f.low : Int) ∣ f.decode w := by
  obtain ⟨-, multiple⟩ := wf.unpack_bounds w
  apply Int.dvd_of_emod_eq_zero
  rw [← Int.emod_emod_of_dvd _ (pow_dvd_pow 2 (Nat.le_of_lt wf.low_lt)), wf.decode_emod]
  exact Int.emod_eq_zero_of_dvd (by exact_mod_cast multiple)

theorem contains_decode (wf : f.WellFormed) (w : Word) : f.range.contains (f.decode w) = true := by
  obtain ⟨below, -⟩ := wf.unpack_bounds w
  have positive := wf.bits_pos
  have bits := wf.bits_le
  unfold decode
  cases sign : f.range.unsigned with
  | true =>
    rw [ImmRange.contains_unsigned sign (by omega)]
    simp only [↓reduceIte]
    exact ⟨Int.natCast_nonneg _, by exact_mod_cast below⟩
  | false =>
    rw [ImmRange.contains_signed sign positive (by omega)]
    simp only [Bool.false_eq_true, ↓reduceIte]
    exact ((signExtend_eq_iff positive (by omega)).mp rfl).1

/-- **What is read passes the check**, unless it is a reserved zero. -/
theorem check_decode (wf : f.WellFormed) {w : Word}
    (notReserved : f.nonZero = true → f.decode w ≠ 0) : f.check (f.decode w) = .ok () := by
  refine (check_eq_ok_iff _).mpr ⟨wf.contains_decode w, ?_, notReserved⟩
  rw [wf.align_eq]
  exact Int.emod_eq_zero_of_dvd (wf.dvd_decode w)

/-- **What is read is packed into the bits it came from.** -/
theorem pack_decode (wf : f.WellFormed) (w : Word) :
    f.layout.pack (Word.ofInt (f.decode w)) = w &&& f.layout.wordMask := by
  have same : Word.ofInt (f.decode w) &&& f.layout.valueMask = f.layout.unpack w := by
    apply BitVec.eq_of_toNat_eq
    have number := Word.toNat_ofInt_and_block wf.low_lt wf.bits_le (wf.dvd_decode w)
    rw [wf.decode_emod, ← wf.filled] at number
    exact_mod_cast number
  rw [← Layout.pack_and_valueMask wf.layout.valid, same, wf.layout.pack_unpack]

end WellFormed

end Immediate

end RvCodec

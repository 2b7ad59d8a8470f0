import Mathlib
import RvCodec.Layout

/-!
# The bits of a range

A range of bits lies in a word when its ends are in order and its top is one of
the thirty-two bits.  For such a range every operation is told bit by bit: the
mask has exactly the bits of the range, reading moves them down, and filling
moves the low bits of a value up.

Reading and filling then undo each other: filling a range with what was read
from it gives back the word's bits in the range (`put_get`), and reading a range
filled with a value that fits gives back the value (`get_put`).
-/

set_option autoImplicit false

namespace RvCodec

/-! ## Shifts and single bits -/

namespace Word

theorem getLsbD_up (w : Word) (n k : Nat) :
    (w.up n).getLsbD k = (decide (k < 32) && decide (n ≤ k) && w.getLsbD (k - n)) := by
  unfold up
  split
  · rw [BitVec.getLsbD_shiftLeft]
    grind
  · simp only [BitVec.ofNat_eq_ofNat, BitVec.getLsbD_zero]
    grind

theorem getLsbD_down (w : Word) (n k : Nat) : (w.down n).getLsbD k = w.getLsbD (n + k) := by
  unfold down
  split
  · rw [BitVec.getLsbD_ushiftRight]
  · rw [BitVec.getLsbD_of_ge w (n + k) (by omega)]
    simp

theorem toNat_bit {n : Nat} (inside : n < 32) : (bit n).toNat = 2 ^ n := by
  have below : 2 ^ n < 2 ^ 32 := Nat.pow_lt_pow_right (by decide) inside
  rw [bit, if_pos inside, BitVec.toNat_shiftLeft, Nat.shiftLeft_eq]
  exact (congrArg (· % 2 ^ 32) (Nat.one_mul _)).trans (Nat.mod_eq_of_lt below)

/-- Words with the same bits are equal. -/
theorem eq_of_bits {a b : Word} (same : ∀ k < 32, a.getLsbD k = b.getLsbD k) : a = b :=
  BitVec.eq_of_getLsbD_eq fun k bound => same k bound

/-- Pieces of two masks lie in the masks taken together. -/
theorem or_and_or {a b m n : Word} (left : a &&& m = a) (right : b &&& n = b) :
    (a ||| b) &&& (m ||| n) = a ||| b := by
  apply eq_of_bits
  intro k _
  have leftBit := congrArg (·.getLsbD k) left
  have rightBit := congrArg (·.getLsbD k) right
  simp only [BitVec.getLsbD_and, BitVec.getLsbD_or] at leftBit rightBit ⊢
  grind

/-- Masks without a common bit keep their own pieces. -/
theorem and_eq_of_or {w a b m n : Word} (apart : m &&& n = 0) (left : a &&& m = a)
    (right : b &&& n = b) (kept : w &&& (m ||| n) = a ||| b) : w &&& m = a ∧ w &&& n = b := by
  constructor <;> refine eq_of_bits fun k _ => ?_
  all_goals
    have apartBit := congrArg (·.getLsbD k) apart
    have leftBit := congrArg (·.getLsbD k) left
    have rightBit := congrArg (·.getLsbD k) right
    have keptBit := congrArg (·.getLsbD k) kept
    simp only [BitVec.getLsbD_and, BitVec.getLsbD_or, BitVec.ofNat_eq_ofNat,
      BitVec.getLsbD_zero] at apartBit leftBit rightBit keptBit ⊢
    grind

/-! ## Unions -/

@[simp] theorem union_nil : union [] = 0 := rfl

@[simp] theorem union_cons (w : Word) (ws : List Word) : union (w :: ws) = w ||| union ws := rfl

/-- A union has the bits that one of its members has. -/
theorem getLsbD_union (ws : List Word) (k : Nat) :
    (union ws).getLsbD k = ws.any fun w => w.getLsbD k := by
  induction ws with
  | nil => simp
  | cons w ws ih => simp only [union_cons, BitVec.getLsbD_or, ih, List.any_cons]

/-- The order of the members does not matter. -/
theorem union_perm {ws vs : List Word} (perm : ws.Perm vs) : union ws = union vs := by
  apply eq_of_bits
  intro k _
  rw [getLsbD_union, getLsbD_union, perm.any_eq]

end Word

/-! ## Ranges inside a word -/

namespace BitRange

/-- The ends of the range are in order and inside the word. -/
structure Valid (r : BitRange) : Prop where
  ordered : r.bottom ≤ r.top
  bounded : r.top ≤ 31

instance (r : BitRange) : Decidable r.Valid :=
  decidable_of_iff (r.bottom ≤ r.top ∧ r.top ≤ 31) ⟨fun h => ⟨h.1, h.2⟩, fun h => ⟨h.1, h.2⟩⟩

/-- The number of bits of the range. -/
def size (r : BitRange) : Nat := r.top + 1 - r.bottom

variable {r : BitRange}

/-- The mask as a number: a block of ones above `bottom` zeros. -/
theorem Valid.toNat_mask (valid : r.Valid) : r.mask.toNat = 2 ^ r.bottom * (2 ^ r.size - 1) := by
  obtain ⟨ordered, bounded⟩ := valid
  have split : 2 ^ r.bottom * 2 ^ r.size = 2 ^ (r.top + 1) := by
    rw [← Nat.pow_add, size]
    congr 1
    omega
  have counted : (r.top + 1) % 1 <<< 64 = r.top + 1 := Nat.mod_eq_of_lt (by omega)
  have less : 2 ^ r.bottom < 2 ^ (r.top + 1) := Nat.pow_lt_pow_right (by decide) (by omega)
  have positive : 0 < 2 ^ r.bottom := Nat.two_pow_pos _
  rw [mask, BitVec.toNat_sub, Word.toNat_bit (by omega), counted, Nat.mul_sub, Nat.mul_one, split]
  -- The bit above the top is missing when the range ends with the word.
  by_cases last : r.top = 31
  · have missing : (Word.bit (r.top + 1)).toNat = 0 := by simp [Word.bit, last]
    rw [missing, last]
    rw [last] at less
    generalize 2 ^ r.bottom = low at *
    omega
  · have fits : 2 ^ (r.top + 1) < 2 ^ 32 := Nat.pow_lt_pow_right (by decide) (by omega)
    rw [Word.toNat_bit (by omega)]
    generalize 2 ^ r.bottom = low at *
    generalize 2 ^ (r.top + 1) = high at *
    omega

/-- The mask has the bits of the range. -/
theorem Valid.getLsbD_mask (valid : r.Valid) (k : Nat) :
    r.mask.getLsbD k = decide (r.bottom ≤ k ∧ k ≤ r.top) := by
  have ordered := valid.ordered
  rw [BitVec.getLsbD, valid.toNat_mask, Nat.testBit_two_pow_mul, Nat.testBit_two_pow_sub_one]
  unfold size
  grind

/-- The range's contents, bit by bit. -/
theorem Valid.getLsbD_get (valid : r.Valid) (w : Word) (k : Nat) :
    (r.get w).getLsbD k = (decide (k < r.size) && w.getLsbD (r.bottom + k)) := by
  have ordered := valid.ordered
  rw [get, Word.getLsbD_down, BitVec.getLsbD_and, valid.getLsbD_mask]
  unfold size
  grind

/-- The filled range, bit by bit. -/
theorem Valid.getLsbD_put (valid : r.Valid) (v : Word) (k : Nat) :
    (r.put v).getLsbD k = (decide (r.bottom ≤ k ∧ k ≤ r.top) && v.getLsbD (k - r.bottom)) := by
  have bounded := valid.bounded
  rw [put, BitVec.getLsbD_and, Word.getLsbD_up, valid.getLsbD_mask]
  grind

/-! ## Reading and filling -/

/-- Nothing outside the range is filled. -/
theorem put_and_mask (r : BitRange) (v : Word) : r.put v &&& r.mask = r.put v := by
  rw [put, BitVec.and_assoc, BitVec.and_self]

/-- Only the bits of the range are read. -/
theorem get_and_mask (r : BitRange) (w : Word) : r.get (w &&& r.mask) = r.get w := by
  rw [get, get, BitVec.and_assoc, BitVec.and_self]

/-- What is read has no more bits than the range. -/
theorem Valid.get_lt (valid : r.Valid) (w : Word) : (r.get w).toNat < 2 ^ r.size := by
  apply Nat.lt_pow_two_of_testBit
  intro k high
  have := valid.getLsbD_get w k
  rw [BitVec.getLsbD] at this
  grind

/-- **Filling undoes reading** on the bits of the range. -/
theorem Valid.put_get (valid : r.Valid) (w : Word) : r.put (r.get w) = w &&& r.mask := by
  apply Word.eq_of_bits
  intro k _
  rw [valid.getLsbD_put, valid.getLsbD_get, BitVec.getLsbD_and, valid.getLsbD_mask]
  have ordered := valid.ordered
  unfold size
  grind

/-- **Reading undoes filling** for a value that fits. -/
theorem Valid.get_put (valid : r.Valid) {v : Word} (fits : v.toNat < 2 ^ r.size) :
    r.get (r.put v) = v := by
  apply Word.eq_of_bits
  intro k _
  rw [valid.getLsbD_get, valid.getLsbD_put]
  by_cases inside : k < r.size
  · have := valid.ordered
    unfold size at inside ⊢
    grind
  · have high : 2 ^ r.size ≤ 2 ^ k := Nat.pow_le_pow_right (by decide) (by omega)
    have clear : v.getLsbD k = false := Nat.testBit_lt_two_pow (by omega)
    simp [inside, clear]

/-- Reading a range of a word whose bits there were filled with a value that fits. -/
theorem Valid.get_eq (valid : r.Valid) {v w : Word} (fits : v.toNat < 2 ^ r.size)
    (kept : w &&& r.mask = r.put v) : r.get w = v := by
  rw [← get_and_mask, kept, valid.get_put fits]

end BitRange

end RvCodec

import RvCodec.Proofs.Layouts
import RvCodec.Reference.Immediates

/-!
# Decoding by steps

The reference tells its readers to decode an immediate in steps: mask the word,
shift the result once, and combine what the steps give.  Unpacking takes another
way: each slice is moved down to bit zero and then up to its place.

The single shift of a step is the difference of the two.  It loses nothing that
the way through bit zero would keep, and it keeps nothing that would be lost
there, because a mask has no bits below its range.  What moves beyond the top
bit is dropped on both ways.  So the steps of a layout compute what unpacking
computes (`Layout.run_decodeSteps`), whether or not the slices overlap and
however many there are.
-/

set_option autoImplicit false

namespace RvCodec

/-- What steps compute from a word: their results, combined. -/
def DecodeStep.run (steps : List DecodeStep) (w : Word) : Word :=
  Word.union (steps.map (·.apply w))

namespace Slice

/-- One shift brings the bits of the slice to their place: its positions are positions of a word,
and it is a range of bits unless its bits only move down. -/
structure Shiftable (s : Slice) : Prop where
  bottom : s.bottom ≤ 31
  pos : s.pos ≤ 31
  range : s.pos = 0 ∨ s.range.Valid

instance (s : Slice) : Decidable s.Shiftable :=
  decidable_of_iff (s.bottom ≤ 31 ∧ s.pos ≤ 31 ∧ (s.pos = 0 ∨ s.range.Valid))
    ⟨fun ⟨bottom, pos, range⟩ => ⟨bottom, pos, range⟩, fun h => ⟨h.1, h.2, h.3⟩⟩

variable {s : Slice}

theorem Shiftable.of_valid (valid : s.range.Valid) (pos : s.pos ≤ 31) : s.Shiftable where
  bottom := valid.ordered.trans valid.bounded
  pos := pos
  range := .inr valid

/-- Positions of a word are too small for their difference to wrap. -/
theorem Shiftable.distance_eq (shiftable : s.Shiftable) :
    s.distance = (s.bottom : Int) - s.pos := by
  have low := shiftable.bottom
  have near := shiftable.pos
  rw [distance, show (1 <<< 64 : Nat) = 2 ^ 64 from rfl]
  apply Int.bmod_eq_of_le <;> omega

/-- A masked word has nothing below the slice that could move into the immediate. -/
theorem Shiftable.clear_below (shiftable : s.Shiftable) (w : Word) {k : Nat} (below : k < s.bottom)
    (moved : s.pos ≠ 0) : (w &&& s.range.mask).getLsbD k = false := by
  have valid := shiftable.range.resolve_left moved
  have bottom : s.range.bottom = s.bottom := rfl
  rw [BitVec.getLsbD_and, valid.getLsbD_mask, decide_eq_false (by omega), Bool.and_false]

end Slice

/-- **A step gives what unpacking its slice gives.** -/
theorem DecodeStep.apply_ofSlice {s : Slice} (shiftable : s.Shiftable) (w : Word) :
    (ofSlice s).apply w = (s.range.get w).up s.pos := by
  have low := shiftable.bottom
  have near := shiftable.pos
  have bottom : s.range.bottom = s.bottom := rfl
  have step : (ofSlice s).apply w = if 0 ≤ s.distance
      then (w &&& s.range.mask).down s.distance.toNat
      else (w &&& s.range.mask).up (-s.distance).toNat := rfl
  apply Word.eq_of_bits
  intro k inside
  rw [step, shiftable.distance_eq, BitRange.get, Word.getLsbD_up, Word.getLsbD_down, bottom,
    decide_eq_true inside, Bool.true_and]
  by_cases placed : s.pos ≤ k
  · -- The bit comes from the slice, or from above it.
    rw [decide_eq_true placed, Bool.true_and]
    split
    · rw [Word.getLsbD_down]
      congr 1
      omega
    · rw [Word.getLsbD_up, decide_eq_true inside, decide_eq_true (by omega), Bool.true_and,
        Bool.true_and]
      congr 1
      omega
  · -- The bit would come from below the slice.
    rw [decide_eq_false placed, Bool.false_and]
    split
    · rw [Word.getLsbD_down]
      exact shiftable.clear_below w (by omega) (by omega)
    · rw [Word.getLsbD_up, decide_eq_true inside, Bool.true_and]
      by_cases kept : (-((s.bottom : Int) - s.pos)).toNat ≤ k
      · rw [shiftable.clear_below w (by omega) (by omega), Bool.and_false]
      · rw [decide_eq_false kept, Bool.false_and]

namespace Layout

theorem run_decodeSteps_of_shiftable {l : Layout} (shiftable : ∀ s ∈ l, s.Shiftable) (w : Word) :
    DecodeStep.run l.decodeSteps w = l.unpack w := by
  rw [DecodeStep.run, decodeSteps, List.map_map, unpack]
  congr 1
  apply List.map_congr_left
  intro s member
  exact DecodeStep.apply_ofSlice (shiftable s member) w

/-- **The steps of a layout compute what unpacking computes**, if its slices lie in the word and
start inside the immediate. -/
theorem run_decodeSteps {l : Layout}
    (inside : ∀ s ∈ l, s.bottom ≤ s.top ∧ s.top ≤ 31 ∧ s.pos ≤ 31) (w : Word) :
    DecodeStep.run l.decodeSteps w = l.unpack w := by
  apply run_decodeSteps_of_shiftable
  intro s member
  obtain ⟨ordered, bounded, near⟩ := inside s member
  exact .of_valid ⟨ordered, bounded⟩ near

/-- A branch offset of minus four, and a slice that reaches beyond the top bit and overlaps
another. -/
theorem run_decodeSteps_branch :
    DecodeStep.run branch.decodeSteps 0xfe209ee3 = 0x1ffc ∧
    DecodeStep.run (decodeSteps [⟨9, 0, 28⟩, ⟨31, 4, 2⟩]) 0xfe209ee3 = 0x3f8827b8 := by
  refine ⟨(run_decodeSteps (by decide) _).trans (by decide), ?_⟩
  exact (run_decodeSteps (l := [⟨9, 0, 28⟩, ⟨31, 4, 2⟩]) (by decide) _).trans (by decide)

end Layout

end RvCodec

import RvCodec.Proofs.Bits

/-!
# Packing and unpacking

A layout is well formed when every slice lies inside the word and inside the
immediate, and no two slices share a bit of either.  Packing and unpacking are
then inverse to each other on the bits that the layout mentions
(`pack_unpack`, `unpack_pack`).

Each slice ties a range of word bits to a range of immediate bits of the same
size.  A bit that lies in the ranges of two slices is ruled out by
disjointness, so the slice that wrote a bit is the slice that reads it.

`WellFormed.mutually_inverse` says both bit by bit, without masks, and adds that the
order of the slices shows in neither direction.
-/

set_option autoImplicit false

namespace RvCodec

/-- The ranges have no bit in common. -/
def BitRange.Apart (a b : BitRange) : Prop := a.top < b.bottom ∨ b.top < a.bottom

instance (a b : BitRange) : Decidable (a.Apart b) :=
  inferInstanceAs (Decidable (a.top < b.bottom ∨ b.top < a.bottom))

theorem BitRange.Apart.symm {a b : BitRange} (apart : a.Apart b) : b.Apart a := Or.symm apart

namespace Slice

/-- The immediate bits of the slice. -/
def target (s : Slice) : BitRange := ⟨s.pos + (s.top - s.bottom), s.pos⟩

/-- The slice lies inside the word and inside a 32-bit immediate. -/
structure Valid (s : Slice) : Prop where
  range : s.range.Valid
  target : s.target.Valid

instance (s : Slice) : Decidable s.Valid :=
  decidable_of_iff (s.range.Valid ∧ s.target.Valid) ⟨fun h => ⟨h.1, h.2⟩, fun h => ⟨h.1, h.2⟩⟩

end Slice

namespace Layout

/-- The slices lie inside the word and share no bit, neither of the word nor of the immediate. -/
structure WellFormed (l : Layout) : Prop where
  valid : ∀ s ∈ l, s.Valid
  ranges : l.Pairwise fun a b => a.range.Apart b.range
  targets : l.Pairwise fun a b => a.target.Apart b.target

instance (l : Layout) : Decidable l.WellFormed :=
  decidable_of_iff ((∀ s ∈ l, s.Valid) ∧ (l.Pairwise fun a b => a.range.Apart b.range) ∧
      l.Pairwise fun a b => a.target.Apart b.target)
    ⟨fun h => ⟨h.1, h.2.1, h.2.2⟩, fun h => ⟨h.1, h.2, h.3⟩⟩

/-- The word bits that some slice covers. -/
def wordMask (l : Layout) : Word := Word.union (l.map (·.range.mask))

/-- The immediate bits that some slice covers. -/
def valueMask (l : Layout) : Word := Word.union (l.map (·.target.mask))

variable {l : Layout}

/-! ## The order of the slices -/

theorem pack_perm {m : Layout} (perm : l.Perm m) (v : Word) : l.pack v = m.pack v :=
  Word.union_perm (perm.map _)

theorem unpack_perm {m : Layout} (perm : l.Perm m) (w : Word) : l.unpack w = m.unpack w :=
  Word.union_perm (perm.map _)

/-! ## Bit by bit -/

section Bits

variable (valid : ∀ s ∈ l, s.Valid)
include valid

theorem getLsbD_wordMask (k : Nat) :
    l.wordMask.getLsbD k = true ↔ ∃ s ∈ l, s.bottom ≤ k ∧ k ≤ s.top := by
  rw [wordMask, Word.getLsbD_union, List.any_map, List.any_eq_true]
  apply exists_congr
  intro s
  apply and_congr_right
  intro member
  rw [Function.comp_apply, (valid s member).range.getLsbD_mask, decide_eq_true_eq]
  rfl

theorem getLsbD_valueMask (k : Nat) :
    l.valueMask.getLsbD k = true ↔
      ∃ s ∈ l, s.pos ≤ k ∧ k ≤ s.pos + (s.top - s.bottom) := by
  rw [valueMask, Word.getLsbD_union, List.any_map, List.any_eq_true]
  apply exists_congr
  intro s
  apply and_congr_right
  intro member
  rw [Function.comp_apply, (valid s member).target.getLsbD_mask, decide_eq_true_eq]
  rfl

/-- A packed bit comes from the slice that covers it. -/
theorem getLsbD_pack (v : Word) (k : Nat) :
    (l.pack v).getLsbD k = true ↔
      ∃ s ∈ l, (s.bottom ≤ k ∧ k ≤ s.top) ∧ v.getLsbD (s.pos + (k - s.bottom)) = true := by
  rw [pack, Word.getLsbD_union, List.any_map, List.any_eq_true]
  apply exists_congr
  intro s
  apply and_congr_right
  intro member
  rw [Function.comp_apply, (valid s member).range.getLsbD_put, Word.getLsbD_down, Bool.and_eq_true,
    decide_eq_true_eq]
  rfl

/-- An unpacked bit comes from the slice that covers it. -/
theorem getLsbD_unpack (w : Word) (k : Nat) :
    (l.unpack w).getLsbD k = true ↔
      ∃ s ∈ l, (s.pos ≤ k ∧ k ≤ s.pos + (s.top - s.bottom)) ∧
        w.getLsbD (s.bottom + (k - s.pos)) = true := by
  rw [unpack, Word.getLsbD_union, List.any_map, List.any_eq_true]
  apply exists_congr
  intro s
  apply and_congr_right
  intro member
  have ordered : s.bottom ≤ s.top := (valid s member).range.ordered
  have bounded : s.pos + (s.top - s.bottom) ≤ 31 := (valid s member).target.bounded
  have size : s.range.size = s.top + 1 - s.bottom := rfl
  rw [Function.comp_apply, Word.getLsbD_up, (valid s member).range.getLsbD_get, size]
  simp only [Bool.and_eq_true, decide_eq_true_eq]
  constructor
  · rintro ⟨⟨_, above⟩, inside, set⟩
    exact ⟨⟨above, by omega⟩, set⟩
  · rintro ⟨⟨above, inside⟩, set⟩
    exact ⟨⟨by omega, above⟩, by omega, set⟩

/-! ## Only the covered bits count -/

theorem pack_and_wordMask (v : Word) : l.pack v &&& l.wordMask = l.pack v := by
  apply Word.eq_of_bits
  intro k _
  rw [BitVec.getLsbD_and, Bool.eq_iff_iff, Bool.and_eq_true, getLsbD_pack valid,
    getLsbD_wordMask valid]
  constructor
  · exact And.left
  · rintro ⟨s, member, covered, set⟩
    exact ⟨⟨s, member, covered, set⟩, s, member, covered⟩

theorem unpack_and_wordMask (w : Word) : l.unpack (w &&& l.wordMask) = l.unpack w := by
  apply Word.eq_of_bits
  intro k _
  rw [Bool.eq_iff_iff, getLsbD_unpack valid, getLsbD_unpack valid]
  apply exists_congr
  intro s
  apply and_congr_right
  intro member
  apply and_congr_right
  intro covered
  have ordered : s.bottom ≤ s.top := (valid s member).range.ordered
  have inMask : l.wordMask.getLsbD (s.bottom + (k - s.pos)) = true :=
    (getLsbD_wordMask valid _).mpr ⟨s, member, by omega, by omega⟩
  rw [BitVec.getLsbD_and, inMask, Bool.and_true]

theorem unpack_and_valueMask (w : Word) : l.unpack w &&& l.valueMask = l.unpack w := by
  apply Word.eq_of_bits
  intro k _
  rw [BitVec.getLsbD_and, Bool.eq_iff_iff, Bool.and_eq_true, getLsbD_unpack valid,
    getLsbD_valueMask valid]
  constructor
  · exact And.left
  · rintro ⟨s, member, covered, set⟩
    exact ⟨⟨s, member, covered, set⟩, s, member, covered⟩

theorem pack_and_valueMask (v : Word) : l.pack (v &&& l.valueMask) = l.pack v := by
  apply Word.eq_of_bits
  intro k _
  rw [Bool.eq_iff_iff, getLsbD_pack valid, getLsbD_pack valid]
  apply exists_congr
  intro s
  apply and_congr_right
  intro member
  apply and_congr_right
  intro covered
  have inMask : l.valueMask.getLsbD (s.pos + (k - s.bottom)) = true :=
    (getLsbD_valueMask valid _).mpr ⟨s, member, by omega, by omega⟩
  rw [BitVec.getLsbD_and, inMask, Bool.and_true]

end Bits

/-! ## Packing and unpacking undo each other -/

namespace WellFormed

/-- At most one slice covers a word bit. -/
theorem range_unique (wf : l.WellFormed) {a b : Slice} (inA : a ∈ l) (inB : b ∈ l) {k : Nat}
    (coverA : a.bottom ≤ k ∧ k ≤ a.top) (coverB : b.bottom ≤ k ∧ k ≤ b.top) : a = b := by
  by_contra different
  have symmetric : Std.Symm fun a b : Slice => a.range.Apart b.range :=
    ⟨fun _ _ => BitRange.Apart.symm⟩
  have apart : a.top < b.bottom ∨ b.top < a.bottom := wf.ranges.forall inA inB different
  omega

/-- At most one slice covers an immediate bit. -/
theorem target_unique (wf : l.WellFormed) {a b : Slice} (inA : a ∈ l) (inB : b ∈ l) {k : Nat}
    (coverA : a.pos ≤ k ∧ k ≤ a.pos + (a.top - a.bottom))
    (coverB : b.pos ≤ k ∧ k ≤ b.pos + (b.top - b.bottom)) : a = b := by
  by_contra different
  have symmetric : Std.Symm fun a b : Slice => a.target.Apart b.target :=
    ⟨fun _ _ => BitRange.Apart.symm⟩
  have apart : a.pos + (a.top - a.bottom) < b.pos ∨ b.pos + (b.top - b.bottom) < a.pos :=
    wf.targets.forall inA inB different
  omega

/-- **Packing undoes unpacking** on the word bits of the layout. -/
theorem pack_unpack (wf : l.WellFormed) (w : Word) : l.pack (l.unpack w) = w &&& l.wordMask := by
  apply Word.eq_of_bits
  intro k _
  rw [BitVec.getLsbD_and, Bool.eq_iff_iff, Bool.and_eq_true, getLsbD_pack wf.valid,
    getLsbD_wordMask wf.valid]
  simp only [getLsbD_unpack wf.valid]
  constructor
  · rintro ⟨s, member, covered, s', member', covered', set⟩
    -- The slice that reads the immediate bit is the one that fills the word bit.
    obtain rfl := wf.target_unique member' member covered' (by omega)
    rw [show s'.bottom + (s'.pos + (k - s'.bottom) - s'.pos) = k by omega] at set
    exact ⟨set, s', member, covered⟩
  · rintro ⟨set, s, member, covered⟩
    refine ⟨s, member, covered, s, member, by omega, ?_⟩
    rwa [show s.bottom + (s.pos + (k - s.bottom) - s.pos) = k by omega]

/-- **Unpacking undoes packing** on the immediate bits of the layout. -/
theorem unpack_pack (wf : l.WellFormed) (v : Word) : l.unpack (l.pack v) = v &&& l.valueMask := by
  apply Word.eq_of_bits
  intro k _
  rw [BitVec.getLsbD_and, Bool.eq_iff_iff, Bool.and_eq_true, getLsbD_unpack wf.valid,
    getLsbD_valueMask wf.valid]
  simp only [getLsbD_pack wf.valid]
  constructor
  · rintro ⟨s, member, covered, s', member', covered', set⟩
    have ordered : s.bottom ≤ s.top := (wf.valid s member).range.ordered
    obtain rfl := wf.range_unique member' member covered' (by omega)
    rw [show s'.pos + (s'.bottom + (k - s'.pos) - s'.bottom) = k by omega] at set
    exact ⟨set, s', member, covered⟩
  · rintro ⟨set, s, member, covered⟩
    have ordered : s.bottom ≤ s.top := (wf.valid s member).range.ordered
    refine ⟨s, member, covered, s, member, by omega, ?_⟩
    rwa [show s.pos + (s.bottom + (k - s.pos) - s.bottom) = k by omega]

/-- **Packing and unpacking are mutually inverse.**  On a well-formed layout, going there and back
keeps the bits that some slice covers and clears all others.  The slices may stand in any order. -/
theorem mutually_inverse (wf : l.WellFormed) :
    (∀ (v : Word) (k : Nat), (l.unpack (l.pack v)).getLsbD k = true ↔
      v.getLsbD k = true ∧ ∃ s ∈ l, s.pos ≤ k ∧ k ≤ s.pos + (s.top - s.bottom)) ∧
    (∀ (w : Word) (k : Nat), (l.pack (l.unpack w)).getLsbD k = true ↔
      w.getLsbD k = true ∧ ∃ s ∈ l, s.bottom ≤ k ∧ k ≤ s.top) ∧
    ∀ m : Layout, m.Perm l → (∀ v, m.pack v = l.pack v) ∧ ∀ w, m.unpack w = l.unpack w := by
  refine ⟨fun v k => ?_, fun w k => ?_, fun m perm => ⟨pack_perm perm, unpack_perm perm⟩⟩
  · rw [wf.unpack_pack, BitVec.getLsbD_and, Bool.and_eq_true, getLsbD_valueMask wf.valid]
  · rw [wf.pack_unpack, BitVec.getLsbD_and, Bool.and_eq_true, getLsbD_wordMask wf.valid]

/-- The offset of a branch, whose lowest bit no slice covers, in two orders of its slices. -/
theorem mutually_inverse_branch :
    branch.WellFormed ∧ (branch.unpack (branch.pack 0xffffffff)).getLsbD 0 = false ∧
      (branch.unpack (branch.pack 0xffffffff)).getLsbD 12 = true ∧
      (branch.pack (branch.unpack 0xfe000fff)).getLsbD 6 = false ∧
      pack [⟨7, 7, 11⟩, ⟨11, 8, 1⟩, ⟨30, 25, 5⟩, ⟨31, 31, 12⟩] 0xffe = branch.pack 0xffe := by
  have wf : branch.WellFormed := by decide
  obtain ⟨values, words, orders⟩ := mutually_inverse wf
  refine ⟨wf, ?_, ?_, ?_, (orders _ (List.reverse_perm branch)).1 _⟩
  · rw [← Bool.not_eq_true, values]
    decide
  · rw [values]
    decide
  · rw [← Bool.not_eq_true, words]
    decide

end WellFormed

end Layout

end RvCodec

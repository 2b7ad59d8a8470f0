import RvCodec.Disassembler
import RvCodec.Proofs.Operands
import RvCodec.Proofs.Outcomes

/-!
# Words of legal encodings

Every bit of an instruction word belongs to one part: the constant bits, one of
the operands, the ordering bits of an atomic instruction, or the unused upper
half of a 16-bit one.  An instruction is well formed when its parts tile the
word and its operands have fields of the size that their kind needs.

A legal encoding is an encoding whose values fit its operands.  Legal encodings
and the words that are not reserved are two views of the same thing: the word of
a legal encoding is covered, is not reserved and falls apart into the same
encoding (`Legal.covers`, `Legal.reserved`, `Legal.ofWord_word`), and a covered
word is put together again from its parts (`word_ofWord`).

The size and tiling conditions are decidable, so that a concrete instruction is
checked by evaluation.
-/

set_option autoImplicit false

namespace RvCodec

/-! ## The parts of a word -/

namespace Instruction

/-- The ordering bits, if the instruction has any. -/
def orderMask (i : Instruction) : Word := if i.isAtomic then MemoryOrder.field.mask else 0

/-- The orderings that the instruction may have. -/
def orders (i : Instruction) : List Word := if i.isAtomic then [0, 1, 2, 3] else [0]

/-- The half of the word that a 16-bit instruction does not use. -/
def unusedMask (i : Instruction) : Word := if i.isShort then 0xffff0000 else 0

/-- The parts of the instruction's words. -/
def parts (i : Instruction) : List Word :=
  i.mask :: i.orderMask :: i.unusedMask :: i.operands.map (Operand.mask i)

/-- The bits that decide the key. -/
def keyMask (i : Instruction) : Word := if i.isShort then 0xe003 else 0x7f

end Instruction

namespace Word

/-- No two of the words share a bit, and together they have every bit. -/
structure Tile (ms : List Word) : Prop where
  disjoint : ms.Pairwise fun a b => a &&& b = 0
  complete : union ms = 0xffffffff

instance (ms : List Word) : Decidable (Tile ms) :=
  decidable_of_iff ((ms.Pairwise fun a b => a &&& b = 0) ∧ union ms = 0xffffffff)
    ⟨fun h => ⟨h.1, h.2⟩, fun h => ⟨h.1, h.2⟩⟩

theorem union_map_and (w : Word) (ms : List Word) : union (ms.map (w &&& ·)) = w &&& union ms := by
  induction ms with
  | nil => simp
  | cons m ms ih => rw [List.map_cons, union_cons, union_cons, ih, BitVec.and_or_distrib_left]

/-- A word is the union of its parts. -/
theorem Tile.union_parts {ms : List Word} (tile : Tile ms) (w : Word) :
    union (ms.map (w &&& ·)) = w := by
  rw [union_map_and, tile.complete]
  exact BitVec.and_allOnes

/-- Bits within a union of words that miss a word miss it too. -/
theorem union_and_eq_zero {m : Word} {ms bits : List Word} (apart : ∀ m' ∈ ms, m &&& m' = 0)
    (within : List.Forall₂ (fun m' b => b &&& m' = b) ms bits) : union bits &&& m = 0 := by
  induction within with
  | nil => simp
  | @cons m' b ms bits head _ ih =>
    have missed : b &&& m = 0 := by
      rw [← head, BitVec.and_assoc, BitVec.and_comm m', apart m' List.mem_cons_self]
      simp
    rw [union_cons, BitVec.and_or_distrib_right, missed,
      ih fun m'' member => apart m'' (List.mem_cons_of_mem _ member)]
    simp

/-- **A part of a union is what was put there.** -/
theorem union_and_part {ms bits : List Word} (disjoint : ms.Pairwise fun a b => a &&& b = 0)
    (within : List.Forall₂ (fun m b => b &&& m = b) ms bits) :
    List.Forall₂ (fun m b => union bits &&& m = b) ms bits := by
  induction within with
  | nil => exact .nil
  | @cons m b ms bits head tail ih =>
    obtain ⟨apart, rest⟩ := List.pairwise_cons.mp disjoint
    refine .cons ?_ ?_
    · rw [union_cons, BitVec.and_or_distrib_right, head, union_and_eq_zero apart tail]
      simp
    · -- The first piece lies in the first part and so leaves the others alone.
      refine Outcome.forall₂_imp_of_mem (ih rest) fun m' member b' kept => ?_
      have missed : b &&& m' = 0 := by
        rw [← head, BitVec.and_assoc, apart m' member]
        simp
      rw [union_cons, BitVec.and_or_distrib_right, missed, kept]
      simp

end Word

/-! ## Sixteen-bit words -/

theorem Word.down_half {w : Word} (empty : w &&& 0xffff0000 = 0) : w.down 16 = 0 := by
  apply eq_of_bits
  intro k _
  have bit := congrArg (·.getLsbD (16 + k)) empty
  have mask : (0xffff0000 : Word) = (⟨31, 16⟩ : BitRange).mask := by decide
  have valid : (⟨31, 16⟩ : BitRange).Valid := by decide
  simp only [mask, BitVec.getLsbD_and, valid.getLsbD_mask] at bit
  rw [getLsbD_down]
  by_cases inside : 16 + k ≤ 31
  · simpa [inside] using bit
  · simp [BitVec.getLsbD_of_ge w (16 + k) (by omega)]

theorem Word.and_half {w : Word} (empty : w.down 16 = 0) : w &&& 0xffff0000 = 0 := by
  apply eq_of_bits
  intro k _
  have mask : (0xffff0000 : Word) = (⟨31, 16⟩ : BitRange).mask := by decide
  have valid : (⟨31, 16⟩ : BitRange).Valid := by decide
  rw [mask, BitVec.getLsbD_and, valid.getLsbD_mask]
  by_cases upper : 16 ≤ k
  · have bit := congrArg (·.getLsbD (k - 16)) empty
    rw [getLsbD_down, Nat.add_sub_cancel' upper] at bit
    simp [bit]
  · simp [upper]

theorem Disassembler.down_of_screen {w : Word} (screened : screen w = .ok ())
    (short : isShort w = true) : w.down 16 = 0 := by
  unfold screen at screened
  by_contra upper
  rw [if_pos (by rw [short, Bool.true_and, bne_iff_ne]; exact upper)] at screened
  cases screened

/-! ## Well-formed instructions -/

/-- The instruction's words are made of the constant bits and the operands, and of nothing else. -/
structure Instruction.WellFormed (i : Instruction) : Prop where
  sized : ∀ o ∈ i.operands, o.Sized i
  tiled : Word.Tile i.parts
  tested : i.test &&& i.mask = i.test
  keyed : i.mask &&& i.keyMask = i.keyMask
  key : Key.ofWord i.test = i.key
  short : Disassembler.isShort i.test = i.isShort
  /-- The word that is never an instruction. -/
  nonzero : i.test = 0 → (i.reserved? 0).isSome = true

instance (i : Instruction) : Decidable i.WellFormed :=
  decidable_of_iff ((∀ o ∈ i.operands, o.Sized i) ∧ Word.Tile i.parts ∧ i.test &&& i.mask = i.test ∧
      i.mask &&& i.keyMask = i.keyMask ∧ Key.ofWord i.test = i.key ∧
      Disassembler.isShort i.test = i.isShort ∧ (i.test = 0 → (i.reserved? 0).isSome = true))
    ⟨fun ⟨a, b, c, d, e, f, g⟩ => ⟨a, b, c, d, e, f, g⟩,
      fun ⟨a, b, c, d, e, f, g⟩ => ⟨a, b, c, d, e, f, g⟩⟩

/-! ## Keys of covered words -/

theorem Key.ofShort_and (w : Word) : ofShort (w &&& 0xe003) = ofShort w := by
  have function : (0xe003 : Word) &&& (⟨15, 13⟩ : BitRange).mask = (⟨15, 13⟩ : BitRange).mask := by
    decide
  have quadrant : (0xe003 : Word) &&& 3 = 3 := by decide
  rw [ofShort, ofShort, BitRange.get, BitRange.get, BitVec.and_assoc, function, BitVec.and_assoc,
    quadrant]

namespace Instruction.WellFormed

variable {i : Instruction}

theorem covers_iff {w : Word} : i.covers w = true ↔ w &&& i.mask = i.test := by
  simp [covers]

/-- A covered word agrees with the constant bits wherever the key is decided. -/
theorem and_keyMask (wf : i.WellFormed) {w : Word} (covered : i.covers w = true) :
    w &&& i.keyMask = i.test &&& i.keyMask := by
  rw [← covers_iff.mp covered, BitVec.and_assoc, wf.keyed]

/-- A covered word is as long as the instruction. -/
theorem isShort_of_covers (wf : i.WellFormed) {w : Word} (covered : i.covers w = true) :
    Disassembler.isShort w = i.isShort := by
  have agree : w &&& 3 = i.test &&& 3 := by
    have low : i.keyMask &&& 3 = 3 := by unfold keyMask; split <;> decide
    rw [← low, ← BitVec.and_assoc, ← BitVec.and_assoc, wf.and_keyMask covered]
  rw [← wf.short, Disassembler.isShort, Disassembler.isShort, agree]

/-- **A covered word has the instruction's key.** -/
theorem key_of_covers (wf : i.WellFormed) {w : Word} (covered : i.covers w = true) :
    Key.ofWord w = i.key := by
  have same := wf.and_keyMask covered
  have long := wf.isShort_of_covers covered
  have long' := wf.short
  rw [← wf.key]
  simp only [Disassembler.isShort, decide_not, Bool.not_eq_eq_eq_not] at long long'
  unfold Key.ofWord
  unfold keyMask at same
  cases kind : i.isShort with
  | true =>
    simp only [kind, ↓reduceIte] at same
    rw [← Key.ofShort_and, same, Key.ofShort_and]
    simp_all
  | false =>
    simp only [kind, Bool.false_eq_true, ↓reduceIte] at same
    rw [same]
    simp_all

end Instruction.WellFormed

/-! ## Legal encodings -/

namespace Encoding

/-- The encoding's values fit, and its instruction is one that may be used. -/
structure Legal (opts : Options) (e : Encoding) : Prop where
  member : e.instruction ∈ Table.default.instructions
  enabled : opts.enables e.instruction.ext = true
  order : e.order ∈ e.instruction.orders
  fits : List.Forall₂ (Operand.Fits opts e.instruction) e.instruction.operands e.values

/-- What stands in each part of the word. -/
def pieces (e : Encoding) : List Word :=
  e.instruction.test :: MemoryOrder.field.put e.order :: 0 ::
    List.zipWith (Operand.place e.instruction) e.instruction.operands e.values

theorem word_eq_union (e : Encoding) : e.word = Word.union e.pieces := by
  simp only [word, MemoryOrder.set, pieces, Word.union_cons]
  rw [BitVec.or_assoc, BitVec.or_comm (Word.union _)]
  simp

variable {opts : Options} {e : Encoding}

theorem Legal.order_lt (legal : e.Legal opts) : e.order.toNat < 4 := by
  have member := legal.order
  unfold Instruction.orders at member
  split at member
  · obtain zero | one | two | three : e.order = 0 ∨ e.order = 1 ∨ e.order = 2 ∨ e.order = 3 := by
      simpa using member
    · simp [zero]
    · simp [one]
    · simp [two]
    · simp [three]
  · simp [List.mem_singleton.mp member]

theorem Legal.order_eq (legal : e.Legal opts) (plain : e.instruction.isAtomic = false) :
    e.order = 0 := by
  have member := legal.order
  simpa [Instruction.orders, plain] using member

/-- Each piece lies in its part. -/
theorem Legal.pieces_within (legal : e.Legal opts) (wf : e.instruction.WellFormed) :
    List.Forall₂ (fun part piece => piece &&& part = piece) e.instruction.parts e.pieces := by
  refine .cons wf.tested (.cons ?_ (.cons (by simp) ?_))
  · unfold Instruction.orderMask
    split
    · exact BitRange.put_and_mask _ _
    · next plain =>
      rw [legal.order_eq (by simpa using plain)]
      decide
  · rw [Outcome.forall₂_zipWith legal.fits.length_eq]
    exact Outcome.forall₂_imp_of_mem legal.fits fun o member v fits =>
      (wf.sized o member).place_and_mask fits

/-- Each part of the word holds its piece. -/
theorem Legal.parts_of_word (legal : e.Legal opts) (wf : e.instruction.WellFormed) :
    List.Forall₂ (fun part piece => e.word &&& part = piece) e.instruction.parts e.pieces := by
  rw [word_eq_union]
  exact Word.union_and_part wf.tiled.disjoint (legal.pieces_within wf)

/-- The word of a legal encoding is one of its instruction's. -/
theorem Legal.covers (legal : e.Legal opts) (wf : e.instruction.WellFormed) :
    e.instruction.covers e.word = true := by
  obtain ⟨constant, -⟩ := List.forall₂_cons.mp (legal.parts_of_word wf)
  exact Instruction.WellFormed.covers_iff.mpr constant

/-- **The word of a legal encoding falls apart into the encoding.** -/
theorem Legal.ofWord_word (legal : e.Legal opts) (wf : e.instruction.WellFormed) :
    ofWord e.instruction e.word = e := by
  obtain ⟨-, tail⟩ := List.forall₂_cons.mp (legal.parts_of_word wf)
  obtain ⟨ordering, tail⟩ := List.forall₂_cons.mp tail
  obtain ⟨-, operands⟩ := List.forall₂_cons.mp tail
  have order : (if e.instruction.isAtomic then MemoryOrder.get e.word else 0) = e.order := by
    split
    · next atomic =>
      simp only [Instruction.orderMask, atomic, ↓reduceIte] at ordering
      have valid : MemoryOrder.field.Valid := by decide
      exact valid.get_eq legal.order_lt ordering
    · next plain => exact (legal.order_eq (by simpa using plain)).symm
  have values : e.instruction.operands.map (Operand.take e.instruction e.word) = e.values := by
    rw [Outcome.forall₂_zipWith legal.fits.length_eq] at operands
    rw [← List.forall₂_eq_eq_eq, List.forall₂_map_left_iff]
    exact Outcome.forall₂_imp_of_mem (legal.fits.mp (fun _ _ => And.intro) operands)
      fun o member v both => (wf.sized o member).take_place both.1 both.2
  rw [ofWord, order, values]

/-- The word of a legal encoding is not reserved. -/
theorem Legal.reserved (legal : e.Legal opts) (wf : e.instruction.WellFormed) :
    e.instruction.reserved? e.word = none := by
  have values := congrArg Encoding.values (legal.ofWord_word wf)
  simp only [ofWord] at values
  have fits := legal.fits
  rw [← values, List.forall₂_map_right_iff, List.forall₂_same] at fits
  exact List.findSome?_eq_none_iff.mpr fun o member => (fits o member).not_reserved

/-- The word of a legal encoding is not refused before it is looked up. -/
theorem Legal.screen (legal : e.Legal opts) (wf : e.instruction.WellFormed) :
    Disassembler.screen e.word = .ok () := by
  have covered := legal.covers wf
  obtain ⟨-, tail⟩ := List.forall₂_cons.mp (legal.parts_of_word wf)
  obtain ⟨-, tail⟩ := List.forall₂_cons.mp tail
  obtain ⟨unused, -⟩ := List.forall₂_cons.mp tail
  have half : ¬ (Disassembler.isShort e.word && e.word.down 16 != 0) = true := by
    rw [wf.isShort_of_covers covered]
    intro upper
    rw [Bool.and_eq_true, bne_iff_ne] at upper
    simp only [Instruction.unusedMask, upper.1, ↓reduceIte] at unused
    exact upper.2 (Word.down_half unused)
  have nonzero : e.word ≠ 0 := by
    intro zero
    rw [zero, Instruction.WellFormed.covers_iff] at covered
    have reserved := legal.reserved wf
    rw [zero] at reserved
    have taken := wf.nonzero (by rw [← covered]; simp)
    rw [reserved] at taken
    cases taken
  unfold Disassembler.screen
  rw [if_neg half, if_neg nonzero]

end Encoding

/-! ## Words taken apart -/

/-- The ordering of a word is one that the instruction may have. -/
theorem Encoding.ofWord_order_mem (i : Instruction) (w : Word) : (ofWord i w).order ∈ i.orders := by
  unfold ofWord Instruction.orders
  split
  · have valid : MemoryOrder.field.Valid := by decide
    have small : (MemoryOrder.get w).toNat < 4 := valid.get_lt w
    have cases : ∀ n < 4, BitVec.ofNat 32 n ∈ ([0, 1, 2, 3] : List Word) := by decide
    have member := cases _ small
    rwa [BitVec.ofNat_toNat, BitVec.setWidth_eq] at member
  · simp

/-- **A covered word is put together again from its parts.** -/
theorem Instruction.WellFormed.word_ofWord {i : Instruction} (wf : i.WellFormed) {w : Word}
    (covered : i.covers w = true) (screened : Disassembler.screen w = .ok ()) :
    (Encoding.ofWord i w).word = w := by
  have unused : w &&& i.unusedMask = 0 := by
    unfold unusedMask
    split
    · next short => exact Word.and_half (Disassembler.down_of_screen screened
        (by rw [wf.isShort_of_covers covered, short]))
    · simp
  have order : MemoryOrder.field.put (Encoding.ofWord i w).order = w &&& i.orderMask := by
    simp only [Encoding.ofWord, orderMask]
    split
    · have valid : MemoryOrder.field.Valid := by decide
      exact valid.put_get w
    · simp only [BitVec.ofNat_eq_ofNat, BitVec.and_zero]
      decide
  have operands : List.zipWith (Operand.place i) i.operands (i.operands.map (Operand.take i w)) =
      (i.operands.map (Operand.mask i)).map (w &&& ·) := by
    rw [List.zipWith_map_right, List.zipWith_self, List.map_map]
    exact List.map_congr_left fun o member => (wf.sized o member).place_take w
  have pieces : (Encoding.ofWord i w).pieces = i.parts.map (w &&& ·) := by
    simp only [Encoding.pieces, order, parts, List.map_cons, unused, covers_iff.mp covered]
    exact congrArg _ (congrArg _ (congrArg _ operands))
  rw [Encoding.word_eq_union, pieces, wf.tiled.union_parts]

end RvCodec

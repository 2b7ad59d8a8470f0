import RvCodec.Proofs.CheckedAccess
import RvCodec.Proofs.Choice

/-!
# The index of a table

A word is looked up by its key, and only the instructions with that key are
tried.  Nothing is lost by this exactly when every word of an instruction has
the instruction's key.

The key of an instruction is computed from its fields and the key of a word from
its bits, so that the two may disagree.  The bits that a key is read from depend
on the word itself, because its two low bits tell which ones they are
(`Key.bits`).  Two words have one key exactly when they agree in these bits
(`Key.ofWord_eq_iff`).  So the words of an instruction have its key exactly when
its constant bits do and leave none of these bits open
(`Instruction.keyed_iff`), and `index_complete` carries this over to tables.

Whether the instruction is declared as a 16-bit one does not enter.  Where the
format says one thing and the low bits another, constant bits for the key of the
format may leave bits of the real key open, and then the index does lose words
(`index_complete_fails`).
-/

set_option autoImplicit false

namespace RvCodec

/-- Words agree under a mask when they agree in each of its bits. -/
theorem Word.and_eq_and_iff {v w m : Word} :
    w &&& m = v &&& m ↔ ∀ k, m.getLsbD k = true → w.getLsbD k = v.getLsbD k := by
  constructor
  · intro same k inside
    have bit := congrArg (·.getLsbD k) same
    simpa [inside] using bit
  · intro same
    refine eq_of_bits fun k _ => ?_
    rw [BitVec.getLsbD_and, BitVec.getLsbD_and]
    cases inside : m.getLsbD k with
    | false => simp
    | true => rw [same k inside]

/-! ## The bits of a key -/

namespace Key

/-- The bits that the key of the word is read from: the quadrant and the three function bits of a
16-bit word, the seven low bits of any other. -/
def bits (w : Word) : Word := if w &&& 3 ≠ 3 then 0xe003 else 0x7f

theorem getLsbD_quadrant (k : Nat) : (3 : Word).getLsbD k = decide (k ≤ 1) := by
  have mask : (3 : Word) = (⟨1, 0⟩ : BitRange).mask := by decide
  have valid : (⟨1, 0⟩ : BitRange).Valid := by decide
  rw [mask, valid.getLsbD_mask]
  simp

theorem getLsbD_ofShort (w : Word) (k : Nat) :
    (ofShort w).getLsbD k =
      (decide (k ≤ 1) && w.getLsbD k || decide (2 ≤ k ∧ k ≤ 4) && w.getLsbD (k + 11)) := by
  have valid : (⟨15, 13⟩ : BitRange).Valid := by decide
  rw [ofShort, BitVec.getLsbD_setWidth, BitVec.getLsbD_or, Word.getLsbD_up, valid.getLsbD_get,
    BitVec.getLsbD_and, getLsbD_quadrant]
  simp only [BitRange.size]
  grind

theorem getLsbD_ofLong (w : Word) (k : Nat) :
    ((w &&& 0x7f).setWidth 8 : Key).getLsbD k = (decide (k ≤ 6) && w.getLsbD k) := by
  have mask : (0x7f : Word) = (⟨6, 0⟩ : BitRange).mask := by decide
  have valid : (⟨6, 0⟩ : BitRange).Valid := by decide
  rw [BitVec.getLsbD_setWidth, BitVec.getLsbD_and, mask, valid.getLsbD_mask]
  grind

/-- The two low bits of a word are those of its key. -/
theorem getLsbD_ofWord_of_le {w : Word} {k : Nat} (low : k ≤ 1) :
    (ofWord w).getLsbD k = w.getLsbD k := by
  unfold ofWord
  split
  · rw [getLsbD_ofShort]
    grind
  · rw [getLsbD_ofLong]
    grind

theorem ofShort_eq_iff {v w : Word} : ofShort w = ofShort v ↔ w &&& 0xe003 = v &&& 0xe003 := by
  constructor
  · intro same
    have mask : (0xe003 : Word) = (⟨15, 13⟩ : BitRange).mask ||| 3 := by decide
    have valid : (⟨15, 13⟩ : BitRange).Valid := by decide
    refine Word.and_eq_and_iff.mpr fun k inside => ?_
    rw [mask, BitVec.getLsbD_or, valid.getLsbD_mask, getLsbD_quadrant] at inside
    have low := congrArg (·.getLsbD k) same
    have high := congrArg (·.getLsbD (k - 11)) same
    simp only [getLsbD_ofShort] at low high
    grind
  · intro same
    rw [← ofShort_and, same, ofShort_and]

theorem ofLong_eq_iff {v w : Word} :
    ((w &&& 0x7f).setWidth 8 : Key) = (v &&& 0x7f).setWidth 8 ↔ w &&& 0x7f = v &&& 0x7f := by
  constructor
  · intro same
    have mask : (0x7f : Word) = (⟨6, 0⟩ : BitRange).mask := by decide
    have valid : (⟨6, 0⟩ : BitRange).Valid := by decide
    refine Word.and_eq_and_iff.mpr fun k inside => ?_
    rw [mask, valid.getLsbD_mask] at inside
    have bit := congrArg (·.getLsbD k) same
    simp only [getLsbD_ofLong] at bit
    grind
  · intro same
    rw [same]

/-- **Words have one key exactly when they agree in the bits that it is read from.** -/
theorem ofWord_eq_iff {v w : Word} : ofWord w = ofWord v ↔ w &&& bits v = v &&& bits v := by
  -- Either side makes the two low bits the same, and with them the kind of the words.
  have sameKind (quadrant : w &&& 3 = v &&& 3) :
      ofWord w = ofWord v ↔ w &&& bits v = v &&& bits v := by
    unfold ofWord bits
    rw [quadrant]
    split
    · exact ofShort_eq_iff
    · exact ofLong_eq_iff
  constructor
  · intro same
    refine (sameKind (Word.and_eq_and_iff.mpr fun k inside => ?_)).mp same
    rw [getLsbD_quadrant, decide_eq_true_eq] at inside
    rw [← getLsbD_ofWord_of_le inside, same, getLsbD_ofWord_of_le inside]
  · intro same
    refine (sameKind ?_).mpr same
    have within : bits v &&& 3 = 3 := by
      unfold bits
      split <;> decide
    rw [← within, ← BitVec.and_assoc, same, BitVec.and_assoc]

end Key

/-! ## The words of an instruction -/

namespace Instruction

/-- The constant bits are bits of the mask. -/
theorem test_and_mask (i : Instruction) : i.test &&& i.mask = i.test := by
  refine Word.or_and_or ?_ ?_
  · induction i.constants with
    | nil => simp
    | cons c cs ih => exact Word.or_and_or (c.1.put_and_mask c.2) ih
  · rw [BitVec.and_assoc, BitVec.and_self]

/-- The constant bits alone are a word of the instruction. -/
theorem covers_test (i : Instruction) : i.covers i.test = true :=
  WellFormed.covers_iff.mpr i.test_and_mask

/-- **Every word of an instruction has its key** exactly when the constant bits have it and include
the bits that it is read from. -/
theorem keyed_iff (i : Instruction) :
    (∀ w, i.covers w = true → Key.ofWord w = i.key) ↔
      Key.ofWord i.test = i.key ∧ i.mask &&& Key.bits i.test = Key.bits i.test := by
  constructor
  · intro keyed
    have own := keyed _ i.covers_test
    refine ⟨own, ?_⟩
    -- The constant bits with the open bits of the key turned over are a word of the instruction.
    have turned : i.covers (i.test ^^^ (Key.bits i.test &&& ~~~ i.mask)) = true := by
      refine WellFormed.covers_iff.mpr (Word.eq_of_bits fun k inside => ?_)
      have bit := congrArg (·.getLsbD k) i.test_and_mask
      simp only [BitVec.getLsbD_and, BitVec.getLsbD_xor, BitVec.getLsbD_not] at bit ⊢
      grind
    have agree := Key.ofWord_eq_iff.mp ((keyed _ turned).trans own.symm)
    refine Word.eq_of_bits fun k inside => ?_
    have bit := congrArg (·.getLsbD k) agree
    simp only [BitVec.getLsbD_and, BitVec.getLsbD_xor, BitVec.getLsbD_not] at bit ⊢
    grind
  · rintro ⟨own, closed⟩ w covered
    rw [← own, Key.ofWord_eq_iff, ← closed, ← BitVec.and_assoc, WellFormed.covers_iff.mp covered,
      ← BitVec.and_assoc, i.test_and_mask]

end Instruction

/-! ## Tables -/

namespace Table

theorem nodup_of_firstDuplicate? {seen names : List String}
    (none : firstDuplicate? seen names = none) :
    names.Nodup ∧ ∀ name ∈ names, name ∉ seen := by
  induction names generalizing seen with
  | nil => exact ⟨List.nodup_nil, by simp⟩
  | cons name names ih =>
    rw [firstDuplicate?] at none
    split at none
    · cases none
    · next unseen =>
      rw [List.contains_iff_mem] at unseen
      obtain ⟨distinct, new⟩ := ih none
      refine ⟨List.nodup_cons.mpr ⟨fun again => new name again List.mem_cons_self, distinct⟩, ?_⟩
      intro other member
      obtain rfl | later := List.mem_cons.mp member
      · exact unseen
      · exact fun before => new other later (List.mem_cons_of_mem _ before)

/-- A table is built from groups when no two of their instructions share a name. -/
theorem ofGroups_eq_ok {groups : List Group} {t : Table} :
    ofGroups groups = .ok t ↔
      groups.flatMap (·.instructions) = t.instructions ∧ (t.instructions.map (·.name)).Nodup := by
  unfold ofGroups
  dsimp only
  cases repeated : firstDuplicate? [] ((groups.flatMap (·.instructions)).map (·.name)) with
  | some name =>
    simp only [reduceCtorEq, false_iff]
    rintro ⟨listed, distinct⟩
    rw [listed, firstDuplicate?_eq_none distinct (by simp)] at repeated
    cases repeated
  | none =>
    obtain ⟨instructions⟩ := t
    simp only [Except.ok.injEq, mk.injEq]
    constructor
    · rintro rfl
      exact ⟨rfl, (nodup_of_firstDuplicate? repeated).1⟩
    · exact fun both => both.1

theorem ofGroups_groups : ofGroups Catalogue.groups = .ok default := by
  refine ofGroups_eq_ok.mpr ⟨?_, default_names_nodup⟩
  rw [default]

/-- Looking the word up finds every instruction that it is a word of, and finds it once. -/
structure Indexes (t : Table) (w : Word) : Prop where
  found : ∀ i, i ∈ (t.candidates (Key.ofWord w)).filter (·.covers w) ↔
    i ∈ t.instructions.filter (·.covers w)
  once : ((t.candidates (Key.ofWord w)).filter (·.covers w)).Nodup

theorem candidates_nodup {t : Table} (distinct : t.instructions.Nodup) (k : Key) :
    (t.candidates k).Nodup :=
  (List.mergeSort_perm _ _).nodup_iff.mpr (distinct.filter _)

/-- A word is indexed when its key is that of all the instructions that it is a word of. -/
theorem indexes_iff {t : Table} (distinct : t.instructions.Nodup) (w : Word) :
    t.Indexes w ↔ ∀ i ∈ t.instructions, i.covers w = true → Key.ofWord w = i.key := by
  constructor
  · rintro ⟨found, -⟩ i inTable covered
    have member := (found i).mpr (List.mem_filter.mpr ⟨inTable, covered⟩)
    exact (mem_candidates.mp (List.mem_filter.mp member).1).2.symm
  · intro keyed
    refine ⟨fun i => ?_, (candidates_nodup distinct _).filter _⟩
    simp only [List.mem_filter, mem_candidates]
    constructor
    · rintro ⟨⟨inTable, -⟩, covered⟩
      exact ⟨inTable, covered⟩
    · rintro ⟨inTable, covered⟩
      exact ⟨⟨inTable, (keyed i inTable covered).symm⟩, covered⟩

theorem default_indexes (w : Word) : default.Indexes w := by
  refine (indexes_iff default_nodup w).mpr ?_
  intro i inTable covered
  exact (default_wellFormed inTable).key_of_covers covered

/-- **The index of a table loses nothing** exactly when the constant bits of each instruction have
its key and include the bits that it is read from.  The default table loses nothing. -/
theorem index_complete {groups : List Group} {t : Table} (built : ofGroups groups = .ok t) :
    ((∀ w, t.Indexes w) ↔ ∀ i ∈ t.instructions,
      Key.ofWord i.test = i.key ∧ i.mask &&& Key.bits i.test = Key.bits i.test) ∧
    ∀ w, default.Indexes w := by
  have distinct : t.instructions.Nodup := (ofGroups_eq_ok.mp built).2.of_map
  refine ⟨?_, default_indexes⟩
  simp only [indexes_iff distinct, ← Instruction.keyed_iff]
  constructor
  · intro complete i inTable w covered
    exact complete w i inTable covered
  · intro keyed w i inTable covered
    exact keyed i inTable w covered

/-- The supported instructions make a table, and their constant bits include the bits of their
keys. -/
theorem index_complete_catalogue : ofGroups Catalogue.groups = .ok default ∧
    ∀ i ∈ default.instructions,
      Key.ofWord i.test = i.key ∧ i.mask &&& Key.bits i.test = Key.bits i.test := by
  refine ⟨ofGroups_groups, ?_⟩
  obtain ⟨complete_iff, complete⟩ := index_complete ofGroups_groups
  exact complete_iff.mp complete

/-- An instruction of a 16-bit format whose low bits are those of a 32-bit one. -/
def misdeclared : Instruction :=
  { name := "misdeclared", format := .cr, opcode := 0b11, form := .bare, funct3 := some 0,
    ext := .compressed }

/-- The key of the format is not the key that is looked up. -/
theorem index_complete_fails : ¬ ∀ (groups : List Group) (t : Table), ofGroups groups = .ok t →
    (∀ i ∈ t.instructions, Key.ofWord i.test = i.key ∧ i.mask &&& i.keyMask = i.keyMask) →
    ∀ w, t.Indexes w := by
  intro claimed
  have built : ofGroups [⟨.compressed, "", [misdeclared]⟩] = .ok ⟨[misdeclared]⟩ := rfl
  have indexed := claimed _ _ built (by decide) 7
  have key := (indexes_iff (List.nodup_singleton _) 7).mp indexed misdeclared
    List.mem_cons_self (by decide)
  exact absurd key (by decide)

end Table

end RvCodec

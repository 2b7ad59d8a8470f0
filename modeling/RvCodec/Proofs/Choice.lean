import RvCodec.Proofs.DefaultTable
import RvCodec.Proofs.Disassembling

/-!
# The choice of the instruction

Several instructions of the default table may cover one word.  Two instructions
of one key are told apart in one of three ways: their constant bits differ, their
widths do not meet, or the constant bits of one hold a register that is reserved
for the other.  Only `c.nop` and `c.addi`, of which the first is a case of the
second, are not told apart, and they share a single word.

So under a fixed width at most one instruction can be read from any other word
(`unique_reading`), and the order in which the candidates are tried does not
matter.  Without a fixed width the order decides between instructions whose
widths do not meet, where the wider one comes first (`choice_eq`), and makes the
shared word a `c.nop` (`choice_shared`).
-/

set_option autoImplicit false

namespace RvCodec

namespace Instruction

/-! ## Telling two instructions apart -/

/-- The field of an integer register. -/
def registerField? : Operand → Option BitRange
  | .integer f _ _ => some f
  | _ => none

/-- Every word of the second instruction holds a register that is reserved for the first. -/
def Forbids (a b : Instruction) : Prop :=
  ∃ o ∈ a.operands, ∃ f ∈ registerField? o, b.mask &&& f.mask = f.mask ∧
    (a.reservedOperand? b.test o).isSome = true

instance (a b : Instruction) : Decidable (a.Forbids b) :=
  inferInstanceAs (Decidable (∃ o ∈ a.operands, ∃ f ∈ registerField? o, b.mask &&& f.mask = f.mask ∧
    (a.reservedOperand? b.test o).isSome = true))

/-- The first instruction exists only below the widths of the second. -/
def Below (a b : Instruction) : Prop := ∃ h ∈ a.maxXlen, h < b.requiredXlen

instance (a b : Instruction) : Decidable (a.Below b) :=
  inferInstanceAs (Decidable (∃ h ∈ a.maxXlen, h < b.requiredXlen))

/-- The instructions are told apart. -/
def Apart (a b : Instruction) : Prop :=
  a.test &&& b.mask ≠ b.test &&& a.mask ∨ (a.Below b ∨ b.Below a) ∨ (a.Forbids b ∨ b.Forbids a)

instance (a b : Instruction) : Decidable (a.Apart b) :=
  inferInstanceAs (Decidable (a.test &&& b.mask ≠ b.test &&& a.mask ∨ (a.Below b ∨ b.Below a) ∨
    (a.Forbids b ∨ b.Forbids a)))

theorem Apart.symm {a b : Instruction} (apart : a.Apart b) : b.Apart a := by
  obtain bits | widths | registers := apart
  · exact .inl bits.symm
  · exact .inr (.inl widths.symm)
  · exact .inr (.inr registers.symm)

/-- A word of one instruction is reserved for an instruction that forbids it. -/
theorem Forbids.reserved {a b : Instruction} (forbids : a.Forbids b) {w : Word}
    (covered : b.covers w = true) : a.reserved? w ≠ none := by
  obtain ⟨o, member, f, field, within, reserved⟩ := forbids
  cases o with
  | integer g notZero notStack =>
    obtain rfl : g = f := Option.some.inj field
    have same : g.get w = g.get b.test := by
      rw [← g.get_and_mask w, ← within, ← BitVec.and_assoc, WellFormed.covers_iff.mp covered,
        g.get_and_mask]
    intro free
    have each := List.findSome?_eq_none_iff.mp free _ member
    simp only [reservedOperand?, same] at each reserved
    rw [each] at reserved
    cases reserved
  | _ => cases field

/-- Instructions that are told apart and share a word have widths that do not meet. -/
theorem Apart.below {a b : Instruction} (apart : a.Apart b) {w : Word} (first : a.covers w = true)
    (second : b.covers w = true) (free : a.reserved? w = none) (free' : b.reserved? w = none) :
    a.Below b ∨ b.Below a := by
  obtain bits | widths | registers := apart
  · rw [WellFormed.covers_iff] at first second
    refine absurd ?_ bits
    rw [← first, ← second, BitVec.and_assoc, BitVec.and_assoc, BitVec.and_comm a.mask]
  · exact widths
  · obtain forbids | forbids := registers
    · exact absurd free (forbids.reserved second)
    · exact absurd free' (forbids.reserved first)

end Instruction

namespace Table

/-- **The instructions of one key are told apart**, `c.nop` and `c.addi` aside. -/
theorem default_apart : default.instructions.Pairwise fun a b =>
    a.key.toNat = b.key.toNat → a.Apart b ∨ (a.name = "c.nop" ∧ b.name = "c.addi") := by
  refine Pairs.pairwise_of_check (n := 8) ?_
  decide +kernel

/-- Two instructions that can be read from one word have widths that do not meet, or are `c.nop`
and `c.addi`. -/
theorem below_of_covers {a b : Instruction} (inTable : a ∈ default.instructions)
    (inTable' : b ∈ default.instructions) (different : a ≠ b) {w : Word} (first : a.covers w = true)
    (second : b.covers w = true) (free : a.reserved? w = none) (free' : b.reserved? w = none) :
    (a.Below b ∨ b.Below a) ∨ (a.name = "c.nop" ∧ b.name = "c.addi") ∨
      (b.name = "c.nop" ∧ a.name = "c.addi") := by
  have key : a.key = b.key :=
    ((default_wellFormed inTable).key_of_covers first).symm.trans
      ((default_wellFormed inTable').key_of_covers second)
  have symmetric : Std.Symm fun a b : Instruction => a.key.toNat = b.key.toNat →
      a.Apart b ∨ (a.name = "c.nop" ∧ b.name = "c.addi") ∨
        (b.name = "c.nop" ∧ a.name = "c.addi") := by
    refine ⟨fun a b related same => ?_⟩
    obtain apart | names | names := related same.symm
    · exact .inl apart.symm
    · exact .inr (.inr names)
    · exact .inr (.inl names)
  have pairs := default_apart.imp (S := fun a b : Instruction => a.key.toNat = b.key.toNat →
      a.Apart b ∨ (a.name = "c.nop" ∧ b.name = "c.addi") ∨ (b.name = "c.nop" ∧ a.name = "c.addi"))
    fun related same => (related same).imp_right .inl
  obtain apart | names := pairs.forall inTable inTable' different (by rw [key])
  · exact .inl (apart.below first second free free')
  · exact .inr names

/-! ## Candidates -/

theorem mem_candidates {table : Table} {k : Key} {i : Instruction} :
    i ∈ table.candidates k ↔ i ∈ table.instructions ∧ i.key = k := by
  simp [candidates]

theorem precedes_trans {a b c : Instruction} (first : precedes a b = true)
    (second : precedes b c = true) : precedes a c = true := by
  simp only [precedes, Bool.or_eq_true, decide_eq_true_eq, Bool.and_eq_true, beq_iff_eq] at *
  omega

theorem precedes_total (a b : Instruction) : (precedes a b || precedes b a) = true := by
  simp only [precedes, Bool.or_eq_true, decide_eq_true_eq, Bool.and_eq_true, beq_iff_eq]
  omega

/-- The candidate that is found comes before every other one that qualifies. -/
theorem precedes_of_find? {table : Table} {k : Key} {p : Instruction → Bool} {i j : Instruction}
    (found : (table.candidates k).find? p = some i) (member : j ∈ table.candidates k)
    (qualifies : p j = true) (different : i ≠ j) : precedes i j = true := by
  obtain ⟨-, before, after, split, none⟩ := List.find?_eq_some_iff_append.mp found
  have sorted : (table.candidates k).Pairwise (precedes · ·) :=
    @List.pairwise_mergeSort _ precedes (fun _ _ _ => precedes_trans) precedes_total _
  rw [split] at member sorted
  obtain earlier | same | later := by simpa using member
  · simpa [qualifies] using none j earlier
  · exact absurd same.symm different
  · exact (List.pairwise_cons.mp (List.pairwise_append.mp sorted).2.1).1 j later

/-! ## The shared word -/

/-- What can be read from the word that `c.nop` and `c.addi` share. -/
theorem default_shared :
    (default.instructions.filter fun i => i.covers 1 && (i.reserved? 1).isNone).map
      (fun i => (i.name, i.ext, i.requiredXlen, i.maxXlen, i.specificity)) =
    [("c.nop", .compressed, 32, none, 16), ("c.addi", .compressed, 32, none, 5)] := by
  decide +kernel

/-- The only word of `c.nop`. -/
theorem default_nop : ∀ i ∈ default.instructions, i.name = "c.nop" →
    i.isShort = true ∧ i.mask = 0xffff ∧ i.test = 1 ∧ i.operands = [] := by
  decide +kernel

theorem word_of_nop {i : Instruction} (inTable : i ∈ default.instructions) (name : i.name = "c.nop")
    {w : Word} (covered : i.covers w = true)
    (half : Disassembler.isShort w = true → w.down 16 = 0) : w = 1 := by
  obtain ⟨short, mask, test, -⟩ := default_nop i inTable name
  have upper := Word.and_half (half (((default_wellFormed inTable).isShort_of_covers covered).trans
    short))
  rw [Instruction.WellFormed.covers_iff, mask, test] at covered
  calc w = w &&& (0xffff ||| 0xffff0000) := BitVec.and_allOnes.symm
    _ = w &&& 0xffff ||| w &&& 0xffff0000 := BitVec.and_or_distrib_left
    _ = 1 := by rw [covered, upper]; rfl

/-- The instructions that can be read from the shared word differ in how many bits they fix. -/
theorem shared_of_decodes {i : Instruction} (inTable : i ∈ default.instructions)
    (covered : i.covers 1 = true) (free : i.reserved? 1 = none) :
    i.ext = .compressed ∧ i.requiredXlen = 32 ∧ i.maxXlen = none ∧
      ((i.name = "c.nop" ∧ i.specificity = 16) ∨ (i.name = "c.addi" ∧ i.specificity = 5)) := by
  have member : (i.name, i.ext, i.requiredXlen, i.maxXlen, i.specificity) ∈
      [("c.nop", .compressed, 32, none, 16), ("c.addi", .compressed, 32, none, 5)] := by
    rw [← default_shared]
    exact List.mem_map.mpr ⟨i, List.mem_filter.mpr ⟨inTable, by rw [covered, free]; rfl⟩, rfl⟩
  simp only [List.mem_cons, Prod.mk.injEq, List.not_mem_nil, or_false] at member
  obtain ⟨name, ext, required, max, count⟩ | ⟨name, ext, required, max, count⟩ := member
  · exact ⟨ext, required, max, .inl ⟨name, count⟩⟩
  · exact ⟨ext, required, max, .inr ⟨name, count⟩⟩

/-- The shared word can be read as a `c.nop`. -/
theorem exists_nop : ∃ i ∈ default.instructions,
    i.covers 1 = true ∧ i.reserved? 1 = none ∧ i.specificity = 16 := by
  have row : ("c.nop", Extension.compressed, 32, (none : Xlen), 16) ∈
      (default.instructions.filter fun i => i.covers 1 && (i.reserved? 1).isNone).map
        (fun i => (i.name, i.ext, i.requiredXlen, i.maxXlen, i.specificity)) := by
    rw [default_shared]
    exact List.mem_cons_self
  obtain ⟨i, member, columns⟩ := List.mem_map.mp row
  obtain ⟨inTable, both⟩ := List.mem_filter.mp member
  rw [Bool.and_eq_true, Option.isNone_iff_eq_none] at both
  exact ⟨i, inTable, both.1, both.2, by simp_all⟩

end Table

/-! ## The choice under a fixed width -/

/-- Widths that do not meet are not met by one width. -/
theorem Instruction.Below.not_both {a b : Instruction} (below : a.Below b) {x : Nat}
    (first : a.requirement.Holds x) (second : b.requirement.Holds x) : False := by
  obtain ⟨h, top, lower⟩ := below
  have above : b.requiredXlen ≤ x := second.1
  have under : x ≤ h := first.2 h top
  omega

namespace Disassembler

/-- There is only one order of at most one element. -/
theorem eq_of_perm {found found' : List Instruction} (perm : found.Perm found')
    (few : found'.length ≤ 1) : found = found' := by
  cases found' with
  | nil => exact perm.eq_nil
  | cons i rest =>
    obtain rfl : rest = [] := List.length_eq_zero_iff.mp (by simpa using few)
    exact perm.eq_singleton

section Fixed

variable {w : Word} {x : Nat} {t : Tracker} (fixed : t.mode = some x)
include fixed

section Half

variable (half : isShort w = true → w.down 16 = 0)
include half

/-- Two instructions that decode a word at the same width are `c.nop` and `c.addi`. -/
theorem shared_of_decodes {a b : Instruction} (inTable : a ∈ Table.default.instructions)
    (inTable' : b ∈ Table.default.instructions) (different : a ≠ b) (first : decodes t w a = true)
    (second : decodes t w b = true) : w = 1 ∧ 32 ≤ x := by
  obtain ⟨covered, allowed, free⟩ := decodes_iff.mp first
  obtain ⟨covered', allowed', free'⟩ := decodes_iff.mp second
  rw [Tracker.allowsInstruction_fixed fixed] at allowed allowed'
  have wide : 32 ≤ x := Nat.le_trans (Table.default_sound a inTable).usual.1 allowed.1
  obtain (below | below) | names | names :=
    Table.below_of_covers inTable inTable' different covered covered' free free'
  · exact (below.not_both allowed allowed').elim
  · exact (below.not_both allowed' allowed).elim
  · exact ⟨Table.word_of_nop inTable names.1 covered half, wide⟩
  · exact ⟨Table.word_of_nop inTable' names.1 covered' half, wide⟩

theorem decodes_length_le (apart : w ≠ 1 ∨ x < 32) :
    (Table.default.instructions.filter (decodes t w)).length ≤ 1 := by
  have none : (Table.default.instructions.filter (decodes t w)).Pairwise fun _ _ => False := by
    refine List.Pairwise.imp_of_mem ?_ (Table.default_nodup.filter _)
    intro a b inA inB different
    obtain ⟨inTable, first⟩ := List.mem_filter.mp inA
    obtain ⟨inTable', second⟩ := List.mem_filter.mp inB
    obtain ⟨one, wide⟩ := shared_of_decodes fixed half inTable inTable' different first second
    exact apart.elim (fun other => other one) (fun narrow => absurd wide (by omega))
  match found : Table.default.instructions.filter (decodes t w) with
  | [] => simp
  | [_] => simp
  | a :: b :: rest =>
    rw [found] at none
    exact ((List.pairwise_cons.mp none).1 b List.mem_cons_self).elim

/-- The order of the candidates does not matter. -/
theorem search_perm (other : w ≠ 1) {opts : Options} {candidates : List Instruction}
    (order : candidates.Perm (Table.default.candidates (Key.ofWord w))) {i : Instruction} :
    search opts t w {} candidates = .ok i ↔ choose Table.default opts t w = .ok i := by
  have few :
      ((Table.default.candidates (Key.ofWord w)).filter (qualifies opts t w)).length ≤ 1 := by
    have perm : ((Table.default.candidates (Key.ofWord w)).filter (qualifies opts t w)).Perm
        ((Table.default.instructions.filter (·.key = Key.ofWord w)).filter (qualifies opts t w)) :=
      (List.mergeSort_perm _ _).filter _
    rw [perm.length_eq, List.filter_filter, ← List.countP_eq_length_filter]
    refine Nat.le_trans (List.countP_mono_left ?_)
      (List.countP_eq_length_filter ▸ decodes_length_le fixed half (.inl other))
    intro i _ both
    exact (qualifies_iff.mp (Bool.and_eq_true_iff.mp both).1).1
  have same : candidates.filter (qualifies opts t w) =
      (Table.default.candidates (Key.ofWord w)).filter (qualifies opts t w) :=
    eq_of_perm (order.filter _) few
  rw [search_eq_ok, choose_eq_ok, ← List.head?_filter, ← List.head?_filter, same]

end Half

theorem decodes_shared (one : w = 1) (wide : 32 ≤ x) :
    (Table.default.instructions.filter (decodes t w)).map (·.name) = ["c.nop", "c.addi"] := by
  have names := congrArg (List.map Prod.fst) Table.default_shared
  rw [List.map_map] at names
  have same : Table.default.instructions.filter (decodes t w) =
      Table.default.instructions.filter fun i => i.covers 1 && (i.reserved? 1).isNone := by
    apply List.filter_congr
    intro i inTable
    rw [one, Bool.eq_iff_iff, decodes_iff, Bool.and_eq_true, Option.isNone_iff_eq_none,
      Tracker.allowsInstruction_fixed fixed]
    constructor
    · rintro ⟨covered, -, free⟩
      exact ⟨covered, free⟩
    · rintro ⟨covered, free⟩
      obtain ⟨-, required, max, -⟩ := Table.shared_of_decodes inTable covered free
      exact ⟨covered, ⟨by rw [Instruction.requirement, required]; exact wide,
        fun h top => by simp [Instruction.requirement, max] at top⟩, free⟩
  rw [same]
  exact names

end Fixed

/-- **The default table decodes unambiguously at every fixed width.**  At most one instruction
decodes a word, and the order of the candidates does not matter, except for the one word that
`c.nop` and `c.addi` share. -/
theorem unique_reading {w : Word} {x : Nat} {t : Tracker} (fixed : t.mode = some x)
    (half : isShort w = true → w.down 16 = 0) :
    (w ≠ 1 ∨ x < 32 → (Table.default.instructions.filter (decodes t w)).length ≤ 1) ∧
      (w = 1 → 32 ≤ x →
        (Table.default.instructions.filter (decodes t w)).map (·.name) = ["c.nop", "c.addi"]) ∧
      (w ≠ 1 → ∀ (opts : Options) (candidates : List Instruction),
        candidates.Perm (Table.default.candidates (Key.ofWord w)) → ∀ i,
          search opts t w {} candidates = .ok i ↔ choose Table.default opts t w = .ok i) :=
  ⟨decodes_length_le fixed half, decodes_shared fixed,
    fun other _ _ order _ => search_perm fixed half other order⟩

/-- The shared word is read in two ways at 64 bits. -/
theorem unique_reading_shared :
    (Table.default.instructions.filter (decodes (.start (some 64)) 1)).map (·.name) =
      ["c.nop", "c.addi"] :=
  (unique_reading rfl (by decide)).2.1 rfl (by decide)

/-! ## The choice in general -/

variable {opts : Options} {w : Word} {i : Instruction}

/-- A word that can be read as an instruction of the table is read as some instruction. -/
theorem exists_choice (inTable : i ∈ Table.default.instructions)
    (accepted : qualifies opts opts.tracker w i = true) :
    i ∈ Table.default.candidates (Key.ofWord w) ∧ ∃ j ∈ Table.default.instructions,
      (Table.default.candidates (Key.ofWord w)).find? (qualifies opts opts.tracker w) = some j := by
  have covered := (decodes_iff.mp (qualifies_iff.mp accepted).1).1
  have member : i ∈ Table.default.candidates (Key.ofWord w) := Table.mem_candidates.mpr
    ⟨inTable, ((Table.default_wellFormed inTable).key_of_covers covered).symm⟩
  obtain ⟨j, found⟩ := Option.isSome_iff_exists.mp (List.find?_isSome.mpr ⟨i, member, accepted⟩)
  exact ⟨member, j, (Table.mem_candidates.mp (List.mem_of_find?_eq_some found)).1, found⟩

/-- A wider instruction can be read from the word, and so takes the place of the narrower one where
no width is fixed. -/
structure Supersedes (opts : Options) (w : Word) (wider i : Instruction) : Prop where
  member : wider ∈ Table.default.instructions
  below : i.Below wider
  qualifies : qualifies opts opts.tracker w wider = true

theorem not_supersedes {wider : Instruction} (unbounded : i.maxXlen = none) :
    ¬ Supersedes opts w wider i := by
  rintro ⟨-, ⟨h, top, -⟩, -⟩
  rw [unbounded] at top
  cases top

/-- **The instruction that a word was made for is chosen.**  Without a fixed width this needs that
no wider instruction can be read from the word: where widths do not meet, the wider instruction
comes first. -/
theorem choice_eq (half : isShort w = true → w.down 16 = 0) (other : w ≠ 1)
    (inTable : i ∈ Table.default.instructions) (accepted : qualifies opts opts.tracker w i = true)
    (widest : opts.xlen = none → ∀ wider, ¬ Supersedes opts w wider i) :
    (Table.default.candidates (Key.ofWord w)).find? (qualifies opts opts.tracker w) = some i := by
  obtain ⟨member, j, inTable', found⟩ := exists_choice inTable accepted
  by_cases same : j = i
  · rw [found, same]
  have accepted' := List.find?_some found
  obtain ⟨covered, allowed, free⟩ := decodes_iff.mp (qualifies_iff.mp accepted).1
  obtain ⟨covered', allowed', free'⟩ := decodes_iff.mp (qualifies_iff.mp accepted').1
  obtain widths | names | names :=
    Table.below_of_covers inTable' inTable same covered' covered free' free
  · cases mode : opts.xlen with
    | some x =>
      have fixed : opts.tracker.mode = some x := mode
      rw [Tracker.allowsInstruction_fixed fixed] at allowed allowed'
      obtain below | below := widths
      · exact (below.not_both allowed' allowed).elim
      · exact (below.not_both allowed allowed').elim
    | none =>
      obtain ⟨h, top, lower⟩ | below := widths
      · -- The wider instruction would have been found first.
        have first := Table.precedes_of_find? found member accepted same
        have ordered := (Table.default_sound j inTable').ordered h top
        simp only [Table.precedes, Bool.or_eq_true, decide_eq_true_eq, Bool.and_eq_true,
          beq_iff_eq] at first
        omega
      · exact absurd ⟨inTable', below, accepted'⟩ (widest mode j)
  · exact absurd (Table.word_of_nop inTable' names.1 covered' half) other
  · exact absurd (Table.word_of_nop inTable names.1 covered half) other

/-- The shared word is always read as a `c.nop`. -/
theorem choice_shared (found : (Table.default.candidates (Key.ofWord 1)).find?
    (qualifies opts opts.tracker 1) = some i) : i.name = "c.nop" := by
  have inTable := (Table.mem_candidates.mp (List.mem_of_find?_eq_some found)).1
  obtain ⟨decoded, enabled⟩ := qualifies_iff.mp (List.find?_some found)
  obtain ⟨covered, allowed, free⟩ := decodes_iff.mp decoded
  obtain ⟨ext, required, max, ⟨name, -⟩ | ⟨-, few⟩⟩ := Table.shared_of_decodes inTable covered free
  · exact name
  · -- The `c.nop` of the table fixes more bits and so would have been found first.
    obtain ⟨nop, inTable', covered', free', many⟩ := Table.exists_nop
    obtain ⟨ext', required', max', -⟩ := Table.shared_of_decodes inTable' covered' free'
    have accepted : qualifies opts opts.tracker 1 nop = true := by
      refine qualifies_iff.mpr ⟨decodes_iff.mpr ⟨covered', ?_, free'⟩, ?_⟩
      · rwa [Tracker.allowsInstruction, required', max', ← required, ← max]
      · rwa [ext', ← ext]
    have different : i ≠ nop := by
      rintro rfl
      omega
    have member := (exists_choice inTable' accepted).1
    have first := Table.precedes_of_find? found member accepted different
    simp [Table.precedes, required, required', few, many] at first

end Disassembler

end RvCodec

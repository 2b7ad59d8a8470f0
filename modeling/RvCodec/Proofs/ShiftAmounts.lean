import RvCodec.Proofs.Linewise
import RvCodec.Proofs.RoundTrip
import RvCodec.Proofs.Statements

/-!
# Shift amounts

A register can be shifted by less than its width.  Nothing checks this in one
place.  The field of the amount has five, six or seven bits, which bounds it by
128 (`Table.default_amounts`); a large amount adds a requirement of its own to
those of the instruction; and the requirements of all the lines are met together
by the width that is reported in the end.

`Instruction.amount_lt` brings the field and the requirement together, and
`Encoding.Legal.shiftsWithin` applies this to a word.  From there on it does not
matter whether the word was assembled or disassembled, since the width is found
in the same way (`Translates.holds`).

At a fixed width nothing else stands in the way of the three shifts of the base
(`Instruction.IsBaseShift.assemble_iff`).
-/

set_option autoImplicit false

namespace RvCodec

/-- The forms with a shift amount. -/
def Form.isShift : Form → Bool
  | shift | shortShift => true
  | _ => false

/-- The encoding's shift amount, in its operands and in its word, is less than the width. -/
def Encoding.ShiftsWithin (e : Encoding) (x : Nat) : Prop :=
  ∃ s, .number s ∈ e.values ∧ e.instruction.immediate.decode e.word = s ∧ 0 ≤ s ∧ s < x

/-! ## The amount and the width -/

/-- Amounts have no sign and seven bits at most, and those with more than five ask for wide
registers. -/
theorem Table.default_amounts : ∀ i ∈ default.instructions, i.form.isShift = true →
    i.immediate.range.unsigned = true ∧ i.immediate.range.bits ≤ 7 ∧
      (i.hasWideShift = false → i.immediate.range.bits ≤ 5) := by
  decide +kernel

namespace Instruction

variable {i : Instruction} (inTable : i ∈ Table.default.instructions)
  (shifts : i.form.isShift = true)

include shifts in
theorem immediate_mem_operands : .immediate false ∈ i.operands := by
  refine List.mem_append_left _ ?_
  unfold Form.isShift at shifts
  split at shifts
  · next form => simp [mainOperands, form]
  · next form => simp [mainOperands, form]
  · cases shifts

include inTable shifts in
/-- **An amount that the field holds is less than a width that it allows.** -/
theorem amount_lt {s : Int} (held : i.immediate.range.contains s = true) {x : Nat} (wide : 32 ≤ x)
    (allowed : ∀ need ∈ i.shiftXlen s, need ≤ x) : 0 ≤ s ∧ s < x := by
  obtain ⟨unsigned, bits, narrow⟩ := Table.default_amounts i inTable shifts
  obtain ⟨nonneg, below⟩ := (ImmRange.contains_unsigned unsigned (by omega) s).mp held
  have below128 : s < 128 := below.trans_le (pow_le_pow_right₀ (by decide) bits)
  refine ⟨nonneg, ?_⟩
  unfold shiftXlen at allowed
  split at allowed
  · next small =>
    have below32 : s < 32 := by
      cases wideShift : i.hasWideShift with
      | false => exact below.trans_le (pow_le_pow_right₀ (by decide) (narrow wideShift))
      | true => simpa [wideShift] using small
    omega
  · split at allowed
    · have := allowed 64 rfl
      omega
    · have := allowed 128 rfl
      omega

end Instruction

namespace Encoding

/-- What a word requires is what its instruction and its operands require. -/
theorem requirements_ofWord (i : Instruction) (w : Word) :
    (ofWord i w).requirements =
      i.requirement :: i.operands.flatMap fun o => i.operandRequirements o (o.take i w) := by
  rw [requirements, ofWord, List.zipWith_map_right, List.zipWith_self, List.flatMap_def]

/-- A shift whose requirements are met shifts by less than the width. -/
theorem Legal.shiftsWithin {opts : Options} {e : Encoding} (legal : e.Legal opts)
    (shifts : e.instruction.form.isShift = true) {x : Nat}
    (suits : ∀ r ∈ e.requirements, r.Holds x) : e.ShiftsWithin x := by
  have wf := Table.default_wellFormed legal.member
  have operand := Instruction.immediate_mem_operands shifts
  have taken : ofWord e.instruction e.word = e := legal.ofWord_word wf
  have values : (ofWord e.instruction e.word).values = e.values := congrArg Encoding.values taken
  have value : .number (e.instruction.immediate.decode e.word) ∈ e.values := by
    rw [← values]
    exact List.mem_map_of_mem (f := Operand.take e.instruction e.word) operand
  have held := (wf.sized _ operand).1.contains_decode e.word
  rw [← taken, requirements_ofWord] at suits
  have wide : 32 ≤ x :=
    (Table.default_sound _ legal.member).usual.1.trans (suits _ List.mem_cons_self).1
  have allowed : ∀ need ∈ e.instruction.shiftXlen (e.instruction.immediate.decode e.word),
      need ≤ x := by
    intro need needed
    have required : (⟨e.instruction.name, need, none⟩ : Requirement) ∈
        e.instruction.operandRequirements (.immediate false)
          (Operand.take e.instruction e.word (.immediate false)) :=
      List.mem_map.mpr ⟨need, Option.mem_toList.mpr needed, rfl⟩
    exact (suits _ (List.mem_cons_of_mem _ (List.mem_flatMap.mpr ⟨_, operand, required⟩))).1
  obtain ⟨nonneg, below⟩ := Instruction.amount_lt legal.member shifts held wide allowed
  exact ⟨_, value, rfl, nonneg, below⟩

end Encoding

/-- The width of a translation suits each of its items. -/
theorem Translates.holds {β : Type} {mode : Xlen} {relates : String → List β → Prop}
    {encoding : β → Encoding} {source : String} {blocks : List (List β)} {xlen : Nat}
    (translates : Translates mode relates encoding source blocks xlen) {item : β}
    (member : item ∈ blocks.flatten) : ∀ r ∈ (encoding item).requirements, r.Holds xlen := by
  intro r required
  exact translates.width.1.1 r (List.mem_flatMap.mpr ⟨item, member, required⟩)

/-! ## The three shifts of the base -/

/-- The instruction shifts registers of any width, by an amount of seven bits. -/
structure Instruction.IsBaseShift (i : Instruction) : Prop where
  inTable : i ∈ Table.default.instructions
  form : i.form = .shift
  bits : i.immBits = 7
  base : i.ext = .base
  plain : i.rounds = false
  lower : i.requiredXlen = 32
  upper : i.maxXlen = none

/-- The names of these instructions. -/
def baseShifts : List String := ["slli", "srli", "srai"]

theorem Table.exists_baseShift {name : String} (named : name ∈ baseShifts) :
    ∃ i : Instruction, i.IsBaseShift ∧ i.name = name := by
  have listed : ∀ name ∈ baseShifts, ∃ i ∈ default.instructions, i.name = name ∧ i.form = .shift ∧
      i.immBits = 7 ∧ i.ext = .base ∧ i.rounds = false ∧ i.requiredXlen = 32 ∧
      i.maxXlen = none := by decide +kernel
  obtain ⟨i, inTable, same, form, bits, base, plain, lower, upper⟩ := listed name named
  exact ⟨i, ⟨inTable, form, bits, base, plain, lower, upper⟩, same⟩

namespace Instruction.IsBaseShift

variable {i : Instruction} (shift : i.IsBaseShift)
include shift

theorem operands : i.operands = [reg Field.rd, reg Field.rs1, .immediate false] := by
  simp [Instruction.operands, mainOperands, shift.form, shift.plain]

theorem check_iff {s : Int} : i.immediate.check s = .ok () ↔ 0 ≤ s ∧ s < 128 := by
  have immediate : i.immediate = ⟨[⟨26, 20, 0⟩], ⟨7, true⟩, false⟩ := by
    simp [Instruction.immediate, shift.form, shift.bits]
  have align : (⟨[⟨26, 20, 0⟩], ⟨7, true⟩, false⟩ : Immediate).layout.align = 1 := rfl
  rw [immediate, Immediate.check_eq_ok_iff, ImmRange.contains_unsigned rfl (by decide), align]
  simp

/-- The requirements of a shift are met at the widths above its amount. -/
theorem suits_iff {r q : Word} {s : Int} (fits : 0 ≤ s ∧ s < 128) {x : Nat}
    (usual : x ∈ [32, 64, 128]) :
    (∀ requirement ∈ (⟨i, 0, [.field r, .field q, .number s]⟩ : Encoding).requirements,
      requirement.Holds x) ↔ s < x := by
  have requirements : (⟨i, 0, [.field r, .field q, .number s]⟩ : Encoding).requirements =
      ⟨i.name, 32, none⟩ :: (i.shiftXlen s).toList.map fun need => ⟨i.name, need, none⟩ := by
    simp [Encoding.requirements, shift.operands, requirement, shift.lower, shift.upper,
      operandRequirements, reg]
  have need : i.shiftXlen s = if s < 32 then none else if s < 64 then some 64 else some 128 := by
    simp [shiftXlen, hasWideShift, shift.form, shift.bits]
  have unbounded (lo : Nat) : (⟨i.name, lo, none⟩ : Requirement).Holds x ↔ lo ≤ x := by
    simp [Requirement.Holds]
  simp only [List.mem_cons, List.not_mem_nil, or_false] at usual
  simp only [requirements, need, List.forall_mem_cons, List.forall_mem_map, unbounded]
  split
  · simp only [Option.toList_none, List.not_mem_nil, false_imp_iff, implies_true, and_true]
    omega
  · split
    · simp only [Option.toList_some, List.mem_singleton, forall_eq]
      omega
    · simp only [Option.toList_some, List.mem_singleton, forall_eq]
      omega

/-- **At a fixed width, a shift is assembled** for the amounts below the width and for nothing
else. -/
theorem assemble_iff {source : String} {opts : Options} {rd rs1 literal : String}
    {r q : Word} {x : Nat} {a : Assembly} (usual : x ∈ [32, 64, 128]) (fixed : opts.xlen = some x)
    (register : Register.parseInteger opts.embedded rd = .ok r)
    (register' : Register.parseInteger opts.embedded rs1 = .ok q)
    (stated : Source.SaysOnly source ⟨i.name, [rd, rs1, literal]⟩) :
    assemble source opts = .ok a ↔ ∃ s, Number.parse literal = .ok s ∧ 0 ≤ s ∧ s < x ∧
      a = ⟨[[⟨i, 0, [.field r, .field q, .number s]⟩]], x, .fixed⟩ := by
  have enough : i.arity ≤ [rd, rs1, literal].length := by
    rw [arity, shift.operands]
    exact Nat.sub_le _ _
  rw [assemble_instruction_iff fixed shift.inTable enough stated]
  constructor
  · rintro ⟨e, denotes, holds, rfl⟩
    obtain ⟨r', q', s, read, read', parsed, checked, rfl⟩ :=
      (Assembler.denotes_regsImm_iff shift.inTable shift.base shift.operands).mp denotes
    obtain rfl : r = r' := by simpa using register.symm.trans read
    obtain rfl : q = q' := by simpa using register'.symm.trans read'
    have fits := shift.check_iff.mp checked
    exact ⟨s, parsed, fits.1, (shift.suits_iff fits usual).mp holds, rfl⟩
  · rintro ⟨s, parsed, nonneg, below, rfl⟩
    have widest : x ≤ 128 := by
      simp only [List.mem_cons, List.not_mem_nil, or_false] at usual
      omega
    have fits : 0 ≤ s ∧ s < 128 := ⟨nonneg, by omega⟩
    have denotes := (Assembler.denotes_regsImm_iff shift.inTable shift.base shift.operands).mpr
      ⟨r, q, s, register, register', parsed, shift.check_iff.mpr fits, rfl⟩
    exact ⟨_, denotes, (shift.suits_iff fits usual).mpr below, rfl⟩

end Instruction.IsBaseShift

/-! ## Programs -/

/-- **Shift amounts are less than the width of the registers**, in every text that is assembled or
disassembled.  At a fixed width, the shifts of the base are assembled for all these amounts, and
only for these. -/
theorem shift_amounts_within_width (source : String) (opts : Options) :
    (∀ a, assemble source opts = .ok a → ∀ e ∈ a.encodings,
      e.instruction.form.isShift = true → e.ShiftsWithin a.xlen) ∧
    (∀ d, disassemble source opts = .ok d → ∀ r ∈ d.readings,
      r.instruction.form.isShift = true →
        r.encoding.word = r.word ∧ r.encoding.ShiftsWithin d.xlen) ∧
    ∀ x ∈ [32, 64, 128], opts.xlen = some x → ∀ name ∈ baseShifts, ∀ rd rs1 literal r q,
      Register.parseInteger opts.embedded rd = .ok r →
      Register.parseInteger opts.embedded rs1 = .ok q →
      Source.SaysOnly source ⟨name, [rd, rs1, literal]⟩ →
        ∃ i ∈ Table.default.instructions, i.name = name ∧
          ∀ a, assemble source opts = .ok a ↔ ∃ s, Number.parse literal = .ok s ∧ 0 ≤ s ∧ s < x ∧
            a = ⟨[[⟨i, 0, [.field r, .field q, .number s]⟩]], x, .fixed⟩ := by
  refine ⟨?_, ?_, ?_⟩
  · intro a assembled e member shifts
    obtain ⟨denote, -⟩ := assemble_eq_ok.mp assembled
    obtain ⟨translates, -⟩ := assemble_iff.mp assembled
    exact (denote.legal member).shiftsWithin shifts (translates.holds member)
  · intro d disassembled r member shifts
    obtain ⟨translates, -⟩ := disassemble_iff.mp disassembled
    obtain ⟨token, -, w, -, reads⟩ :=
      Outcome.exists_of_mem_right (Disassembly.tokens_read disassembled) member
    obtain ⟨legal, same⟩ := reads.legal
    exact ⟨same.trans reads.word.symm, legal.shiftsWithin shifts (translates.holds member)⟩
  · intro x usual fixed name named rd rs1 literal r q register register' stated
    obtain ⟨i, shift, rfl⟩ := Table.exists_baseShift named
    exact ⟨i, shift.inTable, rfl, fun a =>
      shift.assemble_iff usual fixed register register' stated⟩

set_option maxRecDepth 20000 in
/-- A shift by 63 makes its program one of 64 bits, and is assembled at 64 bits and not at 32. -/
theorem shift_amounts_within_width_wide :
    (∃ a, assemble "c.slli a0, 31\nSRAI a0, t1, 0x3f" {} = .ok a ∧ a.encodings.length = 2 ∧
      a.xlen = 64 ∧ ∀ e ∈ a.encodings, e.ShiftsWithin 64) ∧
    (∃ d, disassemble "0x157e" {} = .ok d ∧ d.readings.length = 1 ∧ d.xlen = 64 ∧
      ∀ r ∈ d.readings, r.encoding.ShiftsWithin 64) ∧
    (∃ a, assemble "SRAI a0, t1, 0x3f" { xlen := some 64 } = .ok a) ∧
    ∀ a, assemble "SRAI a0, t1, 0x3f" { xlen := some 32 } ≠ .ok a := by
  have stated : Source.SaysOnly "SRAI a0, t1, 0x3f" ⟨"srai", ["a0", "t1", "0x3f"]⟩ :=
    ⟨⟨1, "SRAI a0, t1, 0x3f"⟩, by decide +kernel, by decide +kernel⟩
  have amount : Number.parse "0x3f" = .ok 63 := by decide
  refine ⟨?_, ?_, ?_, ?_⟩
  · have evaluated : (assemble "c.slli a0, 31\nSRAI a0, t1, 0x3f" {}).toOption.map (fun a =>
        (a.encodings.length, a.xlen, a.encodings.all (·.instruction.form.isShift))) =
        some (2, 64, true) := by decide +kernel
    obtain ⟨a, assembled, columns⟩ := Option.map_eq_some_iff.mp evaluated
    obtain ⟨length, xlen, shifts⟩ : a.encodings.length = 2 ∧ a.xlen = 64 ∧
      ∀ e ∈ a.encodings, e.instruction.form.isShift = true := by simpa using columns
    have assembled := Outcome.eq_ok_of_toOption assembled
    refine ⟨a, assembled, length, xlen, ?_⟩
    intro e member
    exact xlen ▸ (shift_amounts_within_width _ _).1 a assembled e member (shifts e member)
  · have evaluated : (disassemble "0x157e" {}).toOption.map (fun d =>
        (d.readings.length, d.xlen, d.readings.all (·.instruction.form.isShift))) =
        some (1, 64, true) := by cbv
    obtain ⟨d, disassembled, columns⟩ := Option.map_eq_some_iff.mp evaluated
    obtain ⟨length, xlen, shifts⟩ : d.readings.length = 1 ∧ d.xlen = 64 ∧
      ∀ r ∈ d.readings, r.instruction.form.isShift = true := by simpa using columns
    have disassembled := Outcome.eq_ok_of_toOption disassembled
    refine ⟨d, disassembled, length, xlen, ?_⟩
    intro r member
    exact xlen ▸
      ((shift_amounts_within_width _ _).2.1 d disassembled r member (shifts r member)).2
  · obtain ⟨i, -, -, assembles⟩ := (shift_amounts_within_width _ { xlen := some 64 }).2.2 64
      (by decide) rfl "srai" (by decide) "a0" "t1" "0x3f" 10 6 (by decide) (by decide) stated
    exact ⟨_, (assembles _).mpr ⟨63, amount, by decide, by decide, rfl⟩⟩
  · intro a assembled
    obtain ⟨i, -, -, assembles⟩ := (shift_amounts_within_width _ { xlen := some 32 }).2.2 32
      (by decide) rfl "srai" (by decide) "a0" "t1" "0x3f" 10 6 (by decide) (by decide) stated
    obtain ⟨s, parsed, -, below, -⟩ := (assembles a).mp assembled
    obtain rfl : 63 = s := by simpa [amount] using parsed
    exact absurd below (by decide)

end RvCodec

import RvCodec.Proofs.SingleTokens
import RvCodec.Proofs.Statements

/-!
# Loading constants

`li` stands for one addition or for a load of the upper twenty bits and an
addition.  The addition takes a signed number, so that the upper bits are rounded
and not cut off, and the two parts make up the constant modulo 2^32 only
(`Splits`).  The remainder of the rounding always fits (`remainder_contains`), so
there is no constant of 32 bits that cannot be split.

The two parts are written in decimal and read again by the instructions, the
upper one as an unsigned number of twenty bits and the lower one as a signed
number of twelve.  `denotes_lui` and `denotes_addi` say that they are read as
they were meant, and `word_luiEncoding` and `word_addiEncoding` give the words
bit by bit.  `li_loads_constant` puts this together for a whole line.
-/

set_option autoImplicit false

namespace RvCodec

/-! ## Splitting a constant -/

namespace Pseudo

/-- An upper part of twenty bits and a small lower part that make up the constant in 32 bits. -/
structure Splits (v upper lower : Int) : Prop where
  upper_nonneg : 0 ≤ upper
  upper_lt : upper < 2 ^ 20
  lower_ge : -2048 ≤ lower
  lower_le : lower ≤ 2047
  same : upper * 2 ^ 12 + lower ≡ v [ZMOD 2 ^ 32]

theorem smallRange_contains (v : Int) :
    smallRange.contains v = true ↔ -2048 ≤ v ∧ v ≤ 2047 := by
  rw [ImmRange.contains_signed rfl (by decide) (by decide)]
  simp only [smallRange, Nat.reduceSub, Int.reducePow, Int.reduceNeg]
  omega

/-- What remains of a number above its rounded upper part is small. -/
theorem remainder_contains (v : Int) :
    smallRange.contains (v - (v + 0x800) / 0x1000 * 0x1000) = true := by
  rw [smallRange_contains]
  omega

/-- The rounded upper part of twenty bits and the remainder split the number. -/
theorem splits_bmod (v : Int) :
    let b := Int.bmod v 0x100000000
    Splits v ((b + 0x800) / 0x1000 % 0x100000) (b - (b + 0x800) / 0x1000 * 0x1000) := by
  intro b
  obtain ⟨lower_ge, lower_le⟩ := (smallRange_contains _).mp (remainder_contains b)
  refine ⟨by omega, by omega, lower_ge, lower_le, ?_⟩
  have wrapped : b % 0x100000000 = v % 0x100000000 := Int.bmod_emod
  unfold Int.ModEq
  omega

/-- **Loading a constant never fails for want of a split.** -/
theorem loadConstant_eq {literal : String} {v : Int} (parsed : Number.parse literal = .ok v)
    (rd : String) :
    loadConstant rd literal =
      if smallRange.contains v then .ok [⟨"addi", [rd, "x0", Text.decimal v]⟩]
      else if v < -0x80000000 ∨ 0xffffffff < v then .error (.constantTooWide v)
      else
        let b := Int.bmod v 0x100000000
        let upper := (b + 0x800) / 0x1000
        .ok [⟨"lui", [rd, Text.decimal (upper % 0x100000)]⟩,
          ⟨"addi", [rd, rd, Text.decimal (b - upper * 0x1000)]⟩] := by
  simp only [loadConstant, parsed, bind, Except.bind, remainder_contains, Bool.not_true,
    Bool.false_eq_true, ↓reduceIte]
  split
  · rfl
  · split <;> rfl

section Cases

variable {literal : String} {v : Int} (parsed : Number.parse literal = .ok v) (rd : String)
include parsed

theorem loadConstant_small (small : -2048 ≤ v ∧ v ≤ 2047) :
    loadConstant rd literal = .ok [⟨"addi", [rd, "x0", Text.decimal v]⟩] := by
  rw [loadConstant_eq parsed, if_pos ((smallRange_contains v).mpr small)]

theorem loadConstant_split (large : ¬ (-2048 ≤ v ∧ v ≤ 2047))
    (fits : -2 ^ 31 ≤ v ∧ v ≤ 2 ^ 32 - 1) :
    ∃ upper lower, Splits v upper lower ∧ loadConstant rd literal =
      .ok [⟨"lui", [rd, Text.decimal upper]⟩, ⟨"addi", [rd, rd, Text.decimal lower]⟩] := by
  refine ⟨_, _, splits_bmod v, ?_⟩
  rw [loadConstant_eq parsed, if_neg (by rwa [smallRange_contains]), if_neg (by omega)]

theorem loadConstant_wide (beyond : ¬ (-2 ^ 31 ≤ v ∧ v ≤ 2 ^ 32 - 1)) :
    loadConstant rd literal = .error (.constantTooWide v) := by
  rw [loadConstant_eq parsed, if_neg (by rw [smallRange_contains]; omega), if_pos (by omega)]

end Cases

theorem loadConstant_ne_unsplittable (rd literal : String) (n : Int) :
    loadConstant rd literal ≠ .error (.constantUnsplittable n) := by
  cases parsed : Number.parse literal with
  | error fault =>
    have shape : loadConstant rd literal = .error fault := by
      rw [loadConstant, parsed]
      rfl
    rw [shape]
    unfold Number.parse at parsed
    grind
  | ok v =>
    rw [loadConstant_eq parsed]
    grind

end Pseudo

/-! ## The two instructions -/

namespace Constants

/-- The addition of a small number to a register. -/
def addi : Instruction := Catalogue.regImm "addi" Catalogue.opImm 0

/-- The load of the upper twenty bits of a register. -/
def lui : Instruction :=
  { name := "lui", format := .u, opcode := Catalogue.opLui, form := .upper, immBits := 20,
    unsigned := true, ext := .base }

theorem addi_mem : addi ∈ Table.default.instructions := by
  refine List.mem_flatMap.mpr ⟨_, List.mem_cons_self, ?_⟩
  simp [Catalogue.base, Catalogue.arithmetic32, addi]

theorem lui_mem : lui ∈ Table.default.instructions := by
  refine List.mem_flatMap.mpr ⟨_, List.mem_cons_self, ?_⟩
  simp [Catalogue.base, Catalogue.controlFlow, lui]

/-- The word of an addition, from the highest bit to the lowest. -/
def addiWord (rd rs1 : Word) (imm : Int) : Word :=
  BitVec.ofInt 12 imm ++ rs1.setWidth 5 ++ 0b000#3 ++ rd.setWidth 5 ++ 0b0010011#7

/-- The word of a load of the upper bits, from the highest bit to the lowest. -/
def luiWord (rd : Word) (imm : Int) : Word :=
  BitVec.ofInt 20 imm ++ rd.setWidth 5 ++ 0b0110111#7

/-- The addition with its operands. -/
def addiEncoding (rd rs1 : Word) (imm : Int) : Encoding :=
  ⟨addi, 0, [.field rd, .field rs1, .number imm]⟩

/-- The load of the upper bits with its operands. -/
def luiEncoding (rd : Word) (imm : Int) : Encoding := ⟨lui, 0, [.field rd, .number imm]⟩

/-- The low bits of a number do not depend on how many bits are kept above them. -/
theorem setWidth_ofInt {n : Nat} (narrow : n ≤ 32) (v : Int) :
    (Word.ofInt v).setWidth n = BitVec.ofInt n v := by
  have wraps : (2 ^ n : Int) ∣ 2 ^ 32 := pow_dvd_pow 2 narrow
  apply BitVec.eq_of_toNat_eq
  rw [BitVec.toNat_setWidth, BitVec.toNat_ofInt]
  zify
  rw [Word.toNat_ofInt, Int.emod_emod_of_dvd v wraps,
    Int.toNat_of_nonneg (Int.emod_nonneg v (by positivity))]

theorem word_addiEncoding (rd rs1 : Word) (imm : Int) :
    (addiEncoding rd rs1 imm).word = addiWord rd rs1 imm := by
  have parts : (addiEncoding rd rs1 imm).word =
      (addi.test ||| Word.union [(⟨11, 7⟩ : BitRange).put rd, (⟨19, 15⟩ : BitRange).put rs1,
        Layout.upperTwelve.pack (Word.ofInt imm)]) ||| MemoryOrder.field.put 0 := rfl
  have test : addi.test = (0b0010011#7).setWidth 32 := by decide
  have order : MemoryOrder.field.put 0 = 0 := by decide
  have first : (⟨11, 7⟩ : BitRange).Valid := by decide
  have second : (⟨19, 15⟩ : BitRange).Valid := by decide
  have third : (⟨31, 20⟩ : BitRange).Valid := by decide
  apply Word.eq_of_bits
  intro k inside
  rw [parts, addiWord, test, order, ← setWidth_ofInt (by decide)]
  simp only [Word.union, List.foldr_cons, List.foldr_nil, Layout.pack, Layout.upperTwelve,
    List.map_cons, List.map_nil, Slice.range, BitVec.getLsbD_or, BitVec.getLsbD_append,
    BitVec.getLsbD_setWidth, first.getLsbD_put, second.getLsbD_put, third.getLsbD_put,
    Word.getLsbD_down]
  grind

theorem word_luiEncoding (rd : Word) (imm : Int) :
    (luiEncoding rd imm).word = luiWord rd imm := by
  have parts : (luiEncoding rd imm).word =
      (lui.test ||| Word.union [(⟨11, 7⟩ : BitRange).put rd,
        Layout.upper.pack (Word.ofInt imm)]) ||| MemoryOrder.field.put 0 := rfl
  have test : lui.test = (0b0110111#7).setWidth 32 := by decide
  have order : MemoryOrder.field.put 0 = 0 := by decide
  have first : (⟨11, 7⟩ : BitRange).Valid := by decide
  have second : (⟨31, 12⟩ : BitRange).Valid := by decide
  apply Word.eq_of_bits
  intro k inside
  rw [parts, luiWord, test, order, ← setWidth_ofInt (by decide)]
  simp only [Word.union, List.foldr_cons, List.foldr_nil, Layout.pack, Layout.upper,
    List.map_cons, List.map_nil, Slice.range, BitVec.getLsbD_or, BitVec.getLsbD_append,
    BitVec.getLsbD_setWidth, first.getLsbD_put, second.getLsbD_put, Word.getLsbD_down]
  grind

theorem requirements_addiEncoding (rd rs1 : Word) (imm : Int) :
    (addiEncoding rd rs1 imm).requirements = [⟨"addi", 32, none⟩] := rfl

theorem requirements_luiEncoding (rd : Word) (imm : Int) :
    (luiEncoding rd imm).requirements = [⟨"lui", 32, none⟩] := rfl

/-! ## Reading the two instructions -/

variable {opts : Options}

theorem denotes_addi {rd rs1 : String} {r s : Word} {imm : Int}
    (destination : Register.parseInteger opts.embedded rd = .ok r)
    (source : Register.parseInteger opts.embedded rs1 = .ok s) (lower : -2048 ≤ imm)
    (upper : imm ≤ 2047) :
    Assembler.Denotes opts ⟨"addi", [rd, rs1, Text.decimal imm]⟩ (addiEncoding r s imm) := by
  have checked : addi.immediate.check imm = .ok () := by
    refine (Immediate.check_eq_ok_iff imm).mpr ⟨?_, Int.emod_one imm, nofun⟩
    exact (Pseudo.smallRange_contains imm).mpr ⟨lower, upper⟩
  have parsed := Number.parse_decimal (v := imm) (by omega) (by omega)
  exact (Assembler.denotes_regsImm_iff addi_mem rfl rfl).mpr
    ⟨r, s, imm, destination, source, parsed, checked, rfl⟩

theorem denotes_lui {rd : String} {r : Word} {imm : Int}
    (destination : Register.parseInteger opts.embedded rd = .ok r) (lower : 0 ≤ imm)
    (upper : imm < 2 ^ 20) :
    Assembler.Denotes opts ⟨"lui", [rd, Text.decimal imm]⟩ (luiEncoding r imm) := by
  have checked : lui.immediate.check imm = .ok () := by
    refine (Immediate.check_eq_ok_iff imm).mpr ⟨?_, Int.emod_one imm, nofun⟩
    exact (ImmRange.contains_unsigned rfl (by decide) imm).mpr ⟨lower, upper⟩
  have parsed := Number.parse_decimal (v := imm) (by omega) (by omega)
  exact (Assembler.denotes_regImm_iff lui_mem rfl rfl).mpr
    ⟨r, imm, destination, parsed, checked, rfl⟩

/-- The zero register has its plain name in every variant. -/
theorem parseInteger_zero (embedded : Bool) : Register.parseInteger embedded "x0" = .ok 0 := by
  cases embedded <;> decide

/-! ## Widths -/

/-- Instructions that exist at every width from 32 bits on are accepted at each of them. -/
theorem exists_requireAll {mode : Xlen} (wide : ∀ x ∈ mode, 32 ≤ x) {rs : List Requirement}
    (narrow : ∀ r ∈ rs, r.lo = 32 ∧ r.hi = none) :
    ∃ t, (Tracker.start mode).requireAll rs = .ok t := by
  have suits : mode.getD 32 ∈ Suits mode rs := by
    refine ⟨?_, ?_⟩
    · intro r member
      obtain ⟨lo, hi⟩ := narrow r member
      refine ⟨?_, by simp [hi]⟩
      cases mode with
      | none => exact lo.le
      | some x => exact lo.le.trans (wide x rfl)
    · cases mode with
      | none => exact Nat.le_refl 32
      | some x => rfl
  have bounds : ∀ r ∈ rs, 32 ≤ r.lo ∧ r.lo ≤ 128 := by
    intro r member
    rw [(narrow r member).1]
    decide
  obtain ⟨n, least⟩ := exists_isLeast_suits suits
  obtain ⟨t, run, -⟩ := (Tracker.requireAll_iff bounds).mpr least
  exact ⟨t, run⟩

/-! ## The line -/

theorem expand_line {text rd literal : String} (tokens : Source.tokens text = ["li", rd, literal]) :
    (Assembler.statement? text).elim (.ok []) Pseudo.expand = Pseudo.loadConstant rd literal := by
  have lowered : Text.lower "li" = "li" := by decide
  simp only [Assembler.statement?, tokens, lowered, Option.elim_some]
  rfl

section Line

variable {source text rd literal : String} (line : Source.lines source = [⟨1, text⟩])
  (tokens : Source.tokens text = ["li", rd, literal])
include line tokens

theorem exists_assemble {ss : List Statement} {es : List Encoding}
    (wide : ∀ x ∈ opts.xlen, 32 ≤ x) (expands : Pseudo.loadConstant rd literal = .ok ss)
    (denotes : List.Forall₂ (Assembler.Denotes opts) ss es)
    (narrow : ∀ r ∈ es.flatMap (·.requirements), r.lo = 32 ∧ r.hi = none) :
    ∃ a, assemble source opts = .ok a ∧ a.words = es.map (·.word) := by
  obtain ⟨t, run⟩ := exists_requireAll wide narrow
  refine ⟨⟨[es], t.resolved, opts.mode⟩, assemble_eq_ok.mpr ⟨?_, t, ?_, rfl, rfl⟩, ?_⟩
  · rw [Assembler.SourceDenotes, line]
    exact .cons ⟨ss, (expand_line tokens).trans expands, denotes⟩ .nil
  · simpa [Assembly.requirements, Assembly.encodings, Options.tracker] using run
  · simp [Assembly.words, Assembly.encodings]

theorem assemble_eq_error {fault : Fault}
    (refused : Pseudo.loadConstant rd literal = .error fault) :
    assemble source opts = .error ⟨1, fault⟩ := by
  have faulty : Assembler.readLine opts opts.tracker text = .error fault := by
    have expands := expand_line tokens
    unfold Assembler.readLine
    cases said : Assembler.statement? text with
    | none => simp [Assembler.statement?, tokens] at said
    | some s =>
      rw [said, Option.elim_some, refused] at expands
      simp only [expands]
      rfl
  rw [assemble, line, Assembler.readLines, faulty]
  rfl

end Line

end Constants

open Constants

/-- **`li` loads the constant that it is given.**  A constant of 32 bits, signed or not, becomes one
addition if it is small and otherwise two instructions that make it up; any other constant is
refused as too wide. -/
theorem li_loads_constant {opts : Options} {rd literal : String} {r : Word} {v : Int}
    (wide : ∀ x ∈ opts.xlen, 32 ≤ x) (single : Source.Single rd) (single' : Source.Single literal)
    (register : Register.parseInteger opts.embedded rd = .ok r)
    (number : Number.parse literal = .ok v) :
    (-2 ^ 31 ≤ v ∧ v ≤ 2 ^ 32 - 1 → ∃ a, assemble ("li " ++ rd ++ ", " ++ literal) opts = .ok a ∧
      ((-2048 ≤ v ∧ v ≤ 2047) ∧ a.words = [addiWord r 0 v] ∨
        ¬ (-2048 ≤ v ∧ v ≤ 2047) ∧ ∃ upper lower, Pseudo.Splits v upper lower ∧
          a.words = [luiWord r upper, addiWord r r lower])) ∧
    (¬ (-2 ^ 31 ≤ v ∧ v ≤ 2 ^ 32 - 1) →
      ∃ e, assemble ("li " ++ rd ++ ", " ++ literal) opts = .error e ∧
        e.fault = .constantTooWide v ∧ e.fault.kind = .immediateTooWide) ∧
    ∀ n, Pseudo.loadConstant rd literal ≠ .error (.constantUnsplittable n) := by
  have spelled : "li " ++ rd ++ ", " ++ literal = Source.pairText "li" rd literal := by
    rw [← String.toList_inj]
    simp [Source.pairText, String.intercalate_cons_cons]
  have mnemonic : Text.IsToken "li" := by decide
  obtain ⟨literal', trimmed, line, tokens⟩ := Source.lines_pairText mnemonic single single'
    (Register.not_startsComment register) (Number.not_startsComment number)
    (Number.trimBlank_ne_nil number)
  rw [← spelled] at line
  have number' := Number.parse_of_trimBlank trimmed.symm number
  refine ⟨?_, ?_, Pseudo.loadConstant_ne_unsplittable rd literal⟩
  · intro fits
    by_cases small : -2048 ≤ v ∧ v ≤ 2047
    · have expands := Pseudo.loadConstant_small number' rd small
      have denotes := denotes_addi register (parseInteger_zero opts.embedded) small.1 small.2
      obtain ⟨a, assembled, words⟩ := exists_assemble line tokens wide expands (.cons denotes .nil)
        (by simp [requirements_addiEncoding])
      refine ⟨a, assembled, .inl ⟨small, ?_⟩⟩
      rw [words, List.map_singleton, word_addiEncoding]
    · obtain ⟨upper, lower, splits, expands⟩ := Pseudo.loadConstant_split number' rd small fits
      have denotes := denotes_lui register splits.upper_nonneg splits.upper_lt
      have denotes' := denotes_addi register register splits.lower_ge splits.lower_le
      obtain ⟨a, assembled, words⟩ := exists_assemble line tokens wide expands
        (.cons denotes (.cons denotes' .nil))
        (by simp [requirements_luiEncoding, requirements_addiEncoding])
      refine ⟨a, assembled, .inr ⟨small, upper, lower, splits, ?_⟩⟩
      rw [words, List.map_cons, List.map_singleton, word_luiEncoding, word_addiEncoding]
  · intro beyond
    exact ⟨_, assemble_eq_error line tokens (Pseudo.loadConstant_wide number' rd beyond), rfl, rfl⟩

/-- The constant is too large for one signed addition, but the 32 bits that it leaves are those of
the least small number. -/
theorem li_loads_constant_wrapped :
    ∃ a, assemble "li A0, 0xFFFF_F800" { xlen := some 64, embedded := true } = .ok a ∧
      ∃ upper lower, Pseudo.Splits 0xfffff800 upper lower ∧
        a.words = [luiWord 10 upper, addiWord 10 10 lower] := by
  have wide : ∀ x ∈ ({ xlen := some 64, embedded := true } : Options).xlen, 32 ≤ x := by simp
  have register : Register.parseInteger true "A0" = .ok 10 := by decide
  have number : Number.parse "0xFFFF_F800" = .ok 0xfffff800 := by decide
  obtain ⟨a, assembled, ⟨small, -⟩ | ⟨-, parts⟩⟩ := (li_loads_constant wide ⟨by decide, by decide⟩
    ⟨by decide, by decide⟩ register number).1 (by decide)
  · exact absurd small (by decide)
  · exact ⟨a, assembled, parts⟩

end RvCodec

import RvCodec.Proofs.SuitableWidths

/-!
# Statements with registers and an immediate

Most instructions of the base set are written with one or two integer registers
and an immediate.  What such a statement denotes can be said in full: it denotes
something exactly when the registers exist and the immediate is a number that
the instruction can hold, and then the operands are what was written
(`denotes_regsImm_iff`, `denotes_regImm_iff`).  Nothing is lost on the way, so
that these serve to build an encoding as well as to take one apart.

At a fixed width, a text that is one such statement is assembled to what the
statement denotes, if that exists at the width (`assemble_instruction_iff`).
-/

set_option autoImplicit false

namespace RvCodec

namespace Assembler

variable {opts : Options} {i : Instruction} {f g : BitRange} {token : String} {v : Value}
  {e : Encoding}

theorem readValue_reg_eq_ok : readValue opts i token (Instruction.reg f) = .ok v ↔
    ∃ r, Register.parseInteger opts.embedded token = .ok r ∧ .field r = v := by
  have unrestricted : readInteger opts false false token =
      Register.parseInteger opts.embedded token := by
    cases read : Register.parseInteger opts.embedded token <;> simp [readInteger, read]
  simp [readValue, readPlain, Instruction.reg, unrestricted, Outcome.map_eq_ok]

theorem readValue_immediate_eq_ok : readValue opts i token (.immediate false) = .ok v ↔
    ∃ n, Number.parse token = .ok n ∧ i.immediate.check n = .ok () ∧ .number n = v := by
  constructor
  · intro read
    obtain ⟨n, parsed, rest⟩ := Outcome.bind_eq_ok.mp read
    obtain ⟨⟨⟩, checked, done⟩ := Outcome.bind_eq_ok.mp rest
    exact ⟨n, parsed, checked, Except.ok.inj done⟩
  · rintro ⟨n, parsed, checked, rfl⟩
    exact Outcome.bind_eq_ok.mpr ⟨n, parsed, Outcome.bind_eq_ok.mpr ⟨(), checked, rfl⟩⟩

theorem enables_base (opts : Options) : opts.enables .base = true := rfl

theorem resolve_name (inTable : i ∈ Table.default.instructions) :
    resolve Table.default i.name = .ok (i, 0) := by
  rw [resolve, Table.find?_name inTable]

section Base

variable (inTable : i ∈ Table.default.instructions) (base : i.ext = .base)
include inTable base

/-- A statement with the plain name of an instruction denotes that instruction. -/
theorem denotes_name_iff {tokens bound : List String}
    (binds : bind i i.operands tokens = .ok bound) :
    Denotes opts ⟨i.name, tokens⟩ e ↔ ∃ values, List.Forall₂
      (fun p v => readValue opts i p.2 p.1 = .ok v) (i.operands.zip bound) values ∧
        ⟨i, 0, values⟩ = e := by
  constructor
  · rintro ⟨resolved, -, bound', binds', reads⟩
    obtain ⟨j, order, values⟩ := e
    obtain ⟨rfl, rfl⟩ : i = j ∧ 0 = order := by simpa [resolve_name inTable] using resolved
    obtain rfl : bound = bound' := by simpa [binds] using binds'
    exact ⟨values, reads, rfl⟩
  · rintro ⟨values, reads, rfl⟩
    exact ⟨resolve_name inTable, by rw [base, enables_base], bound, binds, reads⟩

/-- **A statement with two registers and an immediate** denotes what is written. -/
theorem denotes_regsImm_iff
    (operands : i.operands = [Instruction.reg f, Instruction.reg g, .immediate false])
    {first second literal : String} :
    Denotes opts ⟨i.name, [first, second, literal]⟩ e ↔
      ∃ r s n, Register.parseInteger opts.embedded first = .ok r ∧
        Register.parseInteger opts.embedded second = .ok s ∧ Number.parse literal = .ok n ∧
        i.immediate.check n = .ok () ∧ ⟨i, 0, [.field r, .field s, .number n]⟩ = e := by
  have binds : bind i i.operands [first, second, literal] = .ok [first, second, literal] := by
    rw [operands]
    rfl
  rw [denotes_name_iff inTable base binds, operands]
  constructor
  · rintro ⟨values, reads, rfl⟩
    obtain ⟨⟩ | ⟨read, ⟨⟩ | ⟨read', ⟨⟩ | ⟨read'', ⟨⟩⟩⟩⟩ := reads
    obtain ⟨r, register, rfl⟩ := readValue_reg_eq_ok.mp read
    obtain ⟨s, register', rfl⟩ := readValue_reg_eq_ok.mp read'
    obtain ⟨n, number, checked, rfl⟩ := readValue_immediate_eq_ok.mp read''
    exact ⟨r, s, n, register, register', number, checked, rfl⟩
  · rintro ⟨r, s, n, register, register', number, checked, rfl⟩
    exact ⟨_, .cons (readValue_reg_eq_ok.mpr ⟨r, register, rfl⟩)
      (.cons (readValue_reg_eq_ok.mpr ⟨s, register', rfl⟩)
        (.cons (readValue_immediate_eq_ok.mpr ⟨n, number, checked, rfl⟩) .nil)), rfl⟩

/-- **A statement with one register and an immediate** denotes what is written. -/
theorem denotes_regImm_iff (operands : i.operands = [Instruction.reg f, .immediate false])
    {first literal : String} :
    Denotes opts ⟨i.name, [first, literal]⟩ e ↔
      ∃ r n, Register.parseInteger opts.embedded first = .ok r ∧ Number.parse literal = .ok n ∧
        i.immediate.check n = .ok () ∧ ⟨i, 0, [.field r, .number n]⟩ = e := by
  have binds : bind i i.operands [first, literal] = .ok [first, literal] := by
    rw [operands]
    rfl
  rw [denotes_name_iff inTable base binds, operands]
  constructor
  · rintro ⟨values, reads, rfl⟩
    obtain ⟨⟩ | ⟨read, ⟨⟩ | ⟨read', ⟨⟩⟩⟩ := reads
    obtain ⟨r, register, rfl⟩ := readValue_reg_eq_ok.mp read
    obtain ⟨n, number, checked, rfl⟩ := readValue_immediate_eq_ok.mp read'
    exact ⟨r, n, register, number, checked, rfl⟩
  · rintro ⟨r, n, register, number, checked, rfl⟩
    exact ⟨_, .cons (readValue_reg_eq_ok.mpr ⟨r, register, rfl⟩)
      (.cons (readValue_immediate_eq_ok.mpr ⟨n, number, checked, rfl⟩) .nil), rfl⟩

end Base

end Assembler

/-! ## Programs of one statement -/

/-- The whole text is one statement. -/
def Source.SaysOnly (source : String) (s : Statement) : Prop :=
  ∃ line, Source.lines source = [line] ∧ Assembler.statement? line.text = some s

/-- **At a fixed width, an instruction on its own is assembled** when it denotes something that
exists at the width. -/
theorem assemble_instruction_iff {source : String} {opts : Options} {i : Instruction}
    {tokens : List String} {x : Nat} {a : Assembly} (fixed : opts.xlen = some x)
    (inTable : i ∈ Table.default.instructions) (enough : i.arity ≤ tokens.length)
    (stated : Source.SaysOnly source ⟨i.name, tokens⟩) :
    assemble source opts = .ok a ↔ ∃ e, Assembler.Denotes opts ⟨i.name, tokens⟩ e ∧
      (∀ r ∈ e.requirements, r.Holds x) ∧ a = ⟨[[e]], x, .fixed⟩ := by
  obtain ⟨line, only, said⟩ := stated
  have plain := Pseudo.expand_mnemonic inTable (Table.name_mem_mnemonics i) enough
  have lineDenotes (es : List Encoding) : Assembler.LineDenotes opts line.text es ↔
      ∃ e, Assembler.Denotes opts ⟨i.name, tokens⟩ e ∧ es = [e] := by
    simp [Assembler.LineDenotes, said, plain, List.forall₂_cons_left_iff]
  have run (rs : List Requirement) (t : Tracker) :
      opts.tracker.requireAll rs = .ok t ↔ t = opts.tracker ∧ ∀ r ∈ rs, r.Holds x :=
    Tracker.requireAll_fixed fixed rs
  have width : opts.tracker.resolved = x := by
    rw [Options.tracker, fixed]
    rfl
  have mode : opts.mode = .fixed := by rw [Options.mode, fixed, Mode.ofXlen]
  obtain ⟨blocks, xlen, mode'⟩ := a
  simp only [assemble_eq_ok, Assembler.SourceDenotes, only, List.forall₂_cons_left_iff, lineDenotes,
    List.forall₂_nil_left_iff, run, mode, Assembly.requirements, Assembly.encodings]
  constructor
  · rintro ⟨⟨es, rest, ⟨e, denotes, rfl⟩, rfl, rfl⟩, t, ⟨rfl, holds⟩, rfl, rfl⟩
    exact ⟨e, denotes, by simpa using holds, by rw [width]⟩
  · rintro ⟨e, denotes, holds, whole⟩
    obtain ⟨rfl, rfl, rfl⟩ : blocks = [[e]] ∧ xlen = x ∧ mode' = .fixed := by simpa using whole
    exact ⟨⟨[e], [], ⟨e, denotes, rfl⟩, rfl, rfl⟩, opts.tracker, ⟨rfl, by simpa using holds⟩,
      width.symm, rfl⟩

end RvCodec

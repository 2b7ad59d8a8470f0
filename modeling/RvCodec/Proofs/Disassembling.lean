import RvCodec.Disassembler
import RvCodec.Proofs.Widths

/-!
# Disassembling without the widths

As in assembling, the tracker of register widths passes through every step, but
only the configured width decides what is read.  So disassembling splits into
two parts: what the words are read as, and whether the widths that this requires
can be met.

`Reads` is the first part for one word.  The second part is
`Tracker.requireAll` on the requirements of the encodings that the words fall
apart into.  `disassemble_eq_ok` puts the two together.
-/

set_option autoImplicit false

namespace RvCodec

namespace Disassembler

/-! ## Choosing the instruction -/

/-- The word is an encoding of the instruction at the configured width, and not a reserved one. -/
def decodes (t : Tracker) (w : Word) (i : Instruction) : Bool :=
  i.covers w && t.allowsInstruction i && (i.reserved? w).isNone

/-- The instruction can be read from the word. -/
def qualifies (opts : Options) (t : Tracker) (w : Word) (i : Instruction) : Bool :=
  decodes t w i && opts.enables i.ext

theorem decodes_iff {t : Tracker} {w : Word} {i : Instruction} :
    decodes t w i = true ↔
      i.covers w = true ∧ t.allowsInstruction i = true ∧ i.reserved? w = none := by
  simp [decodes, and_assoc]

theorem qualifies_iff {opts : Options} {t : Tracker} {w : Word} {i : Instruction} :
    qualifies opts t w i = true ↔ decodes t w i = true ∧ opts.enables i.ext = true := by
  simp [qualifies]

/-- The search finds the first candidate that qualifies, whatever it came across before. -/
theorem search_eq_ok {opts : Options} {t : Tracker} {w : Word} {s : Search}
    {candidates : List Instruction} {i : Instruction} :
    search opts t w s candidates = .ok i ↔ candidates.find? (qualifies opts t w) = some i := by
  induction candidates generalizing s with
  | nil => simp [search]
  | cons j rest ih =>
    rw [search, List.find?_cons]
    by_cases passed : (!j.covers w || !opts.enables j.ext) = true
    · have refused : qualifies opts t w j = false := by
        unfold qualifies decodes
        grind
      rw [if_pos passed, refused]
      exact ih
    · rw [if_neg passed]
      cases allowed : t.allowsInstruction j with
      | false =>
        have refused : qualifies opts t w j = false := by simp [qualifies, decodes, allowed]
        simp only [Bool.not_false, ↓reduceIte, refused]
        exact ih
      | true =>
        simp only [Bool.not_true, Bool.false_eq_true, ↓reduceIte]
        cases reserved : j.reserved? w with
        | some why =>
          have refused : qualifies opts t w j = false := by simp [qualifies, decodes, reserved]
          simp only [refused]
          exact ih
        | none =>
          have accepted : qualifies opts t w j = true := by
            unfold qualifies decodes
            grind
          simp only [accepted, Except.ok.injEq, Option.some.injEq]

theorem choose_eq_ok {table : Table} {opts : Options} {t : Tracker} {w : Word} {i : Instruction} :
    choose table opts t w = .ok i ↔
      (table.candidates (Key.ofWord w)).find? (qualifies opts t w) = some i := by
  unfold choose
  split
  · next none => simp [none]
  · exact search_eq_ok

/-- Only the configured width decides the choice. -/
theorem qualifies_congr {opts : Options} {t t' : Tracker} (mode : t.mode = t'.mode) (w : Word) :
    qualifies opts t w = qualifies opts t' w := by
  funext i
  simp only [qualifies, decodes, Tracker.allowsInstruction, Tracker.allows, mode]

/-! ## Writing the encoding -/

/-- A mnemonic with the texts of its operands. -/
def lineText (mnemonic : String) (texts : List String) : String :=
  if texts.isEmpty then mnemonic else mnemonic ++ " " ++ ", ".intercalate texts

/-- The encoding is written as the text, the widths aside. -/
def Writes (opts : Options) (w : Word) (e : Encoding) (text : String) : Prop :=
  ∃ parts, List.Forall₂ (fun p part => writeOperand opts e.instruction w p.1 p.2 = .ok part)
      (e.instruction.operands.zip e.values) parts ∧
    text = lineText e.mnemonic (parts.flatMap Option.toList)

variable {opts : Options} {i : Instruction} {t t' : Tracker} {w : Word}

theorem requireOperand_eq (operand : Operand) (v : Value) :
    requireOperand i t operand v = t.requireAll (i.operandRequirements operand v) := by
  cases operand with
  | immediate upper =>
    cases v with
    | number v => exact t.requireShift_eq i v upper
    | _ => rfl
  | _ => rfl

theorem writeOperands_eq_ok {operands : List Operand} {values : List Value} {texts : List String} :
    writeOperands opts i w t operands values = .ok (texts, t') ↔
      (∃ parts, List.Forall₂ (fun p part => writeOperand opts i w p.1 p.2 = .ok part)
          (operands.zip values) parts ∧ texts = parts.flatMap Option.toList) ∧
        t.requireAll (List.zipWith i.operandRequirements operands values).flatten = .ok t' := by
  induction operands generalizing t t' values texts with
  | nil =>
    simp [writeOperands, Tracker.requireAll, eq_comm]
  | cons operand operands ih =>
    cases values with
    | nil => simp [writeOperands, Tracker.requireAll, eq_comm]
    | cons v values =>
      simp only [writeOperands, Outcome.bind_eq_ok, Outcome.pure_eq_ok, Prod.mk.injEq, Prod.exists,
        requireOperand_eq, ih, List.zip_cons_cons, List.forall₂_cons_left_iff,
        List.zipWith_cons_cons, List.flatten_cons, Tracker.requireAll_append]
      constructor
      · rintro ⟨t₁, first, part, written, _, _, ⟨⟨parts, all, rfl⟩, rest⟩, rfl, rfl⟩
        exact ⟨⟨part :: parts, ⟨part, parts, written, all, rfl⟩, rfl⟩, t₁, first, rest⟩
      · rintro ⟨⟨_, ⟨part, parts, written, all, rfl⟩, rfl⟩, t₁, first, rest⟩
        exact ⟨t₁, first, part, written, _, t', ⟨⟨parts, all, rfl⟩, rest⟩, rfl, rfl⟩

theorem writeEncoding_eq_ok {e : Encoding} {text : String} :
    writeEncoding opts t w e = .ok (text, t') ↔
      Writes opts w e text ∧ t.requireAll (List.zipWith e.instruction.operandRequirements
        e.instruction.operands e.values).flatten = .ok t' := by
  have line (texts : List String) (t' : Tracker) :
      (if texts.isEmpty then pure (e.mnemonic, t')
        else pure (e.mnemonic ++ " " ++ ", ".intercalate texts, t') : Except Fault _) =
      .ok (lineText e.mnemonic texts, t') := by
    unfold lineText
    split <;> rfl
  simp only [writeEncoding, Outcome.bind_eq_ok, Prod.exists, line, Except.ok.injEq, Prod.mk.injEq,
    writeOperands_eq_ok, Writes]
  constructor
  · rintro ⟨_, _, ⟨⟨parts, all, rfl⟩, required⟩, rfl, rfl⟩
    exact ⟨⟨parts, all, rfl⟩, required⟩
  · rintro ⟨⟨parts, all, rfl⟩, required⟩
    exact ⟨_, _, ⟨⟨parts, all, rfl⟩, required⟩, rfl, rfl⟩

/-! ## Words -/

/-- What the word was taken apart into. -/
def Reading.encoding (r : Reading) : Encoding := .ofWord r.instruction r.word

/-- The word is read in this way, the widths aside. -/
structure Reads (opts : Options) (w : Word) (r : Reading) : Prop where
  word : r.word = w
  screened : screen w = .ok ()
  chosen : (Table.default.candidates (Key.ofWord w)).find? (qualifies opts opts.tracker w) =
    some r.instruction
  written : Writes opts w r.encoding r.text

theorem readWord_eq_ok {r : Reading} (mode : t.mode = opts.xlen) :
    readWord opts t w = .ok (r, t') ↔
      Reads opts w r ∧ t.requireAll r.encoding.requirements = .ok t' := by
  obtain ⟨word, i, text⟩ := r
  have same : qualifies opts t w = qualifies opts opts.tracker w := qualifies_congr mode w
  simp only [readWord, Outcome.bind_eq_ok, Outcome.pure_eq_ok, choose_eq_ok, same, Prod.exists,
    Prod.mk.injEq, Reading.mk.injEq, writeEncoding_eq_ok]
  constructor
  · rintro ⟨_, screened, i, chosen, t₁, first, text, _, ⟨written, rest⟩, ⟨rfl, rfl, rfl⟩, rfl⟩
    refine ⟨⟨rfl, screened, chosen, written⟩, ?_⟩
    exact Outcome.bind_eq_ok.mpr ⟨t₁, first, rest⟩
  · rintro ⟨⟨rfl, screened, chosen, written⟩, required⟩
    obtain ⟨t₁, first, rest⟩ := Outcome.bind_eq_ok.mp required
    exact ⟨(), screened, i, chosen, t₁, first, text, t', ⟨written, rest⟩, ⟨rfl, rfl, rfl⟩, rfl⟩

theorem readTokens_eq_ok {tokens : List String} {block : List Reading} (mode : t.mode = opts.xlen) :
    readTokens opts t tokens = .ok (block, t') ↔
      List.Forall₂ (fun token r => ∃ w, parseWord token = .ok w ∧ Reads opts w r) tokens block ∧
        t.requireAll (block.flatMap (·.encoding.requirements)) = .ok t' := by
  refine Tracker.run_eq_ok (fun t token => parseWord token >>= readWord opts t) (readTokens opts)
    (fun _ => rfl) ?_ ?_ mode
  · intro t t' token tokens block
    simp only [readTokens, Outcome.bind_eq_ok, Outcome.pure_eq_ok, Prod.mk.injEq, Prod.exists]
    constructor
    · rintro ⟨w, parsed, r, t₁, first, rest, _, later, rfl, rfl⟩
      exact ⟨r, t₁, rest, ⟨w, parsed, first⟩, later, rfl⟩
    · rintro ⟨r, t₁, rest, ⟨w, parsed, first⟩, later, rfl⟩
      exact ⟨w, parsed, r, t₁, first, rest, t', later, rfl, rfl⟩
  · intro t t' token r mode
    simp only [Outcome.bind_eq_ok, readWord_eq_ok mode]
    constructor
    · rintro ⟨w, parsed, reads, required⟩
      exact ⟨⟨w, parsed, reads⟩, required⟩
    · rintro ⟨⟨w, parsed, reads⟩, required⟩
      exact ⟨w, parsed, reads, required⟩

/-! ## Lines -/

/-- The line's words are read in this way, the widths aside. -/
def LineReads (opts : Options) (text : String) (block : List Reading) : Prop :=
  List.Forall₂ (fun token r => ∃ w, parseWord token = .ok w ∧ Reads opts w r)
    (Source.tokens text) block

theorem readLines_eq_ok {lines : List Source.Line} {blocks : List (List Reading)}
    (mode : t.mode = opts.xlen) :
    readLines opts t lines = .ok (blocks, t') ↔
      List.Forall₂ (fun line block => LineReads opts line.text block) lines blocks ∧
        t.requireAll (blocks.flatten.flatMap (·.encoding.requirements)) = .ok t' := by
  rw [← List.flatMap_id, List.flatMap_assoc]
  refine Tracker.run_eq_ok
    (fun t line => (readTokens opts t (Source.tokens line.text)).mapError (⟨line.number, ·⟩))
    (readLines opts) (fun _ => rfl) ?_
    (fun _ _ _ _ mode => Outcome.mapError_eq_ok.trans (readTokens_eq_ok mode)) mode
  intro t t' line lines blocks
  rw [readLines]
  cases readTokens opts t (Source.tokens line.text) with
  | error fault => simp [Except.mapError]
  | ok result =>
    simp only [Except.mapError, Outcome.bind_eq_ok, Outcome.pure_eq_ok, Prod.exists, Prod.mk.injEq,
      Except.ok.injEq]
    constructor
    · rintro ⟨rest, _, later, rfl, rfl⟩
      exact ⟨result.1, result.2, rest, rfl, later, rfl⟩
    · rintro ⟨_, _, rest, rfl, later, rfl⟩
      exact ⟨rest, t', later, rfl, rfl⟩

end Disassembler

/-! ## Programs -/

/-- What the readings of a program require, in order. -/
def Disassembly.requirements (d : Disassembly) : List Requirement :=
  d.readings.flatMap (·.encoding.requirements)

/-- **Disassembling is reading and then meeting the requirements.** -/
theorem disassemble_eq_ok {source : String} {opts : Options} {d : Disassembly} :
    disassemble source opts = .ok d ↔
      List.Forall₂ (fun line block => Disassembler.LineReads opts line.text block)
        (Source.lines source) d.blocks ∧
      ∃ t, opts.tracker.requireAll d.requirements = .ok t ∧ d.xlen = t.resolved ∧
        d.mode = opts.mode := by
  obtain ⟨blocks, xlen, mode⟩ := d
  have start : opts.tracker.mode = opts.xlen := rfl
  simp only [disassemble, Outcome.bind_eq_ok, Outcome.pure_eq_ok, Prod.exists, Disassembly.mk.injEq,
    Disassembler.readLines_eq_ok start, Disassembly.requirements, Disassembly.readings]
  constructor
  · rintro ⟨_, t, ⟨reads, required⟩, rfl, rfl, rfl⟩
    exact ⟨reads, t, required, rfl, rfl⟩
  · rintro ⟨reads, t, required, rfl, rfl⟩
    exact ⟨blocks, t, ⟨reads, required⟩, rfl, rfl, rfl⟩

end RvCodec

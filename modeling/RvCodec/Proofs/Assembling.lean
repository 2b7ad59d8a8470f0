import RvCodec.Assembler
import RvCodec.Proofs.Widths

/-!
# Assembling without the widths

Reading a text threads the tracker of register widths through every operand,
but nothing that is read depends on it.  So assembling splits into two parts
that know nothing of each other: what the text denotes, a list of encodings, and
whether the widths that the encodings require can be met.

`Denotes` is the first part for one statement.  It determines the encoding
(`Denotes.unique`) and looks at no width at all (`Denotes.withXlen`).  The
second part is `Tracker.requireAll` on the requirements of the encodings.
`assemble_eq_ok` puts the two together.
-/

set_option autoImplicit false

namespace RvCodec

namespace Assembler

/-! ## Operands -/

/-- Reads an operand's value, the widths aside. -/
def readValue (opts : Options) (i : Instruction) (token : String) :
    Operand → Except Fault Value
  | .immediate upper => do
    let written ← Number.parse token
    let v := if upper then foldUpper written else written
    i.immediate.check v
    return .number v
  | operand => readPlain opts i token operand

variable {opts : Options} {i : Instruction} {t t' : Tracker}

theorem readOperand_eq_ok {token : String} {operand : Operand} {v : Value} :
    readOperand opts i t token operand = .ok (v, t') ↔
      readValue opts i token operand = .ok v ∧
        t.requireAll (i.operandRequirements operand v) = .ok t' := by
  have plain : (do let v ← readPlain opts i token operand; return (v, t)) = Except.ok (v, t') ↔
      readPlain opts i token operand = .ok v ∧ Except.ok t = (.ok t' : Except Fault Tracker) := by
    simp only [Outcome.bind_eq_ok, Outcome.pure_eq_ok, Prod.mk.injEq, Except.ok.injEq]
    constructor
    · rintro ⟨_, read, rfl, same⟩
      exact ⟨read, same⟩
    · rintro ⟨read, same⟩
      exact ⟨v, read, rfl, same⟩
  cases operand with
  | immediate upper =>
    simp only [readOperand, readImmediate, readValue, Outcome.bind_eq_ok, Outcome.pure_eq_ok,
      Prod.mk.injEq, Prod.exists, t.requireShift_eq i _ upper]
    constructor
    · rintro ⟨n, _, ⟨written, parsed, _, required, _, checked, rfl, rfl⟩, rfl, rfl⟩
      exact ⟨⟨written, parsed, _, checked, rfl⟩, required⟩
    · rintro ⟨⟨written, parsed, _, checked, rfl⟩, required⟩
      exact ⟨_, t', ⟨written, parsed, t', required, _, checked, rfl, rfl⟩, rfl, rfl⟩
  | _ => exact plain

theorem readOperands_eq_ok {operands : List Operand} {bound : List String}
    {values : List Value} :
    readOperands opts i t operands bound = .ok (values, t') ↔
      List.Forall₂ (fun p v => readValue opts i p.2 p.1 = .ok v) (operands.zip bound) values ∧
        t.requireAll (List.zipWith i.operandRequirements operands values).flatten = .ok t' := by
  induction operands generalizing t t' bound values with
  | nil =>
    simp only [readOperands, List.zip_nil_left, List.forall₂_nil_left_iff, Except.ok.injEq,
      Prod.mk.injEq, List.zipWith_nil_left, List.flatten_nil, Tracker.requireAll, eq_comm]
  | cons operand operands ih =>
    cases bound with
    | nil =>
      simp only [readOperands, List.zip_nil_right, List.forall₂_nil_left_iff, Except.ok.injEq,
        Prod.mk.injEq]
      constructor
      · rintro ⟨rfl, rfl⟩
        exact ⟨rfl, by simp [Tracker.requireAll]⟩
      · rintro ⟨rfl, required⟩
        simpa [Tracker.requireAll] using required
    | cons token bound =>
      simp only [readOperands, Outcome.bind_eq_ok, Outcome.pure_eq_ok, Prod.mk.injEq, Prod.exists,
        readOperand_eq_ok, ih, List.zip_cons_cons, List.forall₂_cons_left_iff]
      constructor
      · rintro ⟨v, t₁, ⟨read, first⟩, vs, t₂, ⟨reads, rest⟩, rfl, rfl⟩
        refine ⟨⟨v, vs, read, reads, rfl⟩, ?_⟩
        rw [List.zipWith_cons_cons, List.flatten_cons, Tracker.requireAll_append, first]
        exact rest
      · rintro ⟨⟨v, vs, read, reads, rfl⟩, required⟩
        rw [List.zipWith_cons_cons, List.flatten_cons, Tracker.requireAll_append,
          Outcome.bind_eq_ok] at required
        obtain ⟨t₁, first, rest⟩ := required
        exact ⟨v, t₁, ⟨read, first⟩, vs, t', ⟨reads, rest⟩, rfl, rfl⟩

/-! ## Statements -/

/-- The statement denotes the encoding, the widths aside. -/
structure Denotes (opts : Options) (s : Statement) (e : Encoding) : Prop where
  resolved : resolve Table.default s.name = .ok (e.instruction, e.order)
  enabled : opts.enables e.instruction.ext = true
  values : ∃ bound, bind e.instruction e.instruction.operands s.operands = .ok bound ∧
    List.Forall₂ (fun p v => readValue opts e.instruction p.2 p.1 = .ok v)
      (e.instruction.operands.zip bound) e.values

/-- A statement denotes at most one encoding. -/
theorem Denotes.unique {s : Statement} {e e' : Encoding} (first : Denotes opts s e)
    (second : Denotes opts s e') : e = e' := by
  obtain ⟨i, order, values⟩ := e
  obtain ⟨i', order', values'⟩ := e'
  have same := first.resolved.symm.trans second.resolved
  obtain ⟨rfl, rfl⟩ : i = i' ∧ order = order' := by simpa using same
  obtain ⟨bound, binds, reads⟩ := first.values
  obtain ⟨bound', binds', reads'⟩ := second.values
  obtain rfl : bound = bound' := by simpa using binds.symm.trans binds'
  obtain rfl : values = values' := Outcome.forall₂_unique reads reads'
  rfl

theorem readValue_withXlen (x : Xlen) :
    readValue { opts with xlen := x } i = readValue opts i := by
  funext token operand
  cases operand with
  | memory base => cases base <;> rfl
  | _ => rfl

/-- The configured width is not looked at. -/
theorem Denotes.withXlen (x : Xlen) : Denotes { opts with xlen := x } = Denotes opts := by
  funext s e
  refine propext ⟨?_, ?_⟩
  · rintro ⟨resolved, enabled, values⟩
    exact ⟨resolved, enabled, by simpa only [readValue_withXlen] using values⟩
  · rintro ⟨resolved, enabled, values⟩
    exact ⟨resolved, enabled, by simpa only [readValue_withXlen] using values⟩

theorem readInstruction_eq_ok {s : Statement} {e : Encoding} :
    readInstruction opts t s = .ok (e, t') ↔
      Denotes opts s e ∧ t.requireAll e.requirements = .ok t' := by
  have enabled (i : Instruction) (u : Unit) : opts.checkEnabled i = .ok u ↔ opts.enables i.ext := by
    unfold Options.checkEnabled
    split <;> simp_all
  obtain ⟨i, order, values⟩ := e
  simp only [readInstruction, readValues, Outcome.bind_eq_ok, Outcome.pure_eq_ok, Prod.mk.injEq,
    Prod.exists, Encoding.mk.injEq, readOperands_eq_ok, enabled]
  constructor
  · rintro ⟨i, order, resolved, _, allowed, t₁, first, values, _, ⟨bound, binds, reads, rest⟩,
      ⟨rfl, rfl, rfl⟩, rfl⟩
    refine ⟨⟨resolved, allowed, bound, binds, reads⟩, ?_⟩
    rw [Encoding.requirements, Tracker.requireAll]
    exact Outcome.bind_eq_ok.mpr ⟨t₁, first, rest⟩
  · rintro ⟨⟨resolved, allowed, bound, binds, reads⟩, required⟩
    obtain ⟨t₁, first, rest⟩ := Outcome.bind_eq_ok.mp required
    exact ⟨i, order, resolved, (), allowed, t₁, first, values, t', ⟨bound, binds, reads, rest⟩,
      ⟨rfl, rfl, rfl⟩, rfl⟩

theorem readInstructions_eq_ok {ss : List Statement} {es : List Encoding} :
    readInstructions opts t ss = .ok (es, t') ↔
      List.Forall₂ (Denotes opts) ss es ∧ t.requireAll (es.flatMap (·.requirements)) = .ok t' := by
  refine Tracker.run_eq_ok (readInstruction opts) (readInstructions opts) (fun _ => rfl) ?_
    (fun _ _ _ _ _ => readInstruction_eq_ok) rfl
  intro t t' s ss es
  simp only [readInstructions, Outcome.bind_eq_ok, Outcome.pure_eq_ok, Prod.mk.injEq, Prod.exists]
  constructor
  · rintro ⟨e, t₁, first, rest, _, later, rfl, rfl⟩
    exact ⟨e, t₁, rest, first, later, rfl⟩
  · rintro ⟨e, t₁, rest, first, later, rfl⟩
    exact ⟨e, t₁, first, rest, t', later, rfl, rfl⟩

/-! ## Lines -/

/-- The line denotes the encodings, the widths aside. -/
def LineDenotes (opts : Options) (text : String) (es : List Encoding) : Prop :=
  ∃ ss, (statement? text).elim (.ok []) Pseudo.expand = .ok ss ∧ List.Forall₂ (Denotes opts) ss es

theorem LineDenotes.unique {text : String} {es es' : List Encoding}
    (first : LineDenotes opts text es) (second : LineDenotes opts text es') : es = es' := by
  obtain ⟨ss, expands, denote⟩ := first
  obtain ⟨ss', expands', denote'⟩ := second
  obtain rfl : ss = ss' := by simpa using expands.symm.trans expands'
  have unique : Relator.RightUnique (Denotes opts) := fun _ _ _ => Denotes.unique
  exact List.right_unique_forall₂' unique denote denote'

theorem LineDenotes.withXlen (x : Xlen) :
    LineDenotes { opts with xlen := x } = LineDenotes opts := by
  funext text es
  simp only [LineDenotes, Denotes.withXlen]

theorem readLine_eq_ok {text : String} {es : List Encoding} :
    readLine opts t text = .ok (es, t') ↔
      LineDenotes opts text es ∧ t.requireAll (es.flatMap (·.requirements)) = .ok t' := by
  unfold readLine LineDenotes
  cases statement? text with
  | none =>
    simp only [Option.elim_none, Except.ok.injEq, exists_eq_left', List.forall₂_nil_left_iff,
      Prod.mk.injEq]
    constructor
    · rintro ⟨rfl, rfl⟩
      exact ⟨rfl, rfl⟩
    · rintro ⟨rfl, required⟩
      exact ⟨rfl, by simpa [Tracker.requireAll] using required⟩
  | some s =>
    simp only [Option.elim_some, Outcome.bind_eq_ok, readInstructions_eq_ok]
    constructor
    · rintro ⟨ss, expands, denote, required⟩
      exact ⟨⟨ss, expands, denote⟩, required⟩
    · rintro ⟨⟨ss, expands, denote⟩, required⟩
      exact ⟨ss, expands, denote, required⟩

theorem readLines_eq_ok {lines : List Source.Line} {blocks : List (List Encoding)} :
    readLines opts t lines = .ok (blocks, t') ↔
      List.Forall₂ (fun line block => LineDenotes opts line.text block) lines blocks ∧
        t.requireAll (blocks.flatten.flatMap (·.requirements)) = .ok t' := by
  rw [← List.flatMap_id, List.flatMap_assoc]
  refine Tracker.run_eq_ok
    (fun t line => (readLine opts t line.text).mapError (⟨line.number, ·⟩)) (readLines opts)
    (fun _ => rfl) ?_ (fun _ _ _ _ _ => Outcome.mapError_eq_ok.trans readLine_eq_ok) rfl
  intro t t' line lines blocks
  rw [readLines]
  cases readLine opts t line.text with
  | error fault => simp [Except.mapError]
  | ok result =>
    simp only [Except.mapError, Outcome.bind_eq_ok, Outcome.pure_eq_ok, Prod.exists, Prod.mk.injEq,
      Except.ok.injEq]
    constructor
    · rintro ⟨rest, _, later, rfl, rfl⟩
      exact ⟨result.1, result.2, rest, rfl, later, rfl⟩
    · rintro ⟨_, _, rest, rfl, later, rfl⟩
      exact ⟨rest, t', later, rfl, rfl⟩

/-! ## Programs -/

/-- The text denotes the encodings, line by line, the widths aside. -/
def SourceDenotes (opts : Options) (source : String) (blocks : List (List Encoding)) : Prop :=
  List.Forall₂ (fun line block => LineDenotes opts line.text block) (Source.lines source) blocks

theorem SourceDenotes.unique {source : String} {blocks blocks' : List (List Encoding)}
    (first : SourceDenotes opts source blocks) (second : SourceDenotes opts source blocks') :
    blocks = blocks' := by
  have unique : Relator.RightUnique fun (line : Source.Line) block =>
      LineDenotes opts line.text block := fun _ _ _ one other => LineDenotes.unique one other
  exact List.right_unique_forall₂' unique first second

theorem SourceDenotes.withXlen (x : Xlen) :
    SourceDenotes { opts with xlen := x } = SourceDenotes opts := by
  funext source blocks
  simp only [SourceDenotes, LineDenotes.withXlen]

end Assembler

/-- What the encodings of a program require, in order. -/
def Assembly.requirements (a : Assembly) : List Requirement := a.encodings.flatMap (·.requirements)

/-- **Assembling is reading and then meeting the requirements.** -/
theorem assemble_eq_ok {source : String} {opts : Options} {a : Assembly} :
    assemble source opts = .ok a ↔
      Assembler.SourceDenotes opts source a.blocks ∧
      ∃ t, opts.tracker.requireAll a.requirements = .ok t ∧ a.xlen = t.resolved ∧
        a.mode = opts.mode := by
  obtain ⟨blocks, xlen, mode⟩ := a
  simp only [assemble, Outcome.bind_eq_ok, Outcome.pure_eq_ok, Prod.exists, Assembly.mk.injEq,
    Assembler.readLines_eq_ok, Assembler.SourceDenotes, Assembly.requirements, Assembly.encodings]
  constructor
  · rintro ⟨_, t, ⟨denote, required⟩, rfl, rfl, rfl⟩
    exact ⟨denote, t, required, rfl, rfl⟩
  · rintro ⟨denote, t, required, rfl, rfl⟩
    exact ⟨blocks, t, ⟨denote, required⟩, rfl, rfl, rfl⟩

end RvCodec

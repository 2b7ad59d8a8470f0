import RvCodec.Proofs.FirstFault
import RvCodec.Proofs.SmallLetters

/-!
# Letter case

Source text may be written in capital or small letters.  Every reader of a name
or a number sees to this on its own, so the law is proved for each of them: on
a text in small letters it does what it does on the text as it was written.
Only the words of a fault, which quote the text, may differ; the outcomes are
`Alike`.

The pseudo-instructions write texts of their own among those of the source.
Their expansions are compared after both are put in small letters
(`Pseudo.expand_lowered`).
-/

set_option autoImplicit false

namespace RvCodec

open Text

/-! ## Outcomes that are alike -/

/-- Both computations succeed with the same result, or fail in ways that look the same. -/
inductive Alike {ε κ α : Type} (view : ε → κ) : Except ε α → Except ε α → Prop where
  | ok (a : α) : Alike view (.ok a) (.ok a)
  | error {e e' : ε} (same : view e = view e') : Alike view (.error e) (.error e')

namespace Alike

variable {ε κ α β γ : Type} {view : ε → κ}

theorem refl (x : Except ε α) : Alike view x x := by
  cases x with
  | error e => exact .error rfl
  | ok a => exact .ok a

theorem symm {x y : Except ε α} (alike : Alike view x y) : Alike view y x := by
  cases alike with
  | ok a => exact .ok a
  | error same => exact .error same.symm

theorem trans {x y z : Except ε α} (first : Alike view x y) (second : Alike view y z) :
    Alike view x z := by
  cases first with
  | ok a => exact second
  | error same =>
    cases second with
    | error same' => exact .error (same.trans same')

theorem bind {x y : Except ε α} {f g : α → Except ε β} (first : Alike view x y)
    (rest : ∀ a, Alike view (f a) (g a)) : Alike view (x >>= f) (y >>= g) := by
  cases first with
  | ok a => exact rest a
  | error same => exact .error same

/-- The second computation continues from a form of what the first one has. -/
theorem bind_map {x : Except ε β} {y : Except ε α} {form : α → β} {f : β → Except ε γ}
    {g : α → Except ε γ} (first : Alike view x (form <$> y))
    (rest : ∀ a, Alike view (f (form a)) (g a)) : Alike view (x >>= f) (y >>= g) := by
  have later : Alike view ((form <$> y) >>= f) (y >>= g) := by
    rw [bind_map_left]
    exact (refl y).bind rest
  exact (first.bind fun b => refl (f b)).trans later

theorem map {x y : Except ε α} (f : α → β) (first : Alike view x y) :
    Alike view (f <$> x) (f <$> y) := by
  rw [map_eq_pure_bind, map_eq_pure_bind]
  exact first.bind fun a => refl _

/-- What can be done in small letters is done alike on texts that are the same in small letters. -/
theorem of_toLower (f : String → Except ε α) (small : ∀ s, Alike view (f s.toLower) (f s))
    {s t : String} (same : s.toLower = t.toLower) : Alike view (f s) (f t) := by
  have first := (small s).symm
  rw [same] at first
  exact first.trans (small t)

/-- The same check stands in front of both computations. -/
theorem guard {c : Prop} [Decidable c] {e e' : ε} {x y : Except ε α} (same : view e = view e')
    (rest : Alike view x y) :
    Alike view (if c then .error e else x) (if c then .error e' else y) := by
  split
  · exact .error same
  · exact rest

end Alike

/-! ## Numbers -/

namespace Number

/-- **A number in small letters is the same number.** -/
theorem parse_toLower (s : String) : Alike Fault.kind (parse s.toLower) (parse s) := by
  simp only [parse, significant_toLower, splitSign_map, magnitude?_map]
  cases magnitude? (splitSign (significant s)).2 with
  | none => exact .error rfl
  | some n =>
    dsimp only
    split
    · split
      · exact .refl _
      · exact .error rfl
    · split
      · exact .refl _
      · exact .error rfl

theorem parseIn_toLower (s : String) (range : ImmRange) :
    Alike Fault.kind (parseIn s.toLower range) (parseIn s range) :=
  (parse_toLower s).bind fun _ => .refl _

end Number

/-! ## Names -/

namespace Register

theorem parse_toLower (file : RegisterFile) (s : String) :
    Alike Fault.kind (parse file s.toLower) (parse file s) := by
  rw [parse, trim_toLower, lower_toLower, parse]
  cases find? file (lower (trim s)) with
  | none => exact .error rfl
  | some n => exact .refl _

theorem parseInteger_toLower (embedded : Bool) (s : String) :
    Alike Fault.kind (parseInteger embedded s.toLower) (parseInteger embedded s) :=
  (parse_toLower .integer s).bind fun r => .guard rfl (.refl (pure r))

theorem shorten_toLower (file : RegisterFile) (s : String) (r : Word) :
    Alike Fault.kind (shorten file s.toLower r) (shorten file s r) := by
  unfold shorten
  split
  · exact .refl _
  · exact .error rfl

theorem parseShortInteger_toLower (embedded : Bool) (s : String) :
    Alike Fault.kind (parseShortInteger embedded s.toLower) (parseShortInteger embedded s) :=
  (parseInteger_toLower embedded s).bind fun r => shorten_toLower .integer s r

theorem parseShortFloat_toLower (s : String) :
    Alike Fault.kind (parseShortFloat s.toLower) (parseShortFloat s) :=
  (parse_toLower .float s).bind fun r => shorten_toLower .float s r

end Register

theorem RoundingMode.parse_toLower (s : String) :
    Alike Fault.kind (parse s.toLower) (parse s) := by
  rw [parse, lower_toLower, parse]
  cases table.find? (fun entry => decide (entry.2 = lower s)) with
  | none => exact .error rfl
  | some entry => exact .refl _

theorem FenceSet.parse_toLower (s : String) : Alike Fault.kind (parse s.toLower) (parse s) := by
  simp only [parse, lower_toLower]
  split
  · exact .refl _
  · cases addLetters 0 (lower s).toList with
    | none => exact .error rfl
    | some set => exact .guard rfl (.refl _)

theorem Csr.parse_toLower (s : String) : Alike Fault.kind (parse s.toLower) (parse s) := by
  rw [parse, lower_toLower, parse]
  cases number? (lower s) with
  | some n => exact .refl _
  | none =>
    have number := Number.parse_toLower s
    generalize Number.parse s.toLower = x at number ⊢
    generalize Number.parse s = y at number ⊢
    cases number with
    | ok v => exact .refl _
    | error same => exact .error rfl

namespace VType

theorem readElements_map (d : Draft) (texts : List String) :
    Alike Fault.kind (readElements d (texts.map String.toLower)) (readElements d texts) := by
  induction texts generalizing d with
  | nil => exact .refl _
  | cons text texts ih =>
    rw [List.map_cons, readElements, lower_toLower, readElements]
    cases (element? (lower text)).bind d.add with
    | some d' => exact ih d'
    | none => exact .error rfl

theorem parseElements_map (texts : List String) :
    Alike Fault.kind (parseElements (texts.map String.toLower)) (parseElements texts) :=
  (readElements_map {} texts).bind fun _ => .refl _

theorem parse_map (texts : List String) (bits : Nat) :
    Alike Fault.kind (parse (texts.map String.toLower) bits) (parse texts bits) := by
  match texts with
  | [] => exact .refl _
  | [text] =>
    have number := Number.parse_toLower text
    have elements := parseElements_map [text]
    rw [List.map_singleton] at elements ⊢
    rw [parse, parse]
    generalize Number.parse text.toLower = x at number ⊢
    generalize Number.parse text = y at number ⊢
    cases number with
    | ok v => exact .refl _
    | error same => exact elements
  | first :: second :: rest => exact parseElements_map (first :: second :: rest)

end VType

/-! ## Pseudo-instructions -/

/-- The statement with its operands in small letters. -/
def Statement.lowered (s : Statement) : Statement := ⟨s.name, s.operands.map String.toLower⟩

namespace Pseudo

theorem splitMemory_toLower (s : String) :
    Alike Fault.kind (splitMemory s.toLower)
      ((fun parts => (parts.1.toLower, parts.2.toLower)) <$> splitMemory s) := by
  have mark (d : Char) (other : d.isAlpha = false) (c : Char) : (c.toLower = d) = (c = d) :=
    propext (toLower_eq_iff other)
  have count (d : Char) (other : d.isAlpha = false) (cs : List Char) :
      (cs.map Char.toLower).count d = cs.count d := by
    rw [List.count_eq_countP, List.countP_map, List.count_eq_countP]
    refine List.countP_congr ?_
    intro c _
    simp [mark d other]
  have last (cs : List Char) :
      ((cs.map Char.toLower).getLast? = some ')') = (cs.getLast? = some ')') := by
    simp [List.getLast?_map, mark ')' rfl]
  have before (cs : List Char) : (cs.map Char.toLower).takeWhile (fun c => c ≠ '(') =
      (cs.takeWhile (fun c => c ≠ '(')).map Char.toLower := by
    simp only [List.takeWhile_map, Function.comp_def, ne_eq, mark '(' rfl]
  simp only [splitMemory, toList_toLower, before, count '(' rfl, count ')' rfl, last, ne_eq,
    List.length_map, ← List.map_drop, ← List.map_dropLast, List.isEmpty_map, ofList_map_toLower]
  split
  · exact .error rfl
  · split
    · exact .error rfl
    · exact .refl _

/-- Two expansions are the same in small letters. -/
def SameExpansion (x y : Except Fault (List Statement)) : Prop :=
  Alike Fault.kind (List.map Statement.lowered <$> x) (List.map Statement.lowered <$> y)

theorem SameExpansion.of_ok {ss ss' : List Statement}
    (same : ss.map Statement.lowered = ss'.map Statement.lowered) :
    SameExpansion (.ok ss) (.ok ss') := by
  rw [SameExpansion, Except.map_ok, Except.map_ok, same]
  exact .ok _

theorem lowered_lowered (s : Statement) : s.lowered.lowered = s.lowered := by
  simp only [Statement.lowered, List.map_map, Function.comp_def, toLower_toLower]

theorem lowered_apply (r : Rule) (operands : List String) :
    (r.apply (operands.map String.toLower)).lowered = (r.apply operands).lowered := by
  have fill (slot : Slot) :
      (Rule.fill (operands.map String.toLower) slot).toLower =
        (Rule.fill operands slot).toLower := by
    cases slot with
    | text s => rfl
    | operand n =>
      have given := List.getD_map (n := n) operands "" String.toLower
      rw [toLower_empty] at given
      rw [Rule.fill, given, toLower_toLower, Rule.fill]
  simp only [Statement.lowered, Rule.apply, List.map_map, Function.comp_def, fill]

theorem loadConstant_toLower (rd literal : String) :
    SameExpansion (loadConstant rd.toLower literal.toLower) (loadConstant rd literal) := by
  rw [SameExpansion, loadConstant, loadConstant, map_bind, map_bind]
  refine (Number.parse_toLower literal).bind ?_
  intro v
  split
  · refine SameExpansion.of_ok ?_
    simp only [Statement.lowered, List.map_cons, toLower_toLower]
  split
  · exact .error rfl
  dsimp only
  split
  · exact .error rfl
  · refine SameExpansion.of_ok ?_
    simp only [Statement.lowered, List.map_cons, toLower_toLower]

theorem expandConstant_map (operands : List String) :
    SameExpansion (expandConstant (operands.map String.toLower)) (expandConstant operands) := by
  match operands with
  | [] => exact .refl _
  | [rd] => exact .refl _
  | [rd, literal] => exact loadConstant_toLower rd literal
  | first :: second :: third :: rest => exact .error rfl

theorem shortForm?_lowered (s : Statement) :
    Option.Rel SameExpansion (shortForm? s.lowered) (shortForm? s) := by
  obtain ⟨name, operands⟩ := s
  match operands with
  | [] =>
    simp only [Statement.lowered, shortForm?, List.map_nil]
    split
    · exact .some (.refl _)
    · exact .none
  | [target] =>
    simp only [Statement.lowered, shortForm?, List.map_cons, List.map_nil]
    split
    · refine .some (.of_ok ?_)
      simp only [Statement.lowered, List.map_cons, toLower_toLower]
    split
    · refine .some (.of_ok ?_)
      simp only [Statement.lowered, List.map_cons, toLower_toLower]
    · exact .none
  | [rd, memory] =>
    simp only [Statement.lowered, shortForm?, List.map_cons, List.map_nil]
    split
    · refine .some ?_
      rw [SameExpansion, map_bind, map_bind]
      refine (splitMemory_toLower memory).bind_map ?_
      intro parts
      refine SameExpansion.of_ok ?_
      have offset : (if parts.1.toLower.isEmpty then "0" else parts.1.toLower).toLower =
          (if parts.1.isEmpty then "0" else parts.1).toLower := by
        rw [isEmpty_toLower]
        split
        · rfl
        · rw [toLower_toLower]
      simp only [Statement.lowered, List.map_cons, toLower_toLower, offset]
    · exact .none
  | first :: second :: third :: rest => exact .none

/-- A statement in small letters stands for the same instructions. -/
theorem expand_lowered (s : Statement) : SameExpansion (expand s.lowered) (expand s) := by
  have name : s.lowered.name = s.name := rfl
  have arity : s.lowered.operands.length = s.operands.length := List.length_map _
  unfold expand expand?
  rw [name]
  by_cases constant : s.name = "li"
  · rw [if_pos constant, if_pos constant]
    exact expandConstant_map s.operands
  · rw [if_neg constant, if_neg constant]
    have short := shortForm?_lowered s
    generalize shortForm? s.lowered = x at short ⊢
    generalize shortForm? s = y at short ⊢
    cases short with
    | some same => exact same
    | none =>
      dsimp only
      cases rules.find? (fun rule => decide (rule.name = s.name)) with
      | none =>
        refine .of_ok ?_
        rw [List.map_singleton, List.map_singleton, lowered_lowered]
      | some rule =>
        simp only [Option.map_some, Option.getD_some, arity]
        split
        · refine .of_ok ?_
          rw [List.map_singleton, List.map_singleton]
          exact congrArg (fun s => [s]) (lowered_apply rule s.operands)
        · exact .error rfl

end Pseudo

/-! ## Assembling -/

namespace Assembler

variable (opts : Options) (i : Instruction)

theorem readInteger_toLower (notZero notStack : Bool) (s : String) :
    Alike Fault.kind (readInteger opts notZero notStack s.toLower)
      (readInteger opts notZero notStack s) :=
  (Register.parseInteger_toLower opts.embedded s).bind fun _ => .refl _

theorem readStackPointer_toLower (s : String) :
    Alike Fault.kind (readStackPointer opts s.toLower) (readStackPointer opts s) :=
  (Register.parseInteger_toLower opts.embedded s).bind fun _ => .guard rfl (.refl _)

theorem readBase_toLower (s : String) (base : BaseRegister) :
    Alike Fault.kind (readBase opts s.toLower base) (readBase opts s base) := by
  cases base with
  | integer f => exact Register.parseInteger_toLower opts.embedded s
  | shortInteger f => exact Register.parseShortInteger_toLower opts.embedded s
  | stackPointer => exact (readStackPointer_toLower opts s).bind fun _ => .refl _

theorem readImmediate_toLower (t : Tracker) (upper : Bool) (s : String) :
    Alike Fault.kind (readImmediate i t upper s.toLower) (readImmediate i t upper s) :=
  (Number.parse_toLower s).bind fun _ => .refl _

theorem readOffset_toLower (s : String) :
    Alike Fault.kind (readOffset i s.toLower) (readOffset i s) := by
  rw [readOffset, readOffset, isEmpty_toLower]
  split
  · exact .refl _
  · exact (Number.parse_toLower s).bind fun _ => .refl _

theorem readPlain_toLower (token : String) (operand : Operand) :
    Alike Fault.kind (readPlain opts i token.toLower operand)
      (readPlain opts i token operand) := by
  cases operand with
  | integer f notZero notStack =>
    exact (readInteger_toLower opts notZero notStack _).map _
  | float f =>
    exact (Register.parse_toLower .float _).map _
  | vector f =>
    exact (Register.parse_toLower .vector _).map _
  | shortInteger f =>
    exact (Register.parseShortInteger_toLower opts.embedded _).map _
  | shortFloat f =>
    exact (Register.parseShortFloat_toLower _).map _
  | stackPointer =>
    exact (readStackPointer_toLower opts _).bind fun _ => .refl _
  | memory base =>
    refine (Pseudo.splitMemory_toLower _).bind_map ?_
    intro parts
    refine (readOffset_toLower i parts.1).bind ?_
    intro offset
    exact (readBase_toLower opts parts.2 base).bind fun _ => .refl _
  | address f =>
    refine (Pseudo.splitMemory_toLower _).bind_map ?_
    intro parts
    have none : (parts.1.toLower ≠ "" ∧ parts.1.toLower ≠ "0") =
        (parts.1 ≠ "" ∧ parts.1 ≠ "0") := by
      rw [ne_eq, ne_eq, toLower_eq_text (by simp), toLower_eq_text (by simp)]
    simp only [none]
    split
    · exact .error rfl
    · exact (Register.parseInteger_toLower opts.embedded parts.2).map _
  | csr f =>
    exact (Csr.parse_toLower _).map _
  | smallNumber f =>
    exact (Number.parseIn_toLower _ _).bind fun _ => .refl _
  | fenceSet f =>
    exact (FenceSet.parse_toLower _).map _
  | roundingMode f =>
    rw [readPlain, isEmpty_toLower, readPlain]
    split
    · exact .refl _
    · exact (RoundingMode.parse_toLower _).map _
  | vectorMask f =>
    rw [readPlain, isEmpty_toLower, lower_toLower, readPlain]
    split
    · exact .refl _
    split
    · exact .refl _
    · exact .error rfl
  | mergeMask =>
    rw [readPlain, lower_toLower, readPlain]
    split
    · exact .refl _
    · exact .error rfl
  | vtype => 
    rw [readPlain, Source.tokens_toLower]
    exact (VType.parse_map (Source.tokens token) i.immediate.range.bits).map _
  | immediate upper => exact .error rfl
  | unassigned => exact .error rfl

theorem readOperand_toLower (t : Tracker) (token : String) (operand : Operand) :
    Alike Fault.kind (readOperand opts i t token.toLower operand)
      (readOperand opts i t token operand) := by
  cases operand with
  | immediate upper =>
    exact (readImmediate_toLower i t upper _).bind fun _ => .refl _
  | _ => exact (readPlain_toLower opts i token _).bind fun _ => .refl _

theorem readOperands_map (t : Tracker) (operands : List Operand) (bound : List String) :
    Alike Fault.kind (readOperands opts i t operands (bound.map String.toLower))
      (readOperands opts i t operands bound) := by
  induction operands generalizing t bound with
  | nil => exact .refl _
  | cons operand operands ih =>
    cases bound with
    | nil => exact .refl _
    | cons token bound =>
      rw [List.map_cons, readOperands, readOperands]
      refine (readOperand_toLower opts i t token operand).bind ?_
      intro read
      exact (ih read.2 bound).bind fun _ => .refl _

theorem bind_map (operands : List Operand) (tokens : List String) :
    Assembler.bind i operands (tokens.map String.toLower) =
      List.map String.toLower <$> Assembler.bind i operands tokens := by
  simp only [Assembler.bind, List.length_map]
  split
  · split
    · rfl
    · rw [← List.map_drop, intercalate_comma_map]
      simp [List.map_take]
  · split
    · rfl
    · simp [toLower_empty]

theorem readValues_map (t : Tracker) (tokens : List String) :
    Alike Fault.kind (readValues opts i t (tokens.map String.toLower))
      (readValues opts i t tokens) := by
  rw [readValues, bind_map, readValues]
  refine (Alike.refl _).bind_map ?_
  intro bound
  exact readOperands_map opts i t i.operands bound

theorem readInstruction_lowered (t : Tracker) (s : Statement) :
    Alike Fault.kind (readInstruction opts t s.lowered) (readInstruction opts t s) := by
  refine (Alike.refl (resolve Table.default s.name)).bind ?_
  intro resolved
  refine (Alike.refl (opts.checkEnabled resolved.1)).bind ?_
  intro _
  refine (Alike.refl (t.requireInstruction resolved.1)).bind ?_
  intro t'
  exact (readValues_map opts resolved.1 t' s.operands).bind fun _ => .refl _

theorem readInstructions_lowered (t : Tracker) (ss : List Statement) :
    Alike Fault.kind (readInstructions opts t (ss.map Statement.lowered))
      (readInstructions opts t ss) := by
  induction ss generalizing t with
  | nil => exact .refl _
  | cons s ss ih =>
    refine (readInstruction_lowered opts t s).bind ?_
    intro read
    exact (ih read.2).bind fun _ => .refl _

/-- Expansions that are the same in small letters are read alike. -/
theorem readExpansion {x y : Except Fault (List Statement)} (same : Pseudo.SameExpansion x y)
    (t : Tracker) :
    Alike Fault.kind (x >>= readInstructions opts t) (y >>= readInstructions opts t) := by
  have lowered (x : Except Fault (List Statement)) :
      Alike Fault.kind ((List.map Statement.lowered <$> x) >>= readInstructions opts t)
        (x >>= readInstructions opts t) :=
    (Alike.refl _).bind_map fun ss => readInstructions_lowered opts t ss
  exact (lowered x).symm.trans ((same.bind fun _ => .refl _).trans (lowered y))

theorem statement?_toLower (text : String) :
    statement? text.toLower = (statement? text).map Statement.lowered := by
  rw [statement?, Source.tokens_toLower, statement?]
  cases Source.tokens text with
  | nil => rfl
  | cons name operands =>
    rw [List.map_cons]
    dsimp only
    rw [lower_toLower]
    rfl

/-- **A line in small letters is read alike.** -/
theorem readLine_toLower (t : Tracker) (text : String) :
    Alike Fault.kind (readLine opts t text.toLower) (readLine opts t text) := by
  rw [readLine, statement?_toLower, readLine]
  cases statement? text with
  | none => exact .refl _
  | some s => exact readExpansion opts (Pseudo.expand_lowered s) t

end Assembler

/-! ## Disassembling -/

namespace Disassembler

variable (opts : Options)

theorem parseWord_toLower (s : String) : Alike Fault.kind (parseWord s.toLower) (parseWord s) := by
  rw [parseWord, bareWord?_toLower, parseWord]
  cases bareWord? s with
  | some n => exact .refl _
  | none => exact (Number.parse_toLower s).bind fun v => .guard rfl (.refl _)

theorem readTokens_map (t : Tracker) (tokens : List String) :
    Alike Fault.kind (readTokens opts t (tokens.map String.toLower))
      (readTokens opts t tokens) := by
  induction tokens generalizing t with
  | nil => exact .refl _
  | cons token tokens ih =>
    refine (parseWord_toLower token).bind ?_
    intro w
    refine (Alike.refl (readWord opts t w)).bind ?_
    intro read
    exact (ih read.2).bind fun _ => .refl _

end Disassembler

/-! ## Both programs -/

/-- The line and the kind of an error, without its words. -/
def Error.summary (e : Error) : Int × FaultKind := (e.line, e.fault.kind)

theorem StopsAtFault.lowered {β : Type} {step : Tracker → String → Except Fault (β × Tracker)}
    {run : Tracker → List Source.Line → Except Error (List β × Tracker)}
    (stops : StopsAtFault step run)
    (alike : ∀ t text, Alike Fault.kind (step t text.toLower) (step t text)) (t : Tracker)
    (lines : List Source.Line) :
    Alike Error.summary (run t (lines.map Source.Line.lowered)) (run t lines) := by
  induction lines generalizing t with
  | nil => exact .refl _
  | cons line lines ih =>
    have first := alike t line.text
    generalize small : step t line.text.toLower = x at first
    generalize written : step t line.text = y at first
    cases first with
    | ok read =>
      rw [List.map_cons, stops.next _ small, stops.next _ written]
      exact (ih read.2).map _
    | error same =>
      rw [List.map_cons, stops.stop _ small, stops.stop _ written]
      exact .error (congrArg (Prod.mk _) same)

theorem assemble_toLower (s : String) (opts : Options) :
    Alike Error.summary (assemble s.toLower opts) (assemble s opts) := by
  rw [assemble, Source.lines_toLower, assemble]
  exact ((Assembler.stopsAtFault opts).lowered (Assembler.readLine_toLower opts) opts.tracker
    (Source.lines s)).bind fun _ => .refl _

theorem disassemble_toLower (s : String) (opts : Options) :
    Alike Error.summary (disassemble s.toLower opts) (disassemble s opts) := by
  have line (t : Tracker) (text : String) :
      Alike Fault.kind (Disassembler.readTokens opts t (Source.tokens text.toLower))
        (Disassembler.readTokens opts t (Source.tokens text)) := by
    rw [Source.tokens_toLower]
    exact Disassembler.readTokens_map opts t (Source.tokens text)
  rw [disassemble, Source.lines_toLower, disassemble]
  exact ((Disassembler.stopsAtFault opts).lowered line opts.tracker
    (Source.lines s)).bind fun _ => .refl _

/-- **Source text may be written in capital or small letters.**  Texts that differ in nothing else
give the same result, or fail at the same line with a fault of the same kind. -/
theorem letter_case_free {s t : String} (same : s.toLower = t.toLower) (opts : Options) :
    Alike Error.summary (assemble s opts) (assemble t opts) ∧
      Alike Error.summary (disassemble s opts) (disassemble t opts) :=
  ⟨.of_toLower (assemble · opts) (assemble_toLower · opts) same,
    .of_toLower (disassemble · opts) (disassemble_toLower · opts) same⟩

/-- The texts can be assembled.  As words they fail at the first line, each in its own words. -/
theorem letter_case_free_mixed :
    let s := "Amoadd.D.AQ A0, X11, (Sp)"
    let t := "AMOADD.d.aq a0, x11, (SP)"
    s.toLower = t.toLower ∧ (assemble s {}).toOption.map (·.xlen) = some 64 ∧
      disassemble s {} = .error ⟨1, .badNumber "Amoadd.D.AQ"⟩ ∧
      disassemble t {} = .error ⟨1, .badNumber "AMOADD.d.aq"⟩ ∧
      Alike Error.summary (assemble s {}) (assemble t {}) ∧
      Alike Error.summary (disassemble s {}) (disassemble t {}) := by
  intro s t
  have same : s.toLower = t.toLower := by cbv
  exact ⟨same, by decide +kernel, by cbv, by cbv, letter_case_free same {}⟩

end RvCodec

import RvCodec.Proofs.CheckedAccess
import RvCodec.Proofs.WrittenLines

/-!
# Assembling with checked accesses

Assembling, written with positions and pieces.  What keeps the positions in range
was found out elsewhere each time: a mnemonic has been split off before the
operands are, a rule is applied to as many operands as it has, an operand is bound
to every argument, and a memory reference has passed a test on its parentheses.

The last theorem of every section says that its part does not crash, and
`assemble_eq` says so of the whole.
-/

set_option autoImplicit false

namespace RvCodec

namespace Checked

/-! ## Memory references -/

/-- The parts of `offset(base)`. -/
def splitMemory (text : String) : Checked Fault (String × String) :=
  let cs := text.toList
  let opening := cs.idxOf '('
  if cs.count '(' ≠ 1 ∨ cs.count ')' ≠ 1 ∨ cs.getLast? ≠ some ')' then
    .error (.fault (.malformedMemory text))
  else do
    let base ← slice cs (opening + 1) (cs.length - 1)
    if base.isEmpty then throw (.fault (.missingBase text))
    let offset ← slice cs 0 opening
    return (String.ofList offset, String.ofList base)

/-- The opening parenthesis stands before the closing one at the end. -/
theorem idxOf_paren {cs : List Char} (opened : cs.count '(' = 1)
    (closed : cs.getLast? = some ')') : cs.idxOf '(' + 1 ≤ cs.length - 1 := by
  have inside : cs.idxOf '(' < cs.length :=
    List.idxOf_lt_length_of_mem (List.count_pos_iff.mp (by omega))
  have last : cs.idxOf '(' ≠ cs.length - 1 := by
    intro same
    have found : cs[cs.idxOf '(']? = some '(' := by
      rw [List.getElem?_eq_getElem inside, List.getElem_idxOf]
    rw [same, ← List.getLast?_eq_getElem?, closed] at found
    cases found
  omega

theorem splitMemory_eq (text : String) : splitMemory text = ofPlain (Pseudo.splitMemory text) := by
  have offset (cs : List Char) : cs.takeWhile (· ≠ '(') = cs.take (cs.idxOf '(') := by
    rw [List.takeWhile_eq_take_findIdx_not, List.idxOf]
    congr 2
    funext c
    by_cases paren : c = '(' <;> simp [paren]
  have base (cs : List Char) (n : Nat) :
      (cs.take (cs.length - 1)).drop n = (cs.drop n).dropLast := by
    rw [List.drop_take, List.dropLast_eq_take, List.length_drop, Nat.sub_right_comm]
  unfold splitMemory Pseudo.splitMemory
  dsimp only
  split
  · rfl
  · next form =>
    rw [not_or, not_or, not_not, not_not, not_not] at form
    obtain ⟨opened, -, closed⟩ := form
    have before := idxOf_paren opened closed
    have length : (text.toList.take (text.toList.idxOf '(')).length = text.toList.idxOf '(' :=
      List.length_take_of_le (by omega)
    rw [slice_eq before (Nat.sub_le _ _), slice_start (by omega), offset, base, length, ok_bind]
    split
    · rfl
    · rfl

/-! ## Pseudo-instructions -/

/-- The slot's text, given the written operands. -/
def fill (operands : List String) : Pseudo.Slot → Checked Fault String
  | .operand n => item operands n
  | .text s => .ok s

/-- The instruction that the operands make of the rule. -/
def applyRule (r : Pseudo.Rule) (operands : List String) : Checked Fault Statement := do
  let texts ← r.slots.mapM (fill operands)
  return ⟨r.target, texts⟩

/-- The position of the operand that a slot asks for. -/
def position? : Pseudo.Slot → Option Nat
  | .operand n => some n
  | .text _ => none

/-- The rules ask for operands that they have. -/
theorem rules_slots :
    ∀ rule ∈ Pseudo.rules, ∀ slot ∈ rule.slots, ∀ n ∈ position? slot, n < rule.arity := by
  decide

theorem fill_eq {operands : List String} {slot : Pseudo.Slot}
    (inside : ∀ n ∈ position? slot, n < operands.length) :
    fill operands slot = .ok (Pseudo.Rule.fill operands slot) := by
  cases slot with
  | text s => rfl
  | operand n =>
    have inside := inside n rfl
    refine item_eq ?_
    rw [Pseudo.Rule.fill, List.getD_eq_getElem _ _ inside, List.getElem?_eq_getElem inside]

theorem applyRule_eq {rule : Pseudo.Rule} (inRules : rule ∈ Pseudo.rules) {operands : List String}
    (enough : operands.length = rule.arity) :
    applyRule rule operands = .ok (rule.apply operands) := by
  have texts : rule.slots.mapM (fill operands) =
      .ok (rule.slots.map (Pseudo.Rule.fill operands)) := by
    rw [Outcome.mapM_eq_ok, List.forall₂_map_right_iff, List.forall₂_same]
    intro slot member
    refine fill_eq ?_
    intro n asked
    rw [enough]
    exact rules_slots rule inRules slot member n asked
  rw [applyRule, texts]
  rfl

/-- Expands `li`. -/
def expandConstant (operands : List String) : Checked Fault (List Statement) :=
  if operands.length ≠ 2 then .error (.fault (.operandCount "li" 2 operands.length))
  else do
    let rd ← item operands 0
    let literal ← item operands 1
    ofPlain (Pseudo.loadConstant rd literal)

theorem expandConstant_eq (operands : List String) :
    expandConstant operands = ofPlain (Pseudo.expandConstant operands) := by
  match operands with
  | [] => rfl
  | [_] => rfl
  | [_, _] => rfl
  | _ :: _ :: _ :: _ => rfl

/-- The short forms of full instructions, told apart by the number of operands. -/
def shortForm? (s : Statement) : Option (Checked Fault (List Statement)) :=
  let n := s.operands.length
  if s.name = "jal" ∧ n = 1 then some do
    let target ← item s.operands 0
    return [⟨"jal", ["x1", target]⟩]
  else if s.name = "jalr" ∧ n = 1 then some do
    let target ← item s.operands 0
    return [⟨"jalr", ["x1", target, "0"]⟩]
  else if s.name = "jalr" ∧ n = 2 then some do
    let memory ← item s.operands 1
    let (offset, base) ← splitMemory memory
    let rd ← item s.operands 0
    return [⟨"jalr", [rd, base, if offset.isEmpty then "0" else offset]⟩]
  else if s.name = "fence" ∧ n = 0 then some (.ok [⟨"fence", ["iorw", "iorw"]⟩])
  else none

theorem shortForm?_eq (s : Statement) : shortForm? s = (Pseudo.shortForm? s).map ofPlain := by
  obtain ⟨name, operands⟩ := s
  unfold shortForm? Pseudo.shortForm?
  match operands with
  | [] => by_cases fence : name = "fence" <;> simp [fence]
  | [target] =>
    by_cases jal : name = "jal"
    · subst jal
      rfl
    · by_cases jalr : name = "jalr"
      · subst jalr
        rfl
      · simp [jal, jalr]
  | [rd, memory] =>
    by_cases jalr : name = "jalr"
    · subst jalr
      dsimp only [List.length_cons, List.length_nil]
      rw [if_neg (by decide), if_neg (by decide), if_pos (by decide), if_pos rfl, Option.map_some,
        ofPlain_bind, ← splitMemory_eq]
      rfl
    · simp [jalr]
  | _ :: _ :: _ :: _ => simp

/-- The instruction that a rule makes of a statement, or the statement itself. -/
def expandRule (s : Statement) : Checked Fault (List Statement) :=
  match Pseudo.rules.find? (·.name = s.name) with
  | none => .ok [s]
  | some rule =>
    if s.operands.length = rule.arity then (fun s => [s]) <$> applyRule rule s.operands
    else .error (.fault (.operandCount s.name rule.arity s.operands.length))

/-- The instructions that a statement stands for. -/
def expand (s : Statement) : Checked Fault (List Statement) :=
  if s.name = "li" then expandConstant s.operands else (shortForm? s).getD (expandRule s)

theorem expand_eq (s : Statement) : expand s = ofPlain (Pseudo.expand s) := by
  unfold expand Pseudo.expand Pseudo.expand?
  split
  · exact expandConstant_eq s.operands
  · rw [shortForm?_eq]
    cases Pseudo.shortForm? s with
    | some expansion => rfl
    | none =>
      dsimp only [Option.map_none, Option.getD_none]
      unfold expandRule
      cases found : Pseudo.rules.find? (·.name = s.name) with
      | none => rfl
      | some rule =>
        dsimp only [Option.map_some, Option.getD_some]
        split
        · next enough =>
          rw [applyRule_eq (List.mem_of_find?_eq_some found) enough]
          rfl
        · rfl

end Checked

/-! ## What immediates count in -/

theorem Layout.align_ne_zero {l : Layout} (low : ∀ s ∈ l, s.pos < 63) : l.align ≠ 0 := by
  unfold align
  split
  · decide
  · next n found =>
    obtain ⟨s, member, rfl⟩ := List.mem_map.mp (List.min?_mem found)
    rw [if_pos (low s member), Nat.one_shiftLeft]
    positivity

theorem Instruction.immediate_pos (i : Instruction) : ∀ s ∈ i.immediate.layout, s.pos < 63 := by
  unfold Instruction.immediate
  split
  -- The layout of a shift amount depends on the instruction, but its position does not.
  case h_1 => simp
  all_goals repeat' split
  all_goals dsimp only [Immediate.ofLayout]
  all_goals decide

namespace Checked

variable {opts : Options}

/-- Refuses a number that cannot be kept. -/
def checkImmediate (f : Immediate) (v : Int) : Checked Fault Unit :=
  if !f.range.contains v then .error (.fault (.immediateOutOfRange v f.range))
  else do
    let rest ← remainder v f.layout.align
    if rest ≠ 0 then .error (.fault (.misalignedOffset v f.layout.align))
    else if f.nonZero && v == 0 then .error (.fault .zeroImmediate)
    else .ok ()

/-- **The modulus is never zero**, whatever the instruction. -/
theorem checkImmediate_eq (i : Instruction) (v : Int) :
    checkImmediate i.immediate v = ofPlain (i.immediate.check v) := by
  have modulus := Layout.align_ne_zero i.immediate_pos
  rw [checkImmediate, remainder, if_neg modulus, ok_bind, Immediate.check]
  repeat' split
  all_goals rfl

/-! ## Operands -/

/-- Reads the main immediate. -/
def readImmediate (i : Instruction) (t : Tracker) (upper : Bool) (token : String) :
    Checked Fault (Int × Tracker) := do
  let written ← ofPlain (Number.parse token)
  let v := if upper then Assembler.foldUpper written else written
  let t ← ofPlain (t.requireShift i v)
  checkImmediate i.immediate v
  return (v, t)

theorem readImmediate_eq (i : Instruction) (t : Tracker) (upper : Bool) (token : String) :
    readImmediate i t upper token = ofPlain (Assembler.readImmediate i t upper token) := by
  simp only [readImmediate, Assembler.readImmediate, ofPlain_bind, checkImmediate_eq]
  rfl

/-- Reads an offset, zero when nothing is written. -/
def readOffset (i : Instruction) (token : String) : Checked Fault Int := do
  let v ← ofPlain (if token.isEmpty then pure 0 else Number.parse token)
  checkImmediate i.immediate v
  return v

theorem readOffset_eq (i : Instruction) (token : String) :
    readOffset i token = ofPlain (Assembler.readOffset i token) := by
  simp only [readOffset, Assembler.readOffset, checkImmediate_eq]
  split
  · simp only [ofPlain_bind]
    rfl
  · simp only [ofPlain_bind]
    rfl

/-- The vector type that the tokens denote. -/
def parseVType (tokens : List String) (bits : Nat) : Checked Fault Word :=
  if tokens.length = 1 then do
    let text ← item tokens 0
    ofPlain (VType.parse [text] bits)
  else ofPlain (VType.parse tokens bits)

theorem parseVType_eq (tokens : List String) (bits : Nat) :
    parseVType tokens bits = ofPlain (VType.parse tokens bits) := by
  match tokens with
  | [] => rfl
  | [_] => rfl
  | _ :: _ :: _ => rfl

/-- Reads an operand that leaves the tracker alone. -/
def readPlain (opts : Options) (i : Instruction) (token : String) :
    Operand → Checked Fault Value
  | .memory base => do
    let (offset, register) ← splitMemory token
    let offset ← readOffset i offset
    let register ← ofPlain (Assembler.readBase opts register base)
    return .memory offset register
  | .address _ => do
    let (offset, register) ← splitMemory token
    if offset ≠ "" ∧ offset ≠ "0" then .error (.fault (.unexpectedOffset i.name token))
    else .field <$> ofPlain (Register.parseInteger opts.embedded register)
  | .vtype => .field <$> parseVType (Source.tokens token) i.immediate.range.bits
  | operand => ofPlain (Assembler.readPlain opts i token operand)

theorem readPlain_eq (i : Instruction) (token : String) (operand : Operand) :
    readPlain opts i token operand = ofPlain (Assembler.readPlain opts i token operand) := by
  cases operand with
  | memory base =>
    simp only [readPlain, Assembler.readPlain, splitMemory_eq, readOffset_eq, ofPlain_bind]
    rfl
  | address f =>
    rw [readPlain, Assembler.readPlain, splitMemory_eq, ofPlain_bind]
    refine bind_congr ?_
    rintro ⟨offset, register⟩
    dsimp only
    split
    · rfl
    · exact (ofPlain_map _ _).symm
  | vtype => rw [readPlain, Assembler.readPlain, parseVType_eq, ofPlain_map]
  | _ => rfl

/-- Reads an operand. -/
def readOperand (opts : Options) (i : Instruction) (t : Tracker) (token : String) :
    Operand → Checked Fault (Value × Tracker)
  | .immediate upper => do
    let (v, t) ← readImmediate i t upper token
    return (.number v, t)
  | operand => do
    let v ← readPlain opts i token operand
    return (v, t)

theorem readOperand_eq (i : Instruction) (t : Tracker) (token : String) (operand : Operand) :
    readOperand opts i t token operand =
      ofPlain (Assembler.readOperand opts i t token operand) := by
  cases operand with
  | immediate upper =>
    simp only [readOperand, Assembler.readOperand, readImmediate_eq, ofPlain_bind]
    rfl
  | _ =>
    simp only [readOperand, Assembler.readOperand, readPlain_eq, ofPlain_bind]
    rfl

/-! ## Operands and tokens -/

/-- The last operand, if there are operands. -/
def lastOperand? (operands : List Operand) : Checked Fault (Option Operand) :=
  if 0 < operands.length then some <$> item operands (operands.length - 1) else .ok none

theorem lastOperand?_eq (operands : List Operand) :
    lastOperand? operands = .ok operands.getLast? := by
  unfold lastOperand?
  cases last : operands.getLast? with
  | none =>
    rw [List.getLast?_eq_none_iff.mp last]
    rfl
  | some operand =>
    have nonempty : operands ≠ [] := by
      rintro rfl
      cases last
    rw [List.getLast?_eq_getElem?] at last
    rw [if_pos (List.length_pos_of_ne_nil nonempty), item_eq last]
    rfl

/-- The token of each operand. -/
def bind (i : Instruction) (operands : List Operand) (tokens : List String) :
    Checked Fault (List String) := do
  let n := operands.length
  let last ← lastOperand? operands
  if last = some .vtype then
    if tokens.length < n then .error (.fault (.operandCount i.name n tokens.length))
    else
      let first ← slice tokens 0 (n - 1)
      let rest ← slice tokens (n - 1) tokens.length
      return first ++ [",".intercalate rest]
  else
    let required := n - operands.countP (·.isOptional)
    if tokens.length < required ∨ n < tokens.length then
      .error (.fault (.operandCount i.name required tokens.length))
    else return tokens ++ List.replicate (n - tokens.length) ""

theorem bind_eq (i : Instruction) (operands : List Operand) (tokens : List String) :
    bind i operands tokens = ofPlain (Assembler.bind i operands tokens) := by
  unfold bind Assembler.bind
  rw [lastOperand?_eq, ok_bind]
  dsimp only
  split
  · split
    · rfl
    · next enough =>
      have inside : operands.length - 1 ≤ tokens.length := by omega
      rw [slice_start inside, slice_end inside]
      rfl
  · split
    · rfl
    · rfl

/-- Reads the operands in order, from a position on. -/
def readOperands (opts : Options) (i : Instruction) (bound : List String) :
    Nat → Tracker → List Operand → Checked Fault (List Value × Tracker)
  | _, t, [] => .ok ([], t)
  | n, t, operand :: operands => do
    let token ← item bound n
    let (v, t) ← readOperand opts i t token operand
    let (vs, t) ← readOperands opts i bound (n + 1) t operands
    return (v :: vs, t)

/-- There is a token for every operand. -/
theorem readOperands_eq (i : Instruction) {bound : List String} {n : Nat} (t : Tracker)
    {operands : List Operand} (length : bound.length = n + operands.length) :
    readOperands opts i bound n t operands =
      ofPlain (Assembler.readOperands opts i t operands (bound.drop n)) := by
  induction operands generalizing n t with
  | nil => rfl
  | cons operand operands ih =>
    rw [List.length_cons] at length
    have inside : n < bound.length := by omega
    rw [readOperands, item_eq (List.getElem?_eq_getElem inside), ok_bind,
      List.drop_eq_getElem_cons inside, Assembler.readOperands, readOperand_eq, ofPlain_bind]
    refine bind_congr ?_
    rintro ⟨v, t'⟩
    dsimp only
    rw [ih t' (by omega), ofPlain_bind]
    rfl

/-! ## Statements and lines -/

/-- Reads a statement that is an instruction. -/
def readInstruction (table : Table) (opts : Options) (t : Tracker) (s : Statement) :
    Checked Fault (Encoding × Tracker) := do
  let (i, order) ← ofPlain (Assembler.resolve table s.name)
  ofPlain (opts.checkEnabled i)
  let t ← ofPlain (t.requireInstruction i)
  let bound ← bind i i.operands s.operands
  let (values, t) ← readOperands opts i bound 0 t i.operands
  return (⟨i, order, values⟩, t)

theorem readInstruction_eq (t : Tracker) (s : Statement) :
    readInstruction Table.default opts t s = ofPlain (Assembler.readInstruction opts t s) := by
  have values (i : Instruction) (t : Tracker) :
      (bind i i.operands s.operands >>= fun bound => readOperands opts i bound 0 t i.operands) =
        ofPlain (Assembler.readValues opts i t s.operands) := by
    rw [bind_eq, Assembler.readValues, ofPlain_bind]
    cases binds : Assembler.bind i i.operands s.operands with
    | error fault => rfl
    | ok bound =>
      have length : bound.length = 0 + i.operands.length := by
        rw [Assembler.bind_length binds, Nat.zero_add]
      rw [ofPlain_ok, ok_bind, ok_bind, readOperands_eq i t length, List.drop_zero]
  simp only [readInstruction, Assembler.readInstruction, ofPlain_bind, ← values, bind_assoc]
  rfl

/-- The statement on a line. -/
def statement? (text : String) : Checked Fault (Option Statement) :=
  let fields := Source.tokens text
  if fields.length = 0 then .ok none
  else do
    let name ← item fields 0
    let operands ← slice fields 1 fields.length
    return some ⟨Text.lower name, operands⟩

theorem statement?_eq (text : String) : statement? text = .ok (Assembler.statement? text) := by
  unfold statement? Assembler.statement?
  cases Source.tokens text with
  | nil => rfl
  | cons name operands =>
    dsimp only
    rw [if_neg (by simp), slice_end (Nat.le_add_left _ _)]
    rfl

/-- Reads a line. -/
def readLine (table : Table) (opts : Options) (t : Tracker) (text : String) :
    Checked Fault (List Encoding × Tracker) := do
  match ← statement? text with
  | none => return ([], t)
  | some s =>
    let statements ← expand s
    run (readInstruction table opts) t statements

theorem readLine_eq (t : Tracker) (text : String) :
    readLine Table.default opts t text = ofPlain (Assembler.readLine opts t text) := by
  have instructions (t : Tracker) (ss : List Statement) :
      run (readInstruction Table.default opts) t ss =
        ofPlain (Assembler.readInstructions opts t ss) :=
    run_eq (fun _ => rfl) (fun _ _ _ => rfl) readInstruction_eq t ss
  unfold readLine Assembler.readLine
  rw [statement?_eq, ok_bind]
  cases Assembler.statement? text with
  | none => rfl
  | some s => simp only [expand_eq, instructions, ofPlain_bind]

/-- Assembles a text. -/
def assemble (source : String) (opts : Options) : Checked Error Assembly := do
  let table ← tableOf Catalogue.groups
  let (blocks, t) ← run (fun t line => atLine line.number (readLine table opts t line.text))
    opts.tracker (Source.lines source)
  return ⟨blocks, t.resolved, opts.mode⟩

/-- **Assembling does not crash.** -/
theorem assemble_eq (source : String) (opts : Options) :
    assemble source opts = ofPlain (RvCodec.assemble source opts) := by
  have lines (t : Tracker) (lines : List Source.Line) :
      run (fun t line => atLine line.number (readLine Table.default opts t line.text)) t lines =
        ofPlain (Assembler.readLines opts t lines) := by
    refine run_eq (fun _ => rfl) ?_ (fun t line => by rw [readLine_eq, atLine_ofPlain]) t lines
    intro t line rest
    rw [Assembler.readLines]
    cases Assembler.readLine opts t line.text with
    | error fault => rfl
    | ok r => rfl
  rw [assemble, tableOf_groups, ok_bind, lines, RvCodec.assemble, ofPlain_bind]
  rfl

end Checked

end RvCodec

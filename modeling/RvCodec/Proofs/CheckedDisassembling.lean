import RvCodec.Proofs.CheckedAssembling
import RvCodec.Proofs.Disassembling

/-!
# Disassembling with checked accesses

Disassembling, with names looked up by position and with a search that may come
back with nothing at all.  A search that finds no instruction reports why the
first instruction that the width rules out is refused.  There is such a reason,
because the test that rules an instruction out and the tracker that refuses it
agree (`Tracker.exists_refusal`).

`disassemble_eq` says that disassembling does not crash, and `never_crashes`
puts this together with what is known of assembling and of the texts that both
programs read.
-/

set_option autoImplicit false

namespace RvCodec

/-- An instruction that the configured width rules out is refused. -/
theorem Tracker.exists_refusal {t : Tracker} {i : Instruction}
    (excluded : t.allowsInstruction i = false) :
    ∃ fault, t.requireInstruction i = .error fault := by
  cases mode : t.mode with
  | none =>
    rw [allowsInstruction_auto mode] at excluded
    cases excluded
  | some x =>
    cases answer : t.requireInstruction i with
    | error fault => exact ⟨fault, rfl⟩
    | ok t' =>
      have holds := ((require_fixed mode i.requirement).mp answer).2
      rw [(allowsInstruction_fixed mode).mpr holds] at excluded
      cases excluded

namespace Checked

variable {opts : Options} {t : Tracker} {w : Word}

/-! ## Choosing the instruction -/

/-- The end of a search that found nothing. -/
def giveUp (s : Disassembler.Search) (t : Tracker) (w : Word) : Checked Fault Instruction :=
  match s.reserved with
  | some (i, why) => .error (.fault (.reservedEncoding w i.name why.text))
  | none =>
    match s.excluded with
    | some i =>
      match t.requireInstruction i with
      | .error fault => .error (.fault fault)
      | .ok _ => .error (.crash .nothingFound)
    | none => .error (.fault (.noInstruction w))

theorem giveUp_eq {s : Disassembler.Search}
    (excluded : ∀ i ∈ s.excluded, t.allowsInstruction i = false) :
    giveUp s t w = .error (.fault (s.fault t w)) := by
  unfold giveUp Disassembler.Search.fault
  cases s.reserved with
  | some found => rfl
  | none =>
    cases first : s.excluded with
    | none => rfl
    | some i =>
      obtain ⟨fault, refused⟩ := Tracker.exists_refusal (excluded i first)
      dsimp only
      rw [refused]

/-- The first of the candidates that can be read from the word. -/
def search (opts : Options) (t : Tracker) (w : Word) :
    Disassembler.Search → List Instruction → Checked Fault Instruction
  | s, [] => giveUp s t w
  | s, i :: rest =>
    if !i.covers w || !opts.enables i.ext then search opts t w s rest
    else if !t.allowsInstruction i then
      search opts t w { s with excluded := s.excluded.or (some i) } rest
    else
      match i.reserved? w with
      | some why => search opts t w { s with reserved := s.reserved.or (some (i, why)) } rest
      | none => .ok i

/-- **A search gives an instruction or a fault.**  What it has excluded so far, the width rules
out. -/
theorem search_eq {s : Disassembler.Search} {candidates : List Instruction}
    (excluded : ∀ i ∈ s.excluded, t.allowsInstruction i = false) :
    search opts t w s candidates = ofPlain (Disassembler.search opts t w s candidates) := by
  induction candidates generalizing s with
  | nil => exact giveUp_eq excluded
  | cons i rest ih =>
    rw [search, Disassembler.search]
    split
    · exact ih excluded
    · split
      · next ruled =>
        refine ih ?_
        intro j member
        cases first : s.excluded with
        | none =>
          rw [first] at member
          obtain rfl : i = j := Option.some.inj member
          simpa using ruled
        | some k =>
          rw [first] at member
          obtain rfl : k = j := Option.some.inj member
          exact excluded k first
      · cases i.reserved? w with
        | some why => exact ih excluded
        | none => rfl

/-- The instruction that a word encodes. -/
def choose (table : Table) (opts : Options) (t : Tracker) (w : Word) : Checked Fault Instruction :=
  match table.candidates (Key.ofWord w) with
  | [] => .error (.fault (.unknownOpcode w))
  | candidates => search opts t w {} candidates

theorem choose_eq (table : Table) (opts : Options) (t : Tracker) (w : Word) :
    choose table opts t w = ofPlain (Disassembler.choose table opts t w) := by
  unfold choose Disassembler.choose
  cases table.candidates (Key.ofWord w) with
  | nil => rfl
  | cons i rest =>
    refine search_eq ?_
    intro j none
    cases none

/-! ## Writing operands -/

/-- Writes the value of an operand. -/
def writeOperand (opts : Options) (i : Instruction) (w : Word) :
    Operand → Value → Checked Fault (Option String)
  | .roundingMode _, .field mode => do
    if mode = RoundingMode.dynamic then return none
    let name ← roundingName mode
    return if name = "" then none else some name
  | .vtype, .field v => some <$> vtypeText v opts.base
  | operand, v => ofPlain (Disassembler.writeOperand opts i w operand v)

theorem writeOperand_eq (i : Instruction) (operand : Operand) (v : Value) :
    writeOperand opts i w operand v = ofPlain (Disassembler.writeOperand opts i w operand v) := by
  have named : ∀ entry ∈ RoundingMode.table, entry.2 ≠ "" := by decide
  cases operand with
  | roundingMode f =>
    cases v with
    | field mode =>
      rw [writeOperand, Disassembler.writeOperand, roundingName_eq, ok_bind]
      split
      · rfl
      · unfold RoundingMode.name?
        cases found : RoundingMode.table.find? (·.1 = mode.toNat) with
        | none => rfl
        | some entry =>
          have name := named entry (List.mem_of_find?_eq_some found)
          rw [Option.map_some, Option.getD_some, if_neg name]
          rfl
    | _ => rfl
  | vtype =>
    cases v with
    | field v =>
      rw [writeOperand, vtypeText_eq]
      rfl
    | _ => rfl
  | _ => rfl

/-- Writes operands in order. -/
def writeOperands (opts : Options) (i : Instruction) (w : Word) :
    Tracker → List Operand → Checked Fault (List String × Tracker)
  | t, [] => .ok ([], t)
  | t, operand :: operands => do
    let t ← ofPlain (Disassembler.requireOperand i t operand (operand.take i w))
    let text ← writeOperand opts i w operand (operand.take i w)
    let (texts, t) ← writeOperands opts i w t operands
    return (text.toList ++ texts, t)

theorem writeOperands_eq (i : Instruction) (t : Tracker) (operands : List Operand) :
    writeOperands opts i w t operands =
      ofPlain (Disassembler.writeOperands opts i w t operands (operands.map (·.take i w))) := by
  induction operands generalizing t with
  | nil => rfl
  | cons operand operands ih =>
    rw [List.map_cons]
    simp only [writeOperands, Disassembler.writeOperands, writeOperand_eq, ih, ofPlain_bind]
    rfl

/-- Writes the encoding of an instruction. -/
def writeWord (opts : Options) (t : Tracker) (w : Word) (i : Instruction) :
    Checked Fault (String × Tracker) := do
  let mnemonic := (Encoding.ofWord i w).mnemonic
  let (texts, t) ← writeOperands opts i w t i.operands
  if texts.isEmpty then return (mnemonic, t)
  return (mnemonic ++ " " ++ ", ".intercalate texts, t)

theorem writeWord_eq (t : Tracker) (i : Instruction) :
    writeWord opts t w i = ofPlain (Disassembler.writeEncoding opts t w (.ofWord i w)) := by
  rw [writeWord, Disassembler.writeEncoding, writeOperands_eq, ofPlain_bind]
  refine bind_congr ?_
  rintro ⟨texts, t'⟩
  dsimp only
  split
  · rfl
  · rfl

/-! ## Words and lines -/

/-- Reads a word. -/
def readWord (table : Table) (opts : Options) (t : Tracker) (w : Word) :
    Checked Fault (Disassembler.Reading × Tracker) := do
  ofPlain (Disassembler.screen w)
  let i ← choose table opts t w
  let t ← ofPlain (t.requireInstruction i)
  let (text, t) ← writeWord opts t w i
  return (⟨w, i, text⟩, t)

theorem readWord_eq (t : Tracker) (w : Word) :
    readWord Table.default opts t w = ofPlain (Disassembler.readWord opts t w) := by
  simp only [readWord, Disassembler.readWord, choose_eq, writeWord_eq, ofPlain_bind]
  rfl

/-- Reads the word that a token denotes. -/
def readToken (table : Table) (opts : Options) (t : Tracker) (token : String) :
    Checked Fault (Disassembler.Reading × Tracker) := do
  let w ← ofPlain (Disassembler.parseWord token)
  readWord table opts t w

/-- Disassembles a text. -/
def disassemble (source : String) (opts : Options) : Checked Error Disassembly := do
  let table ← tableOf Catalogue.groups
  let (blocks, t) ← run
    (fun t line => atLine line.number (run (readToken table opts) t (Source.tokens line.text)))
    opts.tracker (Source.lines source)
  return ⟨blocks, t.resolved, opts.mode⟩

/-- **Disassembling does not crash.** -/
theorem disassemble_eq (source : String) (opts : Options) :
    disassemble source opts = ofPlain (RvCodec.disassemble source opts) := by
  have token (t : Tracker) (token : String) : readToken Table.default opts t token =
      ofPlain (Disassembler.parseWord token >>= Disassembler.readWord opts t) := by
    simp only [readToken, readWord_eq, ofPlain_bind]
  have tokens (t : Tracker) (tokens : List String) :
      run (readToken Table.default opts) t tokens =
        ofPlain (Disassembler.readTokens opts t tokens) := by
    refine run_eq (fun _ => rfl) ?_ token t tokens
    intro t token rest
    rw [Disassembler.readTokens, bind_assoc]
  have lines (t : Tracker) (lines : List Source.Line) :
      run (fun t line => atLine line.number
          (run (readToken Table.default opts) t (Source.tokens line.text))) t lines =
        ofPlain (Disassembler.readLines opts t lines) := by
    refine run_eq (fun _ => rfl) ?_ (fun t line => by rw [tokens, atLine_ofPlain]) t lines
    intro t line rest
    rw [Disassembler.readLines]
    cases Disassembler.readTokens opts t (Source.tokens line.text) with
    | error fault => rfl
    | ok r => rfl
  rw [disassemble, tableOf_groups, ok_bind, lines, RvCodec.disassemble, ofPlain_bind]
  rfl

end Checked

/-! ## Both programs -/

/-- **Neither program ever crashes.**  With every access checked, assembling and disassembling are
the same programs: on every text and with all options they end with a result or with an error.
Nor do the accesses crash that are made in reading and writing one text, number or name. -/
theorem never_crashes (source : String) (opts : Options) :
    Checked.assemble source opts = Checked.ofPlain (assemble source opts) ∧
      Checked.disassemble source opts = Checked.ofPlain (disassemble source opts) ∧
      Checked.LocalAccesses :=
  ⟨Checked.assemble_eq source opts, Checked.disassemble_eq source opts, Checked.localAccesses⟩

end RvCodec

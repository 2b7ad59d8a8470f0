import RvCodec.Proofs.DefaultTable
import RvCodec.Proofs.Disassembling
import RvCodec.Proofs.WrittenOperands

/-!
# Reading and writing lines

What the assembler reads from a statement is a legal encoding
(`Denotes.legal`), and a legal encoding is written as a line that denotes it
(`Legal.written`).  The line is the mnemonic followed by the tokens of the
operands; its tokens are found again, bound to the operands they were written
for, and read back one by one.
-/

set_option autoImplicit false

namespace RvCodec

open Text

/-! ## Binding tokens to operands -/

namespace Assembler

variable {i : Instruction} {operands : List Operand}

theorem bind_length {tokens bound : List String}
    (binds : bind i operands tokens = .ok bound) : bound.length = operands.length := by
  unfold bind at binds
  dsimp only at binds
  split at binds
  · next last =>
    split at binds
    · cases binds
    · next enough =>
      cases binds
      have nonempty : operands ≠ [] := by
        rintro rfl
        cases last
      have := List.length_pos_of_ne_nil nonempty
      simp
      omega
  · split at binds
    · cases binds
    · next fits =>
      cases binds
      simp
      omega

theorem arity_le_of_bind {tokens bound : List String}
    (binds : bind i i.operands tokens = .ok bound) : i.arity ≤ tokens.length := by
  unfold Instruction.arity
  unfold bind at binds
  dsimp only at binds
  split at binds
  · split at binds
    · cases binds
    · omega
  · split at binds
    · cases binds
    · omega

/-- Operands that take one token each have as many tokens. -/
theorem exists_of_takes {groups : List (List String)}
    (plain : ∀ o ∈ operands, o.isOptional = false ∧ o ≠ .vtype)
    (takes : List.Forall₂ Operand.Takes operands groups) :
    ∃ tokens : List String, groups = tokens.map ([·]) ∧ tokens.length = operands.length := by
  induction takes with
  | nil => exact ⟨[], rfl, rfl⟩
  | @cons o group operands groups head _ ih =>
    obtain ⟨tokens, rfl, length⟩ := ih fun o' member => plain o' (List.mem_cons_of_mem _ member)
    obtain ⟨required, notVtype⟩ := plain o List.mem_cons_self
    simp only [Operand.Takes, notVtype, ↓reduceIte, required, Bool.false_eq_true] at head
    obtain ⟨token, rfl⟩ := List.length_eq_one_iff.mp head
    exact ⟨token :: tokens, rfl, by simp [length]⟩

/-- Only the last operand may take another number of tokens than one. -/
theorem concat_of_takes {front : List Operand} {last : Operand} {groups : List (List String)}
    (plain : ∀ o ∈ front, o.isOptional = false ∧ o ≠ .vtype)
    (takes : List.Forall₂ Operand.Takes (front ++ [last]) groups) :
    ∃ (tokens : List String) (group : List String), groups = tokens.map ([·]) ++ [group] ∧
      tokens.length = front.length ∧ last.Takes group := by
  have before := List.forall₂_take front.length takes
  have after := List.forall₂_drop front.length takes
  rw [List.take_left] at before
  rw [List.drop_left] at after
  obtain ⟨tokens, front_eq, length⟩ := exists_of_takes plain before
  obtain ⟨group, _, head, nothing, last_eq⟩ := List.forall₂_cons_left_iff.mp after
  rw [List.forall₂_nil_left_iff.mp nothing] at last_eq
  refine ⟨tokens, group, ?_, length, head⟩
  rw [← front_eq, ← last_eq, List.take_append_drop]

theorem countP_isOptional {front : List Operand} (last : Operand)
    (plain : ∀ o ∈ front, o.isOptional = false ∧ o ≠ .vtype) :
    (front ++ [last]).countP (·.isOptional) = if last.isOptional then 1 else 0 := by
  have none : front.countP (·.isOptional) = 0 :=
    List.countP_eq_zero.mpr fun o member => by simp [(plain o member).1]
  rw [List.countP_append, none]
  simp [List.countP_singleton]

/-- **The tokens of all the operands are bound to the operands they belong to.** -/
theorem bind_flatten {groups : List (List String)}
    (trailing : ∀ o ∈ operands.dropLast, o.isOptional = false ∧ o ≠ .vtype)
    (takes : List.Forall₂ Operand.Takes operands groups) :
    bind i operands groups.flatten = .ok (groups.map Operand.rejoined) := by
  obtain rfl | ⟨front, last, rfl⟩ := List.eq_nil_or_concat' operands
  · cases takes
    rfl
  · rw [List.dropLast_concat] at trailing
    obtain ⟨tokens, group, rfl, length, lastTakes⟩ := concat_of_takes trailing takes
    have flat : (tokens.map ([·]) ++ [group]).flatten = tokens ++ group := by
      simp [List.flatten_append, ← List.flatMap_def]
    have slots : (tokens.map ([·]) ++ [group]).map Operand.rejoined =
        tokens ++ [Operand.rejoined group] := by
      simp [Operand.rejoined, Function.comp_def]
    unfold bind
    rw [flat, slots, countP_isOptional last trailing]
    simp only [List.getLast?_concat, Option.some.injEq, List.length_append, List.length_singleton,
      ← length]
    unfold Operand.Takes at lastTakes
    by_cases vector : last = .vtype
    · simp only [vector, ↓reduceIte] at lastTakes ⊢
      have nonempty := List.length_pos_of_ne_nil lastTakes
      rw [if_neg (by omega)]
      simp [Operand.rejoined]
    · simp only [vector, ↓reduceIte] at lastTakes ⊢
      cases optional : last.isOptional with
      | false =>
        simp only [optional, Bool.false_eq_true, ↓reduceIte] at lastTakes ⊢
        obtain ⟨token, rfl⟩ := List.length_eq_one_iff.mp lastTakes
        rw [if_neg (by simp)]
        simp [Operand.rejoined]
      | true =>
        simp only [optional, ↓reduceIte] at lastTakes ⊢
        rw [if_neg (by omega)]
        cases group with
        | nil => simp [Operand.rejoined]
        | cons token rest =>
          obtain rfl : rest = [] := List.length_eq_zero_iff.mp (by simpa using lastTakes)
          simp [Operand.rejoined]

/-! ## What is read is legal -/

/-- A mnemonic in any spelling names an instruction of the table and one of its orderings. -/
theorem resolve_eq_ok {name : String} {order : Word}
    (resolved : resolve Table.default name = .ok (i, order)) :
    i ∈ Table.default.instructions ∧ order ∈ i.orders := by
  unfold resolve at resolved
  split at resolved
  · next found =>
    cases resolved
    refine ⟨List.mem_of_find?_eq_some found, ?_⟩
    unfold Instruction.orders
    split <;> simp
  · dsimp only at resolved
    split at resolved
    · cases resolved
    · next ordered =>
      split at resolved
      · next found =>
        split at resolved
        · next atomic =>
          cases resolved
          refine ⟨List.mem_of_find?_eq_some found, ?_⟩
          rw [Instruction.orders, if_pos atomic]
          exact MemoryOrder.split_mem name
        · cases resolved
      · cases resolved

/-- Values that are read from bound tokens fit their operands. -/
theorem fits_of_readValues {opts : Options} (wf : i.WellFormed) {tokens bound : List String}
    {values : List Value} (binds : bind i i.operands tokens = .ok bound)
    (reads : List.Forall₂ (fun p v => readValue opts i p.2 p.1 = .ok v)
      (i.operands.zip bound) values) :
    List.Forall₂ (Operand.Fits opts i) i.operands values := by
  have firsts : (i.operands.zip bound).map Prod.fst = i.operands :=
    List.map_fst_zip (Nat.le_of_eq (bind_length binds).symm)
  rw [← firsts, List.forall₂_map_left_iff]
  exact Outcome.forall₂_imp_of_mem reads fun p inZip v read =>
    fits_of_readValue (wf.sized p.1 (List.of_mem_zip inZip).1) read

/-- **What a statement denotes is legal.** -/
theorem Denotes.legal {opts : Options} {s : Statement} {e : Encoding} (denotes : Denotes opts s e) :
    e.Legal opts := by
  obtain ⟨member, order⟩ := resolve_eq_ok denotes.resolved
  obtain ⟨bound, binds, reads⟩ := denotes.values
  have wf := Table.default_wellFormed member
  exact ⟨member, denotes.enabled, order, fits_of_readValues wf binds reads⟩

/-- Every encoding of a program is legal. -/
theorem SourceDenotes.legal {opts : Options} {source : String} {blocks : List (List Encoding)}
    (denote : SourceDenotes opts source blocks) {e : Encoding} (inProgram : e ∈ blocks.flatten) :
    e.Legal opts := by
  obtain ⟨block, inBlocks, inBlock⟩ := List.mem_flatten.mp inProgram
  obtain ⟨line, -, statements, -, denotes⟩ := Outcome.exists_of_mem_right denote inBlocks
  obtain ⟨s, -, meaning⟩ := Outcome.exists_of_mem_right denotes inBlock
  exact meaning.legal

end Assembler

/-! ## What is legal is written and read back -/

namespace Operand

/-- The tokens that the operands of an encoding are written in. -/
structure Spellings (opts : Options) (i : Instruction) (w : Word) (operands : List Operand)
    (values : List Value) (groups : List (List String)) : Prop where
  written : List.Forall₂ (fun p tokens =>
    Disassembler.writeOperand opts i w p.1 p.2 = .ok (joined tokens)) (operands.zip values) groups
  clean : ∀ tokens ∈ groups, ∀ token ∈ tokens, IsToken token
  takes : List.Forall₂ Operand.Takes operands groups
  read : List.Forall₂ (fun p v => Assembler.readValue opts i p.2 p.1 = .ok v)
    (operands.zip (groups.map rejoined)) values

theorem exists_spellings {opts : Options} {i : Instruction} {operands : List Operand}
    {values : List Value} (sized : ∀ o ∈ operands, o.Sized i)
    (fits : List.Forall₂ (Operand.Fits opts i) operands values) (w : Word) :
    ∃ groups, Spellings opts i w operands values groups := by
  induction fits with
  | nil => exact ⟨[], .nil, by simp, .nil, .nil⟩
  | @cons o v operands values head _ ih =>
    obtain ⟨groups, written, clean, takes, read⟩ :=
      ih fun o' member => sized o' (List.mem_cons_of_mem _ member)
    obtain ⟨tokens, spelling⟩ := head.spelling (sized o List.mem_cons_self) w
    exact ⟨tokens :: groups, .cons spelling.written written,
      List.forall_mem_cons.mpr ⟨spelling.clean, clean⟩, .cons spelling.takes takes,
      .cons spelling.read read⟩

end Operand

namespace Disassembler

/-- The tokens of a written line are the mnemonic and the tokens of its operands. -/
theorem tokens_lineText {mnemonic : String} (name : IsToken mnemonic) (texts : List String) :
    Source.tokens (lineText mnemonic texts) = mnemonic :: texts.flatMap Source.tokens := by
  unfold lineText
  split
  · next empty =>
    rw [List.isEmpty_iff.mp empty, Source.tokens_of_isToken name]
    rfl
  · rw [Source.tokens_append_blank, Source.tokens_of_isToken name,
      Source.separates_commaBlank.tokens_intercalate]
    rfl

theorem plain_lineText {mnemonic : String} (name : IsToken mnemonic) {texts : List String}
    (plain : ∀ text ∈ texts, Source.Plain text) : Source.Plain (lineText mnemonic texts) := by
  unfold lineText
  split
  · exact .of_isToken name
  · next nonempty =>
    exact (Source.Plain.of_isToken name).append
      (.intercalate (by simpa using nonempty) plain) (by simp)

section Joined

variable {groups : List (List String)} (clean : ∀ tokens ∈ groups, ∀ token ∈ tokens, IsToken token)
include clean

theorem tokens_joined :
    ((groups.map Operand.joined).flatMap Option.toList).flatMap Source.tokens = groups.flatten := by
  induction groups with
  | nil => rfl
  | cons tokens groups ih =>
    have rest := ih fun tokens' member => clean tokens' (List.mem_cons_of_mem _ member)
    have first : (Operand.joined tokens).toList.flatMap Source.tokens = tokens := by
      unfold Operand.joined
      split
      · next empty => simp [empty]
      · rw [Option.toList_some, List.flatMap_singleton,
          Source.separates_commaBlank.tokens_join (clean tokens List.mem_cons_self)]
    rw [List.map_cons, List.flatMap_cons, List.flatMap_append, first, rest, List.flatten_cons]

theorem plain_joined :
    ∀ text ∈ (groups.map Operand.joined).flatMap Option.toList, Source.Plain text := by
  intro text member
  obtain ⟨part, inParts, inPart⟩ := List.mem_flatMap.mp member
  obtain ⟨tokens, inGroups, rfl⟩ := List.mem_map.mp inParts
  unfold Operand.joined at inPart
  split at inPart
  · cases inPart
  · next nonempty =>
    obtain rfl : text = ", ".intercalate tokens := by simpa using inPart
    exact .intercalate nonempty fun token inside =>
      .of_isToken (clean tokens inGroups token inside)

end Joined

end Disassembler

namespace Encoding

open Assembler Disassembler

variable {opts : Options} {e : Encoding}

theorem Legal.mnemonic_mem (legal : e.Legal opts) : e.mnemonic ∈ e.instruction.mnemonics :=
  List.mem_map_of_mem legal.order

theorem Legal.isToken_mnemonic (legal : e.Legal opts) : IsToken e.mnemonic := by
  apply (Table.default_sound _ legal.member).isToken.append
  intro c member
  have endings : ∀ n < 4,
      (MemoryOrder.ending (BitVec.ofNat 32 n)).toList.all isTokenChar = true := by decide
  have small := endings e.order.toNat legal.order_lt
  rw [BitVec.ofNat_toNat, BitVec.setWidth_eq] at small
  exact List.all_eq_true.mp small c member

/-- **A legal encoding is written as a line that denotes it.** -/
theorem Legal.written (legal : e.Legal opts) (w : Word) :
    ∃ text, Writes opts w e text ∧ Source.Plain text ∧ LineDenotes opts text [e] ∧
      (Source.tokens text).head? = some e.mnemonic := by
  have wf := Table.default_wellFormed legal.member
  obtain ⟨groups, spellings⟩ := Operand.exists_spellings wf.sized legal.fits w
  have name := legal.isToken_mnemonic
  have tokens : Source.tokens (lineText e.mnemonic
      ((groups.map Operand.joined).flatMap Option.toList)) = e.mnemonic :: groups.flatten := by
    rw [tokens_lineText name, tokens_joined spellings.clean]
  have binds := bind_flatten (i := e.instruction)
    (Table.default_sound _ legal.member).trailing spellings.takes
  refine ⟨_, ⟨groups.map Operand.joined, ?_, rfl⟩,
    plain_lineText name (plain_joined spellings.clean),
    ⟨[⟨e.mnemonic, groups.flatten⟩], ?_, ?_⟩, ?_⟩
  · exact List.forall₂_map_right_iff.mpr spellings.written
  · have statement : statement? (lineText e.mnemonic
        ((groups.map Operand.joined).flatMap Option.toList)) =
        some ⟨e.mnemonic, groups.flatten⟩ := by
      unfold statement?
      simp only [tokens, name.lower]
    rw [statement, Option.elim_some]
    exact Pseudo.expand_mnemonic legal.member legal.mnemonic_mem (arity_le_of_bind binds)
  · exact .cons ⟨resolve_mnemonic legal.member legal.order, legal.enabled, _, binds,
      spellings.read⟩ .nil
  · rw [tokens]
    rfl

end Encoding

end RvCodec

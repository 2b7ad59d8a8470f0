import RvCodec.Proofs.Composition

/-!
# The order of the lines

Putting the lines of a text into another order changes neither whether the text
can be translated nor the width that is reported, although the width is found
out on the way from line to line.  The output is put into the same order: every
line has a block of output that it would also have on its own, and the output of
the text consists of the blocks of its lines.

`OrderFree` states the law, and `translation_orderFree` is the law for assembling
and for disassembling.
-/

set_option autoImplicit false

namespace RvCodec

section

variable {α β γ : Type} {mode : Xlen} {relates : String → List β → Prop} {encoding : β → Encoding}

/-- How a translation treats a text whose lines are put into another order. -/
structure OrderFree (translate : String → Except Error α) (output : α → List γ) (xlen : α → Nat)
    (mode : α → Mode) : Prop where
  succeeds : ∀ s t : String, (Text.splitAt '\n' s).Perm (Text.splitAt '\n' t) →
    ((∃ r, translate s = .ok r) ↔ ∃ r, translate t = .ok r)
  /-- Every line has its block of output, which is where the line is. -/
  blocks : ∀ (s t : String) (r r' : α), (Text.splitAt '\n' s).Perm (Text.splitAt '\n' t) →
    translate s = .ok r → translate t = .ok r' →
      (∃ block : String → List γ,
        (∀ line ∈ Text.splitAt '\n' s, ∃ r₀, translate line = .ok r₀ ∧ output r₀ = block line) ∧
        output r = (Text.splitAt '\n' s).flatMap block ∧
        output r' = (Text.splitAt '\n' t).flatMap block) ∧
      xlen r = xlen r' ∧ mode r = mode r'

/-! ## The blocks of the lines -/

/-- What a line is translated into on its own. -/
def blockOf (translate : String → Except Error α) (output : α → List γ) (line : String) : List γ :=
  (translate line).toOption.elim [] output

variable {translate : String → Except Error α} {xlen : α → Nat}

theorem blockOf_eq (output : α → List γ) {line : String} {r : α} (done : translate line = .ok r) :
    blockOf translate output line = output r := by
  rw [blockOf, done]
  rfl

namespace Composes

variable {output : α → List γ} {used : α → List Instruction}
  (composes : Composes mode translate output used xlen)
include composes

theorem output_intercalate {line : String} {lines : List String} {r : α}
    (done : translate ("\n".intercalate (line :: lines)) = .ok r) :
    (∀ l ∈ line :: lines, ∃ r₀, translate l = .ok r₀) ∧
      output r = (line :: lines).flatMap (blockOf translate output) := by
  induction lines generalizing line r with
  | nil =>
    rw [String.intercalate_singleton] at done
    refine ⟨?_, ?_⟩
    · intro l member
      obtain rfl := List.mem_singleton.mp member
      exact ⟨r, done⟩
    · rw [List.flatMap_singleton, blockOf_eq output done]
  | cons next lines ih =>
    rw [String.intercalate_cons_cons] at done
    obtain ⟨r₁, r₂, first, rest, joined, -⟩ := composes.split _ _ r done
    obtain ⟨each, blocks⟩ := ih rest
    refine ⟨?_, ?_⟩
    · intro l member
      rcases List.mem_cons.mp member with rfl | later
      · exact ⟨r₁, first⟩
      · exact each l later
    · rw [joined, blocks, ← blockOf_eq output first]
      exact List.flatMap_cons.symm

/-- The output of a text consists of the blocks of its lines. -/
theorem output_eq {source : String} {r : α} (done : translate source = .ok r) :
    (∀ line ∈ Text.splitAt '\n' source, ∃ r₀, translate line = .ok r₀) ∧
      output r = (Text.splitAt '\n' source).flatMap (blockOf translate output) := by
  have nonempty : Text.splitAt '\n' source ≠ [] := by
    rw [Text.splitAt, Text.splitChars_eq_pieces]
    intro empty
    exact Text.pieces_ne_nil _ _ (List.map_eq_nil_iff.mp empty)
  obtain ⟨line, lines, shape⟩ := List.exists_cons_of_ne_nil nonempty
  rw [shape]
  apply composes.output_intercalate
  rw [← shape, Text.intercalate_splitAt]
  exact done

end Composes

/-! ## Another order -/

/-- The blocks are put into the order of the lines, and the same widths suit. -/
theorem Translates.perm {s t : String} {bs : List (List β)} {x : Nat}
    (translates : Translates mode relates encoding s bs x)
    (perm : (Text.splitAt '\n' s).Perm (Text.splitAt '\n' t)) :
    ∃ bs', Translates mode relates encoding t bs' x := by
  obtain ⟨bs', lines, order⟩ :=
    List.perm_comp_forall₂ (Source.texts_perm perm).symm translates.lines
  have required : (requiredBy encoding bs).Perm (requiredBy encoding bs') :=
    (order.flatten.flatMap_right _).symm
  refine ⟨bs', lines, ?_⟩
  rw [← suits_congr fun r => required.mem_iff]
  exact translates.width

theorem Linewise.perm {blocks : α → List (List β)}
    (linewise : Linewise mode translate blocks xlen encoding relates) {s t : String} {r : α}
    (perm : (Text.splitAt '\n' s).Perm (Text.splitAt '\n' t)) (done : translate s = .ok r) :
    ∃ r', translate t = .ok r' ∧ xlen r' = xlen r := by
  obtain ⟨bs', translates⟩ := (linewise.sound done).perm perm
  obtain ⟨r', done', -, width⟩ := linewise.complete translates
  exact ⟨r', done', width⟩

/-- **A translation that goes line by line is free of the order of the lines.** -/
theorem Linewise.orderFree {blocks : α → List (List β)}
    (linewise : Linewise mode translate blocks xlen encoding relates) (item : β → γ)
    {modeOf : α → Mode} {m : Mode}
    (modes : ∀ {source : String} {r : α}, translate source = .ok r → modeOf r = m) :
    OrderFree translate (fun r => (blocks r).flatten.map item) xlen modeOf := by
  have composes := linewise.composes item
  refine ⟨?_, ?_⟩
  · intro s t perm
    constructor
    · rintro ⟨r, done⟩
      obtain ⟨r', done', -⟩ := linewise.perm perm done
      exact ⟨r', done'⟩
    · rintro ⟨r, done⟩
      obtain ⟨r', done', -⟩ := linewise.perm perm.symm done
      exact ⟨r', done'⟩
  · intro s t r r' perm done done'
    obtain ⟨each, output⟩ := composes.output_eq done
    refine ⟨⟨_, ?_, output, (composes.output_eq done').2⟩, ?_, ?_⟩
    · intro line member
      obtain ⟨r₀, alone⟩ := each line member
      exact ⟨r₀, alone, by rw [blockOf_eq _ alone]⟩
    · obtain ⟨r'', done'', width⟩ := linewise.perm perm done
      obtain rfl : r'' = r' := Except.ok.inj (done''.symm.trans done')
      exact width.symm
    · rw [modes done, modes done']

end

/-- **The order of the lines does not matter.**  A text whose lines are put into another order is
translated exactly when the text is, at the same width, and every line keeps its block of words, or
of the lines that words are disassembled into. -/
theorem translation_orderFree (opts : Options) :
    OrderFree (assemble · opts) Assembly.words Assembly.xlen Assembly.mode ∧
      OrderFree (disassemble · opts) Disassembly.lines Disassembly.xlen Disassembly.mode :=
  ⟨(assemble_linewise opts).orderFree Encoding.word fun done => (assemble_iff.mp done).2,
    (disassemble_linewise opts).orderFree Disassembler.Reading.text
      fun done => (disassemble_iff.mp done).2⟩

end RvCodec

import RvCodec.Proofs.Choice
import RvCodec.Proofs.WrittenLines

/-!
# Assembling and disassembling undo each other

Legal encodings are the common ground of both directions.  Every word that is
read falls apart into a legal encoding, whose text denotes it again; so
disassembled text assembles to the words it came from
(`assemble_disassembly`).  Every encoding that is assembled is legal, and the
instruction it was made for is chosen when its word is read; so assembled words
disassemble to the mnemonics they came from (`disassemble_assembly`).

The widths take care of themselves: both directions require the same of the
registers.
-/

set_option autoImplicit false

namespace RvCodec

open Assembler Disassembler

/-! ## Words that are read are legal encodings -/

namespace Disassembler

variable {opts : Options} {w : Word} {r : Reading}

/-- A word that is read falls apart into a legal encoding. -/
theorem Reads.legal (reads : Reads opts w r) : r.encoding.Legal opts ∧ r.encoding.word = w := by
  obtain ⟨rfl, screened, chosen, parts, written, -⟩ := reads
  have inTable := (Table.mem_candidates.mp (List.mem_of_find?_eq_some chosen)).1
  obtain ⟨decoded, enabled⟩ := qualifies_iff.mp (List.find?_some chosen)
  obtain ⟨covered, -, free⟩ := decodes_iff.mp decoded
  have wf := Table.default_wellFormed inTable
  refine ⟨⟨inTable, enabled, Encoding.ofWord_order_mem _ _, ?_⟩, wf.word_ofWord covered screened⟩
  simp only [Reading.encoding, Encoding.ofWord] at written ⊢
  rw [List.forall₂_map_right_iff, List.forall₂_same]
  intro o member
  have zipped : (o, o.take r.instruction r.word) ∈ r.instruction.operands.zip
      (r.instruction.operands.map (Operand.take r.instruction r.word)) := by
    rw [List.zip, List.zipWith_map_right, List.zipWith_self]
    exact List.mem_map.mpr ⟨o, member, rfl⟩
  obtain ⟨part, -, text⟩ := Outcome.exists_of_mem_left written zipped
  exact (wf.sized o member).fits_take (List.findSome?_eq_none_iff.mp free o member) text

/-- An encoding is written in one way. -/
theorem Writes.unique {e : Encoding} {text text' : String} (first : Writes opts w e text)
    (second : Writes opts w e text') : text = text' := by
  obtain ⟨parts, all, rfl⟩ := first
  obtain ⟨parts', all', rfl⟩ := second
  rw [Outcome.forall₂_unique all all']

/-- The text of a word that is read denotes the encoding that the word falls apart into. -/
theorem Reads.lineDenotes (reads : Reads opts w r) :
    Source.Plain r.text ∧ LineDenotes opts r.text [r.encoding] := by
  obtain ⟨text, writes, plain, denotes, -⟩ := reads.legal.1.written w
  rw [reads.written.unique writes]
  exact ⟨plain, denotes⟩

end Disassembler

/-! ## Disassembled text is assembled to its words -/

/-- The tokens of a text. -/
def Source.allTokens (source : String) : List String :=
  (Source.lines source).flatMap fun line => Source.tokens line.text

theorem Disassembly.tokens_read {source : String} {opts : Options} {d : Disassembly}
    (disassembled : disassemble source opts = .ok d) :
    List.Forall₂ (fun token r => ∃ w, parseWord token = .ok w ∧ Reads opts w r)
      (Source.allTokens source) d.readings := by
  have reads := (disassemble_eq_ok.mp disassembled).1
  rw [Source.allTokens, List.flatMap_def]
  refine List.rel_flatten ?_
  exact List.forall₂_map_left_iff.mpr reads

/-- **Disassembling is undone by assembling.**  Disassembled text can be assembled with the same
options, to the words that were read from the tokens of the source, and with the same width. -/
theorem assemble_disassembly {source : String} {opts : Options} {d : Disassembly}
    (disassembled : disassemble source opts = .ok d) :
    ∃ a, assemble d.output opts = .ok a ∧
      (Source.allTokens source).mapM parseWord = .ok a.words ∧ a.xlen = d.xlen ∧
      a.mode = d.mode := by
  have tokens := Disassembly.tokens_read disassembled
  obtain ⟨-, t, run, width, mode⟩ := disassemble_eq_ok.mp disassembled
  have each : ∀ r ∈ d.readings, Reads opts r.word r := by
    intro r member
    obtain ⟨token, -, w, -, reads⟩ := Outcome.exists_of_mem_right tokens member
    obtain rfl := reads.word
    exact reads
  have flat : (d.readings.map fun r => [r.encoding]).flatten = d.readings.map (·.encoding) := by
    rw [← List.flatMap_def, List.map_eq_flatMap]
  refine ⟨⟨d.readings.map fun r => [r.encoding], d.xlen, d.mode⟩, ?_, ?_, rfl, rfl⟩
  · refine assemble_eq_ok.mpr ⟨?_, t, ?_, width, mode⟩
    · have plain : ∀ l ∈ d.lines, Source.Plain l := by
        intro l member
        obtain ⟨r, inside, rfl⟩ := List.mem_map.mp member
        exact (each r inside).lineDenotes.1
      refine Source.forall₂_lines (LineDenotes opts) plain ?_
      rw [Disassembly.lines, List.forall₂_map_left_iff, List.forall₂_map_right_iff,
        List.forall₂_same]
      intro r member
      exact (each r member).lineDenotes.2
    · rw [Assembly.requirements, Assembly.encodings, flat, List.flatMap_map]
      exact run
  · rw [Outcome.mapM_eq_ok, Assembly.words, Assembly.encodings, flat, List.map_map,
      List.forall₂_map_right_iff]
    refine tokens.imp fun token r => ?_
    rintro ⟨w, parsed, reads⟩
    rw [parsed, Function.comp_apply, reads.legal.2]

set_option maxRecDepth 20000 in
/-- An offset, an ordering and a negative immediate come back, from two lines with a comment. -/
theorem assemble_disassembly_pair :
    ∃ a, assemble "ld x10, 8(x2)\namoswap.w.aq x10, x0, (x10)\nc.li x10, -1" {} = .ok a ∧
      (Source.allTokens "0x00813503, 0x0c05252f # two\n0x557d").mapM parseWord = .ok a.words ∧
      a.xlen = 64 ∧ a.mode = .auto := by
  have evaluated : (disassemble "0x00813503, 0x0c05252f # two\n0x557d" {}).toOption.map
      (fun d => (d.output, d.xlen, d.mode)) =
      some ("ld x10, 8(x2)\namoswap.w.aq x10, x0, (x10)\nc.li x10, -1", 64, .auto) := by
    cbv
  obtain ⟨d, disassembled, columns⟩ := Option.map_eq_some_iff.mp evaluated
  simp only [Prod.mk.injEq] at columns
  obtain ⟨output, xlen, mode⟩ := columns
  rw [← output, ← xlen, ← mode]
  exact assemble_disassembly (Outcome.eq_ok_of_toOption disassembled)

/-! ## Words of legal encodings are read -/

namespace Encoding

/-- The mnemonic that the encoding's word is read with: a `c.addi` of nothing to the zero register
is a `c.nop`. -/
def readMnemonic (e : Encoding) : String :=
  if e.instruction.name = "c.addi" ∧ e.values = [.field 0, .number 0] then "c.nop" else e.mnemonic

/-- Only one word is read with another mnemonic than its own. -/
theorem word_of_addi : ∀ i ∈ Table.default.instructions, i.name = "c.addi" →
    i.orders = [0] ∧ (⟨i, 0, [.field 0, .number 0]⟩ : Encoding).word = 1 := by
  decide +kernel

/-- What the shared word is read as, and what that requires. -/
theorem ofWord_shared : ∀ i ∈ Table.default.instructions,
    i.covers 1 = true → (i.reserved? 1).isNone = true →
      (ofWord i 1).readMnemonic = "c.nop" ∧
      (ofWord i 1).requirements.map (·.bounds) = [(32, none)] ∧
      (i.name = "c.nop" → (ofWord i 1).mnemonic = "c.nop") := by
  decide +kernel

variable {opts : Options} {e : Encoding}

theorem Legal.readMnemonic (legal : e.Legal opts) (other : e.word ≠ 1) :
    e.readMnemonic = e.mnemonic := by
  unfold Encoding.readMnemonic
  refine if_neg ?_
  rintro ⟨name, values⟩
  obtain ⟨orders, word⟩ := word_of_addi _ legal.member name
  have order : e.order = 0 := by simpa [orders] using legal.order
  refine other ?_
  obtain ⟨i, o, vs⟩ := e
  obtain rfl : o = 0 := order
  obtain rfl : vs = [.field 0, .number 0] := values
  exact word

/-- A legal encoding of the chosen instruction is what its word is read as. -/
theorem Legal.reads (legal : e.Legal opts)
    (chosen : (Table.default.candidates (Key.ofWord e.word)).find?
      (qualifies opts opts.tracker e.word) = some e.instruction) :
    ∃ r, Reads opts e.word r ∧ r.encoding = e ∧
      (Source.tokens r.text).head? = some e.mnemonic := by
  have wf := Table.default_wellFormed legal.member
  obtain ⟨text, writes, -, -, mnemonic⟩ := legal.written e.word
  have taken : Reading.encoding ⟨e.word, e.instruction, text⟩ = e := legal.ofWord_word wf
  refine ⟨⟨e.word, e.instruction, text⟩, ⟨rfl, legal.screen wf, chosen, ?_⟩, taken, mnemonic⟩
  rw [taken]
  exact writes

/-- The shared word falls apart into a legal `c.nop`. -/
theorem legal_nop {i : Instruction} (inTable : i ∈ Table.default.instructions)
    (name : i.name = "c.nop") (enabled : opts.enables i.ext = true) : (ofWord i 1).Legal opts := by
  obtain ⟨-, -, -, none⟩ := Table.default_nop i inTable name
  refine ⟨inTable, enabled, ofWord_order_mem i 1, ?_⟩
  simp only [ofWord, none, List.map_nil]
  exact .nil

/-- The readings of the encoding's word: its mnemonic, and the same requirements. -/
structure ReadsAs (opts : Options) (e : Encoding) (r : Reading) : Prop where
  reads : Reads opts e.word r
  mnemonic : (Source.tokens r.text).head? = some e.readMnemonic
  bounds : List.Forall₂ (fun q q' => q.bounds = q'.bounds) e.requirements r.encoding.requirements

/-- **The word of a legal encoding is read as the encoding**, unless a wider instruction takes its
place. -/
theorem Legal.readsAs_of_widest (legal : e.Legal opts)
    (allowed : opts.tracker.allowsInstruction e.instruction = true)
    (widest : opts.xlen = none → ∀ wider, ¬ Supersedes opts e.word wider e.instruction) :
    ∃ r, e.ReadsAs opts r := by
  have wf := Table.default_wellFormed legal.member
  have accepted : qualifies opts opts.tracker e.word e.instruction = true :=
    qualifies_iff.mpr ⟨decodes_iff.mpr ⟨legal.covers wf, allowed, legal.reserved wf⟩, legal.enabled⟩
  by_cases shared : e.word = 1
  · obtain ⟨-, nop, inTable, chosen⟩ := exists_choice legal.member accepted
    rw [shared] at chosen
    obtain ⟨decoded, enabled⟩ := qualifies_iff.mp (List.find?_some chosen)
    obtain ⟨covered, -, free⟩ := decodes_iff.mp decoded
    have name := choice_shared chosen
    have word : (ofWord nop 1).word = 1 :=
      (Table.default_wellFormed inTable).word_ofWord covered rfl
    obtain ⟨r, reads, same, mnemonic⟩ := (legal_nop inTable name enabled).reads (by rwa [word])
    -- Both the encoding and the `c.nop` are what the shared word falls apart into.
    have taken := legal.ofWord_word wf
    have covered' := legal.covers wf
    have free' := legal.reserved wf
    rw [shared] at taken covered' free'
    obtain ⟨-, bounds, own⟩ := ofWord_shared nop inTable covered (by rw [free]; rfl)
    obtain ⟨read, bounds', -⟩ := ofWord_shared _ legal.member covered' (by rw [free']; rfl)
    rw [taken] at read bounds'
    refine ⟨r, ?_, ?_, ?_⟩
    · rwa [shared, ← word]
    · rw [mnemonic, own name, read]
    · have equal := bounds'.trans bounds.symm
      rw [← List.forall₂_eq_eq_eq, List.forall₂_map_left_iff, List.forall₂_map_right_iff] at equal
      rwa [same]
  · have chosen := choice_eq (down_of_screen (legal.screen wf)) shared legal.member accepted widest
    obtain ⟨r, reads, same, mnemonic⟩ := legal.reads chosen
    refine ⟨r, reads, by rw [legal.readMnemonic shared, mnemonic], ?_⟩
    rw [same]
    exact List.forall₂_same.mpr fun _ _ => rfl

/-- Nothing takes the place of an encoding under a fixed width or without an upper bound. -/
theorem Legal.readsAs (legal : e.Legal opts)
    (allowed : opts.tracker.allowsInstruction e.instruction = true)
    (settled : opts.xlen ≠ none ∨ e.instruction.maxXlen = none) : ∃ r, e.ReadsAs opts r := by
  refine legal.readsAs_of_widest allowed ?_
  intro auto wider
  exact not_supersedes (settled.resolve_left fun fixed => fixed auto)

end Encoding

/-! ## Assembled words are read as what they were assembled from -/

namespace Disassembler

theorem bareWord?_wordText (w : Word) : bareWord? w.text = none := by
  unfold bareWord?
  refine if_neg ?_
  rintro ⟨-, digits⟩
  have mark : 'x' ∈ w.text.toList := by simp [Word.text]
  exact absurd (List.all_eq_true.mp digits 'x' mark) (by decide)

theorem parseWord_text (w : Word) : parseWord w.text = .ok w := by
  have bounded := w.isLt
  rw [parseWord, bareWord?_wordText, Number.parse_wordText]
  refine (Outcome.guard_eq_ok).mpr ⟨by omega, ?_⟩
  rw [Word.ofInt_toNat]
  rfl

theorem Reads.lineReads {opts : Options} {w : Word} {r : Reading} (reads : Reads opts w r) :
    LineReads opts w.text [r] := by
  unfold LineReads
  rw [Source.tokens_of_isToken (Number.isToken_wordText w)]
  exact .cons ⟨w, parseWord_text w, reads⟩ .nil

end Disassembler

/-- **Assembling is undone by disassembling.**  The words of assembled text can be disassembled with
the same options, each to a line with the mnemonic that it was assembled for, and with the same
width.  Without a fixed width this needs instructions without an upper bound. -/
theorem disassemble_assembly {source : String} {opts : Options} {a : Assembly}
    (assembled : assemble source opts = .ok a)
    (settled : opts.xlen ≠ none ∨ ∀ e ∈ a.encodings, e.instruction.maxXlen = none) :
    ∃ d, disassemble a.output opts = .ok d ∧ d.readings.map (·.word) = a.words ∧
      List.Forall₂ (fun e line => (Source.tokens line).head? = some e.readMnemonic)
        a.encodings d.lines ∧ d.xlen = a.xlen := by
  obtain ⟨denote, t, run, width, -⟩ := assemble_eq_ok.mp assembled
  have each : ∀ e ∈ a.encodings, ∃ r, e.ReadsAs opts r := by
    intro e member
    have required : e.instruction.requirement ∈ a.requirements :=
      List.mem_flatMap.mpr ⟨e, member, List.mem_cons_self⟩
    exact (denote.legal member).readsAs (Tracker.allowsInstruction_of_requireAll run required)
      (settled.imp_right fun unbounded => unbounded e member)
  obtain ⟨readings, all⟩ := Outcome.exists_forall₂ each
  have flat : (readings.map fun r => [r]).flatten = readings := by
    rw [← List.flatMap_def, List.flatMap_singleton']
  refine ⟨⟨readings.map fun r => [r], a.xlen, opts.mode⟩, ?_, ?_, ?_, rfl⟩
  · refine disassemble_eq_ok.mpr ⟨?_, t, ?_, width, rfl⟩
    · have plain : ∀ l ∈ a.words.map (·.text), Source.Plain l := by
        intro l member
        obtain ⟨w, -, rfl⟩ := List.mem_map.mp member
        exact .of_isToken (Number.isToken_wordText w)
      refine Source.forall₂_lines (LineReads opts) plain ?_
      rw [Assembly.words, List.map_map, List.forall₂_map_left_iff, List.forall₂_map_right_iff]
      exact all.imp fun _ _ as => as.reads.lineReads
    · refine (Tracker.requireAll_congr ?_).mp run
      rw [Disassembly.requirements, Disassembly.readings, flat, Assembly.requirements]
      exact List.rel_flatMap all fun _ _ as => as.bounds
  · rw [Disassembly.readings, flat, Assembly.words, ← List.forall₂_eq_eq_eq,
      List.forall₂_map_left_iff, List.forall₂_map_right_iff]
    exact all.flip.imp fun _ _ as => as.reads.word
  · rw [Disassembly.lines, Disassembly.readings, flat, List.forall₂_map_right_iff]
    exact all.imp fun _ _ as => as.mnemonic

/-- An ordering comes back, and `c.addi` comes back as `c.nop`. -/
theorem disassemble_assembly_pair :
    ∃ d, disassemble "0x0c05252f\n0x00000001" {} = .ok d ∧
      d.readings.map (·.word) = [0x0c05252f, 1] ∧
      List.Forall₂ (fun mnemonic line => (Source.tokens line).head? = some mnemonic)
        ["amoswap.w.aq", "c.nop"] d.lines ∧ d.xlen = 32 := by
  have evaluated : (assemble "amoswap.w.aq a0, x0, (a0)\nc.addi x0, 0" {}).toOption.map
      (fun a => (a.output, a.words, a.encodings.map (·.readMnemonic), a.xlen,
        a.encodings.all (·.instruction.maxXlen.isNone))) =
      some ("0x0c05252f\n0x00000001", [0x0c05252f, 1], ["amoswap.w.aq", "c.nop"], 32, true) := by
    decide +kernel
  obtain ⟨a, assembled, columns⟩ := Option.map_eq_some_iff.mp evaluated
  simp only [Prod.mk.injEq] at columns
  obtain ⟨output, words, mnemonics, xlen, unlimited⟩ := columns
  have unbounded : ∀ e ∈ a.encodings, e.instruction.maxXlen = none := by
    intro e member
    exact Option.isNone_iff_eq_none.mp (List.all_eq_true.mp unlimited e member)
  rw [← output, ← words, ← mnemonics, ← xlen]
  simp only [List.forall₂_map_left_iff]
  exact disassemble_assembly (Outcome.eq_ok_of_toOption assembled) (.inr unbounded)

end RvCodec

import RvCodec.Cli.Session
import RvCodec.Proofs.LineOrder
import RvCodec.Proofs.Spellings

/-!
# Sessions and whole texts

A session converts every line of its input on its own, with a tracker of its own,
and ends whatever comes out for a line with a line feed.  If the input can be
converted as a whole, the session writes the same: each line can be converted on
its own, and the output of the whole consists of what comes out for the lines
(`Composes.output_eq`).

Two differences between the two ways of reading lines do not show.  A session
takes a carriage return off the end of a line, where it is a blank or part of a
comment, and it has no line after the last line feed, where nothing is said.
-/

set_option autoImplicit false

namespace RvCodec

/-! ## Lines without their ends -/

theorem Text.trimBlank_append_blank {c : Char} (blank : isBlank c = true) (cs : List Char) :
    trimBlank (cs ++ [c]) = trimBlank cs := by
  unfold trimBlank
  rw [List.dropWhile_append]
  split
  · next empty =>
    rw [List.isEmpty_iff.mp empty, List.dropWhile_cons_of_pos blank, List.dropWhile_nil]
  · rw [List.reverse_append, List.reverse_singleton, List.singleton_append,
      List.dropWhile_cons_of_pos blank]

namespace Source

/-- Only two slashes are looked at together. -/
theorem dropComment_cons {c : Char} {cs : List Char}
    (other : ¬ (c = '/' ∧ cs.head? = some '/')) :
    dropComment (c :: cs) = if c = '#' ∨ c = ';' then [] else c :: dropComment cs := by
  rw [dropComment]
  rintro rest rfl rfl
  exact other ⟨rfl, rfl⟩

theorem dropComment_append_return (cs : List Char) :
    dropComment (cs ++ ['\r']) = dropComment cs ∨
      dropComment (cs ++ ['\r']) = dropComment cs ++ ['\r'] := by
  induction cs with
  | nil => exact .inr rfl
  | cons c cs ih =>
    by_cases comment : c = '/' ∧ cs.head? = some '/'
    · obtain ⟨rfl, next⟩ := comment
      obtain ⟨cs, rfl⟩ := List.head?_eq_some_iff.mp next
      exact .inl rfl
    · -- The return is no slash, so it does not make a comment of a slash in front of it.
      have comment' : ¬ (c = '/' ∧ (cs ++ ['\r']).head? = some '/') := by
        cases cs with
        | nil => simp
        | cons d cs => exact comment
      rw [List.cons_append, dropComment_cons comment, dropComment_cons comment']
      split
      · exact .inl rfl
      · obtain same | longer := ih
        · exact .inl (by rw [same])
        · exact .inr (by rw [longer, List.cons_append])

/-- A carriage return at the end of a line says nothing. -/
theorem lineContents_append_return (cs : List Char) :
    lineContents (cs ++ ['\r']) = lineContents cs := by
  unfold lineContents
  obtain same | longer := dropComment_append_return cs
  · rw [same]
  · rw [longer, Text.trimBlank_append_blank (by decide)]

theorem lines_of_clean {line : String} (clean : '\n' ∉ line.toList) :
    lines line = (line? line.toList 1).toList := by
  have whole : Text.splitChars '\n' line.toList = [line.toList] := by
    rw [Text.splitChars_eq_pieces]
    refine Text.pieces_eq_singleton ?_
    intro c member
    exact decide_eq_false fun newline => clean (newline ▸ member)
  rw [lines, whole]
  cases said : line? line.toList 1 with
  | none => simp [said]
  | some l => simp [said]

end Source

namespace Cli.Session

/-- A session reads a line as it stands in the text. -/
theorem lines_withoutReturn {line : String} (clean : '\n' ∉ line.toList) :
    Source.lines (withoutReturn line) = Source.lines line := by
  unfold withoutReturn
  dsimp only
  split
  · next last =>
    have shape := List.dropLast_append_getLast? '\r' last
    have clean' : '\n' ∉ (String.ofList line.toList.dropLast).toList := by
      rw [String.toList_ofList]
      exact fun member => clean (List.mem_of_mem_dropLast member)
    rw [Source.lines_of_clean clean, Source.lines_of_clean clean', Source.line?, Source.line?,
      String.toList_ofList, ← shape, Source.lineContents_append_return, shape]
  · rfl

end Cli.Session

/-! ## Conversions line by line -/

namespace Conversion

/-- The lines of the resulting text. -/
def items : Conversion → List String
  | assembly a => a.words.map (·.text)
  | disassembly d => d.lines

theorem output_eq (c : Conversion) : c.output = "\n".intercalate c.items := by
  cases c with
  | assembly a => rfl
  | disassembly d => rfl

end Conversion

/-- Only the lines that say something decide about a conversion. -/
theorem convert_congr {s t : String} (same : Source.lines s = Source.lines t) (d : Direction)
    (opts : Options) : convert d s opts = convert d t opts := by
  cases d with
  | assembling => rw [convert, convert, assemble, assemble, same]
  | disassembling => rw [convert, convert, disassemble, disassemble, same]

/-- What a line is converted into on its own. -/
def convertedItems (d : Direction) (opts : Options) : String → List String :=
  blockOf (convert d · opts) Conversion.items

theorem Composes.convert_lines {α : Type} {mode : Xlen} {translate : String → Except Error α}
    {output : α → List String} {used : α → List Instruction} {xlen : α → Nat}
    (composes : Composes mode translate output used xlen) {d : Direction} {opts : Options}
    {make : α → Conversion} (converts : ∀ source, convert d source opts = make <$> translate source)
    (made : ∀ a, (make a).items = output a) {source : String} {c : Conversion}
    (converted : convert d source opts = .ok c) :
    (∀ line ∈ Text.splitAt '\n' source, ∃ c₀, convert d line opts = .ok c₀) ∧
      c.items = (Text.splitAt '\n' source).flatMap (convertedItems d opts) := by
  rw [converts, Outcome.map_eq_ok] at converted
  obtain ⟨a, translated, rfl⟩ := converted
  obtain ⟨each, items⟩ := composes.output_eq translated
  constructor
  · intro line member
    obtain ⟨a₀, alone⟩ := each line member
    exact ⟨make a₀, by rw [converts, alone]; rfl⟩
  · rw [made, items]
    refine List.flatMap_congr ?_
    intro line member
    obtain ⟨a₀, alone⟩ := each line member
    have converted : convert d line opts = .ok (make a₀) := by rw [converts, alone]; rfl
    rw [convertedItems, blockOf_eq _ alone, blockOf_eq _ converted, made]

/-- **A text is converted line by line.** -/
theorem convert_lines {d : Direction} {source : String} {opts : Options} {c : Conversion}
    (converted : convert d source opts = .ok c) :
    (∀ line ∈ Text.splitAt '\n' source, ∃ c₀, convert d line opts = .ok c₀) ∧
      c.items = (Text.splitAt '\n' source).flatMap (convertedItems d opts) := by
  cases d with
  | assembling =>
    have composes := (assemble_linewise opts).composes fun e => e.word.text
    refine composes.convert_lines (fun _ => rfl) ?_ converted
    intro a
    exact List.map_map
  | disassembling =>
    have composes := (disassemble_linewise opts).composes Disassembler.Reading.text
    exact composes.convert_lines (fun _ => rfl) (fun _ => rfl) converted

/-- The text of a reading starts with a mnemonic. -/
theorem Disassembler.Reads.text_ne {opts : Options} {w : Word} {r : Reading}
    (reads : Reads opts w r) : r.text ≠ "" := by
  have inTable := (Table.mem_candidates.mp (List.mem_of_find?_eq_some reads.chosen)).1
  have named : r.instruction.name.toList ≠ [] := (Table.default_sound _ inTable).isToken.nonempty
  obtain ⟨parts, -, text⟩ := reads.written
  have start : r.encoding.mnemonic ≠ "" := by
    intro empty
    have chars := congrArg String.toList empty
    rw [Encoding.mnemonic, String.toList_append] at chars
    exact named (List.append_eq_nil_iff.mp chars).1
  rw [text]
  unfold lineText
  split
  · exact start
  · simp [start]

/-- No line of a resulting text is empty. -/
theorem convert_items_ne {d : Direction} {source : String} {opts : Options} {c : Conversion}
    (converted : convert d source opts = .ok c) : ∀ item ∈ c.items, item ≠ "" := by
  intro item member
  cases d with
  | assembling =>
    obtain ⟨a, -, rfl⟩ := Outcome.map_eq_ok.mp converted
    obtain ⟨w, -, rfl⟩ := List.mem_map.mp member
    intro empty
    exact (Number.isToken_wordText w).nonempty (by rw [empty]; rfl)
  | disassembling =>
    obtain ⟨d, disassembled, rfl⟩ := Outcome.map_eq_ok.mp converted
    obtain ⟨r, read, rfl⟩ := List.mem_map.mp member
    obtain ⟨block, inBlocks, inBlock⟩ := List.mem_flatten.mp read
    obtain ⟨line, -, lineReads⟩ :=
      Outcome.exists_of_mem_right (disassemble_iff.mp disassembled).1.lines inBlocks
    obtain ⟨token, -, w, -, reads⟩ := Outcome.exists_of_mem_right lineReads inBlock
    exact reads.text_ne

/-! ## Line feeds between lines and after lines -/

theorem Text.unlines_cons (line : String) (lines : List String) :
    unlines (line :: lines) = line ++ "\n" ++ unlines lines :=
  String.join_cons

theorem Text.unlines_append (xs ys : List String) :
    unlines (xs ++ ys) = unlines xs ++ unlines ys := by
  rw [unlines, List.map_append, String.join_append]
  rfl

theorem Text.intercalate_append_newline {line : String} {lines : List String} :
    "\n".intercalate (line :: lines) ++ "\n" = unlines (line :: lines) := by
  induction lines generalizing line with
  | nil =>
    rw [String.intercalate_singleton, unlines_cons]
    exact String.append_empty.symm
  | cons next lines ih =>
    rw [String.intercalate_cons_cons, String.append_assoc, ih, unlines_cons line]

/-- What is written of an output, nothing if it is empty. -/
theorem Conversion.unlines_items {c : Conversion} (full : ∀ item ∈ c.items, item ≠ "") :
    (if c.output.isEmpty then "" else c.output ++ "\n") = Text.unlines c.items := by
  rw [c.output_eq]
  cases shape : c.items with
  | nil => rfl
  | cons item items =>
    have start : item ≠ "" := full item (by rw [shape]; exact List.mem_cons_self)
    have some : "\n".intercalate (item :: items) ≠ "" := by
      cases items with
      | nil => rwa [String.intercalate_singleton]
      | cons next items => simp [String.intercalate_cons_cons]
    rw [if_neg (by simpa [String.isEmpty_iff] using some), Text.intercalate_append_newline]

/-! ## Sessions -/

namespace Cli.Session

variable {label : String} {d : Direction} {opts : Options}

/-- Several prompts in a row. -/
def prompts (n : Nat) : String := String.join (List.replicate n prompt)

theorem prompts_succ (n : Nat) : prompts (n + 1) = prompt ++ prompts n := by
  rw [prompts, List.replicate_succ, String.join_cons]
  rfl

/-- The reply to a line that can be converted. -/
theorem reply_eq {line : String} (clean : '\n' ∉ line.toList) {c : Conversion}
    (converted : convert d line opts = .ok c) :
    reply label d opts line = ⟨Text.unlines (convertedItems d opts line), ""⟩ := by
  have same : convert d (withoutReturn line) opts = .ok c :=
    (convert_congr (lines_withoutReturn clean) d opts).trans converted
  rw [reply, same, convertedItems, blockOf_eq _ converted,
    ← Conversion.unlines_items (convert_items_ne converted)]

/-- **A session over lines that can be converted** writes what they are converted into. -/
theorem overLines_eq {lines : List String} (clean : ∀ line ∈ lines, '\n' ∉ line.toList)
    (short : ∀ line ∈ lines, line.utf8ByteSize < bufferSize)
    (each : ∀ line ∈ lines, ∃ c, convert d line opts = .ok c) :
    overLines label d opts lines =
      ⟨Text.unlines (lines.flatMap (convertedItems d opts)),
        prompts (lines.length + 1) ++ "\n", none⟩ := by
  induction lines with
  | nil => rfl
  | cons line lines ih =>
    obtain ⟨c, converted⟩ := each line List.mem_cons_self
    have fits : ¬ bufferSize ≤ line.utf8ByteSize := Nat.not_le.mpr (short line List.mem_cons_self)
    have rest := ih (fun l member => clean l (List.mem_cons_of_mem _ member))
      (fun l member => short l (List.mem_cons_of_mem _ member))
      (fun l member => each l (List.mem_cons_of_mem _ member))
    rw [overLines, if_neg fits, reply_eq (clean line List.mem_cons_self) converted, rest,
      List.flatMap_cons, Text.unlines_append, List.length_cons, prompts_succ (lines.length + 1)]
    dsimp only
    rw [String.append_empty, String.append_assoc]

/-- The line after the last line feed, which a session does not have, is converted into nothing. -/
theorem flatMap_inputLines (input : String) :
    (inputLines input).flatMap (convertedItems d opts) =
      (Text.splitAt '\n' input).flatMap (convertedItems d opts) := by
  have nothing : convertedItems d opts "" = [] := by
    cases d with
    | assembling => rfl
    | disassembling => rfl
  unfold inputLines
  dsimp only
  split
  · next last =>
    conv_rhs => rw [← List.dropLast_append_getLast? _ last]
    rw [List.flatMap_append, List.flatMap_singleton, nothing, List.append_nil]
  · rfl

theorem mem_splitAt_of_mem_inputLines {input line : String} (member : line ∈ inputLines input) :
    line ∈ Text.splitAt '\n' input := by
  unfold inputLines at member
  dsimp only at member
  split at member
  · exact List.mem_of_mem_dropLast member
  · exact member

/-- **A session agrees with the conversion of the whole input.**  If no line is too long and the
input can be converted, the session writes the output and a line feed, or nothing if the output is
empty, reports no error, and comes to the end of the input. -/
theorem run_converted (label : String) {d : Direction} {opts : Options} {input : String}
    {c : Conversion}
    (short : ∀ line ∈ Text.splitAt '\n' input, line.utf8ByteSize < 65536)
    (converted : convert d input opts = .ok c) :
    run label d opts input =
      ⟨if c.output.isEmpty then "" else c.output ++ "\n",
        prompts ((inputLines input).length + 1) ++ "\n", none⟩ := by
  obtain ⟨each, items⟩ := convert_lines converted
  rw [Conversion.unlines_items (convert_items_ne converted), items, ← flatMap_inputLines]
  refine overLines_eq ?_ ?_ ?_
  · intro line member
    exact Text.newline_not_mem (mem_splitAt_of_mem_inputLines member)
  · intro line member
    exact short line (mem_splitAt_of_mem_inputLines member)
  · intro line member
    exact each line (mem_splitAt_of_mem_inputLines member)

set_option maxRecDepth 20000 in
/-- Carriage returns, comments, blank lines and several words a line make no difference. -/
theorem run_converted_texts :
    run "" .assembling {} "li a0, 5\r\n# done\r\n\nret" =
        ⟨"0x00500513\n0x00008067\n", "> > > > > \n", none⟩ ∧
      run "" .disassembling {} "1, 0x2085 # two\r\n\n1\n" =
        ⟨"c.nop\nc.addiw x1, 1\nc.nop\n", "> > > > \n", none⟩ := by
  have evaluated : ((convert .assembling "li a0, 5\r\n# done\r\n\nret" {}).toOption.map
        Conversion.output,
      (convert .disassembling "1, 0x2085 # two\r\n\n1\n" {}).toOption.map Conversion.output) =
      (some "0x00500513\n0x00008067", some "c.nop\nc.addiw x1, 1\nc.nop") := by cbv
  simp only [Prod.mk.injEq, Option.map_eq_some_iff] at evaluated
  obtain ⟨⟨a, assembled, words⟩, d, disassembled, lines⟩ := evaluated
  constructor
  · have agrees := run_converted "" (by decide) (Outcome.eq_ok_of_toOption assembled)
    rw [words] at agrees
    exact agrees.trans (by decide)
  · have agrees := run_converted "" (by decide) (Outcome.eq_ok_of_toOption disassembled)
    rw [lines] at agrees
    exact agrees.trans (by decide)

end Cli.Session

end RvCodec

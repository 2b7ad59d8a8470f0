import RvCodec.Proofs.Choice
import RvCodec.Proofs.SuitableWidths

/-!
# Translating line by line

Assembling and disassembling have the same shape.  Every line that says
something is translated on its own into a block of items, without a look at the
other lines, and a line's number matters to faults only.  The lines meet in one
place: the widths that the items of all the lines require have to be met
together.

`Translates` says this once for both directions, and `assemble_linewise` and
`disassemble_linewise` tie it to the two programs.  Laws about whole texts are
then laws about lists of lines and sets of widths, and neither the tracker nor
the operands take part in them.
-/

set_option autoImplicit false

namespace RvCodec

/-! ## The lines of a text -/

namespace Text

theorem splitChars_eq_splitOn (sep : Char) (cs : List Char) :
    splitChars sep cs = cs.splitOn sep := by
  induction cs with
  | nil => rfl
  | cons c cs ih =>
    have step : splitChars sep (c :: cs) =
        if c = sep then [] :: splitChars sep cs else consPiece c (splitChars sep cs) := rfl
    rw [step, ih, List.splitOn, List.splitOn, List.splitOnP_cons_eq_if_modifyHead]
    obtain ⟨piece, rest, shape⟩ :=
      List.exists_cons_of_ne_nil (List.splitOnP_ne_nil (· == sep) cs)
    simp [shape, consPiece]

/-- The lines of two texts, one after the other. -/
theorem splitAt_append (s t : String) :
    splitAt '\n' (s ++ "\n" ++ t) = splitAt '\n' s ++ splitAt '\n' t := by
  have shape : (s ++ "\n" ++ t).toList = s.toList ++ '\n' :: t.toList := by simp
  simp only [splitAt, splitChars_eq_splitOn, shape, List.splitOn]
  rw [List.splitOnP_append_cons _ _ (by decide), List.map_append]

/-- A text is its lines put together. -/
theorem intercalate_splitAt (s : String) : "\n".intercalate (splitAt '\n' s) = s := by
  have pieces : (splitAt '\n' s).map String.toList = s.toList.splitOn '\n' := by
    rw [splitAt, List.map_map, splitChars_eq_splitOn]
    exact (List.map_congr_left fun cs _ => String.toList_ofList).trans (List.map_id _)
  apply String.toList_inj.mp
  rw [String.toList_intercalate, pieces]
  exact List.intercalate_splitOn '\n'

/-- There is no line feed inside a line. -/
theorem newline_not_mem {s line : String} (member : line ∈ splitAt '\n' s) :
    '\n' ∉ line.toList := by
  have free : ∀ cs : List Char, ∀ piece ∈ cs.splitOn '\n', '\n' ∉ piece := by
    intro cs
    induction cs with
    | nil => simp
    | cons c cs ih =>
      intro piece inside
      rw [List.splitOn_cons_eq_if_modifyHead] at inside
      obtain ⟨first, rest, shape⟩ := List.exists_cons_of_ne_nil (List.splitOn_ne_nil '\n' cs)
      rw [shape] at ih inside
      split at inside
      · rcases List.mem_cons.mp inside with rfl | later
        · exact List.not_mem_nil
        · exact ih piece later
      · next other =>
        rcases List.mem_cons.mp inside with rfl | later
        · intro newline
          rcases List.mem_cons.mp newline with rfl | within
          · exact other rfl
          · exact ih first List.mem_cons_self within
        · exact ih piece (List.mem_cons_of_mem _ later)
  obtain ⟨piece, inside, rfl⟩ := List.mem_map.mp member
  rw [splitChars_eq_splitOn] at inside
  rw [String.toList_ofList]
  exact free _ piece inside

/-- Lines put together are split into the same lines. -/
theorem splitAt_intercalate {lines : List String} (some : lines ≠ [])
    (clean : ∀ line ∈ lines, '\n' ∉ line.toList) :
    splitAt '\n' ("\n".intercalate lines) = lines := by
  have pieces : (lines.map String.toList).map String.ofList = lines := by
    rw [List.map_map]
    exact (List.map_congr_left fun line _ => String.ofList_toList).trans (List.map_id _)
  rw [splitAt, splitChars_eq_splitOn, String.toList_intercalate]
  have free : ∀ piece ∈ lines.map String.toList, '\n' ∉ piece := by
    intro piece inside
    obtain ⟨line, member, rfl⟩ := List.mem_map.mp inside
    exact clean line member
  have split : (['\n'].intercalate (lines.map String.toList)).splitOn '\n' =
      lines.map String.toList :=
    List.splitOn_intercalate '\n' free (by simpa using some)
  exact (congrArg (List.map String.ofList) split).trans pieces

end Text

namespace Source

/-- What a line of a text says, if it says anything. -/
def says? (line : String) : Option String := (line? line.toList 0).map (·.text)

/-- What the lines of a text say. -/
def texts (source : String) : List String := (lines source).map (·.text)

theorem texts_eq (source : String) : texts source = (Text.splitAt '\n' source).filterMap says? := by
  have number (raw : List Char) (n : Nat) :
      (line? raw n).map (·.text) = says? (String.ofList raw) := by
    simp only [says?, line?, String.toList_ofList]
    split <;> rfl
  calc texts source
      = ((Text.splitChars '\n' source.toList).zipIdx 1).filterMap
          (fun entry => (line? entry.1 entry.2).map (·.text)) := List.map_filterMap
    _ = ((Text.splitChars '\n' source.toList).zipIdx 1).filterMap
          ((says? ∘ String.ofList) ∘ Prod.fst) := List.filterMap_congr fun entry _ => number _ _
    _ = (Text.splitAt '\n' source).filterMap says? := by
      rw [← List.filterMap_map, List.zipIdx_map_fst, Text.splitAt, List.filterMap_map]

theorem texts_append (s t : String) : texts (s ++ "\n" ++ t) = texts s ++ texts t := by
  rw [texts_eq, texts_eq, texts_eq, Text.splitAt_append, List.filterMap_append]

theorem texts_perm {s t : String} (perm : (Text.splitAt '\n' s).Perm (Text.splitAt '\n' t)) :
    (texts s).Perm (texts t) := by
  rw [texts_eq, texts_eq]
  exact perm.filterMap says?

end Source

/-! ## Blocks and widths -/

section

variable {α β : Type}

/-- What the items of blocks require, in order. -/
def requiredBy (encoding : β → Encoding) (blocks : List (List β)) : List Requirement :=
  blocks.flatten.flatMap fun item => (encoding item).requirements

/-- The text is translated into the blocks at the width: each line that says something is related
to its block, and the width is the least one that suits the items of all the blocks. -/
structure Translates (mode : Xlen) (relates : String → List β → Prop) (encoding : β → Encoding)
    (source : String) (blocks : List (List β)) (xlen : Nat) : Prop where
  lines : List.Forall₂ relates (Source.texts source) blocks
  width : IsLeast (Suits mode (requiredBy encoding blocks)) xlen

/-- A program that translates texts line by line. -/
structure Linewise (mode : Xlen) (translate : String → Except Error α)
    (blocks : α → List (List β)) (xlen : α → Nat) (encoding : β → Encoding)
    (relates : String → List β → Prop) : Prop where
  sound : ∀ {source : String} {result : α}, translate source = .ok result →
    Translates mode relates encoding source (blocks result) (xlen result)
  complete : ∀ {source : String} {bs : List (List β)} {x : Nat},
    Translates mode relates encoding source bs x →
      ∃ result, translate source = .ok result ∧ blocks result = bs ∧ xlen result = x

end

/-- Lines in order are lines without their numbers. -/
theorem Source.forall₂_texts {β : Type} {relates : String → β → Prop} {source : String}
    {blocks : List β} :
    List.Forall₂ relates (texts source) blocks ↔
      List.Forall₂ (fun line block => relates line.text block) (lines source) blocks := by
  rw [texts, List.forall₂_map_left_iff]

/-! ## The two programs -/

theorem assemble_iff {source : String} {opts : Options} {a : Assembly} :
    assemble source opts = .ok a ↔
      Translates opts.xlen (Assembler.LineDenotes opts) id source a.blocks a.xlen ∧
        a.mode = opts.mode := by
  rw [assemble_eq_ok]
  constructor
  · rintro ⟨denote, t, run, width, mode⟩
    exact ⟨⟨Source.forall₂_texts.mpr denote,
      (Tracker.requireAll_iff (Assembly.requirements_bounds denote)).mp ⟨t, run, width⟩⟩, mode⟩
  · rintro ⟨⟨lines, least⟩, mode⟩
    have denote : Assembler.SourceDenotes opts source a.blocks := Source.forall₂_texts.mp lines
    obtain ⟨t, run, width⟩ :=
      (Tracker.requireAll_iff (Assembly.requirements_bounds denote)).mpr least
    exact ⟨denote, t, run, width, mode⟩

theorem assemble_linewise (opts : Options) :
    Linewise opts.xlen (assemble · opts) Assembly.blocks Assembly.xlen id
      (Assembler.LineDenotes opts) where
  sound assembled := (assemble_iff.mp assembled).1
  complete {_} {bs} {x} translates :=
    ⟨⟨bs, x, opts.mode⟩, assemble_iff.mpr ⟨translates, rfl⟩, rfl, rfl⟩

theorem Disassembly.requirements_bounds {source : String} {opts : Options} {d : Disassembly}
    (reads : List.Forall₂ (fun line block => Disassembler.LineReads opts line.text block)
      (Source.lines source) d.blocks) : ∀ r ∈ d.requirements, 32 ≤ r.lo ∧ r.lo ≤ 128 := by
  intro r member
  obtain ⟨reading, inProgram, member⟩ := List.mem_flatMap.mp member
  obtain ⟨block, inBlocks, inBlock⟩ := List.mem_flatten.mp inProgram
  obtain ⟨line, -, lineReads⟩ := Outcome.exists_of_mem_right reads inBlocks
  obtain ⟨token, -, w, -, read⟩ := Outcome.exists_of_mem_right lineReads inBlock
  have inTable := (Table.mem_candidates.mp (List.mem_of_find?_eq_some read.chosen)).1
  exact Encoding.requirements_bounds (e := reading.encoding) inTable r member

theorem disassemble_iff {source : String} {opts : Options} {d : Disassembly} :
    disassemble source opts = .ok d ↔
      Translates opts.xlen (Disassembler.LineReads opts) Disassembler.Reading.encoding source
        d.blocks d.xlen ∧ d.mode = opts.mode := by
  rw [disassemble_eq_ok]
  constructor
  · rintro ⟨reads, t, run, width, mode⟩
    exact ⟨⟨Source.forall₂_texts.mpr reads,
      (Tracker.requireAll_iff (Disassembly.requirements_bounds reads)).mp ⟨t, run, width⟩⟩, mode⟩
  · rintro ⟨⟨lines, least⟩, mode⟩
    have reads := Source.forall₂_texts.mp lines
    obtain ⟨t, run, width⟩ :=
      (Tracker.requireAll_iff (Disassembly.requirements_bounds reads)).mpr least
    exact ⟨reads, t, run, width, mode⟩

theorem disassemble_linewise (opts : Options) :
    Linewise opts.xlen (disassemble · opts) Disassembly.blocks Disassembly.xlen
      Disassembler.Reading.encoding (Disassembler.LineReads opts) where
  sound disassembled := (disassemble_iff.mp disassembled).1
  complete {_} {bs} {x} translates :=
    ⟨⟨bs, x, opts.mode⟩, disassemble_iff.mpr ⟨translates, rfl⟩, rfl, rfl⟩

end RvCodec

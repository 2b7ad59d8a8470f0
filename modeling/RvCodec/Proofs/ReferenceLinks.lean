import RvCodec.Proofs.ReferenceRows
import RvCodec.Proofs.TextLines
import RvCodec.Reference

/-!
# Links of the reference

The opcode index links to the rows of the list of instructions.  The two are
made in different ways: the index goes through the keys of a table, while the
list goes through the catalogue.  For a table of any of the catalogue's
instructions the two texts still fit together (`reference_complete`).

What is said about the texts is said in the terms of someone who reads them.  A
row is a line that begins with an anchor, and its anchor ends at the next
quotation mark.  A link is a name in brackets, and behind it the name of a file
and a target in parentheses.  Closing brackets show where the links are, since
there are none in the rest of the index (`Carries`).
-/

set_option autoImplicit false

namespace RvCodec.Reference

open Text

/-! ## Characters of names and anchors -/

theorem mem_of_mem_intercalate {sep c : Char} {runs : List (List Char)}
    (member : c ∈ [sep].intercalate runs) : c = sep ∨ ∃ run ∈ runs, c ∈ run := by
  induction runs with
  | nil => simp at member
  | cons run runs ih =>
    cases runs with
    | nil => exact .inr ⟨run, List.mem_cons_self, by simpa using member⟩
    | cons next runs =>
      rw [List.intercalate_cons_cons, List.mem_append, List.mem_append] at member
      obtain (inside | inside) | later := member
      · exact .inr ⟨run, List.mem_cons_self, inside⟩
      · exact .inl (List.mem_singleton.mp inside)
      · refine (ih later).imp_right ?_
        rintro ⟨r, listed, inside⟩
        exact ⟨r, List.mem_cons_of_mem _ listed, inside⟩

/-- What stands in front of the first separator. -/
theorem takeWhile_append_cons {sep : Char} {front : List Char} (clean : sep ∉ front)
    (rest : List Char) : (front ++ sep :: rest).takeWhile (· ≠ sep) = front := by
  have all : ∀ c ∈ front, decide (c ≠ sep) = true := fun c member =>
    decide_eq_true fun same => clean (same ▸ member)
  rw [List.takeWhile_append_of_pos all, List.takeWhile_cons_of_neg (by simp), List.append_nil]

/-- Only hyphens and word characters are in the anchor. -/
theorem Dotted.not_mem_anchor {name : String} {runs : List (List Char)} (dotted : Dotted name runs)
    {c : Char} (noHyphen : c ≠ '-') (noWord : isWordChar c = false) :
    c ∉ (anchor name).toList := by
  rw [dotted.toList_anchor]
  intro member
  obtain rfl | ⟨run, listed, inside⟩ := mem_of_mem_intercalate member
  · exact noHyphen rfl
  · rw [(dotted.kept run listed c inside).1] at noWord
    cases noWord

/-- The name and the anchor have none of the characters that set them off in the texts. -/
structure Clean (name : String) : Prop where
  name_closing : ']' ∉ name.toList
  anchor_closing : ']' ∉ (anchor name).toList
  anchor_parenthesis : ')' ∉ (anchor name).toList
  anchor_quote : '"' ∉ (anchor name).toList
  anchor_line : OneLine (anchor name)

theorem clean_name {i : Instruction} (inTable : i ∈ Table.default.instructions) : Clean i.name := by
  obtain ⟨runs, dotted⟩ := exists_dotted inTable
  have token := (Table.default_sound i inTable).isToken
  exact {
    name_closing := fun member => absurd (token.chars _ member) (by decide)
    anchor_closing := dotted.not_mem_anchor (by decide) (by decide)
    anchor_parenthesis := dotted.not_mem_anchor (by decide) (by decide)
    anchor_quote := dotted.not_mem_anchor (by decide) (by decide)
    anchor_line := dotted.not_mem_anchor (by decide) (by decide) }

/-! ## Rows in the text -/

/-- What the row of an instruction begins with. -/
def rowMark : String := "| <a id=\""

/-- The line is the row of an instruction. -/
def isAnchored (line : String) : Bool := rowMark.toList.isPrefixOf line.toList

/-- The lines of a text that are rows of instructions. -/
def anchoredLines (text : String) : List String := (splitAt '\n' text).filter isAnchored

/-- The anchor of a row, up to the quotation mark behind it. -/
def anchorOf (line : String) : String :=
  String.ofList ((line.toList.drop rowMark.length).takeWhile (· ≠ '"'))

namespace InstructionRow

theorem exists_toList_text (r : InstructionRow) : ∃ after,
    r.text.toList = rowMark.toList ++ (r.target.toList ++ '"' :: after) := by
  obtain ⟨rest, shape⟩ : ∃ rest, r.text = rowMark ++ (r.target ++ ("\"></a>`" ++ rest)) := by
    unfold text rowMark
    simp only [String.append_assoc, String.append_right_inj]
    exact ⟨_, rfl⟩
  have quote : "\"></a>`".toList = '"' :: "></a>`".toList := by decide
  rw [shape, String.toList_append, String.toList_append, String.toList_append, quote,
    List.cons_append]
  exact ⟨_, rfl⟩

theorem isAnchored_text (r : InstructionRow) : isAnchored r.text = true := by
  obtain ⟨after, shape⟩ := r.exists_toList_text
  rw [isAnchored, shape, List.isPrefixOf_iff_prefix]
  exact List.prefix_append _ _

theorem anchorOf_text {r : InstructionRow} (clean : '"' ∉ r.target.toList) :
    anchorOf r.text = r.target := by
  obtain ⟨after, shape⟩ := r.exists_toList_text
  rw [anchorOf, shape, ← String.length_toList, List.drop_left, takeWhile_append_cons clean,
    String.ofList_toList]

theorem oneLine_text {i : Instruction} (inTable : i ∈ Table.default.instructions) :
    OneLine (ofInstruction i).text := by
  have token := (Table.default_sound i inTable).isToken
  have format : OneLine i.format.name := by cases i.format <;> decide
  have kinds : OneLine (" ".intercalate (i.operands.map (·.kindName))) := by
    refine .intercalate (by decide) (List.forall_mem_map.mpr fun o _ => ?_)
    cases o <;> simp only [Operand.kindName] <;> decide
  have bits (w : Word) : OneLine (bitText i w) := by
    unfold bitText
    split <;> exact OneLine.append (by decide) (.paddedNumeral (by decide) (by decide) _ _)
  have mark : OneLine "| <a id=\"" := by decide
  have anchored := (mark.append (clean_name inTable).anchor_line).append
    (show OneLine "\"></a>`" by decide)
  have named := (anchored.append (.of_isToken token)).append (show OneLine "` | `" by decide)
  have shown := (named.append (Instruction.oneLine_synopsis token)).append
    (show OneLine "` | " by decide)
  have formed := ((shown.append format).append (show OneLine " | " by decide)).append kinds
  exact (((formed.append (by decide)).append (bits i.mask)).append (by decide)).append
    (bits i.test) |>.append (by decide)

end InstructionRow

/-- The titles of the groups stand on a line. -/
theorem groups_oneLine : ∀ g ∈ Catalogue.groups,
    OneLine g.ext.letter.toString ∧ OneLine g.title := by
  decide +kernel

namespace InstructionSection

variable {s : InstructionSection}

/-- The heading of the section. -/
def heading (s : InstructionSection) : String :=
  "## RV" ++ numeral 10 s.xlen ++ s.group.ext.letter.toString ++ ": " ++ s.group.title

theorem isAnchored_heading : isAnchored s.heading = false := by
  have first : "## RV".toList = '#' :: "# RV".toList := by decide
  have bar : rowMark.toList = '|' :: " <a id=\"".toList := by decide
  rw [heading, String.append_assoc, String.append_assoc, String.append_assoc, isAnchored,
    String.toList_append, first, bar, List.cons_append, List.isPrefixOf]
  rfl

/-- The lines above the rows. -/
def above (s : InstructionSection) : List String :=
  ["", s.heading, "", "| Instruction | Synopsis | Format | Operands | Mask | Test |",
   "|---|---|---|---|---|---|"]

theorem lines_eq : s.lines = s.above ++ s.rows.map (·.text) := rfl

/-- What stands above the rows is no row. -/
theorem filter_lines : s.lines.filter isAnchored = s.rows.map (·.text) := by
  have rows : ∀ line ∈ s.rows.map (·.text), isAnchored line = true :=
    List.forall_mem_map.mpr fun row _ => row.isAnchored_text
  have above : s.above.filter isAnchored = [] := by
    have empty : isAnchored "" = false := by decide
    have head : isAnchored "| Instruction | Synopsis | Format | Operands | Mask | Test |" = false ∧
        isAnchored "|---|---|---|---|---|---|" = false := by decide
    simp only [above, List.filter_cons, isAnchored_heading, empty, head, Bool.false_eq_true,
      ↓reduceIte, List.filter_nil]
  rw [lines_eq, List.filter_append, above, List.nil_append, List.filter_eq_self.mpr rows]

theorem oneLine_lines (known : s.group ∈ Catalogue.groups) (rows : ∀ row ∈ s.rows, OneLine row.text) :
    ∀ line ∈ s.lines, OneLine line := by
  obtain ⟨letter, title⟩ := groups_oneLine s.group known
  have mark : OneLine "## RV" := by decide
  have width : OneLine (numeral 10 s.xlen) := .numeral (by decide) (by decide) _
  have heading : OneLine s.heading :=
    (((mark.append width).append letter).append (by decide)).append title
  have constant : ∀ line ∈ ["", "| Instruction | Synopsis | Format | Operands | Mask | Test |",
      "|---|---|---|---|---|---|"], OneLine line := by decide
  have above : ∀ line ∈ s.above, OneLine line := by
    simp only [List.forall_mem_cons] at constant
    obtain ⟨empty, columns, rule, none⟩ := constant
    simp only [InstructionSection.above, List.forall_mem_cons]
    exact ⟨empty, heading, empty, columns, rule, none⟩
  intro line member
  rw [lines_eq, List.mem_append] at member
  obtain inAbove | below := member
  · exact above line inAbove
  · obtain ⟨row, listed, rfl⟩ := List.mem_map.mp below
    exact rows row listed

end InstructionSection

section

variable {t : Table} (drawn : ∀ i ∈ t.instructions, i ∈ Table.default.instructions)

theorem mem_instructionRows {row : InstructionRow} (listed : row ∈ instructionRows t) :
    ∃ i ∈ t.instructions, row = .ofInstruction i := by
  rw [instructionRows_eq] at listed
  obtain ⟨i, shown, rfl⟩ := List.mem_map.mp listed
  obtain ⟨g, -, shown⟩ := List.mem_flatMap.mp shown
  obtain ⟨x, -, shown⟩ := List.mem_flatMap.mp shown
  obtain ⟨j, -, found⟩ := List.mem_filterMap.mp (List.mem_filter.mp shown).1
  exact ⟨i, List.mem_of_find?_eq_some found, rfl⟩

theorem mem_instructionSections {s : InstructionSection} (listed : s ∈ instructionSections t) :
    s.group ∈ Catalogue.groups := by
  obtain ⟨g, known, inGroup⟩ := List.mem_flatMap.mp (List.mem_filter.mp listed).1
  obtain ⟨x, -, rfl⟩ := List.mem_map.mp inGroup
  exact known

include drawn in
/-- **The anchored lines of the list are its rows.** -/
theorem anchoredLines_instructionIndex :
    anchoredLines (instructionIndex t) = (instructionRows t).map (·.text) := by
  have clean : ∀ line ∈ "# Instructions" :: (instructionSections t).flatMap (·.lines),
      OneLine line := by
    refine List.forall_mem_cons.mpr ⟨by decide, fun line member => ?_⟩
    obtain ⟨s, listed, inSection⟩ := List.mem_flatMap.mp member
    refine s.oneLine_lines (mem_instructionSections listed) (fun row inRows => ?_) line inSection
    obtain ⟨i, inTable, rfl⟩ := mem_instructionRows (List.mem_flatMap.mpr ⟨s, listed, inRows⟩)
    exact InstructionRow.oneLine_text (drawn i inTable)
  have title : isAnchored "# Instructions" = false := by decide
  have nothing : isAnchored "" = false := by decide
  rw [anchoredLines, instructionIndex, splitAt_unlines clean, List.filter_append,
    List.filter_cons_of_neg (by simp [title]), List.filter_flatMap, instructionRows,
    List.map_flatMap]
  simp [InstructionSection.filter_lines, nothing]

end

/-! ## Links in the text -/

/-- The text is put together from parts that have no closing bracket in them and from these links,
in this order. -/
inductive Carries : String → List Link → Prop
  | plain {s : String} (clean : ']' ∉ s.toList) : Carries s []
  | link (l : Link) : Carries l.text [l]
  | append {s s' : String} {ls ls' : List Link} (first : Carries s ls) (rest : Carries s' ls') :
    Carries (s ++ s') (ls ++ ls')

namespace Carries

theorem intercalate {sep : String} (clean : ']' ∉ sep.toList) (ls : List Link) :
    Carries (sep.intercalate (ls.map (·.text))) ls := by
  induction ls with
  | nil => exact .plain (by simp)
  | cons l ls ih =>
    cases ls with
    | nil => simpa using Carries.link l
    | cons next ls =>
      rw [List.map_cons, List.map_cons, String.intercalate_cons_cons, ← List.map_cons]
      exact ((Carries.link l).append (.plain clean)).append ih

/-- Lines without links may stand above the others. -/
theorem unlines {head lines : List String} {links : List (List Link)}
    (clean : ∀ line ∈ head, ']' ∉ line.toList) (all : List.Forall₂ Carries lines links) :
    Carries (Text.unlines (head ++ lines)) links.flatten := by
  have ending : Carries "\n" [] := .plain (by decide)
  induction head with
  | nil =>
    induction all with
    | nil => exact .plain (by decide)
    | @cons line ls lines links first rest ih =>
      rw [List.nil_append, unlines_cons, List.flatten_cons, ← List.append_nil ls]
      exact (first.append ending).append ih
  | cons line head ih =>
    obtain ⟨own, others⟩ := List.forall_mem_cons.mp clean
    rw [List.cons_append, unlines_cons]
    exact ((Carries.plain own).append ending).append (ih others)

variable {s : String} {links : List Link} (carries : Carries s links)
include carries

/-- **A closing bracket in the text is that of a link.** -/
theorem exists_of_closing (clean : ∀ l ∈ links, ']' ∉ l.name.toList ∧ ']' ∉ l.target.toList)
    {before after : List Char} (shape : s.toList = before ++ ']' :: after) :
    ∃ l ∈ links, "[".toList ++ l.name.toList <:+ before ∧
      "(instructions.md#".toList ++ l.target.toList ++ ")".toList <+: after := by
  induction carries generalizing before after with
  | plain none => exact absurd (shape ▸ by simp) none
  | link l =>
    obtain ⟨name, target⟩ := clean l List.mem_cons_self
    have closing : "](instructions.md#".toList = ']' :: "(instructions.md#".toList := by decide
    have text : l.text.toList = "[".toList ++ l.name.toList ++
        ']' :: ("(instructions.md#".toList ++ l.target.toList ++ ")".toList) := by
      simp only [Link.text, String.toList_append, closing, List.append_assoc, List.cons_append]
    have notBefore : ']' ∉ "[".toList ++ l.name.toList := by simp [name]
    have notAfter : ']' ∉ "(instructions.md#".toList ++ l.target.toList ++ ")".toList := by
      simp [target]
    rw [text] at shape
    obtain ⟨rfl, -, rfl⟩ := (List.append_cons_inj_of_notMem notBefore notAfter).mp shape
    exact ⟨l, List.mem_cons_self, List.suffix_rfl, List.prefix_rfl⟩
  | append first rest ih ih' =>
    obtain ⟨cleanFirst, cleanRest⟩ := List.forall_mem_append.mp clean
    rw [String.toList_append] at shape
    obtain ⟨middle, split, inRest⟩ | ⟨middle, inFirst, split⟩ := List.append_eq_append_iff.mp shape
    · obtain ⟨l, listed, ends, begins⟩ := ih' cleanRest inRest
      exact ⟨l, List.mem_append_right _ listed, split ▸ ends.trans (List.suffix_append _ _), begins⟩
    · cases middle with
      | nil =>
        have inRest : _ = [] ++ ']' :: after := split.symm
        obtain ⟨l, listed, ends, begins⟩ := ih' cleanRest inRest
        exact ⟨l, List.mem_append_right _ listed, ends.trans List.nil_suffix, begins⟩
      | cons c middle =>
        obtain ⟨rfl, rfl⟩ := List.cons.inj split
        obtain ⟨l, listed, ends, begins⟩ := ih cleanFirst inFirst
        exact ⟨l, List.mem_append_left _ listed, ends, begins.trans (List.prefix_append _ _)⟩

theorem exists_of_mem {l : Link} (listed : l ∈ links) :
    ∃ before after, s = before ++ l.text ++ after := by
  induction carries with
  | plain => cases listed
  | link => exact ⟨"", "", by simp [List.mem_singleton.mp listed]⟩
  | @append s s' _ _ first rest ih ih' =>
    obtain listed | listed := List.mem_append.mp listed
    · obtain ⟨before, after, rfl⟩ := ih listed
      exact ⟨before, after ++ s', by simp only [String.append_assoc]⟩
    · obtain ⟨before, after, rfl⟩ := ih' listed
      exact ⟨s ++ before, after, by simp only [String.append_assoc]⟩

end Carries

namespace OpcodeRow

/-- The titles of opcodes consist of word characters. -/
theorem closing_not_mem_title {k : Key} (long : k.isLong = true) :
    ']' ∉ (title k.name).toList := by
  have titles : ∀ n < 256, Key.isLong (BitVec.ofNat 8 n) = true →
      ']' ∉ titleChars true (Key.name (BitVec.ofNat 8 n)).toList := by
    decide +kernel
  have own := titles k.toNat k.isLt
  rw [BitVec.ofNat_toNat, BitVec.setWidth_eq] at own
  rw [title, String.toList_ofList]
  exact own long

theorem closing_not_mem_label (r : OpcodeRow) : ']' ∉ r.label.toList := by
  have name : ']' ∉ r.key.name.toList := r.key.not_mem_name (by decide) (by decide) (by decide)
  unfold label
  split
  · next long => simp [name, closing_not_mem_title long]
  · exact name

theorem carries (r : OpcodeRow) : Carries r.text r.links := by
  have bits : ']' ∉ r.key.bitText.toList := r.key.not_mem_bitText (by decide) (by decide)
  have head : ']' ∉ ("| `" ++ r.key.bitText ++ "` | " ++ r.label ++ " | ").toList := by
    simp [bits, r.closing_not_mem_label]
  have row := (Carries.plain head).append (.intercalate (show ']' ∉ ", ".toList by decide) r.links)
  have ended := row.append (.plain (show ']' ∉ " |".toList by decide))
  rwa [List.nil_append, List.append_nil] at ended

end OpcodeRow

theorem carries_opcodeIndex (t : Table) :
    Carries (opcodeIndex t) ((opcodeRows t).flatMap (·.links)) := by
  have rows : List.Forall₂ Carries ((opcodeRows t).map (·.text)) ((opcodeRows t).map (·.links)) :=
    List.forall₂_map_left_iff.mpr (List.forall₂_map_right_iff.mpr
      (List.forall₂_same.mpr fun r _ => r.carries))
  rw [opcodeIndex, List.flatMap_def]
  exact .unlines (by decide) rows

/-- The index links to each instruction of the table once. -/
theorem links_perm (t : Table) :
    ((opcodeRows t).flatMap (·.links)).Perm (t.instructions.map Link.ofInstruction) := by
  rw [opcodeRows, List.flatMap_map, ← List.map_flatMap]
  exact t.flatMap_keys_perm.map _

/-! ## The reference -/

/-- Behind `before`, the text closes the name of a link and gives a target in the file that has the
list of instructions. -/
def LinksTo (text before target : String) : Prop :=
  ')' ∉ target.toList ∧ ∃ after,
    text = before ++ "](" ++ Document.instructions.fileName ++ "#" ++ target ++ ")" ++ after

/-- The closing bracket of a link, and the closing parenthesis behind its target. -/
theorem LinksTo.exists_toList {text before target : String} (linked : LinksTo text before target) :
    ∃ after, text.toList = before.toList ++ ']' ::
      ("(instructions.md#".toList ++ (target.toList ++ ')' :: after)) := by
  obtain ⟨-, after, shape⟩ := linked
  have file : Document.instructions.fileName = "instructions.md" := by decide
  have opening : "(instructions.md#".toList =
      "(".toList ++ ("instructions.md".toList ++ "#".toList) := by decide
  have closing : "](".toList = ']' :: "(".toList := by decide
  have ending : ")".toList = [')'] := by decide
  refine ⟨after.toList, ?_⟩
  rw [shape, file]
  simp only [String.toList_append, opening, closing, ending, List.append_assoc, List.cons_append,
    List.nil_append]

section

variable {t : Table} (distinct : (t.instructions.map (·.name)).Nodup)
  (drawn : ∀ i ∈ t.instructions, i ∈ Table.default.instructions)

include drawn in
/-- The anchors in the text are those of the rows. -/
theorem anchors_eq : (anchoredLines (instructionIndex t)).map anchorOf =
    (instructionRows t).map (·.target) := by
  rw [anchoredLines_instructionIndex drawn, List.map_map]
  refine List.map_congr_left fun row listed => ?_
  obtain ⟨i, inTable, rfl⟩ := mem_instructionRows listed
  exact InstructionRow.anchorOf_text (clean_name (drawn i inTable)).anchor_quote

include distinct drawn in
/-- One line has the anchor of an instruction, which is its row. -/
theorem filter_anchorOf_eq {i : Instruction} (inTable : i ∈ t.instructions) :
    (anchoredLines (instructionIndex t)).filter (anchorOf · = anchor i.name) =
      [(InstructionRow.ofInstruction i).text] := by
  have listed : InstructionRow.ofInstruction i ∈ instructionRows t :=
    (rows_perm distinct drawn).mem_iff.mpr (List.mem_map_of_mem inTable)
  have anchors : ∀ row ∈ instructionRows t, anchorOf row.text = row.target := by
    intro row listed
    obtain ⟨j, inTable, rfl⟩ := mem_instructionRows listed
    exact InstructionRow.anchorOf_text (clean_name (drawn j inTable)).anchor_quote
  have same : (instructionRows t).filter (fun row => anchorOf row.text = anchor i.name) =
      (instructionRows t).filter (·.target = (InstructionRow.ofInstruction i).target) :=
    List.filter_congr fun row listed => by rw [anchors row listed]; rfl
  rw [anchoredLines_instructionIndex drawn, List.filter_map, Function.comp_def, same,
    filter_target_eq (targets_nodup distinct drawn) listed]
  rfl

include drawn in
/-- **Every link of the index is that of an instruction.** -/
theorem exists_of_linksTo {before target : String}
    (linked : LinksTo (opcodeIndex t) before target) :
    ∃ i ∈ t.instructions, target = anchor i.name ∧ ∃ front, before = front ++ "[" ++ i.name := by
  obtain ⟨after, chars⟩ := linked.exists_toList
  have links {l : Link} (listed : l ∈ (opcodeRows t).flatMap (·.links)) :
      ∃ i ∈ t.instructions, l = .ofInstruction i := by
    obtain ⟨i, inTable, rfl⟩ := List.mem_map.mp ((links_perm t).mem_iff.mp listed)
    exact ⟨i, inTable, rfl⟩
  obtain ⟨l, listed, ends, begins⟩ := (carries_opcodeIndex t).exists_of_closing
    (fun l listed => by
      obtain ⟨i, inTable, rfl⟩ := links listed
      have clean := clean_name (drawn i inTable)
      exact ⟨clean.name_closing, clean.anchor_closing⟩) chars
  obtain ⟨i, inTable, rfl⟩ := links listed
  refine ⟨i, inTable, ?_, ?_⟩
  · obtain ⟨rest, begins⟩ := begins
    have ending : ")".toList = [')'] := by decide
    rw [ending, List.append_assoc, List.append_assoc, List.append_cancel_left_eq,
      List.singleton_append] at begins
    have own := takeWhile_append_cons (clean_name (drawn i inTable)).anchor_parenthesis rest
    have found := takeWhile_append_cons linked.1 after
    exact String.toList_inj.mp (found.symm.trans (begins ▸ own))
  · obtain ⟨front, ends⟩ := ends
    refine ⟨String.ofList front, String.toList_inj.mp ?_⟩
    rw [← ends]
    simp [Link.ofInstruction]

include drawn in
/-- **Every instruction is linked.** -/
theorem exists_linksTo {i : Instruction} (inTable : i ∈ t.instructions) :
    ∃ front, LinksTo (opcodeIndex t) (front ++ "[" ++ i.name) (anchor i.name) := by
  have listed : Link.ofInstruction i ∈ (opcodeRows t).flatMap (·.links) :=
    (links_perm t).mem_iff.mpr (List.mem_map_of_mem inTable)
  obtain ⟨front, after, shape⟩ := (carries_opcodeIndex t).exists_of_mem listed
  refine ⟨front, (clean_name (drawn i inTable)).anchor_parenthesis, after, ?_⟩
  have mark : "](instructions.md#" = "](" ++ (Document.instructions.fileName ++ "#") := by decide
  rw [shape, Link.text, mark]
  simp only [Link.ofInstruction, String.append_assoc]

end

/-- **The reference is complete and its links resolve.**  For a table of any instructions of the
catalogue, in any groups and any order, the list of instructions has one row for each of them and no
others, and the rows have different anchors.  Wherever the opcode index gives a target in the list,
it does so behind the name of an instruction of the table, and the target is the anchor of one row,
which is that of this instruction.  Each instruction is linked. -/
theorem reference_complete {groups : List Group} {t : Table}
    (built : Table.ofGroups groups = .ok t)
    (drawn : ∀ g ∈ groups, ∀ i ∈ g.instructions, ∃ h ∈ Catalogue.groups, i ∈ h.instructions) :
    (anchoredLines (Document.instructions.text t)).Perm
      (t.instructions.map fun i => (InstructionRow.ofInstruction i).text) ∧
    ((anchoredLines (Document.instructions.text t)).map anchorOf).Nodup ∧
    (∀ before target, LinksTo (Document.opcodes.text t) before target →
      ∃ i ∈ t.instructions, (∃ front, before = front ++ "[" ++ i.name) ∧
        (anchoredLines (Document.instructions.text t)).filter (anchorOf · = target) =
          [(InstructionRow.ofInstruction i).text]) ∧
    ∀ i ∈ t.instructions, ∃ front,
      LinksTo (Document.opcodes.text t) (front ++ "[" ++ i.name) (anchor i.name) := by
  obtain ⟨listed, distinct⟩ := Table.ofGroups_eq_ok.mp built
  have inCatalogue : ∀ i ∈ t.instructions, i ∈ Table.default.instructions := by
    intro i inTable
    rw [← listed] at inTable
    obtain ⟨g, given, inGroup⟩ := List.mem_flatMap.mp inTable
    obtain ⟨h, supported, inGroup'⟩ := drawn g given i inGroup
    rw [← Table.flatMap_groups]
    exact List.mem_flatMap.mpr ⟨h, supported, inGroup'⟩
  have instructions : Document.instructions.text t = instructionIndex t := rfl
  have opcodes : Document.opcodes.text t = opcodeIndex t := rfl
  rw [instructions, opcodes, anchors_eq inCatalogue]
  refine ⟨?_, targets_nodup distinct inCatalogue, ?_, fun i => exists_linksTo inCatalogue⟩
  · rw [anchoredLines_instructionIndex inCatalogue]
    have rows := (rows_perm distinct inCatalogue).map (·.text)
    rwa [List.map_map] at rows
  · intro before target linked
    obtain ⟨i, inTable, rfl, named⟩ := exists_of_linksTo inCatalogue linked
    exact ⟨i, inTable, named, filter_anchorOf_eq distinct inCatalogue inTable⟩

/-- The reference of the instructions for multiplication alone: a link, and the row that it leads
to. -/
theorem reference_complete_multiply :
    (∃ front, LinksTo (Document.opcodes.text ⟨Catalogue.multiply⟩) (front ++ "[" ++ "mul") "mul") ∧
    (anchoredLines (Document.instructions.text ⟨Catalogue.multiply⟩)).filter (anchorOf · = "mul") =
      ["| <a id=\"mul\"></a>`mul` | `mul rd, rs1, rs2` | R | ireg ireg ireg | " ++
        "`0b11111110000000000111000001111111` | `0b00000010000000000000000000110011` |"] := by
  have built : Table.ofGroups [⟨.multiply, "", Catalogue.multiply⟩] = .ok ⟨Catalogue.multiply⟩ :=
    Table.ofGroups_eq_ok.mpr ⟨by simp, by decide⟩
  obtain ⟨rows, -, links, linked⟩ := reference_complete built fun g given i inGroup =>
    ⟨⟨.multiply, "Integer Multiplication and Division", Catalogue.multiply⟩,
      by simp [Catalogue.groups], by simpa [List.mem_singleton.mp given] using inGroup⟩
  have inTable : (Catalogue.regReg "mul" Catalogue.opReg 0b000 0b0000001).inExtension .multiply ∈
      Catalogue.multiply :=
    List.mem_map_of_mem (List.mem_append_left _ (List.mem_append_left _ List.mem_cons_self))
  obtain ⟨front, link⟩ := linked _ inTable
  have target : anchor "mul" = "mul" := by decide
  change LinksTo _ (front ++ "[" ++ "mul") (anchor "mul") at link
  rw [target] at link
  obtain ⟨i, -, -, row⟩ := links _ _ link
  have own : (InstructionRow.ofInstruction
      ((Catalogue.regReg "mul" Catalogue.opReg 0b000 0b0000001).inExtension .multiply)).text ∈
      [(InstructionRow.ofInstruction i).text] := by
    rw [← row]
    refine List.mem_filter.mpr ⟨rows.mem_iff.mpr (List.mem_map_of_mem inTable), ?_⟩
    decide +kernel
  refine ⟨⟨front, link⟩, ?_⟩
  rw [row, ← List.mem_singleton.mp own, List.cons.injEq]
  exact ⟨by decide +kernel, rfl⟩

end RvCodec.Reference

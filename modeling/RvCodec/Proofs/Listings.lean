import RvCodec.Cli.Command
import RvCodec.Proofs.TextLines

/-!
# What the listing command lists

A listing has a head and a row for each instruction of the default table, in its order,
that exists at the width and whose extension is asked for.  The rows stand on lines of
their own, since no cell has a line feed in it (`oneLine_row`), and a line shows its
cells with blanks between them, since every column is as wide as its cells
(`widths_fit`, `shows_rowText`).  So the names of the instructions can be read off the
text (`lists_text`).

The letters that ask for extensions are cut to one byte each.  This changes no letter
of an extension, but it turns some characters beyond one byte into such a letter, and
then the instructions of an extension are listed that was not asked for (`Mistaken`,
`names_eq_iff`).
-/

set_option autoImplicit false

namespace RvCodec

/-! ## Sets of extensions -/

namespace ExtensionSet

theorem mem_place {d e : Extension} {es : List Extension} :
    d ∈ place e es ↔ d = e ∨ d ∈ es := by
  induction es with
  | nil => simp [place]
  | cons f es ih =>
    unfold place
    split
    · next same => simp [same]
    · split
      · simp
      · simp only [List.mem_cons, ih]
        tauto

theorem mem_members_foldl {d : Extension} {s : ExtensionSet} {es : List Extension} :
    d ∈ (es.foldl insert s).members ↔ d ∈ s.members ∨ d ∈ es := by
  induction es generalizing s with
  | nil => simp
  | cons e es ih =>
    rw [List.foldl_cons, ih, insert, mem_place, List.mem_cons]
    tauto

theorem mem_members_ofList {d : Extension} {es : List Extension} :
    d ∈ (ofList es).members ↔ d ∈ es := by
  rw [ofList, mem_members_foldl]
  simp [empty]

theorem has_ofList {d : Extension} {es : List Extension} : (ofList es).has d = true ↔ d ∈ es := by
  rw [has, List.contains_iff_mem, mem_members_ofList]

theorem isEmpty_ofList {es : List Extension} : (ofList es).members.isEmpty = true ↔ es = [] := by
  simp only [List.isEmpty_iff, List.eq_nil_iff_forall_not_mem, mem_members_ofList]

end ExtensionSet

/-- A letter of one byte stands for itself. -/
theorem Extension.ofChar_of_lt {c : Char} (small : c.toNat < 256) : ofChar c = ⟨c⟩ := by
  rw [ofChar, Nat.mod_eq_of_lt small, Char.ofNat_toNat]

/-- The extension letters of the table are ASCII characters that stand on a line. -/
theorem Table.default_letters : ∀ i ∈ default.instructions, i.ext.letter.toNat < 128 ∧
    i.ext.letter ≠ '\n' := by
  decide +kernel

namespace Cli.Listing

/-! ## What is asked for -/

/-- The instruction exists at the width; without a width, every instruction may. -/
def Legal (width : Xlen) (i : Instruction) : Prop := ∀ x ∈ width, i.requirement.Holds x

/-- The letters ask for the extension: there are none, or its letter is one of them in upper case. -/
def Asks (letters : String) (e : Extension) : Prop :=
  letters = "" ∨ e.letter ∈ (Text.upper letters).toList

/-- The letters ask for the extension after they are cut to one byte. -/
def AsksByByte (letters : String) (e : Extension) : Prop :=
  letters = "" ∨ ∃ c ∈ (Text.upper letters).toList, Extension.ofChar c = e

/-- A character beyond one byte that is taken for the letter of an instruction that the letters do
not ask for. -/
def Mistaken (letters : String) (width : Xlen) (c : Char) : Prop :=
  256 ≤ c.toNat ∧ ∃ i ∈ Table.default.instructions, Legal width i ∧ Extension.ofChar c = i.ext ∧
    ¬ Asks letters i.ext

instance (width : Xlen) (i : Instruction) : Decidable (Legal width i) :=
  inferInstanceAs (Decidable (∀ x ∈ width, i.requirement.lo ≤ x ∧ ∀ h ∈ i.requirement.hi, x ≤ h))

instance (letters : String) (e : Extension) : Decidable (Asks letters e) :=
  inferInstanceAs (Decidable (letters = "" ∨ e.letter ∈ (Text.upper letters).toList))

instance (letters : String) (e : Extension) : Decidable (AsksByByte letters e) :=
  inferInstanceAs (Decidable (_ ∨ ∃ c ∈ (Text.upper letters).toList, Extension.ofChar c = e))

/-- The instructions that the letters ask for. -/
def asked (letters : String) (width : Xlen) : List Instruction :=
  Table.default.instructions.filter fun i => Asks letters i.ext ∧ Legal width i

/-- The instructions that the letters ask for after they are cut to one byte. -/
def askedByByte (letters : String) (width : Xlen) : List Instruction :=
  Table.default.instructions.filter fun i => AsksByByte letters i.ext ∧ Legal width i

theorem upper_eq_nil {letters : String} : (Text.upper letters).toList = [] ↔ letters = "" := by
  rw [Text.upper, String.toList_ofList, List.map_eq_nil_iff, String.toList_eq_nil_iff]

theorem selects_iff {letters : String} {width : Xlen} {i : Instruction} :
    selects letters width i = true ↔ AsksByByte letters i.ext ∧ Legal width i := by
  have legal : (Tracker.start width).allowsInstruction i = true ↔ Legal width i := by
    cases width with
    | none => simp [Legal, Tracker.allowsInstruction_auto (t := .start none) rfl]
    | some x => simp [Legal, Tracker.allowsInstruction_fixed (t := .start (some x)) rfl]
  rw [selects, Bool.and_eq_true, legal, Bool.or_eq_true, wanted, ExtensionSet.isEmpty_ofList,
    ExtensionSet.has_ofList, List.map_eq_nil_iff, upper_eq_nil, List.mem_map, AsksByByte]

theorem selected_eq (letters : String) (width : Xlen) :
    selected letters width = askedByByte letters width := by
  refine List.filter_congr fun i _ => ?_
  rw [Bool.eq_iff_iff, selects_iff, decide_eq_true_eq]

/-- The names tell selections of the table apart. -/
theorem map_name_filter_iff {p q : Instruction → Bool} :
    (Table.default.instructions.filter p).map (·.name) =
        (Table.default.instructions.filter q).map (·.name) ↔
      ∀ i ∈ Table.default.instructions, p i = true ↔ q i = true := by
  have transfer {p q : Instruction → Bool}
      (same : (Table.default.instructions.filter p).map (·.name) =
        (Table.default.instructions.filter q).map (·.name))
      {i : Instruction} (inTable : i ∈ Table.default.instructions) (chosen : p i = true) :
      q i = true := by
    have named : i.name ∈ (Table.default.instructions.filter q).map (·.name) :=
      same ▸ List.mem_map_of_mem (List.mem_filter.mpr ⟨inTable, chosen⟩)
    obtain ⟨j, found, name⟩ := List.mem_map.mp named
    obtain ⟨inTable', chosen'⟩ := List.mem_filter.mp found
    obtain rfl := List.inj_on_of_nodup_map Table.default_names_nodup inTable' inTable name
    exact chosen'
  constructor
  · exact fun same i inTable => ⟨transfer same inTable, transfer same.symm inTable⟩
  · intro agree
    rw [List.filter_congr fun i inTable => Bool.eq_iff_iff.mpr (agree i inTable)]

/-- **Cutting letters to bytes does no harm** as long as it turns none into the letter of an
extension that is not asked for. -/
theorem names_eq_iff {letters : String} {width : Xlen} :
    (askedByByte letters width).map (·.name) = (asked letters width).map (·.name) ↔
      ∀ c ∈ (Text.upper letters).toList, ¬ Mistaken letters width c := by
  rw [askedByByte, asked, map_name_filter_iff]
  simp only [decide_eq_true_eq]
  constructor
  · rintro same c member ⟨-, i, inTable, legal, taken, other⟩
    exact other ((same i inTable).mp ⟨.inr ⟨c, member, taken⟩, legal⟩).1
  · intro clean i inTable
    refine and_congr_left fun legal => ⟨?_, ?_⟩
    · rintro (none | ⟨c, member, taken⟩)
      · exact .inl none
      · by_contra other
        have small : c.toNat < 256 := by
          by_contra large
          exact clean c member ⟨by omega, i, inTable, legal, taken, other⟩
        rw [Extension.ofChar_of_lt small] at taken
        exact other (.inr (taken ▸ member))
    · rintro (none | member)
      · exact .inl none
      · have small := (Table.default_letters i inTable).1
        exact .inr ⟨_, member, Extension.ofChar_of_lt (by omega)⟩

/-! ## Lines -/

/-- The line shows the cells one after the other, with two blanks or more between them. -/
inductive Shows : List String → List Char → Prop
  | last (cell : String) : Shows [cell] cell.toList
  | more {cells : List String} {line : List Char} (cell : String) (n : Nat)
    (rest : Shows cells line) :
    Shows (cell :: cells) (cell.toList ++ List.replicate (n + 2) ' ' ++ line)

/-- The line up to its first blank. -/
def firstWord (line : String) : String := String.ofList (line.toList.takeWhile (· ≠ ' '))

/-- The first cell of a line can be read off it. -/
theorem Shows.firstWord_eq {name line : String} {cells : List String}
    (shows : Shows (name :: cells) line.toList) (nonempty : cells ≠ [])
    (solid : ' ' ∉ name.toList) : firstWord line = name := by
  unfold firstWord
  generalize line.toList = cs at shows
  cases shows with
  | last => exact absurd rfl nonempty
  | more _ n rest =>
    have all : ∀ c ∈ name.toList, decide (c ≠ ' ') = true := fun c member =>
      decide_eq_true fun same => solid (same ▸ member)
    rw [List.append_assoc, List.takeWhile_append_of_pos all, List.replicate_succ, List.cons_append,
      List.takeWhile_cons_of_neg (by simp), List.append_nil, String.ofList_toList]

theorem shows_rowText {columns : List Nat} {cells : List String}
    (fit : List.Forall₂ (fun width cell => cell.length ≤ width) columns cells)
    (nonempty : cells ≠ []) : Shows cells (rowText columns cells).toList := by
  induction fit with
  | nil => exact absurd rfl nonempty
  | @cons width cell columns cells small fit ih =>
    cases cells with
    | nil => exact .last cell
    | cons next cells =>
      have gap : width + 2 - cell.length = width - cell.length + 2 := by omega
      have shape : (rowText (width :: columns) (cell :: next :: cells)).toList =
          cell.toList ++ List.replicate (width - cell.length + 2) ' ' ++
            (rowText columns (next :: cells)).toList := by
        simp [rowText, gap]
      rw [shape]
      exact .more cell _ (ih (by simp))

/-- Every column is as wide as its cells. -/
theorem widths_fit {rows : List (List String)} {k : Nat} (size : ∀ row ∈ rows, row.length = k) :
    ∀ row ∈ rows, List.Forall₂ (fun width cell => cell.length ≤ width) (widths rows) row := by
  induction rows with
  | nil => simp
  | cons first rows ih =>
    have below := ih fun row member => size row (List.mem_cons_of_mem _ member)
    intro row member
    have sizes : first.length = row.length := by
      rw [size first List.mem_cons_self, size row member]
    refine List.forall₂_iff_get.mpr ⟨by simp [widths, sizes], ?_⟩
    intro n inWidths inRow
    have column : (widths (first :: rows)).get ⟨n, inWidths⟩ =
        max (first.get ⟨n, by omega⟩).length ((widths rows).getD n 0) := by
      simp [widths]
    rw [column]
    obtain rfl | later := List.mem_cons.mp member
    · exact le_max_left _ _
    · obtain ⟨lengths, each⟩ := List.forall₂_iff_get.mp (below row later)
      have inBelow : n < (widths rows).length := by omega
      rw [List.getD_eq_getElem _ _ inBelow]
      exact le_max_of_le_right (each n inBelow inRow)

end Cli.Listing

open Text

namespace Cli.Listing

theorem oneLine_row {i : Instruction} (inTable : i ∈ Table.default.instructions) :
    ∀ cell ∈ row i, OneLine cell := by
  have token := (Table.default_sound i inTable).isToken
  have format : OneLine i.format.name := by cases i.format <;> decide
  simp only [row, List.forall_mem_cons, List.not_mem_nil, IsEmpty.forall_iff, implies_true, and_true]
  exact ⟨.of_isToken token, Instruction.oneLine_standard (Table.default_letters i inTable).2, format,
    i.key.oneLine_name, .of_isToken (Number.isToken_wordText _),
    .of_isToken (Number.isToken_wordText _), Instruction.oneLine_synopsis token⟩

theorem oneLine_rowText {columns : List Nat} {cells : List String}
    (clean : ∀ cell ∈ cells, OneLine cell) : OneLine (rowText columns cells) := by
  fun_induction rowText columns cells with
  | case1 => decide
  | case2 columns last => exact clean last List.mem_cons_self
  | case3 cell rest _ ih =>
    exact (clean cell List.mem_cons_self).append
      (ih fun other member => clean other (List.mem_cons_of_mem _ member))
  | case4 width columns cell rest _ ih =>
    refine ((clean cell List.mem_cons_self).append ?_).append
      (ih fun other member => clean other (List.mem_cons_of_mem _ member))
    rw [OneLine, String.toList_ofList]
    exact fun member => absurd (List.eq_of_mem_replicate member) (by decide)

/-! ## Listings -/

/-- The names in a listing: the first word of every line below the head. -/
def shownNames (listing : String) : List String :=
  ((splitAt '\n' listing).dropLast.drop 1).map firstWord

/-- What a listing is to show. -/
structure Lists (letters : String) (width : Xlen) (listing : String) : Prop where
  /-- There is a head, and below it a line for each instruction that is asked for by byte, in the
  order of the table. -/
  lines : ∃ head lines, splitAt '\n' listing = head :: lines ++ [""] ∧ Shows header head.toList ∧
    List.Forall₂ (fun i line => Shows (row i) line.toList) (askedByByte letters width) lines
  /-- The names of these instructions can be read off. -/
  names : shownNames listing = (askedByByte letters width).map (·.name)
  /-- They are what is asked for unless a character is mistaken for a letter. -/
  exact : shownNames listing = (asked letters width).map (·.name) ↔
    ∀ c ∈ (upper letters).toList, ¬ Mistaken letters width c

theorem exists_lines (letters : String) (width : Xlen) :
    ∃ head lines, splitAt '\n' (text letters width) = head :: lines ++ [""] ∧
      Shows header head.toList ∧
      List.Forall₂ (fun i line => Shows (row i) line.toList) (askedByByte letters width) lines := by
  have size : ∀ cells ∈ header :: (askedByByte letters width).map row, cells.length = 7 := by
    simp [header, row]
  have fit := widths_fit size
  have clean : ∀ cells ∈ header :: (askedByByte letters width).map row, ∀ cell ∈ cells,
      OneLine cell := by
    refine List.forall_mem_cons.mpr ⟨by decide, List.forall_mem_map.mpr fun i chosen => ?_⟩
    exact oneLine_row (List.mem_of_mem_filter chosen)
  rw [text, align, selected_eq]
  generalize widths (header :: (askedByByte letters width).map row) = columns at fit
  refine ⟨rowText columns header, (askedByByte letters width).map fun i => rowText columns (row i),
    ?_, shows_rowText (fit _ List.mem_cons_self) (List.cons_ne_nil _ _), ?_⟩
  · rw [splitAt_unlines, List.map_cons, List.map_map]
    · rfl
    · exact List.forall_mem_map.mpr fun cells member => oneLine_rowText (clean cells member)
  · refine List.forall₂_map_right_iff.mpr (List.forall₂_same.mpr fun i chosen => ?_)
    exact shows_rowText (fit _ (List.mem_cons_of_mem _ (List.mem_map_of_mem chosen)))
      (List.cons_ne_nil _ _)

/-- The names of shown instructions are the first words. -/
theorem map_firstWord_of_shows {is : List Instruction} {lines : List String}
    (rows : List.Forall₂ (fun i line => Shows (row i) line.toList) is lines)
    (inTable : ∀ i ∈ is, i ∈ Table.default.instructions) :
    lines.map firstWord = is.map (·.name) := by
  induction rows with
  | nil => rfl
  | @cons i line is lines shows rows ih =>
    have solid : ' ' ∉ i.name.toList := fun member =>
      absurd ((Table.default_sound i (inTable i List.mem_cons_self)).isToken.chars _ member)
        (by decide)
    rw [List.map_cons, List.map_cons, shows.firstWord_eq (List.cons_ne_nil _ _) solid,
      ih fun j member => inTable j (List.mem_cons_of_mem _ member)]

/-- **A listing lists the instructions** that are asked for by byte. -/
theorem lists_text (letters : String) (width : Xlen) :
    Lists letters width (text letters width) := by
  obtain ⟨head, lines, split, heading, rows⟩ := exists_lines letters width
  have names : shownNames (text letters width) = (askedByByte letters width).map (·.name) := by
    rw [shownNames, split, List.dropLast_concat, List.drop_one, List.tail_cons]
    exact map_firstWord_of_shows rows fun i chosen => List.mem_of_mem_filter chosen
  exact ⟨⟨head, lines, split, heading, rows⟩, names, names ▸ names_eq_iff⟩

end Cli.Listing

namespace Cli

open Listing

section

variable (program command : String) {args : List String} {a : Arguments} {width : Xlen}
  (parsed : parseArguments tableFlags args = .ok a) (noHelp : a.isOn "h" = false)
  (alone : a.rest = []) (accepted : Xlen.parse ((a.text? "xlen").getD "auto") = .ok width)
include parsed noHelp alone accepted

theorem tableCommand_eq : tableCommand program command args =
    .printed (Listing.text ((a.text? "ext").getD "") width) := by
  simp [tableCommand, parsed, noHelp, alone, accepted]

/-- **The listing command lists what is asked for** by the letters and the width, except that the
letters are cut to bytes.  So it lists what is really asked for unless a character beyond one byte is
mistaken for the letter of an extension. -/
theorem listing_exact : ∃ listing, tableCommand program command args = .printed listing ∧
    Lists ((a.text? "ext").getD "") width listing :=
  ⟨_, tableCommand_eq program command parsed noHelp alone accepted, lists_text _ _⟩

end

/-- Small letters ask for the same, and nothing is mistaken for a letter. -/
theorem listing_exact_multiply :
    ∃ listing, tableCommand "rvcodec" "table" ["-xlen=rv32", "-ext", "m"] = .printed listing ∧
      shownNames listing = (asked "m" (some 32)).map (·.name) := by
  have parsed : parseArguments tableFlags ["-xlen=rv32", "-ext", "m"] =
      .ok ⟨[("xlen", .text "rv32"), ("ext", .text "m")], []⟩ := by
    cbv
  have accepted : Xlen.parse "rv32" = .ok (some 32) := by decide
  obtain ⟨listing, printed, lists⟩ :=
    listing_exact "rvcodec" "table" parsed (by decide) rfl accepted
  have capital : (upper "m").toList = ['M'] := by decide
  have letter : ∀ c ∈ (upper "m").toList, c = 'M' := by simp [capital]
  refine ⟨listing, printed, lists.exact.mpr ?_⟩
  rintro c member ⟨large, -⟩
  obtain rfl := letter c member
  exact absurd large (by decide)

/-- A letter beyond one byte asks for no extension, but it is taken for the letter of one. -/
theorem truncated_letter_listed :
    ¬ ∀ (program command : String) (args : List String) (a : Arguments) (width : Xlen),
      parseArguments tableFlags args = .ok a → a.isOn "h" = false → a.rest = [] →
      Xlen.parse ((a.text? "xlen").getD "auto") = .ok width →
      ∃ listing, tableCommand program command args = .printed listing ∧
        shownNames listing = (asked ((a.text? "ext").getD "") width).map (·.name) := by
  intro claimed
  obtain ⟨a, parsed, noHelp, alone, accepted, letters⟩ :
      ∃ a, parseArguments tableFlags ["-ext", "Ł"] = .ok a ∧ a.isOn "h" = false ∧ a.rest = [] ∧
        Xlen.parse ((a.text? "xlen").getD "auto") = .ok none ∧ (a.text? "ext").getD "" = "Ł" :=
    ⟨⟨[("ext", .text "Ł")], []⟩, by cbv, by decide, rfl, by decide, by decide⟩
  obtain ⟨listing, printed, names⟩ := claimed "rvcodec" "table" _ a none parsed noHelp alone accepted
  rw [tableCommand_eq _ _ parsed noHelp alone accepted, letters] at printed
  have same : Listing.text "Ł" none = listing := congrArg Outcome.stdout printed
  rw [letters, ← same] at names
  obtain ⟨i, inTable, ext⟩ : ∃ i ∈ Table.default.instructions, i.ext = .atomic := by decide +kernel
  have mistaken : Mistaken "Ł" none 'Ł' := by
    refine ⟨by decide, i, inTable, by simp [Legal], ?_, ?_⟩
    · rw [ext]
      decide
    · rw [ext]
      decide
  exact (lists_text _ _).exact.mp names 'Ł' (by decide) mistaken

end Cli

end RvCodec

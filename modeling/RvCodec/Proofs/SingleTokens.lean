import RvCodec.Proofs.Sessions

/-!
# Lines of single tokens

A line is put together from texts of which each is meant to be one token.  That
this comes out as meant depends on the texts.  None of them may hold a separator,
a line end or the start of a comment, and the last one loses the blanks at its
end together with the line.

A text that is read as a number or as the name of a register starts no comment,
because of the few characters that it may have besides blanks
(`Number.not_startsComment`, `Register.not_startsComment`).  The lost blanks do
not matter to a number, which is read without regard to blanks at its ends
(`Number.parse_of_trimBlank`).  `lines_pairText` is the result for a mnemonic with
two operands.
-/

set_option autoImplicit false

namespace RvCodec

/-! ## Blanks at the end -/

namespace Text

theorem trimBlank_append_blanks {back : List Char} (blanks : ∀ c ∈ back, isBlank c = true)
    (cs : List Char) : trimBlank (cs ++ back) = trimBlank cs := by
  induction back generalizing cs with
  | nil => rw [List.append_nil]
  | cons c back ih =>
    rw [← List.singleton_append, ← List.append_assoc,
      ih fun d member => blanks d (List.mem_cons_of_mem _ member),
      trimBlank_append_blank (blanks c List.mem_cons_self)]

/-- Characters are those up to the last one that is no blank, and the blanks behind it. -/
theorem exists_append_blanks (cs : List Char) :
    ∃ core back, cs = core ++ back ∧ (∀ c ∈ core.getLast?, isBlank c = false) ∧
      ∀ c ∈ back, isBlank c = true := by
  induction cs using List.reverseRecOn with
  | nil => exact ⟨[], [], rfl, by simp, by simp⟩
  | append_singleton cs c ih =>
    cases blank : isBlank c with
    | false => exact ⟨cs ++ [c], [], by simp, by simp [blank], by simp⟩
    | true =>
      obtain ⟨core, back, rfl, last, blanks⟩ := ih
      refine ⟨core, back ++ [c], by simp, last, ?_⟩
      intro d member
      obtain inside | rfl : d ∈ back ∨ d = c := by simpa using member
      · exact blanks d inside
      · exact blank

theorem isBlank_or_mem_dropWhile {cs : List Char} {c : Char} (member : c ∈ cs) :
    isBlank c = true ∨ c ∈ cs.dropWhile isBlank := by
  rw [← List.takeWhile_append_dropWhile (p := isBlank) (l := cs), List.mem_append] at member
  obtain front | rest := member
  · exact .inl (List.mem_takeWhile_imp front)
  · exact .inr rest

/-- What is trimmed off is blank. -/
theorem isBlank_or_mem_trimBlank {cs : List Char} {c : Char} (member : c ∈ cs) :
    isBlank c = true ∨ c ∈ trimBlank cs := by
  obtain blank | inside := isBlank_or_mem_dropWhile member
  · exact .inl blank
  · obtain blank | rest := isBlank_or_mem_dropWhile (List.mem_reverse.mpr inside)
    · exact .inl blank
    · exact .inr (List.mem_reverse.mpr rest)

/-! ## Separators -/

theorem not_isSep_of_mem_pieces {isSep : Char → Bool} {cs piece : List Char}
    (member : piece ∈ pieces isSep cs) : ∀ c ∈ piece, isSep c = false := by
  induction cs generalizing piece with
  | nil =>
    obtain rfl : piece = [] := by simpa [pieces] using member
    simp
  | cons c cs ih =>
    have step : pieces isSep (c :: cs) =
        if isSep c then [] :: pieces isSep cs else consPiece c (pieces isSep cs) := rfl
    rw [step] at member
    split at member
    · obtain rfl | later := List.mem_cons.mp member
      · simp
      · exact ih later
    · next inside =>
      obtain ⟨first, rest, shape⟩ := List.exists_cons_of_ne_nil (pieces_ne_nil isSep cs)
      rw [shape] at ih
      rw [shape, consPiece] at member
      obtain rfl | later := List.mem_cons.mp member
      · intro d inPiece
        obtain rfl | inFirst := List.mem_cons.mp inPiece
        · exact Bool.eq_false_iff.mpr inside
        · exact ih List.mem_cons_self d inFirst
      · exact ih (List.mem_cons_of_mem _ later)

end Text

namespace Source

/-- The text is one token on one line. -/
structure Single (s : String) : Prop where
  token : tokens s = [s]
  line : '\n' ∉ s.toList

theorem Single.not_isSeparator {s : String} (single : Single s) :
    ∀ c ∈ s.toList, isSeparator c = false := by
  have listed : s ∈ tokens s := by rw [single.token]; exact List.mem_singleton_self s
  obtain ⟨piece, member, rfl⟩ := List.mem_map.mp listed
  rw [String.toList_ofList]
  exact Text.not_isSep_of_mem_pieces (List.mem_filter.mp member).1

theorem tokens_eq_singleton {cs : List Char} (nonempty : cs ≠ [])
    (clear : ∀ c ∈ cs, isSeparator c = false) :
    tokens (String.ofList cs) = [String.ofList cs] := by
  have fields : Text.fieldChars isSeparator cs =
      (Text.pieces isSeparator cs).filter fun piece => !piece.isEmpty := rfl
  rw [tokens, String.toList_ofList, fields, Text.pieces_eq_singleton clear]
  simp [nonempty]

/-! ## Comments -/

/-- A character that a comment starts with. -/
def startsComment (c : Char) : Bool := c = '#' || c = ';' || c = '/'

theorem startsComment_cases {c : Char} (starts : startsComment c = true) :
    c = '#' ∨ c = ';' ∨ c = '/' := by
  simpa [startsComment, or_assoc] using starts

/-- A class of characters that has none of the three has no start of a comment. -/
theorem not_startsComment_of {p : Char → Bool}
    (none : p '#' = false ∧ p ';' = false ∧ p '/' = false) {c : Char} (held : p c = true) :
    startsComment c = false := by
  rw [Bool.eq_false_iff]
  intro starts
  obtain rfl | rfl | rfl := startsComment_cases starts
  · exact absurd held (by simp [none.1])
  · exact absurd held (by simp [none.2.1])
  · exact absurd held (by simp [none.2.2])

theorem dropComment_of_not_startsComment {cs : List Char}
    (none : ∀ c ∈ cs, startsComment c = false) : dropComment cs = cs := by
  refine dropComment_eq_self fun c member => ?_
  have other := none c member
  simp only [startsComment, Bool.or_eq_false_iff, decide_eq_false_iff_not] at other
  exact ⟨other.1.1, other.1.2, other.2⟩

end Source

open Source Text

theorem Text.isSome_digitValue?_of_readDigits {base acc n : Nat} {cs : List Char}
    (read : readDigits base acc cs = some n) : ∀ c ∈ cs, (digitValue? base c).isSome = true := by
  induction cs generalizing acc with
  | nil => simp
  | cons c cs ih =>
    rw [readDigits] at read
    split at read
    · next d value =>
      intro d' member
      obtain rfl | later := List.mem_cons.mp member
      · simp [value]
      · exact ih read d' later
    · cases read

theorem Text.not_startsComment_of_readNat? {base n : Nat} {cs : List Char}
    (read : readNat? base cs = some n) : ∀ c ∈ cs, startsComment c = false := by
  unfold readNat? at read
  split at read
  · cases read
  · intro c member
    refine not_startsComment_of (p := fun c => (digitValue? base c).isSome) ?_
      (isSome_digitValue?_of_readDigits read c member)
    exact ⟨rfl, rfl, rfl⟩

theorem Text.not_startsComment_of_isBlank {c : Char} (blank : isBlank c = true) :
    startsComment c = false := not_startsComment_of (by decide) blank

namespace Number

theorem mem_splitSign {cs : List Char} {c : Char} (member : c ∈ cs) :
    c ∈ ['-', '+'] ∨ c ∈ (splitSign cs).2 := by
  unfold splitSign
  split <;> grind

theorem mem_splitBase {cs : List Char} {c : Char} (member : c ∈ cs) :
    c ∈ ['0', 'x', 'X', 'b', 'B'] ∨ c ∈ (splitBase cs).2 := by
  unfold splitBase
  split <;> grind

theorem exists_magnitude {s : String} {v : Int} (parsed : parse s = .ok v) :
    ∃ n, magnitude? (splitSign (significant s)).2 = some n := by
  unfold parse at parsed
  dsimp only at parsed
  split at parsed
  · cases parsed
  · next n found => exact ⟨n, found⟩

theorem trimBlank_ne_nil {s : String} {v : Int} (parsed : parse s = .ok v) :
    trimBlank s.toList ≠ [] := by
  intro empty
  rw [parse, significant, empty] at parsed
  cases parsed

/-- A text that is read as a number starts no comment. -/
theorem not_startsComment {s : String} {v : Int} (parsed : parse s = .ok v) :
    ∀ c ∈ s.toList, startsComment c = false := by
  obtain ⟨n, magnitude⟩ := exists_magnitude parsed
  obtain ⟨read, -⟩ := Option.filter_eq_some_iff.mp magnitude
  intro c member
  obtain blank | inside := isBlank_or_mem_trimBlank member
  · exact not_startsComment_of_isBlank blank
  by_cases underscore : c = '_'
  · rw [underscore]
    rfl
  have significant : c ∈ significant s := List.mem_filter.mpr ⟨inside, by simp [underscore]⟩
  obtain sign | unsigned := mem_splitSign significant
  · exact not_startsComment_of (p := (['-', '+'].contains ·)) (by decide) (by simpa using sign)
  obtain mark | digit := mem_splitBase unsigned
  · exact not_startsComment_of (p := (['0', 'x', 'X', 'b', 'B'].contains ·)) (by decide)
      (by simpa using mark)
  · exact not_startsComment_of_readNat? read c digit

/-- A number is read without regard to blanks at its ends. -/
theorem parse_of_trimBlank {s t : String} {v : Int} (same : trimBlank s.toList = trimBlank t.toList)
    (parsed : parse s = .ok v) : parse t = .ok v := by
  unfold parse significant at *
  dsimp only at *
  rw [← same]
  split at parsed <;> grind

end Number

namespace Register

theorem not_startsComment_of_named {name : String} {n : Nat}
    (named : named? .integer name = some n) : ∀ c ∈ name.toList, startsComment c = false := by
  have names : ("fp" :: integerNames).all (·.toList.all (!startsComment ·)) = true := by decide
  have listed : name ∈ "fp" :: integerNames := by
    rw [named?] at named
    split at named
    · next frame => exact frame ▸ List.mem_cons_self
    · obtain ⟨inside, here, -⟩ := List.idxOf?_eq_some_iff.mp named
      exact List.mem_cons_of_mem _ (here ▸ List.getElem_mem inside)
  simpa using List.all_eq_true.mp names name listed

theorem not_startsComment_of_numbered {cs : List Char} {n : Nat}
    (numbered : numbered? .integer cs = some n) : ∀ c ∈ cs, startsComment c = false := by
  unfold numbered? at numbered
  split at numbered
  · split at numbered
    · next letter =>
      unfold ordinal? at numbered
      split at numbered
      · cases numbered
      · obtain ⟨read, -⟩ := Option.filter_eq_some_iff.mp numbered
        intro c member
        obtain rfl | digit := List.mem_cons.mp member
        · rw [letter]
          rfl
        · exact not_startsComment_of_readNat? read c digit
    · cases numbered
  · cases numbered

/-- A text that is read as an integer register starts no comment. -/
theorem not_startsComment {embedded : Bool} {s : String} {r : Word}
    (parsed : parseInteger embedded s = .ok r) : ∀ c ∈ s.toList, startsComment c = false := by
  have read := (parseInteger_eq_ok.mp parsed).1
  unfold parse at read
  split at read
  · next n found =>
    intro c member
    obtain blank | inside := isBlank_or_mem_trimBlank member
    · exact not_startsComment_of_isBlank blank
    have lowered : lowerChar c ∈ (lower (trim s)).toList := by
      rw [lower, String.toList_ofList, trim, String.toList_ofList]
      exact List.mem_map_of_mem inside
    have other : startsComment (lowerChar c) = false := by
      obtain named | ⟨-, numbered⟩ := Option.or_eq_some_iff.mp found
      · exact not_startsComment_of_named named _ lowered
      · exact not_startsComment_of_numbered numbered _ lowered
    -- The change to small letters leaves the start of a comment as it is.
    rw [Bool.eq_false_iff]
    intro starts
    obtain rfl | rfl | rfl := startsComment_cases starts
    all_goals exact absurd other (by decide)
  · cases read

end Register

/-! ## A line with two operands -/

/-- A mnemonic and two operands, as they are written on a line. -/
def Source.pairText (name first last : String) : String :=
  name ++ " " ++ ", ".intercalate [first, last]

theorem Source.mem_pairText {name first last : String} {c : Char}
    (member : c ∈ (pairText name first last).toList) :
    c ∈ name.toList ∨ c = ' ' ∨ c = ',' ∨ c ∈ first.toList ∨ c ∈ last.toList := by
  simp [pairText, String.intercalate_cons_cons] at member
  tauto

/-- The blanks at the end of the last operand are lost together with the line's. -/
theorem Source.lines_pairText {name first last : String} (named : IsToken name)
    (single : Single first) (single' : Single last)
    (plain : ∀ c ∈ first.toList, startsComment c = false)
    (plain' : ∀ c ∈ last.toList, startsComment c = false) (visible : trimBlank last.toList ≠ []) :
    ∃ last', trimBlank last'.toList = trimBlank last.toList ∧
      lines (pairText name first last) = [⟨1, pairText name first last'⟩] ∧
      tokens (pairText name first last') = [name, first, last'] := by
  obtain ⟨core, back, shape, ends, blanks⟩ := exists_append_blanks last.toList
  have trimmed : trimBlank core = trimBlank last.toList := by
    rw [shape, trimBlank_append_blanks blanks]
  have nonempty : core ≠ [] := by
    rintro rfl
    exact visible trimmed.symm
  have clean : '\n' ∉ (pairText name first last).toList := by
    intro member
    obtain inName | space | comma | inFirst | inLast := mem_pairText member
    · exact absurd (named.chars _ inName) (by decide)
    · cases space
    · cases comma
    · exact single.line inFirst
    · exact single'.line inLast
  have kept : dropComment (pairText name first last).toList =
      (pairText name first last).toList := by
    refine dropComment_of_not_startsComment fun c member => ?_
    obtain inName | rfl | rfl | inFirst | inLast := mem_pairText member
    · exact not_startsComment_of (by decide) (named.chars c inName)
    · rfl
    · rfl
    · exact plain c inFirst
    · exact plain' c inLast
  have cut : (pairText name first last).toList =
      (pairText name first (String.ofList core)).toList ++ back := by
    simp [pairText, String.intercalate_cons_cons, shape]
  have contents : lineContents (pairText name first last).toList =
      (pairText name first (String.ofList core)).toList := by
    rw [lineContents, kept, cut, trimBlank_append_blanks blanks]
    have spelled : (pairText name first (String.ofList core)).toList =
        name.toList ++ (' ' :: (first.toList ++ [',', ' '])) ++ core := by
      simp [pairText, String.intercalate_cons_cons]
    refine trimBlank_eq_self ?_ ?_
    · intro c head
      rw [spelled, List.append_assoc, List.head?_append_of_ne_nil _ named.nonempty] at head
      exact isBlank_of_isTokenChar (named.chars c (List.mem_of_mem_head? head))
    · intro c final
      rw [spelled, List.getLast?_append_of_ne_nil _ nonempty] at final
      exact ends c final
  refine ⟨String.ofList core, by rw [String.toList_ofList, trimmed], ?_, ?_⟩
  · have filled : (pairText name first (String.ofList core)).toList ≠ [] := by
      simp [pairText]
    simp [lines_of_clean clean, line?, contents, filled]
  · have clear : ∀ c ∈ core, isSeparator c = false := fun c member =>
      single'.not_isSeparator c (shape ▸ List.mem_append_left _ member)
    rw [pairText, tokens_append_blank, separates_commaBlank.tokens_intercalate, tokens_of_isToken named]
    simp [single.token, tokens_eq_singleton nonempty clear]

end RvCodec

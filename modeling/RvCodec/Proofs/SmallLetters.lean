import RvCodec.Disassembler
import RvCodec.Proofs.Tokens

/-!
# Texts in small letters

Whatever takes a text apart looks for characters that are no letters: line
ends, comment markers, blanks, separators, parentheses and signs.  So the parts
of a text in small letters are the parts of the text, in small letters.

Names are compared in lower case, which small letters do not change
(`lower_toLower`).  Two places look at the letters themselves: the opening of a
numeral and its digits (`Number.splitBase_map`, `digitValue?_toLower`).
-/

set_option autoImplicit false

namespace RvCodec

/-! ## Characters -/

namespace Text

/-- Only the capital letters change, each to its small letter. -/
theorem toLower_cases (c : Char) :
    c.toLower = c ∨ 65 ≤ c.toNat ∧ c.toNat ≤ 90 ∧ c.toLower.toNat = c.toNat + 32 := by
  by_cases upper : c.isUpper = true
  · right
    have bounds : 65 ≤ c.toNat ∧ c.toNat ≤ 90 := by
      simpa [Char.isUpper, UInt32.le_iff_toNat_le] using upper
    have valid : (c.toNat + 32).isValidChar := .inl (by omega)
    rw [Char.toLower_eq_of_isUpper upper, Char.toNat_ofNat, if_pos valid]
    exact ⟨bounds.1, bounds.2, rfl⟩
  · exact .inl (Char.toLower_eq_of_not_isUpper upper)

/-- A character that is no letter is not found anew among small letters. -/
theorem toLower_eq_iff {c d : Char} (other : d.isAlpha = false) : c.toLower = d ↔ c = d := by
  have unchanged {e : Char} (other : e.isAlpha = false) : e.toLower = e := by
    refine Char.toLower_eq_of_not_isUpper ?_
    intro upper
    simp [Char.isAlpha, upper] at other
  constructor
  · intro same
    subst same
    rw [Char.isAlpha_toLower_eq_isAlpha] at other
    exact (unchanged other).symm
  · intro same
    rw [same]
    exact unchanged other

/-- A small letter stands for itself or its capital letter. -/
theorem eq_or_eq_of_toLower {c d : Char} (same : c.toLower = d) :
    c = d ∨ c = Char.ofNat (d.toNat - 32) := by
  rcases toLower_cases c with unchanged | ⟨first, last, small⟩
  · exact .inl (unchanged.symm.trans same)
  · right
    rw [← same, small, Nat.add_sub_cancel, Char.ofNat_toNat]

theorem isBlank_toLower (c : Char) : isBlank c.toLower = isBlank c := by
  rcases toLower_cases c with same | ⟨first, last, small⟩
  · rw [same]
  · simp only [isBlank, inRanges, blankRanges, List.any_cons, List.any_nil, small]
    grind

theorem isSeparator_toLower (c : Char) : Source.isSeparator c.toLower = Source.isSeparator c := by
  have marks (d : Char) (other : d.isAlpha = false) : (c.toLower = d) = (c = d) :=
    propext (toLower_eq_iff other)
  have codes (n : Nat) (other : n < 65) : (c.toLower.toNat = n) = (c.toNat = n) := by
    rcases toLower_cases c with same | ⟨first, last, small⟩
    · rw [same]
    · rw [small]
      exact propext (by omega)
  simp only [Source.isSeparator, marks ' ' rfl, marks '\t' rfl, marks ',' rfl, marks '\r' rfl,
    codes 11 (by decide), codes 12 (by decide)]

theorem lowerChar_toLower (c : Char) : lowerChar c.toLower = lowerChar c := by
  rcases toLower_cases c with same | ⟨first, last, small⟩
  · rw [same]
  · rw [lowerChar, lowerChar, if_pos (by omega), if_pos (by omega),
      Char.toLower_toLower_eq_toLower]

theorem digitValue?_toLower (base : Nat) (c : Char) :
    digitValue? base c.toLower = digitValue? base c := by
  have code (c d : Char) : c ≤ d ↔ c.toNat ≤ d.toNat := Iff.rfl
  rcases toLower_cases c with same | ⟨first, last, small⟩
  · rw [same]
  · have value : c.toLower.toNat - 97 + 10 = c.toNat - 65 + 10 := by omega
    simp only [digitValue?, code, Char.reduceToNat]
    rw [if_neg (by omega), if_pos (by omega), if_neg (by omega), if_neg (by omega),
      if_pos (by omega), value]

/-! ## Texts -/

theorem toList_toLower (s : String) : s.toLower.toList = s.toList.map Char.toLower :=
  String.toList_map

theorem ofList_map_toLower (cs : List Char) :
    String.ofList (cs.map Char.toLower) = (String.ofList cs).toLower := by
  rw [← String.toList_inj, toList_toLower, String.toList_ofList, String.toList_ofList]

theorem toLower_toLower (s : String) : s.toLower.toLower = s.toLower := by
  rw [← String.toList_inj]
  simp only [toList_toLower, List.map_map, Function.comp_def, Char.toLower_toLower_eq_toLower]

/-- A text without letters is not found anew among texts in small letters. -/
theorem toLower_eq_text {s t : String} (other : ∀ c ∈ t.toList, c.isAlpha = false) :
    s.toLower = t ↔ s = t := by
  rw [← String.toList_inj, ← String.toList_inj, toList_toLower]
  generalize s.toList = cs
  generalize t.toList = ds at other
  induction ds generalizing cs with
  | nil => exact List.map_eq_nil_iff
  | cons d ds ih =>
    cases cs with
    | nil => simp
    | cons c cs =>
      rw [List.map_cons, List.cons.injEq, List.cons.injEq,
        toLower_eq_iff (other d List.mem_cons_self),
        ih cs fun c member => other c (List.mem_cons_of_mem _ member)]

theorem toLower_empty : "".toLower = "" := (toLower_eq_text (by simp)).mpr rfl

theorem toLower_append (s t : String) : (s ++ t).toLower = s.toLower ++ t.toLower := by
  simp [← String.toList_inj, toList_toLower]

/-- A comma is the same in small letters. -/
theorem intercalate_comma_map (ts : List String) :
    ",".intercalate (ts.map String.toLower) = (",".intercalate ts).toLower := by
  have comma : ",".toLower = "," := (toLower_eq_text (by simp)).mpr rfl
  induction ts with
  | nil => exact toLower_empty.symm
  | cons t ts ih =>
    cases ts with
    | nil => simp
    | cons u ts =>
      rw [List.map_cons] at ih ⊢
      rw [List.map_cons, String.intercalate_cons_cons, ih, String.intercalate_cons_cons,
        toLower_append, toLower_append, comma]

theorem isEmpty_toLower (s : String) : s.toLower.isEmpty = s.isEmpty := by
  rw [Bool.eq_iff_iff, String.isEmpty_iff, String.isEmpty_iff]
  exact toLower_eq_text (by simp)

theorem lower_toLower (s : String) : lower s.toLower = lower s := by
  simp only [lower, toList_toLower, List.map_map, Function.comp_def, lowerChar_toLower]

theorem trimBlank_map (cs : List Char) :
    trimBlank (cs.map Char.toLower) = (trimBlank cs).map Char.toLower := by
  have blank : isBlank ∘ Char.toLower = isBlank := funext isBlank_toLower
  simp only [trimBlank, List.dropWhile_map, ← List.map_reverse, blank]

theorem trim_toLower (s : String) : trim s.toLower = (trim s).toLower := by
  rw [trim, toList_toLower, trimBlank_map, ofList_map_toLower, trim]

theorem pieces_map {isSep : Char → Bool} (kept : ∀ c, isSep (Char.toLower c) = isSep c)
    (cs : List Char) :
    pieces isSep (cs.map Char.toLower) = (pieces isSep cs).map (List.map Char.toLower) := by
  induction cs with
  | nil => rfl
  | cons c cs ih =>
    have step (c : Char) (cs : List Char) : pieces isSep (c :: cs) =
        if isSep c then [] :: pieces isSep cs else consPiece c (pieces isSep cs) := rfl
    rw [List.map_cons, step, step, ih, kept]
    split
    · rfl
    · cases pieces isSep cs with
      | nil => rfl
      | cons piece rest => rfl

theorem readDigits_map (base acc : Nat) (cs : List Char) :
    readDigits base acc (cs.map Char.toLower) = readDigits base acc cs := by
  induction cs generalizing acc with
  | nil => rfl
  | cons c cs ih => simp only [List.map_cons, readDigits, digitValue?_toLower, ih]

theorem readNat?_map (base : Nat) (cs : List Char) :
    readNat? base (cs.map Char.toLower) = readNat? base cs := by
  rw [readNat?, readNat?, List.isEmpty_map, readDigits_map]

end Text

open Text

namespace Source

/-- The line in small letters. -/
def Line.lowered (l : Line) : Line := { l with text := l.text.toLower }

theorem dropComment_map (cs : List Char) :
    dropComment (cs.map Char.toLower) = (dropComment cs).map Char.toLower := by
  have marker (c : Char) : (c.toLower = '#' ∨ c.toLower = ';') = (c = '#' ∨ c = ';') := by
    rw [toLower_eq_iff rfl, toLower_eq_iff rfl]
  have slashes {c : Char} {cs : List Char}
      (other : ∀ tail, c = '/' → cs = '/' :: tail → False) (tail : List Char)
      (first : c.toLower = '/') (rest : cs.map Char.toLower = '/' :: tail) : False := by
    obtain ⟨d, ds, rfl, second, _⟩ := List.map_eq_cons_iff.mp rest
    rw [(toLower_eq_iff rfl).mp second] at other
    exact other ds ((toLower_eq_iff rfl).mp first) rfl
  fun_induction dropComment cs with
  | case1 => rfl
  | case2 cs => rfl
  | case3 c cs other found =>
    rw [List.map_cons, dropComment, if_pos ((marker c).mpr found), List.map_nil]
    exact slashes other
  | case4 c cs other plain ih =>
    rw [List.map_cons, dropComment, if_neg (by rwa [marker]), ih, List.map_cons]
    exact slashes other

theorem line?_map (raw : List Char) (number : Nat) :
    line? (raw.map Char.toLower) number = (line? raw number).map Line.lowered := by
  have contents : lineContents (raw.map Char.toLower) =
      (lineContents raw).map Char.toLower := by
    rw [lineContents, dropComment_map, trimBlank_map, lineContents]
  simp only [line?, contents, List.isEmpty_map]
  split
  · rfl
  · rw [ofList_map_toLower]
    rfl

/-- **The lines of a text in small letters** are its lines, in small letters. -/
theorem lines_toLower (s : String) : lines s.toLower = (lines s).map Line.lowered := by
  have split : splitChars '\n' s.toLower.toList =
      (splitChars '\n' s.toList).map (List.map Char.toLower) := by
    rw [splitChars_eq_pieces, splitChars_eq_pieces, toList_toLower]
    refine pieces_map ?_ _
    intro c
    exact decide_eq_decide.mpr (toLower_eq_iff rfl)
  rw [lines, split, List.zipIdx_map, List.filterMap_map, lines, List.map_filterMap]
  refine List.filterMap_congr ?_
  intro raw _
  exact line?_map raw.1 raw.2

theorem tokens_toLower (s : String) : tokens s.toLower = (tokens s).map String.toLower := by
  have fields : fieldChars isSeparator s.toLower.toList =
      (fieldChars isSeparator s.toList).map (List.map Char.toLower) := by
    have parts := pieces_map isSeparator_toLower s.toList
    rw [← toList_toLower] at parts
    unfold fieldChars
    unfold pieces at parts
    rw [parts, List.filter_map]
    simp only [Function.comp_def, List.isEmpty_map]
  simp only [tokens, fields, List.map_map, Function.comp_def, ofList_map_toLower]

end Source

/-! ## Numbers -/

namespace Number

theorem significant_toLower (s : String) :
    significant s.toLower = (significant s).map Char.toLower := by
  have mark (c : Char) : (c.toLower = '_') = (c = '_') := propext (toLower_eq_iff rfl)
  simp only [significant, toList_toLower, trimBlank_map, List.filter_map, Function.comp_def, ne_eq,
    mark]

theorem splitSign_map (cs : List Char) :
    splitSign (cs.map Char.toLower) = ((splitSign cs).1, (splitSign cs).2.map Char.toLower) := by
  cases cs with
  | nil => rfl
  | cons c cs =>
    by_cases minus : c = '-'
    · subst minus
      rfl
    by_cases plus : c = '+'
    · subst plus
      rfl
    have minus' : c.toLower ≠ '-' := mt (toLower_eq_iff rfl).mp minus
    have plus' : c.toLower ≠ '+' := mt (toLower_eq_iff rfl).mp plus
    simp [splitSign, minus, plus, minus', plus']

theorem splitBase_map (cs : List Char) :
    splitBase (cs.map Char.toLower) = ((splitBase cs).1, (splitBase cs).2.map Char.toLower) := by
  fun_cases splitBase cs with
  | case1 digits => rfl
  | case2 digits => rfl
  | case3 digits => rfl
  | case4 digits => rfl
  | case5 cs smallX capitalX smallB capitalB =>
    have opening {letter : Char} {digits : List Char}
        (shape : cs.map Char.toLower = '0' :: letter :: digits) :
        ∃ c rest, cs = '0' :: c :: rest ∧ c.toLower = letter := by
      obtain ⟨zero, tail, rfl, isZero, shape⟩ := List.map_eq_cons_iff.mp shape
      obtain ⟨c, rest, rfl, same, _⟩ := List.map_eq_cons_iff.mp shape
      exact ⟨c, rest, by rw [(toLower_eq_iff rfl).mp isZero], same⟩
    unfold splitBase
    split
    · next shape =>
      obtain ⟨c, rest, found, same⟩ := opening shape
      rcases eq_or_eq_of_toLower same with rfl | rfl
      · exact (smallX rest found).elim
      · exact (capitalX rest found).elim
    · next shape =>
      obtain ⟨c, rest, found, same⟩ := opening shape
      rcases eq_or_eq_of_toLower same with rfl | rfl <;> exact absurd same (by decide)
    · next shape =>
      obtain ⟨c, rest, found, same⟩ := opening shape
      rcases eq_or_eq_of_toLower same with rfl | rfl
      · exact (smallB rest found).elim
      · exact (capitalB rest found).elim
    · next shape =>
      obtain ⟨c, rest, found, same⟩ := opening shape
      rcases eq_or_eq_of_toLower same with rfl | rfl <;> exact absurd same (by decide)
    · rfl

theorem magnitude?_map (cs : List Char) : magnitude? (cs.map Char.toLower) = magnitude? cs := by
  rw [magnitude?, splitBase_map, magnitude?]
  dsimp only
  rw [readNat?_map]

end Number

theorem Disassembler.bareWord?_toLower (s : String) : bareWord? s.toLower = bareWord? s := by
  have digit : isHexDigit ∘ Char.toLower = isHexDigit := by
    funext c
    rw [Function.comp_apply, isHexDigit, digitValue?_toLower, isHexDigit]
  simp only [bareWord?, toList_toLower, List.length_map, List.all_map, digit, readNat?_map]

end RvCodec

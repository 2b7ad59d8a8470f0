import Mathlib
import RvCodec.Source
import RvCodec.Text.Case

/-!
# Tokens and lines

Written instructions use few characters: lower-case letters, digits, dots, minus
signs and parentheses inside a token, and a blank or a comma between tokens.
None of the token characters separates anything, starts a comment or changes
with the case.

So a text that is put together from tokens falls apart into the same tokens
(`Separates.tokens_intercalate`, `tokens_of_isToken`), and a text that is put together
from plain lines falls apart into the same lines (`lines_intercalate`).
-/

set_option autoImplicit false

namespace RvCodec

namespace Text

/-! ## Token characters -/

/-- The code points of the characters in tokens, as ascending closed intervals. -/
def tokenRanges : List CodeRange := [(40, 41), (45, 46), (48, 57), (97, 122)]

/-- The code point of a token character. -/
def isTokenCode (n : Nat) : Bool := tokenRanges.any fun r => r.1 ≤ n && n ≤ r.2

/-- A character of a token: a lower-case letter, a digit, a dot, a minus sign or a parenthesis. -/
def isTokenChar (c : Char) : Bool := isTokenCode c.toNat

/-- A non-empty string of token characters. -/
structure IsToken (s : String) : Prop where
  nonempty : s.toList ≠ []
  all : s.toList.all isTokenChar = true

instance (s : String) : Decidable (IsToken s) :=
  decidable_of_iff (s.toList ≠ [] ∧ s.toList.all isTokenChar = true)
    ⟨fun h => ⟨h.1, h.2⟩, fun h => ⟨h.1, h.2⟩⟩

theorem IsToken.chars {s : String} (token : IsToken s) : ∀ c ∈ s.toList, isTokenChar c = true :=
  List.all_eq_true.mp token.all

theorem IsToken.of_chars {s : String} (nonempty : s.toList ≠ [])
    (chars : ∀ c ∈ s.toList, isTokenChar c = true) : IsToken s :=
  ⟨nonempty, List.all_eq_true.mpr chars⟩

theorem isTokenCode_iff {n : Nat} :
    isTokenCode n = true ↔ (40 ≤ n ∧ n ≤ 41) ∨ (45 ≤ n ∧ n ≤ 46) ∨ (48 ≤ n ∧ n ≤ 57) ∨
      (97 ≤ n ∧ n ≤ 122) := by
  simp [isTokenCode, tokenRanges]

theorem isBlank_of_isTokenChar {c : Char} (char : isTokenChar c = true) : isBlank c = false := by
  have code := isTokenCode_iff.mp char
  simp only [isBlank, inRanges, blankRanges, List.any_cons, List.any_nil, Bool.or_false,
    Bool.or_eq_false_iff, Bool.and_eq_false_iff, decide_eq_false_iff_not]
  omega

/-- A character with another code point is another character. -/
theorem ne_of_isTokenChar {c d : Char} (char : isTokenChar c = true)
    (other : isTokenChar d = false) : c ≠ d := by
  rintro rfl
  rw [char] at other
  cases other

theorem isSeparator_of_isTokenChar {c : Char} (char : isTokenChar c = true) :
    Source.isSeparator c = false := by
  have code := isTokenCode_iff.mp char
  have space := ne_of_isTokenChar (d := ' ') char (by decide)
  have tab := ne_of_isTokenChar (d := '\t') char (by decide)
  have comma := ne_of_isTokenChar (d := ',') char (by decide)
  have carriage := ne_of_isTokenChar (d := '\r') char (by decide)
  simp only [Source.isSeparator, Bool.or_eq_false_iff, decide_eq_false_iff_not]
  exact ⟨⟨⟨⟨⟨space, tab⟩, comma⟩, carriage⟩, by omega⟩, by omega⟩

theorem lowerChar_of_isTokenChar {c : Char} (char : isTokenChar c = true) : lowerChar c = c := by
  have code := isTokenCode_iff.mp char
  have small : ¬ (c.val ≥ 'A'.val ∧ c.val ≤ 'Z'.val) := by
    rintro ⟨above, below⟩
    have lower : 65 ≤ c.toNat := above
    have upper : c.toNat ≤ 90 := below
    omega
  rw [lowerChar, if_pos (by omega), Char.toLower, dif_neg small]

/-- A token is not changed by the change to lower case. -/
theorem IsToken.lower {s : String} (token : IsToken s) : lower s = s := by
  have same : s.toList.map lowerChar = s.toList.map id :=
    List.map_congr_left fun c member => lowerChar_of_isTokenChar (token.chars c member)
  rw [Text.lower, same, List.map_id, String.ofList_toList]

/-- A string whose bytes are all code points of token characters is a token. -/
theorem IsToken.of_bytes {s : String} (nonempty : s.toByteArray.data.toList ≠ [])
    (bytes : s.toByteArray.data.toList.all (isTokenCode ·.toNat) = true) : IsToken s := by
  have encoded : s.toByteArray.data.toList = s.toList.flatMap String.utf8EncodeChar := by
    rw [← String.utf8Encode_toList, List.utf8Encode]
    simp
  refine .of_chars ?_ ?_
  · intro empty
    rw [encoded, empty] at nonempty
    exact nonempty rfl
  · intro c member
    have within : ∀ b ∈ String.utf8EncodeChar c, isTokenCode b.toNat = true := by
      rw [encoded, List.all_eq_true] at bytes
      intro b inside
      exact bytes b (List.mem_flatMap.mpr ⟨c, member, inside⟩)
    by_cases ascii : c.toNat ≤ 127
    · have code := within (UInt8.ofNat c.toNat) (by simp [String.utf8EncodeChar, ascii])
      rwa [UInt8.toNat_ofNat_of_lt' (by change c.toNat < 256; omega)] at code
    · -- The last byte of a longer character is beyond the token characters.
      have last : UInt8.ofNat (c.toNat % 64 + 128) ∈ String.utf8EncodeChar c := by
        have long : ¬ c.val.toNat ≤ 127 := ascii
        rw [String.utf8EncodeChar]
        simp only [long, ↓reduceIte]
        split
        · simp
        · split <;> simp
      have code := within _ last
      rw [isTokenCode_iff, UInt8.toNat_ofNat_of_lt' (by change _ < 256; omega)] at code
      omega

/-- Tokens put together are a token. -/
theorem IsToken.append {s t : String} (first : IsToken s)
    (rest : ∀ c ∈ t.toList, isTokenChar c = true) : IsToken (s ++ t) := by
  refine .of_chars ?_ ?_
  · simp [String.toList_append, first.nonempty]
  · intro c member
    rw [String.toList_append, List.mem_append] at member
    exact member.elim (first.chars c) (rest c)

/-! ## Blanks at the ends -/

/-- Nothing is trimmed from characters that start and end with something else than a blank. -/
theorem trimBlank_eq_self {cs : List Char} (start : ∀ c ∈ cs.head?, isBlank c = false)
    (stop : ∀ c ∈ cs.getLast?, isBlank c = false) : trimBlank cs = cs := by
  have keep : ∀ {cs : List Char}, (∀ c ∈ cs.head?, isBlank c = false) →
      cs.dropWhile isBlank = cs := by
    intro cs start
    cases cs with
    | nil => rfl
    | cons c cs => rw [List.dropWhile_cons_of_neg (by simp [start c rfl])]
  rw [trimBlank, keep start, keep (by rwa [List.head?_reverse]), List.reverse_reverse]

theorem IsToken.trimBlank {s : String} (token : IsToken s) : trimBlank s.toList = s.toList :=
  trimBlank_eq_self
    (fun c first => isBlank_of_isTokenChar (token.chars c (List.mem_of_mem_head? first)))
    (fun c last => isBlank_of_isTokenChar (token.chars c (List.mem_of_mem_getLast? last)))

/-! ## Pieces between separators -/

/-- The pieces between separators, the empty ones included. -/
def pieces (isSep : Char → Bool) (cs : List Char) : List (List Char) :=
  cs.foldr (fun c pieces => if isSep c then [] :: pieces else consPiece c pieces) [[]]

theorem splitChars_eq_pieces (sep : Char) (cs : List Char) :
    splitChars sep cs = pieces (fun c => decide (c = sep)) cs := by
  simp [splitChars, pieces]

section Pieces

variable {isSep : Char → Bool}

theorem pieces_ne_nil (isSep : Char → Bool) (cs : List Char) : pieces isSep cs ≠ [] := by
  cases cs with
  | nil => simp [pieces]
  | cons c cs =>
    rw [pieces, List.foldr_cons]
    split
    · simp
    · unfold consPiece
      split <;> simp

/-- A separator keeps the pieces on its two sides apart. -/
theorem pieces_append {s : Char} (separates : isSep s = true) (xs ys : List Char) :
    pieces isSep (xs ++ s :: ys) = pieces isSep xs ++ pieces isSep ys := by
  induction xs with
  | nil => simp [pieces, separates]
  | cons c xs ih =>
    have step : ∀ cs, pieces isSep (c :: cs) =
        if isSep c then [] :: pieces isSep cs else consPiece c (pieces isSep cs) := fun _ => rfl
    rw [List.cons_append, step, step, ih]
    split
    · rfl
    · obtain ⟨piece, rest, shape⟩ := List.exists_cons_of_ne_nil (pieces_ne_nil isSep xs)
      simp [shape, consPiece]

/-- Characters without a separator are one piece. -/
theorem pieces_eq_singleton {cs : List Char} (none : ∀ c ∈ cs, isSep c = false) :
    pieces isSep cs = [cs] := by
  induction cs with
  | nil => rfl
  | cons c cs ih =>
    have tail := ih fun d member => none d (List.mem_cons_of_mem _ member)
    have step : pieces isSep (c :: cs) =
        if isSep c then [] :: pieces isSep cs else consPiece c (pieces isSep cs) := rfl
    rw [step, none c List.mem_cons_self, tail]
    rfl

theorem fieldChars_append {s : Char} (separates : isSep s = true) (xs ys : List Char) :
    fieldChars isSep (xs ++ s :: ys) = fieldChars isSep xs ++ fieldChars isSep ys := by
  have fields : ∀ cs, fieldChars isSep cs = (pieces isSep cs).filter fun piece => !piece.isEmpty :=
    fun _ => rfl
  rw [fields, fields, fields, pieces_append separates, List.filter_append]

/-- Separators in front of a text make no field. -/
theorem fieldChars_separators_append {sep : List Char} (separates : ∀ s ∈ sep, isSep s = true)
    (cs : List Char) : fieldChars isSep (sep ++ cs) = fieldChars isSep cs := by
  induction sep with
  | nil => rfl
  | cons s sep ih =>
    have dropped := fieldChars_append (separates s List.mem_cons_self) [] (sep ++ cs)
    have rest := ih fun s' member => separates s' (List.mem_cons_of_mem _ member)
    exact dropped.trans rest

end Pieces

end Text

namespace Source

open Text

/-! ## Tokens of a line -/

theorem tokens_of_isToken {s : String} (token : IsToken s) : tokens s = [s] := by
  have one : pieces isSeparator s.toList = [s.toList] :=
    pieces_eq_singleton fun c member => isSeparator_of_isTokenChar (token.chars c member)
  have fields : fieldChars isSeparator s.toList =
      (pieces isSeparator s.toList).filter fun piece => !piece.isEmpty := rfl
  rw [tokens, fields, one]
  simp [token.nonempty]

/-- The text stands between tokens. -/
structure Separates (sep : String) : Prop where
  nonempty : sep.toList ≠ []
  chars : sep.toList.all isSeparator = true

theorem Separates.tokens_append {sep : String} (separates : Separates sep) (s t : String) :
    tokens (s ++ sep ++ t) = tokens s ++ tokens t := by
  obtain ⟨c, cs, shape⟩ := List.exists_cons_of_ne_nil separates.nonempty
  have chars := List.all_eq_true.mp separates.chars
  rw [shape] at chars
  have parts : (s ++ sep ++ t).toList = s.toList ++ c :: (cs ++ t.toList) := by simp [shape]
  rw [tokens, parts, fieldChars_append (chars c List.mem_cons_self),
    fieldChars_separators_append fun c' member => chars c' (List.mem_cons_of_mem _ member),
    List.map_append]
  rfl

theorem tokens_append_blank (s t : String) : tokens (s ++ " " ++ t) = tokens s ++ tokens t :=
  Separates.tokens_append ⟨by decide, by decide⟩ s t

/-- **The tokens of a list of texts are the tokens of each.** -/
theorem Separates.tokens_intercalate {sep : String} (separates : Separates sep)
    (ts : List String) : tokens (sep.intercalate ts) = ts.flatMap tokens := by
  induction ts with
  | nil => rw [String.intercalate_nil]; rfl
  | cons t ts ih =>
    cases ts with
    | nil => simp
    | cons u ts =>
      rw [String.intercalate_cons_cons, separates.tokens_append, ih]
      simp only [List.flatMap_cons]

/-- Tokens that were joined are found again. -/
theorem Separates.tokens_join {sep : String} (separates : Separates sep) {ts : List String}
    (clean : ∀ t ∈ ts, IsToken t) : tokens (sep.intercalate ts) = ts := by
  have each : ∀ t ∈ ts, tokens t = [t] := fun t member => tokens_of_isToken (clean t member)
  rw [separates.tokens_intercalate, List.flatMap_congr each, List.flatMap_singleton']

theorem separates_comma : Separates "," := ⟨by decide, by decide⟩

theorem separates_commaBlank : Separates ", " := ⟨by decide, by decide⟩

/-! ## Lines of a text -/

/-- A line as it is written: tokens with blanks and commas between them, and nothing else. -/
structure Plain (s : String) : Prop where
  chars : ∀ c ∈ s.toList, isTokenChar c = true ∨ c = ' ' ∨ c = ','
  starts : ∃ c ∈ s.toList.head?, isTokenChar c = true
  ends : ∃ c ∈ s.toList.getLast?, isTokenChar c = true

theorem Plain.of_isToken {s : String} (token : IsToken s) : Plain s where
  chars c member := .inl (token.chars c member)
  starts := by
    obtain ⟨c, cs, shape⟩ := List.exists_cons_of_ne_nil token.nonempty
    exact ⟨c, by simp [shape], token.chars c (by simp [shape])⟩
  ends := ⟨_, List.getLast?_eq_some_getLast token.nonempty,
    token.chars _ (List.getLast_mem token.nonempty)⟩

/-- Plain texts with blanks and commas between them are plain. -/
theorem Plain.append {s t : String} (first : Plain s) (second : Plain t) {between : String}
    (separators : ∀ c ∈ between.toList, c = ' ' ∨ c = ',') : Plain (s ++ between ++ t) where
  chars c member := by
    simp only [String.toList_append, List.mem_append] at member
    obtain (inFirst | inBetween) | inSecond := member
    · exact first.chars c inFirst
    · exact .inr (separators c inBetween)
    · exact second.chars c inSecond
  starts := by
    obtain ⟨c, head, char⟩ := first.starts
    refine ⟨c, ?_, char⟩
    rw [Option.mem_def] at head ⊢
    simp [String.toList_append, head]
  ends := by
    obtain ⟨c, last, char⟩ := second.ends
    refine ⟨c, ?_, char⟩
    rw [Option.mem_def] at last ⊢
    simp [String.toList_append, last]

theorem Plain.intercalate {ts : List String} (nonempty : ts ≠ []) (plain : ∀ t ∈ ts, Plain t) :
    Plain (", ".intercalate ts) := by
  induction ts with
  | nil => exact absurd rfl nonempty
  | cons t ts ih =>
    cases ts with
    | nil => simpa using plain t List.mem_cons_self
    | cons u ts =>
      rw [String.intercalate_cons_cons]
      exact (plain t List.mem_cons_self).append
        (ih (by simp) fun v member => plain v (List.mem_cons_of_mem _ member)) (by simp)

/-- Characters that start no comment are all kept. -/
theorem dropComment_eq_self {cs : List Char} (none : ∀ c ∈ cs, c ≠ '#' ∧ c ≠ ';' ∧ c ≠ '/') :
    dropComment cs = cs := by
  induction cs with
  | nil => rfl
  | cons c cs ih =>
    obtain ⟨hash, semicolon, slash⟩ := none c List.mem_cons_self
    have tail := ih fun d member => none d (List.mem_cons_of_mem _ member)
    rw [dropComment]
    · rw [tail, if_neg (by simp [hash, semicolon])]
    · rintro rest rfl
      exact absurd rfl slash

/-- A character of a plain line is none of those that mean something else. -/
theorem Plain.char_ne {s : String} (plain : Plain s) {c d : Char} (member : c ∈ s.toList)
    (other : isTokenChar d = false) (space : d ≠ ' ') (comma : d ≠ ',') : c ≠ d := by
  obtain char | rfl | rfl := plain.chars c member
  · exact ne_of_isTokenChar char other
  · exact space.symm
  · exact comma.symm

/-- A plain line says what is written on it. -/
theorem Plain.line? {s : String} (plain : Plain s) (number : Nat) :
    line? s.toList number = some ⟨number, s⟩ := by
  obtain ⟨c, head, char⟩ := plain.starts
  have nonempty : s.toList ≠ [] := by
    intro empty
    simp [empty] at head
  have contents : lineContents s.toList = s.toList := by
    rw [lineContents, dropComment_eq_self fun d member =>
      ⟨plain.char_ne member (by decide) (by decide) (by decide),
        plain.char_ne member (by decide) (by decide) (by decide),
        plain.char_ne member (by decide) (by decide) (by decide)⟩]
    refine trimBlank_eq_self ?_ ?_
    · intro d first
      obtain rfl : c = d := Option.some.inj (head.symm.trans first)
      exact isBlank_of_isTokenChar char
    · intro d last
      obtain ⟨e, last', char'⟩ := plain.ends
      obtain rfl : e = d := Option.some.inj (last'.symm.trans last)
      exact isBlank_of_isTokenChar char'
  simp [Source.line?, contents, nonempty]

/-- Plain lines put together are split into the same lines. -/
theorem splitChars_intercalate {l : String} {ls : List String} (plain : ∀ l' ∈ l :: ls, Plain l') :
    splitChars '\n' ("\n".intercalate (l :: ls)).toList = (l :: ls).map String.toList := by
  have one : ∀ {l : String}, Plain l → splitChars '\n' l.toList = [l.toList] := by
    intro l plain
    rw [splitChars_eq_pieces]
    exact pieces_eq_singleton fun c member =>
      decide_eq_false (plain.char_ne member (by decide) (by decide) (by decide))
  induction ls generalizing l with
  | nil =>
    rw [String.intercalate_singleton, one (plain l List.mem_cons_self)]
    rfl
  | cons u ls ih =>
    have shape : ("\n".intercalate (l :: u :: ls)).toList =
        l.toList ++ '\n' :: ("\n".intercalate (u :: ls)).toList := by
      simp [String.intercalate_cons_cons]
    have rest := ih fun l' member => plain l' (List.mem_cons_of_mem _ member)
    have first := one (plain l List.mem_cons_self)
    rw [splitChars_eq_pieces] at first rest
    rw [splitChars_eq_pieces, shape, pieces_append (by decide), first, rest]
    rfl

/-- **The lines of plain lines put together are the same lines.** -/
theorem lines_intercalate {ls : List String} (plain : ∀ l ∈ ls, Plain l) :
    (lines ("\n".intercalate ls)).map (·.text) = ls := by
  have numbered : ∀ {ls : List String} (n : Nat), (∀ l ∈ ls, Plain l) →
      (((ls.map String.toList).zipIdx n).filterMap fun entry =>
        Source.line? entry.1 entry.2).map (·.text) = ls := by
    intro ls n plain
    induction ls generalizing n with
    | nil => rfl
    | cons l ls ih =>
      have tail := ih (n + 1) fun l' member => plain l' (List.mem_cons_of_mem _ member)
      have head := (plain l List.mem_cons_self).line? n
      rw [List.map_cons, List.zipIdx_cons, List.filterMap_cons_some (a := (l.toList, n)) head,
        List.map_cons, tail]
  cases ls with
  | nil => rw [String.intercalate_nil]; rfl
  | cons l ls =>
    rw [lines, splitChars_intercalate plain]
    exact numbered 1 plain

/-- What relates to plain lines relates to the lines of the text that they are put together to. -/
theorem forall₂_lines {β : Type} (R : String → β → Prop) {ls : List String} {bs : List β}
    (plain : ∀ l ∈ ls, Plain l) (all : List.Forall₂ R ls bs) :
    List.Forall₂ (fun line b => R line.text b) (lines ("\n".intercalate ls)) bs := by
  rw [← lines_intercalate plain] at all
  exact List.forall₂_map_left_iff.mp all

end Source

end RvCodec

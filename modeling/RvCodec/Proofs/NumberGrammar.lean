import RvCodec.Proofs.WordTokens

/-!
# The grammar of numbers

The numbers that a text denotes, said without a reader.  Blanks at the ends do not
count and neither do underscores (`Trims`, `Denotes`).  What remains is a literal:
at most one sign, and digits in the base that their mark announces, or decimal
digits without a mark.  The number is the one that the digits make up, and it has to
fit 64 bits with a sign.

The reader takes exactly these texts and finds their number (`grammar_exact`).  It
gives up on magnitudes from 2^64 on before it looks at the sign, which does not show,
since no number beyond 2^63 is read anyhow.  Nor does it show that it looks for a mark
first, since no decimal numeral has a letter in it.

What is written for a number reads back exactly as long as the number fits
(`immediates_read_back`).
-/

set_option autoImplicit false

namespace RvCodec

namespace Text

/-! ## Trimming -/

/-- The core is what stands between the blanks at the ends, and begins and ends without one. -/
structure Trims (cs core : List Char) : Prop where
  between : ∃ front back, cs = front ++ core ++ back ∧ (∀ c ∈ front, isBlank c = true) ∧
    ∀ c ∈ back, isBlank c = true
  first : ∀ c ∈ core.head?, isBlank c = false
  last : ∀ c ∈ core.getLast?, isBlank c = false

theorem Trims.eq_trimBlank {cs core : List Char} (trims : Trims cs core) : core = trimBlank cs := by
  obtain ⟨front, back, rfl, fronts, backs⟩ := trims.between
  rw [trimBlank_append_blanks backs, trimBlank, List.dropWhile_append_of_pos fronts]
  exact (trimBlank_eq_self trims.first trims.last).symm

theorem exists_trims (cs : List Char) : ∃ core, Trims cs core := by
  obtain ⟨core, back, rest, last, backs⟩ := exists_append_blanks (cs.dropWhile isBlank)
  refine ⟨core, ⟨cs.takeWhile isBlank, back, ?_, ?_, backs⟩, ?_, last⟩
  · rw [List.append_assoc, ← rest, List.takeWhile_append_dropWhile]
  · exact fun c member => List.mem_takeWhile_imp member
  · intro c first
    have begins : (cs.dropWhile isBlank).head? = some c := by
      rw [rest, List.head?_append, first, Option.some_or]
    have stops := List.head?_dropWhile_not isBlank cs
    rw [begins] at stops
    simpa using stops

/-- **Trimming finds the core**, of which there is one. -/
theorem trims_iff {cs core : List Char} : Trims cs core ↔ core = trimBlank cs := by
  constructor
  · exact Trims.eq_trimBlank
  · rintro rfl
    obtain ⟨core, trims⟩ := exists_trims cs
    rwa [← trims.eq_trimBlank]

/-! ## Digits -/

/-- The digit of a base, in either case, that stands for a number. -/
def IsDigit (base : Nat) (c : Char) (d : Nat) : Prop :=
  d < base ∧ (c = d.digitChar ∨ c = d.digitChar.toUpper)

/-- One digit of the base or more, which make up the number. -/
structure IsNumeral (base : Nat) (cs : List Char) (n : Nat) : Prop where
  nonempty : cs ≠ []
  digits : ∃ ds, List.Forall₂ (IsDigit base) cs ds ∧ Nat.ofDigits base ds.reverse = n

variable {base : Nat} (bounded : base ≤ 16)
include bounded

theorem digitValue?_eq_some {c : Char} {d : Nat} :
    digitValue? base c = some d ↔ IsDigit base c d := by
  have values : ∀ n < 128, ∀ d ∈ digitValue? 16 (Char.ofNat n),
      Char.ofNat n = d.digitChar ∨ Char.ofNat n = d.digitChar.toUpper := by
    decide
  have digits : ∀ d < 16, digitValue? 16 d.digitChar = some d ∧
      digitValue? 16 d.digitChar.toUpper = some d := by
    decide
  rw [digitValue?_eq_filter bounded, Option.filter_eq_some_iff, decide_eq_true_eq, IsDigit, and_comm]
  refine and_congr_right fun small => ⟨fun value => ?_, ?_⟩
  · have ascii : c.toNat < 128 := by
      have codes := code_of_digit (by rw [value]; rfl)
      omega
    simpa using values c.toNat ascii d (by simpa using value)
  · rintro (rfl | rfl)
    · exact (digits d (by omega)).1
    · exact (digits d (by omega)).2

theorem readDigits_eq_some {acc n : Nat} {cs : List Char} :
    readDigits base acc cs = some n ↔ ∃ ds, List.Forall₂ (IsDigit base) cs ds ∧
      acc * base ^ cs.length + Nat.ofDigits base ds.reverse = n := by
  induction cs generalizing acc with
  | nil => simp [readDigits]
  | cons c cs ih =>
    have step {d : Nat} {ds : List Nat} (paired : List.Forall₂ (IsDigit base) cs ds) :
        (acc * base + d) * base ^ cs.length + Nat.ofDigits base ds.reverse =
          acc * base ^ (c :: cs).length + Nat.ofDigits base (d :: ds).reverse := by
      rw [List.reverse_cons, Nat.ofDigits_append, List.length_reverse, ← paired.length_eq,
        Nat.ofDigits_singleton, List.length_cons]
      ring
    rw [readDigits]
    constructor
    · intro read
      split at read
      · next d value =>
        obtain ⟨ds, paired, rfl⟩ := ih.mp read
        have digit := (digitValue?_eq_some bounded).mp value
        exact ⟨d :: ds, .cons digit paired, (step paired).symm⟩
      · cases read
    · rintro ⟨_, paired, rfl⟩
      cases paired with
      | cons digit paired =>
        rw [(digitValue?_eq_some bounded).mpr digit]
        exact ih.mpr ⟨_, paired, step paired⟩

/-- **Digits are read as the number that they make up.** -/
theorem readNat?_iff_isNumeral {cs : List Char} {n : Nat} :
    readNat? base cs = some n ↔ IsNumeral base cs n := by
  rw [readNat?_eq_some, readDigits_eq_some bounded, Nat.zero_mul]
  simp only [Nat.zero_add]
  exact ⟨fun ⟨nonempty, digits⟩ => ⟨nonempty, digits⟩, fun ⟨nonempty, digits⟩ => ⟨nonempty, digits⟩⟩

end Text

theorem Marks.base_le {letter : Char} {base : Nat} (mark : Marks letter base) : base ≤ 16 := by
  obtain ⟨rfl, -⟩ | ⟨rfl, -⟩ := mark <;> decide

namespace Number

open Text

/-! ## Literals -/

/-- A literal without a sign, and its number. -/
inductive Magnitude : List Char → Nat → Prop
  | marked {letter : Char} {base n : Nat} {digits : List Char} (mark : Marks letter base)
    (numeral : IsNumeral base digits n) : Magnitude ('0' :: letter :: digits) n
  | decimal {n : Nat} {digits : List Char} (numeral : IsNumeral 10 digits n) : Magnitude digits n

/-- A literal, and its number. -/
inductive Literal : List Char → Int → Prop
  | unsigned {n : Nat} {cs : List Char} (magnitude : Magnitude cs n) : Literal cs n
  | positive {n : Nat} {cs : List Char} (magnitude : Magnitude cs n) : Literal ('+' :: cs) n
  | negative {n : Nat} {cs : List Char} (magnitude : Magnitude cs n) : Literal ('-' :: cs) (-n)

theorem isDigit_of_isNumeral {cs : List Char} {n : Nat} (numeral : IsNumeral 10 cs n) :
    ∀ c ∈ cs, c.isDigit = true := by
  obtain ⟨ds, paired, -⟩ := numeral.digits
  have decimal : ∀ d < 10, d.digitChar.isDigit = true ∧ d.digitChar.toUpper.isDigit = true := by
    decide
  intro c member
  obtain ⟨d, -, small, rfl | rfl⟩ := Outcome.exists_of_mem_left paired member
  · exact (decimal d small).1
  · exact (decimal d small).2

/-- A literal without a sign begins with a digit. -/
theorem Magnitude.splitSign_eq {cs : List Char} {n : Nat} (magnitude : Magnitude cs n) :
    splitSign cs = (false, cs) := by
  cases magnitude with
  | marked mark numeral => exact splitSign_of_digit (by decide) _
  | decimal numeral =>
    obtain ⟨c, rest, rfl⟩ := List.exists_cons_of_ne_nil numeral.nonempty
    exact splitSign_of_digit (isDigit_of_isNumeral numeral c List.mem_cons_self) rest

/-- **Literals without a sign are read** if they are below 2^64. -/
theorem magnitude?_eq_some {cs : List Char} {n : Nat} :
    magnitude? cs = some n ↔ Magnitude cs n ∧ n < 2 ^ 64 := by
  have split : magnitude? cs = some n ↔
      readNat? (splitBase cs).1 (splitBase cs).2 = some n ∧ n < 2 ^ 64 := by
    rw [magnitude?, Option.filter_eq_some_iff, decide_eq_true_eq]
    rfl
  rw [split]
  refine and_congr_left fun _ => ⟨fun read => ?_, ?_⟩
  · unfold splitBase at read
    split at read
    · exact .marked (.inl ⟨rfl, .inl rfl⟩) ((readNat?_iff_isNumeral (by decide)).mp read)
    · exact .marked (.inl ⟨rfl, .inr rfl⟩) ((readNat?_iff_isNumeral (by decide)).mp read)
    · exact .marked (.inr ⟨rfl, .inl rfl⟩) ((readNat?_iff_isNumeral (by decide)).mp read)
    · exact .marked (.inr ⟨rfl, .inr rfl⟩) ((readNat?_iff_isNumeral (by decide)).mp read)
    · exact .decimal ((readNat?_iff_isNumeral (show 10 ≤ 16 by decide)).mp read)
  · rintro (⟨mark, numeral⟩ | ⟨numeral⟩)
    · have value := (readNat?_iff_isNumeral mark.base_le).mpr numeral
      obtain ⟨rfl, rfl | rfl⟩ | ⟨rfl, rfl | rfl⟩ := mark <;> exact value
    · have value := (readNat?_iff_isNumeral (by decide)).mpr numeral
      rwa [splitBase_of_digits (isDigit_of_isNumeral numeral)]

/-! ## Texts -/

/-- The number fits 64 bits with a sign. -/
def Fits (v : Int) : Prop := -2 ^ 63 ≤ v ∧ v < 2 ^ 63

/-- The number that a text denotes, if any: blanks at the ends and underscores aside, the text is a
literal, and its number fits. -/
def Denotes (text : String) (v : Int) : Prop :=
  ∃ core, Trims text.toList core ∧ Literal (core.filter (· ≠ '_')) v ∧ Fits v

theorem splitSign_cases (cs : List Char) :
    (∃ rest, cs = '-' :: rest ∧ splitSign cs = (true, rest)) ∨
    (∃ rest, cs = '+' :: rest ∧ splitSign cs = (false, rest)) ∨ splitSign cs = (false, cs) := by
  unfold splitSign
  split <;> simp

section

variable {text : String} {v : Int}

/-- With its sign split off, a number is read if its magnitude is and it fits. -/
theorem parse_signed {negative : Bool} {digits : List Char}
    (sign : splitSign (significant text) = (negative, digits)) :
    parse text = .ok v ↔
      ∃ n : Nat, magnitude? digits = some n ∧ v = (if negative then -(n : Int) else n) ∧ Fits v := by
  rw [parse, sign]
  dsimp only
  unfold Fits
  cases magnitude? digits with
  | none => simp
  | some n =>
    simp only [Nat.one_shiftLeft, Option.some.injEq, exists_eq_left']
    cases negative with
    | true =>
      simp only [↓reduceIte]
      split
      · rw [Except.ok.injEq]
        omega
      · simp only [reduceCtorEq, false_iff]
        omega
    | false =>
      simp only [Bool.false_eq_true, ↓reduceIte]
      split
      · rw [Except.ok.injEq]
        omega
      · simp only [reduceCtorEq, false_iff]
        omega

/-- What counts of a text is read as a literal. -/
theorem parse_eq_ok_iff : parse text = .ok v ↔ Literal (significant text) v ∧ Fits v := by
  constructor
  · intro parsed
    obtain ⟨rest, shape, sign⟩ | ⟨rest, shape, sign⟩ | sign := splitSign_cases (significant text)
    · obtain ⟨n, read, rfl, fits⟩ := (parse_signed sign).mp parsed
      exact ⟨shape ▸ .negative (magnitude?_eq_some.mp read).1, fits⟩
    · obtain ⟨n, read, rfl, fits⟩ := (parse_signed sign).mp parsed
      exact ⟨shape ▸ .positive (magnitude?_eq_some.mp read).1, fits⟩
    · obtain ⟨n, read, rfl, fits⟩ := (parse_signed sign).mp parsed
      exact ⟨.unsigned (magnitude?_eq_some.mp read).1, fits⟩
  · rintro ⟨literal, fits⟩
    have read {n : Nat} {digits : List Char} (magnitude : Magnitude digits n)
        (same : v.natAbs = n) : magnitude? digits = some n := by
      unfold Fits at fits
      exact magnitude?_eq_some.mpr ⟨magnitude, by omega⟩
    generalize counted : significant text = cs at literal
    cases literal with
    | unsigned magnitude =>
      have sign : splitSign (significant text) = (false, cs) := by
        rw [counted, magnitude.splitSign_eq]
      exact (parse_signed sign).mpr ⟨_, read magnitude (Int.natAbs_natCast _), rfl, fits⟩
    | @positive _ rest magnitude =>
      have sign : splitSign (significant text) = (false, rest) := by rw [counted, splitSign]
      exact (parse_signed sign).mpr ⟨_, read magnitude (Int.natAbs_natCast _), rfl, fits⟩
    | @negative _ rest magnitude =>
      have sign : splitSign (significant text) = (true, rest) := by rw [counted, splitSign]
      exact (parse_signed sign).mpr ⟨_, read magnitude (by simp), rfl, fits⟩

theorem parse_eq_ok_iff_denotes : parse text = .ok v ↔ Denotes text v := by
  rw [parse_eq_ok_iff]
  constructor
  · rintro ⟨literal, fits⟩
    exact ⟨_, trims_iff.mpr rfl, literal, fits⟩
  · rintro ⟨core, trims, literal, fits⟩
    obtain rfl := trims_iff.mp trims
    exact ⟨literal, fits⟩

theorem kind_of_parse {fault : Fault} (failed : parse text = .error fault) :
    fault.kind = .invalidOperand := by
  unfold parse at failed
  dsimp only at failed
  split at failed
  · cases failed
    rfl
  · split at failed <;> split at failed <;> cases failed <;> rfl

end

/-- **The reader takes exactly the numbers of the grammar.**  A text is read as a number if and only
if it denotes it, and a text that denotes none is an invalid operand. -/
theorem grammar_exact (text : String) :
    (∀ v, parse text = .ok v ↔ Denotes text v) ∧
    ((∃ fault, parse text = .error fault ∧ fault.kind = .invalidOperand) ↔
      ¬ ∃ v, Denotes text v) := by
  refine ⟨fun v => parse_eq_ok_iff_denotes, ?_⟩
  simp only [← parse_eq_ok_iff_denotes]
  cases parsed : parse text with
  | ok v => simp
  | error fault => simp [kind_of_parse parsed]

example : parse " -0X8000_0000_0000_0000\n" = .ok (-2 ^ 63) ∧
    parse "0x8000_0000_0000_0000" = .error (.numberOutOfRange "0x8000_0000_0000_0000") := by
  decide

/-! ## Written numbers -/

/-- **What is written for a number reads back as the number** exactly if it fits, in either base. -/
theorem immediates_read_back (v : Int) (base : NumberBase) :
    parse (text v base) = .ok v ↔ -2 ^ 63 ≤ v ∧ v < 2 ^ 63 :=
  ⟨fun parsed => (parse_eq_ok_iff.mp parsed).2, fun fits => parse_text fits.1 fits.2 base⟩

end Number

end RvCodec

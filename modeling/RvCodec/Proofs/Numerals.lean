import RvCodec.Number
import RvCodec.Proofs.Tokens

/-!
# Numerals read back

The digits of a number, with or without leading zeros, read back as the number
(`readNat?_toDigits`, `readNat?_padded`).  Everything that is written with them
reads back too: the numbers of immediates in either base (`Number.parse_text`)
and machine words (`Number.parse_wordText`).
-/

set_option autoImplicit false

namespace RvCodec

namespace Text

/-! ## Digits -/

variable {base : Nat}

/-- The digits of a base are the first ones of sixteen. -/
theorem digitValue?_eq_filter (bounded : base ≤ 16) (c : Char) :
    digitValue? base c = (digitValue? 16 c).filter (· < base) := by
  unfold digitValue?
  dsimp only
  rw [Option.filter_filter]
  congr 1
  funext n
  by_cases below : n < base
  · simp [below, Nat.lt_of_lt_of_le below bounded]
  · simp [below]

theorem digitValue?_digitChar {d : Nat} (small : d < base) (bounded : base ≤ 16) :
    digitValue? base d.digitChar = some d := by
  have value : ∀ d < 16, digitValue? 16 d.digitChar = some d := by decide
  rw [digitValue?_eq_filter bounded, value d (Nat.lt_of_lt_of_le small bounded)]
  simp [small]

theorem readDigits_append (acc : Nat) (xs ys : List Char) :
    readDigits base acc (xs ++ ys) = (readDigits base acc xs).bind (readDigits base · ys) := by
  induction xs generalizing acc with
  | nil => rfl
  | cons c xs ih =>
    rw [List.cons_append, readDigits, readDigits]
    cases digitValue? base c with
    | none => rfl
    | some d => exact ih _

/-- The digits of a number are the digits of its quotient and its remainder. -/
theorem toDigits_induction {motive : Nat → List Char → Prop} (valid : 1 < base)
    (digit : ∀ d < base, motive d [d.digitChar])
    (more : ∀ n, base ≤ n → ∀ ds, motive (n / base) ds →
      motive n (ds ++ [(n % base).digitChar])) (n : Nat) : motive n (Nat.toDigits base n) := by
  induction n using Nat.strongRecOn with
  | ind n ih =>
    by_cases small : n < base
    · rw [Nat.toDigits_of_lt_base small]
      exact digit n small
    · rw [Nat.toDigits_of_base_le valid (by omega)]
      exact more n (by omega) _ (ih (n / base) (Nat.div_lt_self (by omega) valid))

theorem readDigits_toDigits (valid : 1 < base) (bounded : base ≤ 16) (n : Nat) :
    readDigits base 0 (Nat.toDigits base n) = some n := by
  refine toDigits_induction (motive := fun n ds => readDigits base 0 ds = some n) valid ?_ ?_ n
  · intro d small
    simp [readDigits, digitValue?_digitChar small bounded]
  · intro n _ ds read
    have last := digitValue?_digitChar (Nat.mod_lt n (Nat.zero_lt_of_lt valid)) bounded
    rw [readDigits_append, read, Option.bind_some, readDigits, last]
    simp [readDigits, Nat.div_add_mod']

theorem exists_of_mem_toDigits (valid : 1 < base) {n : Nat} {c : Char}
    (member : c ∈ Nat.toDigits base n) : ∃ d < base, c = d.digitChar := by
  refine toDigits_induction (motive := fun _ ds => ∀ c ∈ ds, ∃ d < base, c = d.digitChar) valid
    ?_ ?_ n c member
  · intro d small c member
    exact ⟨d, small, List.mem_singleton.mp member⟩
  · intro n _ ds all c member
    obtain earlier | last := List.mem_append.mp member
    · exact all c earlier
    · exact ⟨n % base, Nat.mod_lt n (Nat.zero_lt_of_lt valid), List.mem_singleton.mp last⟩

/-- **The digits of a number read back as the number.** -/
theorem readNat?_toDigits (valid : 1 < base) (bounded : base ≤ 16) (n : Nat) :
    readNat? base (Nat.toDigits base n) = some n := by
  rw [readNat?, if_neg (by simp), readDigits_toDigits valid bounded]

/-- Leading zeros do not count. -/
theorem readNat?_padded (valid : 1 < base) (bounded : base ≤ 16) (k n : Nat) :
    readNat? base (List.replicate k '0' ++ Nat.toDigits base n) = some n := by
  have zeros : readDigits base 0 (List.replicate k '0') = some 0 := by
    have zero : digitValue? base '0' = some 0 :=
      digitValue?_digitChar (d := 0) (Nat.zero_lt_of_lt valid) bounded
    induction k with
    | zero => rfl
    | succ k ih =>
      rw [List.replicate_succ, readDigits, zero, Nat.zero_mul]
      exact ih
  rw [readNat?, if_neg (by simp), readDigits_append, zeros, Option.bind_some,
    readDigits_toDigits valid bounded]

/-! ## The characters of numbers -/

/-- A character that numbers are written with. -/
def IsNumberChar (c : Char) : Prop := c = '-' ∨ c = 'x' ∨ ∃ d < 16, c = d.digitChar

theorem IsNumberChar.isTokenChar {c : Char} (char : IsNumberChar c) : isTokenChar c = true := by
  obtain rfl | rfl | ⟨d, small, rfl⟩ := char
  · decide
  · decide
  · have digit : ∀ d < 16, Text.isTokenChar d.digitChar = true := by decide
    exact digit d small

theorem IsNumberChar.not_paren {c : Char} (char : IsNumberChar c) : c ≠ '(' ∧ c ≠ ')' := by
  obtain rfl | rfl | ⟨d, small, rfl⟩ := char
  · decide
  · decide
  · have digit : ∀ d < 16, d.digitChar ≠ '(' ∧ d.digitChar ≠ ')' := by decide
    exact digit d small

theorem isNumberChar_of_mem_numeral (valid : 1 < base) (bounded : base ≤ 16) {n : Nat} {c : Char}
    (member : c ∈ (numeral base n).toList) : IsNumberChar c := by
  rw [numeral, String.toList_ofList] at member
  obtain ⟨d, small, rfl⟩ := exists_of_mem_toDigits valid member
  exact .inr (.inr ⟨d, by omega, rfl⟩)

end Text

/-! ## Numbers -/

namespace Number

open Text

/-- Every character of a token counts. -/
theorem significant_of_isToken {s : String} (token : IsToken s) : significant s = s.toList := by
  rw [significant, token.trimBlank, List.filter_eq_self]
  intro c member
  exact decide_eq_true (ne_of_isTokenChar (token.chars c member) (by decide))

theorem splitSign_of_digit {c : Char} (digit : c.isDigit = true) (cs : List Char) :
    splitSign (c :: cs) = (false, c :: cs) := by
  unfold splitSign
  split
  · next shape =>
    obtain ⟨rfl, -⟩ := List.cons.inj shape
    cases digit
  · next shape =>
    obtain ⟨rfl, -⟩ := List.cons.inj shape
    cases digit
  · rfl

theorem splitBase_of_digits {cs : List Char} (digits : ∀ c ∈ cs, c.isDigit = true) :
    splitBase cs = (10, cs) := by
  unfold splitBase
  split
  · cases digits 'x' (by simp)
  · cases digits 'X' (by simp)
  · cases digits 'b' (by simp)
  · cases digits 'B' (by simp)
  · rfl

theorem magnitude?_decimal {n : Nat} (bounded : n < 2 ^ 64) :
    magnitude? (Nat.toDigits 10 n) = some n := by
  have digits : ∀ c ∈ Nat.toDigits 10 n, c.isDigit = true := fun c member =>
    Nat.isDigit_of_mem_toDigits (by decide) (by decide) member
  rw [magnitude?, splitBase_of_digits digits]
  dsimp only
  rw [readNat?_toDigits (by decide) (by decide), Option.filter_some,
    if_pos (by simpa using bounded)]

theorem magnitude?_hex {k n : Nat} (bounded : n < 2 ^ 64) :
    magnitude? ('0' :: 'x' :: (List.replicate k '0' ++ Nat.toDigits 16 n)) = some n := by
  rw [magnitude?, splitBase]
  dsimp only
  rw [readNat?_padded (by decide) (by decide), Option.filter_some, if_pos (by simpa using bounded)]

/-- A number without a sign in front is its magnitude. -/
theorem parse_of_magnitude {s : String} (token : IsToken s) {n : Nat} (bounded : n < 2 ^ 63)
    (unsigned : splitSign s.toList = (false, s.toList)) (value : magnitude? s.toList = some n) :
    parse s = .ok n := by
  rw [parse, significant_of_isToken token, unsigned]
  dsimp only
  rw [value]
  exact if_pos bounded

/-- A number behind a minus sign is the opposite of its magnitude. -/
theorem parse_of_negative {s : String} (token : IsToken ("-" ++ s)) {n : Nat} (bounded : n ≤ 2 ^ 63)
    (value : magnitude? s.toList = some n) : parse ("-" ++ s) = .ok (-(n : Int)) := by
  have shape : ("-" ++ s).toList = '-' :: s.toList := by simp
  rw [parse, significant_of_isToken token, shape, splitSign]
  dsimp only
  rw [value]
  exact if_pos bounded

theorem splitSign_decimal (n : Nat) :
    splitSign (Nat.toDigits 10 n) = (false, Nat.toDigits 10 n) := by
  have digits : ∀ c ∈ Nat.toDigits 10 n, c.isDigit = true := fun c member =>
    Nat.isDigit_of_mem_toDigits (by decide) (by decide) member
  obtain ⟨c, cs, shape⟩ := List.exists_cons_of_ne_nil (Nat.toDigits_ne_nil (n := n) (b := 10))
  rw [shape]
  exact splitSign_of_digit (digits c (by simp [shape])) cs

theorem isNumberChar_of_mem_decimal {v : Int} {c : Char} (member : c ∈ (decimal v).toList) :
    IsNumberChar c := by
  cases v with
  | ofNat n => exact isNumberChar_of_mem_numeral (by decide) (by decide) member
  | negSucc n =>
    rw [decimal, String.toList_append, List.mem_append] at member
    obtain sign | digit := member
    · exact .inl (by simpa using sign)
    · exact isNumberChar_of_mem_numeral (by decide) (by decide) digit

theorem isNumberChar_of_mem_text {v : Int} {base : NumberBase} {c : Char}
    (member : c ∈ (text v base).toList) : IsNumberChar c := by
  have zero : IsNumberChar '0' := .inr (.inr ⟨0, by decide, rfl⟩)
  unfold text at member
  split at member
  · exact isNumberChar_of_mem_decimal member
  · split at member <;> rw [String.toList_append, List.mem_append] at member
    · obtain mark | digit := member
      · obtain rfl | rfl | rfl : c = '-' ∨ c = '0' ∨ c = 'x' := by simpa using mark
        · exact .inl rfl
        · exact zero
        · exact .inr (.inl rfl)
      · exact isNumberChar_of_mem_numeral (by decide) (by decide) digit
    · obtain mark | digit := member
      · obtain rfl | rfl : c = '0' ∨ c = 'x' := by simpa using mark
        · exact zero
        · exact .inr (.inl rfl)
      · exact isNumberChar_of_mem_numeral (by decide) (by decide) digit

theorem decimal_ne_nil (v : Int) : (decimal v).toList ≠ [] := by
  cases v with
  | ofNat n => simp [decimal, numeral]
  | negSucc n => simp [decimal]

theorem isToken_decimal (v : Int) : IsToken (decimal v) :=
  .of_chars (decimal_ne_nil v) fun _ member => (isNumberChar_of_mem_decimal member).isTokenChar

theorem isToken_text (v : Int) (base : NumberBase) : IsToken (text v base) := by
  refine .of_chars ?_ fun _ member => (isNumberChar_of_mem_text member).isTokenChar
  unfold text
  split
  · exact decimal_ne_nil v
  · split <;> simp

/-- **Decimal numbers read back.** -/
theorem parse_decimal {v : Int} (lower : -2 ^ 63 ≤ v) (upper : v < 2 ^ 63) :
    parse (decimal v) = .ok v := by
  have token := isToken_decimal v
  cases v with
  | ofNat n =>
    have bounded : n < 2 ^ 63 := by simp only [Int.ofNat_eq_natCast] at upper; omega
    refine parse_of_magnitude token bounded ?_ ?_
    · simpa [decimal, numeral] using splitSign_decimal n
    · simpa [decimal, numeral] using magnitude?_decimal (n := n) (by omega)
  | negSucc n =>
    have bounded : n + 1 ≤ 2 ^ 63 := by omega
    exact parse_of_negative token bounded
      (by simpa [numeral] using magnitude?_decimal (n := n + 1) (by omega))

theorem magnitude?_hexText {n : Nat} (bounded : n < 2 ^ 64) :
    magnitude? ("0x" ++ numeral 16 n).toList = some n := by
  have shape : ("0x" ++ numeral 16 n).toList =
      '0' :: 'x' :: (List.replicate 0 '0' ++ Nat.toDigits 16 n) := by
    simp [numeral]
  rw [shape, magnitude?_hex bounded]

/-- **Immediates read back** in whichever base they were written. -/
theorem parse_text {v : Int} (lower : -2 ^ 63 ≤ v) (upper : v < 2 ^ 63) (base : NumberBase) :
    parse (text v base) = .ok v := by
  have token := isToken_text v base
  unfold text at token ⊢
  split at token
  · next short =>
    rw [if_pos short]
    exact parse_decimal lower upper
  · next long =>
    rw [if_neg long]
    split at token
    · next negative =>
      rw [if_pos negative]
      have shape : "-0x" ++ numeral 16 v.natAbs = "-" ++ ("0x" ++ numeral 16 v.natAbs) := by
        rw [← String.append_assoc]
        rfl
      rw [shape] at token ⊢
      rw [parse_of_negative token (by omega) (magnitude?_hexText (by omega))]
      congr 1
      omega
    · next positive =>
      rw [if_neg positive]
      rw [parse_of_magnitude token (n := v.natAbs) (by omega) ?_ (magnitude?_hexText (by omega))]
      · congr 1
        omega
      · simp [splitSign]

/-! ## Machine words -/

theorem isToken_wordText (w : Word) : IsToken w.text := by
  have mark : IsToken "0x" := by decide
  apply mark.append
  intro c member
  rw [paddedNumeral, String.toList_ofList, List.mem_append] at member
  obtain zero | digit := member
  · rw [List.eq_of_mem_replicate zero]
    decide
  · obtain ⟨d, small, rfl⟩ := exists_of_mem_toDigits (by decide) digit
    exact IsNumberChar.isTokenChar (.inr (.inr ⟨d, small, rfl⟩))

theorem parse_wordText (w : Word) : parse w.text = .ok w.toNat := by
  have bounded := w.isLt
  have shape : w.text.toList = '0' :: 'x' ::
      (List.replicate (8 - (Nat.toDigits 16 w.toNat).length) '0' ++ Nat.toDigits 16 w.toNat) := by
    simp [Word.text, paddedNumeral]
  refine parse_of_magnitude (isToken_wordText w) (by omega) ?_ ?_
  · rw [shape]
    simp [splitSign]
  · rw [shape]
    exact magnitude?_hex (by omega)

end Number

end RvCodec

import RvCodec.Proofs.SingleTokens

/-!
# Tokens of machine words

A machine word may be written as a number, with a mark that announces its base,
or as eight hexadecimal digits without a mark.  The second reading is tried first.
It takes no token with an `x` or an underscore in it, but the mark of the binary
base consists of hexadecimal digits itself: with six binary digits after it, and no
underscore, it makes eight of them.

So a token is read as it announces unless it is one of these (`TakenForBare`), and
then it never is: it is read as a word of at least `0xb000000`, where six binary
digits denote less than 64.  `WordRead` collects what follows for all tokens.
-/

set_option autoImplicit false

namespace RvCodec

namespace Text

/-! ## Digits -/

variable {base : Nat} {c : Char}

theorem digitValue?_lt {d : Nat} (value : digitValue? base c = some d) : d < base := by
  simpa using (Option.filter_eq_some_iff.mp value).2

/-- A digit is a digit of every greater base. -/
theorem isSome_digitValue?_mono {base' : Nat} (greater : base ≤ base')
    (digit : (digitValue? base c).isSome = true) : (digitValue? base' c).isSome = true := by
  obtain ⟨d, value⟩ := Option.isSome_iff_exists.mp digit
  obtain ⟨found, small⟩ := Option.filter_eq_some_iff.mp value
  refine Option.isSome_iff_exists.mpr ⟨d, Option.filter_eq_some_iff.mpr ⟨found, ?_⟩⟩
  simp only [decide_eq_true_eq] at small ⊢
  omega

/-- The code of a digit is that of an ASCII digit or letter. -/
theorem code_of_digit (digit : (digitValue? base c).isSome = true) :
    48 ≤ c.toNat ∧ c.toNat ≤ 57 ∨ 65 ≤ c.toNat ∧ c.toNat ≤ 90 ∨ 97 ≤ c.toNat ∧ c.toNat ≤ 122 := by
  have code (c d : Char) : c ≤ d ↔ c.toNat ≤ d.toNat := Iff.rfl
  by_contra outside
  simp only [digitValue?, code, Char.reduceToNat] at digit
  rw [if_neg (by omega), if_neg (by omega), if_neg (by omega)] at digit
  cases digit

theorem isBlank_of_digit (digit : (digitValue? base c).isSome = true) : isBlank c = false := by
  have codes := code_of_digit digit
  simp only [isBlank, inRanges, blankRanges, List.any_cons, List.any_nil, Bool.or_false,
    Bool.or_eq_false_iff, Bool.and_eq_false_iff, decide_eq_false_iff_not]
  omega

theorem readNat?_eq_some {cs : List Char} {n : Nat} :
    readNat? base cs = some n ↔ cs ≠ [] ∧ readDigits base 0 cs = some n := by
  cases cs <;> simp [readNat?]

/-- The value of digits that follow a number already begun. -/
theorem readDigits_eq (acc : Nat) (cs : List Char) :
    readDigits base acc cs = (readDigits base 0 cs).map (acc * base ^ cs.length + ·) := by
  induction cs generalizing acc with
  | nil => simp [readDigits]
  | cons c cs ih =>
    rw [readDigits, readDigits]
    cases digitValue? base c with
    | none => rfl
    | some d =>
      dsimp only
      rw [ih, ih (0 * base + d), Option.map_map]
      congr 1
      funext n
      simp only [Function.comp_apply, List.length_cons]
      ring

theorem readDigits_lt {cs : List Char} {n : Nat} (read : readDigits base 0 cs = some n) :
    n < base ^ cs.length := by
  induction cs generalizing n with
  | nil =>
    obtain rfl := Option.some.inj read
    exact Nat.one_pos
  | cons c cs ih =>
    rw [readDigits] at read
    split at read
    · next d value =>
      rw [readDigits_eq] at read
      obtain ⟨m, rest, rfl⟩ := Option.map_eq_some_iff.mp read
      have digit : d + 1 ≤ base := digitValue?_lt value
      calc (0 * base + d) * base ^ cs.length + m
          < d * base ^ cs.length + base ^ cs.length := by
            rw [Nat.zero_mul, Nat.zero_add]
            exact Nat.add_lt_add_left (ih rest) _
        _ = (d + 1) * base ^ cs.length := by ring
        _ ≤ base * base ^ cs.length := Nat.mul_le_mul_right _ digit
        _ = base ^ (c :: cs).length := by rw [List.length_cons, Nat.pow_succ']
    · cases read

theorem exists_readDigits {cs : List Char} (digits : ∀ c ∈ cs, (digitValue? base c).isSome = true)
    (acc : Nat) : ∃ n, readDigits base acc cs = some n := by
  induction cs generalizing acc with
  | nil => exact ⟨acc, rfl⟩
  | cons c cs ih =>
    obtain ⟨d, value⟩ := Option.isSome_iff_exists.mp (digits c List.mem_cons_self)
    rw [readDigits, value]
    exact ih (fun c member => digits c (List.mem_cons_of_mem _ member)) _

end Text

open Text

/-! ## Announced bases -/

/-- The letter that marks a base. -/
def Marks (letter : Char) (base : Nat) : Prop :=
  base = 16 ∧ (letter = 'x' ∨ letter = 'X') ∨ base = 2 ∧ (letter = 'b' ∨ letter = 'B')

/-- The token is the mark of the base and digits behind it, underscores aside. -/
def Announces (token : String) (base : Nat) (digits : List Char) : Prop :=
  ∃ letter, Marks letter base ∧ token.toList.filter (· ≠ '_') = '0' :: letter :: digits

/-- Without underscores, the token is the mark and the digits as they stand. -/
theorem Announces.of_plain {token : String} {base : Nat} {digits : List Char}
    (announced : Announces token base digits) (plain : '_' ∉ token.toList) :
    ∃ letter, Marks letter base ∧ token.toList = '0' :: letter :: digits := by
  obtain ⟨letter, mark, shape⟩ := announced
  refine ⟨letter, mark, ?_⟩
  rw [← shape, eq_comm, List.filter_eq_self]
  intro c member
  exact decide_eq_true fun underscore => plain (underscore ▸ member)

theorem Announces.significant {token : String} {base : Nat} {digits : List Char}
    (announced : Announces token base digits)
    (all : ∀ c ∈ digits, (digitValue? base c).isSome = true) :
    ∃ letter, Number.significant token = '0' :: letter :: digits ∧
      Number.splitBase ('0' :: letter :: digits) = (base, digits) := by
  obtain ⟨letter, mark, shape⟩ := announced
  have clear : ∀ c ∈ token.toList, isBlank c = false := by
    intro c member
    by_cases underscore : c = '_'
    · rw [underscore]
      decide
    · have counts : c ∈ '0' :: letter :: digits := by
        rw [← shape]
        exact List.mem_filter.mpr ⟨member, by simp [underscore]⟩
      obtain rfl | rfl | digit : c = '0' ∨ c = letter ∨ c ∈ digits := by simpa using counts
      · decide
      · obtain ⟨-, rfl | rfl⟩ | ⟨-, rfl | rfl⟩ := mark <;> decide
      · exact isBlank_of_digit (all c digit)
  refine ⟨letter, ?_, ?_⟩
  · rw [Number.significant, trimBlank_eq_self, shape]
    · exact fun c first => clear c (List.mem_of_mem_head? first)
    · exact fun c last => clear c (List.mem_of_mem_getLast? last)
  · obtain ⟨rfl, rfl | rfl⟩ | ⟨rfl, rfl | rfl⟩ := mark <;> rfl

/-- **A number is read in the base that it announces.** -/
theorem Announces.parse {token : String} {base n : Nat} {digits : List Char}
    (announced : Announces token base digits) (value : readNat? base digits = some n)
    (bounded : n < 2 ^ 63) : Number.parse token = .ok n := by
  obtain ⟨letter, significant, split⟩ :=
    announced.significant (isSome_digitValue?_of_readDigits (readNat?_eq_some.mp value).2)
  have magnitude : Number.magnitude? ('0' :: letter :: digits) = some n := by
    rw [Number.magnitude?, split]
    dsimp only
    rw [value, Option.filter_some, if_pos]
    simp only [decide_eq_true_eq]
    omega
  rw [Number.parse, significant, Number.splitSign_of_digit (by decide)]
  dsimp only
  rw [magnitude]
  exact if_pos bounded

/-! ## Eight hexadecimal digits -/

namespace Disassembler

theorem bareWord?_eq_some {token : String} {n : Nat} :
    bareWord? token = some n ↔ token.toList.length = 8 ∧ readNat? 16 token.toList = some n := by
  unfold bareWord?
  dsimp only
  constructor
  · intro bare
    split at bare
    · next eight => exact ⟨eight.1, bare⟩
    · cases bare
  · rintro ⟨eight, value⟩
    have digits := isSome_digitValue?_of_readDigits (readNat?_eq_some.mp value).2
    rw [if_pos ⟨eight, List.all_eq_true.mpr digits⟩, value]

theorem isHexDigit_of_bareWord? {token : String} {n : Nat} (bare : bareWord? token = some n) :
    ∀ c ∈ token.toList, isHexDigit c = true :=
  isSome_digitValue?_of_readDigits (readNat?_eq_some.mp (bareWord?_eq_some.mp bare).2).2

/-- A token that is not taken for bare digits is read as a number. -/
theorem parseWord_of_number {token : String} (other : bareWord? token = none) {v : Int}
    (parsed : Number.parse token = .ok v) (lower : 0 ≤ v) (upper : v < 2 ^ 32) :
    parseWord token = .ok (Word.ofInt v) := by
  rw [parseWord, other, parsed]
  exact Outcome.guard_eq_ok.mpr ⟨by omega, rfl⟩

/-- The mark of the binary base and six digits make eight hexadecimal digits. -/
def TakenForBare (token : String) (base : Nat) (digits : List Char) : Prop :=
  base = 2 ∧ digits.length = 6 ∧ '_' ∉ token.toList

section Announced

variable {token : String} {base : Nat} {digits : List Char}
  (announced : Announces token base digits)
include announced

theorem bareWord?_of_announces (plain : ¬ TakenForBare token base digits) :
    bareWord? token = none := by
  by_contra taken
  obtain ⟨n, bare⟩ := Option.ne_none_iff_exists'.mp taken
  have hex := isHexDigit_of_bareWord? bare
  have noUnderscore : '_' ∉ token.toList := fun member => absurd (hex _ member) (by decide)
  obtain ⟨letter, mark, shape⟩ := announced.of_plain noUnderscore
  have digit : isHexDigit letter = true := hex letter (by simp [shape])
  -- Of the letters that mark a base, only those of the binary base are hexadecimal digits.
  obtain ⟨-, rfl | rfl⟩ | ⟨binary, -⟩ := mark
  · exact absurd digit (by decide)
  · exact absurd digit (by decide)
  · have eight := (bareWord?_eq_some.mp bare).1
    rw [shape] at eight
    exact plain ⟨binary, by simpa using eight, noUnderscore⟩

theorem bareWord?_of_taken (taken : TakenForBare token base digits) {n : Nat}
    (value : readNat? base digits = some n) :
    ∃ h < 16 ^ 6, readNat? 16 digits = some h ∧ bareWord? token = some (0xb000000 + h) := by
  obtain ⟨rfl, six, noUnderscore⟩ := taken
  obtain ⟨letter, mark, shape⟩ := announced.of_plain noUnderscore
  obtain ⟨nonempty, read⟩ := readNat?_eq_some.mp value
  have digits16 : ∀ c ∈ digits, (digitValue? 16 c).isSome = true := fun c member =>
    isSome_digitValue?_mono (by decide) (isSome_digitValue?_of_readDigits read c member)
  obtain ⟨h, hex⟩ := exists_readDigits digits16 0
  have eleven : digitValue? 16 letter = some 11 := by
    obtain ⟨binary, -⟩ | ⟨-, rfl | rfl⟩ := mark
    · cases binary
    · rfl
    · rfl
  have whole : readDigits 16 0 token.toList = some (0xb000000 + h) := by
    have zero : digitValue? 16 '0' = some 0 := rfl
    simp only [shape, readDigits, zero, eleven]
    rw [readDigits_eq, hex, six]
    rfl
  refine ⟨h, six ▸ readDigits_lt hex, readNat?_eq_some.mpr ⟨nonempty, hex⟩, ?_⟩
  exact bareWord?_eq_some.mpr ⟨by simp [shape, six], readNat?_eq_some.mpr ⟨by simp [shape], whole⟩⟩

end Announced

/-- What a token is read as. -/
structure WordRead (token : String) : Prop where
  /-- Digits behind the mark of their base are read as a number of this base, and this number is
  the word unless the token is taken for bare digits. -/
  announced : ∀ base digits n, Announces token base digits → readNat? base digits = some n →
    n < 2 ^ 32 → Number.parse token = .ok n ∧
      (parseWord token = .ok (BitVec.ofNat 32 n) ↔ ¬ TakenForBare token base digits)
  /-- Taken for bare digits, the mark counts as a part of the word. -/
  taken : ∀ base digits n, Announces token base digits → readNat? base digits = some n →
    TakenForBare token base digits →
      ∃ h, readNat? 16 digits = some h ∧ parseWord token = .ok (BitVec.ofNat 32 (0xb000000 + h))
  /-- Eight hexadecimal digits are the word. -/
  bare : ∀ n, token.toList.length = 8 → readNat? 16 token.toList = some n →
    parseWord token = .ok (BitVec.ofNat 32 n)
  /-- Anything else is read as the number that it denotes. -/
  number : token.toList.length ≠ 8 ∨ readNat? 16 token.toList = none →
    ∀ v, Number.parse token = .ok v → 0 ≤ v → v < 2 ^ 32 → parseWord token = .ok (Word.ofInt v)

/-- **A machine word is read in the base that it announces**, or as eight hexadecimal digits if it
has no mark.  Six binary digits are the exception: their mark is taken for digits. -/
theorem words_read (token : String) : WordRead token where
  announced base digits n announced value small := by
    have parsed := announced.parse value (by omega)
    refine ⟨parsed, ⟨fun read taken => ?_, fun plain => ?_⟩⟩
    · obtain ⟨h, bounded, -, bare⟩ := bareWord?_of_taken announced taken value
      rw [parseWord, bare] at read
      have same := congrArg BitVec.toNat (Except.ok.inj read)
      obtain ⟨rfl, six, -⟩ := taken
      have few := six ▸ readDigits_lt (readNat?_eq_some.mp value).2
      simp only [BitVec.toNat_ofNat] at same
      omega
    · have other := bareWord?_of_announces announced plain
      rw [parseWord_of_number other parsed (by omega) (by omega), Word.ofInt, BitVec.ofInt_natCast]
  taken base digits n announced value taken := by
    obtain ⟨h, -, hex, bare⟩ := bareWord?_of_taken announced taken value
    exact ⟨h, hex, by rw [parseWord, bare]⟩
  bare n eight value := by
    rw [parseWord, bareWord?_eq_some.mpr ⟨eight, value⟩]
  number other v parsed lower upper := by
    refine parseWord_of_number ?_ parsed lower upper
    by_contra taken
    obtain ⟨n, bare⟩ := Option.ne_none_iff_exists'.mp taken
    obtain ⟨eight, value⟩ := bareWord?_eq_some.mp bare
    obtain short | none := other
    · exact short eight
    · rw [none] at value
      cases value

example : parseWord "0b_101010" = .ok 42 ∧ parseWord "0b101010" = .ok 0xb101010 := by decide

/-- The binary numeral of 42 is not read as 42. -/
theorem binary_taken_for_bare :
    ¬ ∀ (token : String) (base n : Nat) (digits : List Char), Announces token base digits →
      readNat? base digits = some n → n < 2 ^ 32 → parseWord token = .ok (BitVec.ofNat 32 n) := by
  intro claimed
  have announced : Announces "0b101010" 2 ['1', '0', '1', '0', '1', '0'] :=
    ⟨'b', .inr ⟨rfl, .inl rfl⟩, by decide⟩
  have read := claimed _ _ 42 _ announced (by decide) (by decide)
  exact absurd read (by decide)

end Disassembler

end RvCodec

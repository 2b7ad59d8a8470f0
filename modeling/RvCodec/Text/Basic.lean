/-!
# Operations on text

The few operations on text that the whole library shares.  They are stated on lists of characters,
where a law is an induction, and wrapped for `String`.

Splitting at a separator keeps empty pieces, so a text with `n` separators has `n + 1` pieces.
Numerals are written in digits of a base, with zero-padded columns or as signed decimals; the digits
of a number read back as that number.
-/

set_option autoImplicit false

namespace RvCodec.Text

/-! ## Splitting -/

/-- Puts a character in front of the first piece. -/
def consPiece (c : Char) : List (List Char) → List (List Char)
  | [] => [[c]]
  | piece :: pieces => (c :: piece) :: pieces

/-- The pieces between the separators. -/
def splitChars (sep : Char) (cs : List Char) : List (List Char) :=
  cs.foldr (fun c pieces => if c = sep then [] :: pieces else consPiece c pieces) [[]]

def splitAt (sep : Char) (s : String) : List String :=
  (splitChars sep s.toList).map String.ofList

/-- The maximal runs of characters that are not separators. -/
def fieldChars (isSep : Char → Bool) (cs : List Char) : List (List Char) :=
  (cs.foldr (fun c pieces => if isSep c then [] :: pieces else consPiece c pieces) [[]]).filter
    (fun piece => !piece.isEmpty)

/-! ## Joining -/

/-- The text of several lines, each ended by a line feed. -/
def unlines (lines : List String) : String := String.join (lines.map (· ++ "\n"))

/-! ## Ends of a text -/

/-- The rest of the characters after a given beginning. -/
def afterStart? (start cs : List Char) : Option (List Char) :=
  if start.isPrefixOf cs then some (cs.drop start.length) else none

/-- The characters before a given ending. -/
def beforeEnd? (ending cs : List Char) : Option (List Char) :=
  if ending.isSuffixOf cs then some (cs.take (cs.length - ending.length)) else none

/-! ## Writing numerals -/

/-- The numeral of a natural number in a base of at most sixteen, with lower-case digits. -/
def numeral (base n : Nat) : String := String.ofList (Nat.toDigits base n)

/-- The numeral, filled up with leading zeros to a least width. -/
def paddedNumeral (base width n : Nat) : String :=
  let digits := Nat.toDigits base n
  String.ofList (List.replicate (width - digits.length) '0' ++ digits)

def decimal : Int → String
  | .ofNat n => numeral 10 n
  | .negSucc n => "-" ++ numeral 10 (n + 1)

/-! ## Reading numerals -/

/-- The value of a digit below the base; letters of either case stand for ten to thirty-five. -/
def digitValue? (base : Nat) (c : Char) : Option Nat :=
  let value :=
    if '0' ≤ c ∧ c ≤ '9' then some (c.toNat - '0'.toNat)
    else if 'a' ≤ c ∧ c ≤ 'z' then some (c.toNat - 'a'.toNat + 10)
    else if 'A' ≤ c ∧ c ≤ 'Z' then some (c.toNat - 'A'.toNat + 10)
    else none
  value.filter (· < base)

/-- The value of digits read after a number already begun. -/
def readDigits (base : Nat) : Nat → List Char → Option Nat
  | acc, [] => some acc
  | acc, c :: cs =>
    match digitValue? base c with
    | some d => readDigits base (acc * base + d) cs
    | none => none

/-- The value of a non-empty string of digits of the base. -/
def readNat? (base : Nat) (cs : List Char) : Option Nat :=
  if cs.isEmpty then none else readDigits base 0 cs

end RvCodec.Text

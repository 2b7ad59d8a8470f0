import RvCodec.Text.Basic
import RvCodec.Text.Class

/-!
# Source text

Both directions of the conversion read lines of tokens.  A comment starts at `#`, `//` or `;` and
goes to the end of its line; what is left is trimmed, and lines without anything left are dropped,
while the others keep their numbers.  Tokens are separated by blanks and commas.

A text is a `String`, so it consists of Unicode characters.  Bytes that are no valid UTF-8 make up no
text, and nothing is said about them here or in what builds on this.
-/

set_option autoImplicit false

namespace RvCodec

namespace Source

/-- A line with something on it. -/
structure Line where
  /-- Its place in the text, from one on. -/
  number : Nat
  /-- What it says, without comment and outer blanks. -/
  text : String
  deriving DecidableEq, Repr

/-- The characters in front of the first comment marker. -/
def dropComment : List Char → List Char
  | [] => []
  | '/' :: '/' :: _ => []
  | c :: cs => if c = '#' ∨ c = ';' then [] else c :: dropComment cs

def stripComment (s : String) : String := String.ofList (dropComment s.toList)

/-- What a raw line says. -/
def lineContents (raw : List Char) : List Char := Text.trimBlank (dropComment raw)

/-- A raw line with its number, if it says anything. -/
def line? (raw : List Char) (number : Nat) : Option Line :=
  let contents := lineContents raw
  if contents.isEmpty then none else some ⟨number, String.ofList contents⟩

/-- The lines of a text that say something. -/
def lines (text : String) : List Line :=
  ((Text.splitChars '\n' text.toList).zipIdx 1).filterMap fun (raw, number) => line? raw number

/-- A character between tokens. -/
def isSeparator (c : Char) : Bool :=
  c = ' ' || c = '\t' || c = ',' || c = '\r' || c.toNat = 11 || c.toNat = 12

/-- The tokens of a line. -/
def tokens (s : String) : List String := (Text.fieldChars isSeparator s.toList).map String.ofList

end Source

end RvCodec

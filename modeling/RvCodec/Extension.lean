import RvCodec.Text.Basic

/-!
# Extension letters

The instruction set is divided into a base and extensions, each named by a letter.  A letter is kept
as a character of one byte, so that any text can be asked for: a character beyond one byte stands for
its low byte.  The character zero is the absence of an extension.
-/

set_option autoImplicit false

namespace RvCodec

/-- An extension of the instruction set, named by its letter. -/
structure Extension where
  letter : Char
  deriving DecidableEq, Repr

namespace Extension

/-- The extension a character stands for: its low byte. -/
def ofChar (c : Char) : Extension := ⟨Char.ofNat (c.toNat % 256)⟩

/-- No extension at all. -/
def none : Extension := ⟨Char.ofNat 0⟩
def base : Extension := ⟨'I'⟩
def multiply : Extension := ⟨'M'⟩
def atomic : Extension := ⟨'A'⟩
def single : Extension := ⟨'F'⟩
def double : Extension := ⟨'D'⟩
def quad : Extension := ⟨'Q'⟩
def compressed : Extension := ⟨'C'⟩
def bitManip : Extension := ⟨'B'⟩
def vector : Extension := ⟨'V'⟩

/-- The letter as text, with a question mark for no extension. -/
def name (e : Extension) : String := if e = none then "?" else e.letter.toString

def isFloat (e : Extension) : Bool := e = single || e = double || e = quad

end Extension

/-! ## Sets of extensions -/

/-- A set of extensions, kept in ascending order of their letters without repetition. -/
structure ExtensionSet where
  members : List Extension
  deriving DecidableEq, Repr

namespace ExtensionSet

def empty : ExtensionSet := ⟨[]⟩

/-- Adds an extension in its place among ascending letters, unless it is already there. -/
def place (e : Extension) : List Extension → List Extension
  | [] => [e]
  | d :: rest =>
    if e = d then d :: rest
    else if e.letter < d.letter then e :: d :: rest
    else d :: place e rest

/-- The set with one more member. -/
def insert (s : ExtensionSet) (e : Extension) : ExtensionSet := ⟨place e s.members⟩

def ofList (es : List Extension) : ExtensionSet := es.foldl insert empty

def has (s : ExtensionSet) (e : Extension) : Bool := s.members.contains e

/-- The letters of the members, in ascending order. -/
def text (s : ExtensionSet) : String := String.ofList (s.members.map (·.letter))

end ExtensionSet

end RvCodec

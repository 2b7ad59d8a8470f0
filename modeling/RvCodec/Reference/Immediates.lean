import RvCodec.Table

/-!
# Layouts of immediates

A layout is shown in two ways.  Its text lists the word bits that hold the immediate, from its most
significant bit down, each with the immediate bits that it holds, as in `31[12]|7[11]|30:25[10:5]`.
Its decoding steps say how to compute the immediate: mask the word, shift, and combine the results.

The index of immediates has one section for each distinct layout: its width and alignment, the steps
that decode it, and the instructions that use it.
-/

set_option autoImplicit false

namespace RvCodec

/-! ## The bits in order -/

/-- A range of bits, or a single one. -/
def Reference.rangeText (top bottom : Nat) : String :=
  if top = bottom then Text.numeral 10 top
  else Text.numeral 10 top ++ ":" ++ Text.numeral 10 bottom

/-- The word bits of a slice, and in brackets the immediate bits. -/
def Slice.text (s : Slice) : String :=
  Reference.rangeText s.top s.bottom ++ "[" ++ Reference.rangeText s.reach s.pos ++ "]"

namespace Layout

/-- The slices from the most significant immediate bit down.  Slices at one position, which no
instruction has, stay in the order of the layout; any other order of them would do as well. -/
def descending (l : Layout) : Layout := l.mergeSort fun a b => b.pos ≤ a.pos

def text (l : Layout) : String := "|".intercalate (l.descending.map (·.text))

end Layout

/-! ## Decoding steps -/

/-- How far the bits of a slice move down on their way into the immediate, as a signed number of 64
bits. -/
def Slice.distance (s : Slice) : Int := Int.bmod ((s.bottom : Int) - s.pos) (1 <<< 64)

/-- One step of decoding: mask the word, then shift right, or left if the distance is negative. -/
structure DecodeStep where
  mask : Word
  rightShift : Int
  deriving DecidableEq, Repr

namespace DecodeStep

def ofSlice (s : Slice) : DecodeStep := ⟨s.range.mask, s.distance⟩

/-- What the step contributes to the immediate. -/
def apply (d : DecodeStep) (w : Word) : Word :=
  if 0 ≤ d.rightShift then (w &&& d.mask).down d.rightShift.toNat
  else (w &&& d.mask).up (-d.rightShift).toNat

/-- The step as an expression.  The least signed number of 64 bits is its own negative. -/
def text (d : DecodeStep) : String :=
  let masked := "(inst & " ++ d.mask.bitText ++ ")"
  if d.rightShift = 0 then masked
  else if d.rightShift < 0 then masked ++ " << " ++ Text.decimal (Int.bmod (-d.rightShift) (1 <<< 64))
  else masked ++ " >> " ++ Text.decimal d.rightShift

end DecodeStep

/-- The steps that decode a layout, whose results are combined. -/
def Layout.decodeSteps (l : Layout) : List DecodeStep := l.map DecodeStep.ofSlice

namespace Reference

/-!
## The index of immediates

Layouts are told apart by their text.
-/

/-- The instructions that keep their immediate in one way. -/
structure ImmediateSection where
  heading : String
  layout : Layout
  users : List String
  deriving DecidableEq, Repr

namespace ImmediateSection

def lines (s : ImmediateSection) : List String :=
  let align := s.layout.align
  ["",
   "## `" ++ s.heading ++ "`",
   "",
   Text.numeral 10 s.layout.width ++ " bits"
     ++ (if 1 < align then ", multiple of " ++ Text.decimal align else "") ++ ".",
   "",
   "```"]
    ++ s.layout.decodeSteps.map (fun step => "imm |= " ++ step.text)
    ++ ["```", "", "Used by " ++ ", ".intercalate s.users ++ "."]

end ImmediateSection

/-- The layouts in use, with the instructions that use them. -/
def layoutUses (t : Table) : List (Layout × String) :=
  (t.instructions.filter (·.immediate.isPresent)).map fun i => (i.immediate.layout, i.name)

/-- The section of a heading; its layout is that of the last instruction listed in it. -/
def immediateSection (uses : List (Layout × String)) (heading : String) : ImmediateSection :=
  let own := uses.filter fun u => u.1.text = heading
  ⟨heading, (own.getLast?.map (·.1)).getD [], own.map (·.2)⟩

/-- The sections of a table's index, by ascending heading. -/
def immediateSections (t : Table) : List ImmediateSection :=
  let uses := layoutUses t
  let headings := (uses.map (·.1.text)).eraseDups.mergeSort fun a b => a ≤ b
  headings.map (immediateSection uses)

def immediateIndex (t : Table) : String :=
  Text.unlines ("# Immediate layouts" :: (immediateSections t).flatMap (·.lines))

end Reference

end RvCodec

import RvCodec.Proofs.DecodingSteps
import RvCodec.Proofs.Indexing
import RvCodec.Proofs.TextLines
import RvCodec.Reference.Immediates

/-!
# Headings of immediates

The index of immediates tells layouts apart by their text alone, and describes
all the instructions under a heading by the layout of one of them.  This is
right because a text says everything about a layout but the order of its slices
(`Layout.perm_of_text`), and the order of the slices shows in nothing that a
layout does (`Layout.Alike.of_perm`).

A text can be read back in three stages.  The bar separates the slices and
occurs in none of them.  The bracket of a slice separates the bits of the word
from those of the immediate.  A colon separates the ends of a range, and a range
without one has equal ends.  The last immediate bit of a slice is the only thing
printed that wraps; it is not needed, since the first one is printed too.
-/

set_option autoImplicit false

namespace RvCodec

/-! ## Reading a text back -/

namespace Text

end Text

namespace Reference

open Text

end Reference

namespace Slice

open Reference

end Slice

namespace Layout

/-- The layouts do the same. -/
structure Alike (l m : Layout) : Prop where
  pack : ∀ v, l.pack v = m.pack v
  unpack : ∀ w, l.unpack w = m.unpack w
  width : l.width = m.width
  align : l.align = m.align

end Layout

namespace Layout

variable {l m : Layout}

end Layout

/-! ## Sections -/

namespace Reference

namespace ImmediateSection

/-- The lines above the steps of a section about immediates that are kept in this layout. -/
def head (l : Layout) : List String :=
  ["", "## `" ++ l.text ++ "`", "",
   Text.numeral 10 l.width ++ " bits"
     ++ (if 1 < l.align then ", multiple of " ++ Text.decimal l.align else "") ++ ".",
   "", "```"]

end ImmediateSection

variable {t : Table}

end Reference

end RvCodec

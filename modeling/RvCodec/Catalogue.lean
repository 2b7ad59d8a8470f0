import RvCodec.Catalogue.Base
import RvCodec.Catalogue.BitManip
import RvCodec.Catalogue.Compressed
import RvCodec.Catalogue.Float
import RvCodec.Catalogue.Vector
import RvCodec.Table

/-!
# The catalogue

All supported instructions, by extension, and the table of them.  The embedded variant has no
instructions of its own; it only leaves out registers.
-/

set_option autoImplicit false

namespace RvCodec

/-- The supported extensions in the order of the table. -/
def Catalogue.groups : List Group :=
  [⟨.base, "Base Integer Instruction Set", Catalogue.base⟩,
   ⟨.multiply, "Integer Multiplication and Division", Catalogue.multiply⟩,
   ⟨.atomic, "Atomic Instructions", Catalogue.atomic⟩,
   ⟨.single, "Single-Precision Floating-Point", Catalogue.single⟩,
   ⟨.double, "Double-Precision Floating-Point", Catalogue.double⟩,
   ⟨.quad, "Quad-Precision Floating-Point", Catalogue.quad⟩,
   ⟨.compressed, "Compressed Instructions", Catalogue.compressed⟩,
   ⟨.bitManip, "Bit Manipulation", Catalogue.bitManip⟩,
   ⟨.vector, "Vector Operations", Catalogue.vector⟩]

/-- The table of all supported instructions. -/
def Table.default : Table := ⟨Catalogue.groups.flatMap (·.instructions)⟩

end RvCodec

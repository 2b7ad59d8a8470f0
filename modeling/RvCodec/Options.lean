import RvCodec.Instruction
import RvCodec.Number

/-!
# Options

What a run may be told beforehand: the width of the registers, whether only sixteen of them exist,
how immediates are written, and which floating-point extensions are switched off.
-/

set_option autoImplicit false

namespace RvCodec

/-- The options of one run.  Without any, the width is found out, all registers and extensions exist
and immediates are written in hexadecimal. -/
structure Options where
  xlen : Xlen := none
  embedded : Bool := false
  base : NumberBase := .hex
  noSingle : Bool := false
  noDouble : Bool := false
  noQuad : Bool := false
  deriving DecidableEq, Repr

namespace Options

/-- Instructions of the extension may be used. -/
def enables (o : Options) (e : Extension) : Bool :=
  if e = .single then !o.noSingle
  else if e = .double then !o.noDouble
  else if e = .quad then !o.noQuad
  else true

/-- Refuses an instruction whose extension is switched off. -/
def checkEnabled (o : Options) (i : Instruction) : Except Fault Unit :=
  if o.enables i.ext then .ok () else .error (.extensionDisabled i.name i.ext)

def tracker (o : Options) : Tracker := .start o.xlen

def mode (o : Options) : Mode := .ofXlen o.xlen

end Options

namespace Tracker

/-- Takes in the width that an instruction needs. -/
def requireInstruction (t : Tracker) (i : Instruction) : Except Fault Tracker :=
  t.require i.name i.requiredXlen i.maxXlen

/-- The instruction exists at the configured width. -/
def allowsInstruction (t : Tracker) (i : Instruction) : Bool := t.allows i.requiredXlen i.maxXlen

/-- Takes in the width that a shift amount needs. -/
def requireShift (t : Tracker) (i : Instruction) (v : Int) : Except Fault Tracker :=
  match i.shiftXlen v with
  | none => .ok t
  | some need => t.require i.name need none

end Tracker

end RvCodec

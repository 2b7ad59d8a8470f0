import RvCodec.Fault
import RvCodec.Text.Case
import RvCodec.Text.Class

/-!
# Register widths

The width of the integer registers, XLEN, is either fixed beforehand or found out from the
instructions in use.  An instruction needs at least some width and may exist only up to some width,
so a program is possible at an interval of widths.

A `Tracker` goes through a program with its instructions.  Under a fixed width it only compares.
Otherwise it keeps the interval: the greatest width needed so far, and the least upper bound, if any
instruction has one.  A requirement that would empty the interval is refused and changes nothing.
-/

set_option autoImplicit false

namespace RvCodec

/-- A configured width, or none if it is to be found out.  As an upper bound, none is no bound. -/
abbrev Xlen := Option Nat

namespace Xlen

def text : Xlen → String
  | none => "auto"
  | some n => Text.numeral 10 n

/-- The width an option names: `auto`, `32`, `64` or `128`, with or without `rv` in front. -/
def parse (s : String) : Except Failure Xlen :=
  let t := (Text.lower (Text.trim s)).toList
  let t := String.ofList ((Text.afterStart? ['r', 'v'] t).getD t)
  if t = "" ∨ t = "auto" then .ok none
  else if t = "32" then .ok (some 32)
  else if t = "64" then .ok (some 64)
  else if t = "128" then .ok (some 128)
  else .error (.report s!"unsupported XLEN {Text.quoted t}")

/-- The lesser of two upper bounds. -/
def least : Xlen → Xlen → Xlen
  | none, b => b
  | a, none => a
  | some a, some b => some (min a b)

end Xlen

/-- Whether the width was fixed beforehand or found out. -/
inductive Mode where
  | auto
  | fixed
  deriving DecidableEq, Repr

namespace Mode

def name : Mode → String
  | auto => "auto"
  | fixed => "fixed"

def ofXlen : Xlen → Mode
  | none => auto
  | some _ => fixed

end Mode

/-! ## Trackers -/

/-- The widths at which the instructions seen so far are possible. -/
structure Tracker where
  /-- The configured width. -/
  mode : Xlen
  /-- The greatest width needed so far, or zero. -/
  detected : Nat
  /-- The least upper bound so far. -/
  ceiling : Xlen
  deriving DecidableEq, Repr

namespace Tracker

def start (mode : Xlen) : Tracker := ⟨mode, 0, none⟩

/-- Why a fixed width does not lie between `lo` and `hi`, if it does not. -/
def refusal (mode : Nat) (name : String) (lo : Nat) (hi : Xlen) : Option Fault :=
  if mode < lo then some (.widthTooSmall name lo mode)
  else
    match hi with
    | none => none
    | some h => if h < mode then some (.widthTooLarge name h mode) else none

/-- Takes in a requirement: a width from `lo` to `hi`. -/
def require (t : Tracker) (name : String) (lo : Nat) (hi : Xlen) : Except Fault Tracker :=
  match t.mode with
  | some mode =>
    match refusal mode name lo hi with
    | some fault => .error fault
    | none => .ok t
  | none =>
    let detected := max t.detected lo
    let ceiling := Xlen.least t.ceiling hi
    match ceiling with
    | some c =>
      if c < detected then .error (.widthConflict name lo c detected)
      else .ok { t with detected, ceiling }
    | none => .ok { t with detected, ceiling }

/-- The configured width lies between `lo` and `hi`; a width to be found out always may. -/
def allows (t : Tracker) (lo : Nat) (hi : Xlen) : Bool :=
  match t.mode with
  | none => true
  | some mode => (refusal mode "" lo hi).isNone

/-- The configured width, or the least one that suits what was seen. -/
def resolved (t : Tracker) : Nat :=
  match t.mode with
  | some mode => mode
  | none => if t.detected = 0 then 32 else t.detected

end Tracker

end RvCodec

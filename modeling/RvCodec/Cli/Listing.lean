import RvCodec.Catalogue
import RvCodec.Options
import RvCodec.Text.Case

/-!
# Listing instructions

The supported instructions as a table of text, optionally only those of some extensions or those that
exist at a width.  Columns are as wide as their widest cell and two spaces apart.
-/

set_option autoImplicit false

namespace RvCodec.Cli

namespace Listing

/-! ## Selection -/

/-- The extensions that letters ask for, in any case. -/
def wanted (letters : String) : ExtensionSet :=
  .ofList ((Text.upper letters).toList.map Extension.ofChar)

/-- The instruction is asked for; without letters, every extension is. -/
def selects (letters : String) (xlen : Xlen) (i : Instruction) : Bool :=
  ((wanted letters).members.isEmpty || (wanted letters).has i.ext)
    && (Tracker.start xlen).allowsInstruction i

/-- The instructions that are asked for, in the order of the table. -/
def selected (letters : String) (xlen : Xlen) : List Instruction :=
  Table.default.instructions.filter (selects letters xlen)

/-! ## Layout -/

def header : List String := ["NAME", "STANDARD", "FORMAT", "OPCODE", "MASK", "TEST", "SYNOPSIS"]

def row (i : Instruction) : List String :=
  [i.name, i.standard, i.format.name, i.key.name, i.mask.text, i.test.text, i.synopsis]

/-- The widths of columns, from the widest cells. -/
def widths : List (List String) → List Nat
  | [] => []
  | row :: rows =>
    let below := widths rows
    row.zipIdx.map fun (cell, n) => max cell.length (below.getD n 0)

/-- A row as text; every cell but the last is filled up to its column, two spaces from the next. -/
def rowText : List Nat → List String → String
  | _, [] => ""
  | _, [last] => last
  | [], cell :: rest => cell ++ rowText [] rest
  | width :: widths, cell :: rest =>
    cell ++ String.ofList (List.replicate (width + 2 - cell.length) ' ') ++ rowText widths rest

def align (rows : List (List String)) : String :=
  Text.unlines (rows.map (rowText (widths rows)))

def text (letters : String) (xlen : Xlen) : String :=
  align (header :: (selected letters xlen).map row)

end Listing

end RvCodec.Cli

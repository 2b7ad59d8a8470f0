import RvCodec.Instruction

/-!
# Instruction tables

A table is a list of instructions with distinct names.  A word is looked up by its key: the
candidates of a key are the instructions with that key, those that need wider registers first, then
those with more constant bits, so that an encoding reused by a wider base and the special cases of a
general form win.  Instructions that agree in both stay in the order of the table.

`Table.ambiguities` lists the pairs between which this order does not decide: they could both claim
a word, and nothing but their place in the table puts one of them first.
-/

set_option autoImplicit false

namespace RvCodec

/-- The instructions of one extension. -/
structure Group where
  ext : Extension
  title : String
  instructions : List Instruction
  deriving Repr

/-- Two instructions share a name. -/
structure DuplicateName where
  name : String
  deriving DecidableEq, Repr

def DuplicateName.message (d : DuplicateName) : String :=
  s!"duplicate instruction {Text.quoted d.name}"

/-- A list of instructions to choose from. -/
structure Table where
  instructions : List Instruction
  deriving Repr

namespace Table

/-! ## Building -/

/-- The first name that occurred before. -/
def firstDuplicate? : List String → List String → Option String
  | _, [] => none
  | seen, name :: rest =>
    if seen.contains name then some name else firstDuplicate? (name :: seen) rest

/-- The table of the instructions of several groups, unless two of them share a name. -/
def ofGroups (groups : List Group) : Except DuplicateName Table :=
  let instructions := groups.flatMap (·.instructions)
  match firstDuplicate? [] (instructions.map (·.name)) with
  | some name => .error ⟨name⟩
  | none => .ok ⟨instructions⟩

/-! ## Look-up -/

def find? (t : Table) (name : String) : Option Instruction :=
  t.instructions.find? (·.name = name)

def lookup (t : Table) (name : String) : Except Fault Instruction :=
  match t.find? name with
  | some i => .ok i
  | none => .error (.unsupportedInstruction name)

/-- The order of candidates: wider registers first, then more constant bits. -/
def precedes (a b : Instruction) : Bool :=
  b.requiredXlen < a.requiredXlen ||
    (a.requiredXlen == b.requiredXlen && b.specificity ≤ a.specificity)

/-- The instructions with a key, in the order in which they are tried. -/
def candidates (t : Table) (k : Key) : List Instruction :=
  (t.instructions.filter (·.key = k)).mergeSort precedes

/-- The keys in use, in ascending order. -/
def keys (t : Table) : List Key :=
  ((List.range 256).map (BitVec.ofNat 8)).filter fun k => t.instructions.any (·.key = k)

def extensions (t : Table) : ExtensionSet := .ofList (t.instructions.map (·.ext))

/-! ## Ambiguities -/

/-- Two instructions of one key between which the order of candidates does not decide. -/
structure Ambiguity where
  first : Instruction
  second : Instruction
  key : Key
  deriving DecidableEq, Repr

def Ambiguity.message (a : Ambiguity) : String :=
  s!"{a.first.name} and {a.second.name} have indistinguishable encodings "
    ++ s!"(key 0x{Text.paddedNumeral 16 2 a.key.toNat})"

/-- Neither comes first by the order of candidates, and no constant bit tells them apart. -/
def clash (a b : Instruction) : Bool :=
  a.requiredXlen == b.requiredXlen && a.specificity == b.specificity &&
    (a.test ^^^ b.test) &&& a.mask &&& b.mask == 0

/-- The pairs of a list, the earlier element first. -/
def pairs {α : Type} : List α → List (α × α)
  | [] => []
  | a :: rest => rest.map (a, ·) ++ pairs rest

/-- The ambiguous pairs of the table, key by key. -/
def ambiguities (t : Table) : List Ambiguity :=
  t.keys.flatMap fun k =>
    ((pairs (t.candidates k)).filter fun p => clash p.1 p.2).map fun p => ⟨p.1, p.2, k⟩

end Table

end RvCodec

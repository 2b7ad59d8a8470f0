/-!
# The registry of commands

The program offers its commands by name.  A name can be registered once, and only with something to
do.
-/

set_option autoImplicit false

namespace RvCodec.Cli

/-- A command on offer: its name, what the usage says about it, and what it does. -/
structure Command (α : Type) where
  name : String
  description : String
  action : α
  deriving DecidableEq, Repr

/-- Why a command cannot be registered. -/
inductive RegistryFault where
  | taken (name : String)
  | noAction (name : String)
  deriving DecidableEq, Repr

def RegistryFault.message : RegistryFault → String
  | taken name => s!"command {name} already registered"
  | noAction name => s!"command {name} registered with nil implementation"

abbrev Registry (α : Type) := List (Command α)

namespace Registry

variable {α : Type}

def find? (r : Registry α) (name : String) : Option (Command α) := List.find? (·.name = name) r

def register (r : Registry α) (name description : String) (action : Option α) :
    Except RegistryFault (Registry α) :=
  if (r.find? name).isSome then .error (.taken name)
  else
    match action with
    | none => .error (.noAction name)
    | some action => .ok (r ++ [⟨name, description, action⟩])

/-- The commands in the order of their names, one a line, with their descriptions in a column. -/
def usageText (r : Registry α) : String :=
  let width := (r.map (·.name.length)).foldr max 0
  String.join ((r.mergeSort fun a b => a.name ≤ b.name).map fun c =>
    "  " ++ c.name ++ String.ofList (List.replicate (width - c.name.length) ' ') ++ "  "
      ++ c.description ++ "\n")

end Registry

end RvCodec.Cli

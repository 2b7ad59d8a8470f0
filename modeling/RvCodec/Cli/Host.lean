import RvCodec.Cli.ConfigFile
import RvCodec.Conversion

/-!
# The host of a command

What the commands need of the machine they run on, as an interface: files, standard input and
perhaps a terminal.  The commands are written against the interface, so that they can run on a real
machine or on a `FileTree`, a directory with files held in memory.
-/

set_option autoImplicit false

namespace RvCodec.Cli

/-! ## The interface -/

/-- Why something cannot be done with a file. -/
structure FileFault where
  action : String
  path : String
  reason : String
  deriving DecidableEq, Repr

def FileFault.message (f : FileFault) : String := f.action ++ " " ++ f.path ++ ": " ++ f.reason

/-- Access to files, to standard input, to the terminal and to the clipboard, and the parts of a
command that libraries of the machine provide. -/
structure Host (m : Type → Type) where
  readFile : String → m (Except FileFault String)
  /-- Makes a directory and all directories above it. -/
  makeDirs : String → m (Except FileFault Unit)
  /-- Makes a file with the given contents, or replaces what it held. -/
  writeFile : String → String → m (Except FileFault Unit)
  /-- All of standard input, or why it cannot be read. -/
  readInput : m (Except String String)
  /-- Holds a session if standard input is a terminal, with reports under a label; says how the
  session ended, or nothing if there is no terminal. -/
  converse : String → Direction → Options → m (Option (Option Failure))
  /-- Puts a text on the clipboard, or says why there is none. -/
  copy : String → m (Except String Unit)
  decodeConfig : ConfigDecoder
  /-- The structure of a result, in full. -/
  dump : Conversion → String
  /-- The structure of a table's instructions, in full. -/
  dumpTable : Table → String

/-! ## Paths -/

/-- Where a path leads once its detours are resolved: the parts to go down by, counted from the
working directory after any number of steps up (`..`), or from the top of the file system. -/
structure Place where
  /-- Counted from the top of the file system. -/
  rooted : Bool
  parts : List String
  deriving DecidableEq, Repr

namespace Place

/-- The place that a part of a path leads to.  The top of the file system is its own parent. -/
def step (place : Place) (part : String) : Place :=
  if part = "" ∨ part = "." then place
  else if part = ".." then
    match place.parts.getLast? with
    | none => if place.rooted then place else { place with parts := [".."] }
    | some last =>
      { place with parts := if last = ".." then place.parts ++ [".."] else place.parts.dropLast }
  else { place with parts := place.parts ++ [part] }

/-- Where the first part of a path is looked for. -/
def start (path : String) : Place := ⟨path.toList.head? = some '/', []⟩

def ofPath (path : String) : Place := (Text.splitAt '/' path).foldl step (start path)

/-- The shortest path to the place. -/
def path (place : Place) : String :=
  (if place.rooted then "/" else "") ++ "/".intercalate place.parts

def parent (place : Place) : Place := { place with parts := place.parts.dropLast }

/-- The other place is this one or lies below it. -/
def holds (place other : Place) : Bool :=
  place.rooted == other.rooted && place.parts.isPrefixOf other.parts

/-- The working directory, a directory above it, or the top of the file system. -/
def isAbove (place : Place) : Bool := place.parts.all (· = "..")

def isInside (place : Place) : Bool := !place.rooted && place.parts.head? ≠ some ".."

end Place

namespace Path

/-- The shortest path of the same meaning as a directory and a name in it. -/
def join (dir name : String) : String := ((Place.ofPath dir).step name).path

/-- The texts in front of the slashes that part a path, shortest first; then the path itself. -/
def ancestors (path : String) : List String :=
  let cs := path.toList
  let inner := (List.range cs.length).filter fun i =>
    0 < i && cs[i]? = some '/' && (cs[i + 1]?).any (· ≠ '/')
  inner.map (fun i => String.ofList (cs.take i)) ++ [path]

/-- The bytes that one part of a path may have. -/
def maxPart : Nat := 255

/-- The bytes that a whole path may have. -/
def maxLength : Nat := 4095

end Path

/-! ## Files in memory -/

inductive Node where
  | file (contents : String)
  | directory
  deriving DecidableEq, Repr

/-- Why a path leads nowhere. -/
inductive Dead where
  | missing
  /-- A part of the path that has to be a directory is a file. -/
  | throughFile
  /-- The path or a part of it has more bytes than a path may have. -/
  | tooLong
  /-- The path has a null character in it. -/
  | invalid
  deriving DecidableEq, Repr

def Dead.reason : Dead → String
  | missing => "no such file or directory"
  | throughFile => "not a directory"
  | tooLong => "file name too long"
  | invalid => "invalid argument"

/-- A working directory with everything in it.  A directory exists when a file lies in it or it was
made; outside of the working directory only the directories above it exist, unless more is made
there. -/
structure FileTree where
  files : List (Place × String)
  directories : List Place := []
  deriving DecidableEq, Repr

namespace FileTree

def ofFiles (files : List (String × String)) : FileTree :=
  ⟨files.map fun (path, contents) => (Place.ofPath path, contents), []⟩

def node? (t : FileTree) (place : Place) : Option Node :=
  match t.files.find? (·.1 = place) with
  | some (_, contents) => some (.file contents)
  | none =>
    if place.isAbove || t.files.any (fun f => place.holds f.1)
        || t.directories.any (place.holds ·) then
      some .directory
    else none

def walk (t : FileTree) : Place → List String → Except Dead (Place × Node)
  | place, [] =>
    match t.node? place with
    | some node => .ok (place, node)
    | none => .error .missing
  | place, part :: rest =>
    match t.node? place with
    | some .directory =>
      if Path.maxPart < part.utf8ByteSize then .error .tooLong else walk t (place.step part) rest
    | some (.file _) => .error .throughFile
    | none => .error .missing

def look (t : FileTree) (path : String) : Except Dead (Place × Node) :=
  if path.isEmpty then .error .missing
  else if path.toList.any (· = Char.ofNat 0) then .error .invalid
  else if Path.maxLength < path.utf8ByteSize then .error .tooLong
  else t.walk (Place.start path) (Text.splitAt '/' path)

def contents (t : FileTree) (path : String) : Except FileFault String :=
  match t.look path with
  | .ok (_, .file text) => .ok text
  | .ok (_, .directory) => .error ⟨"read", path, "is a directory"⟩
  | .error dead => .error ⟨"open", path, dead.reason⟩

/-- Makes one directory, unless it is there. -/
def makeDir (t : FileTree) (path : String) : Except FileFault FileTree :=
  match t.look path with
  | .ok (_, .directory) => .ok t
  | .ok (_, .file _) => .error ⟨"mkdir", path, Dead.throughFile.reason⟩
  | .error .throughFile => .error ⟨"mkdir", path, "file exists"⟩
  | .error .missing =>
    if path.isEmpty then .error ⟨"mkdir", path, Dead.missing.reason⟩
    else .ok { t with directories := t.directories ++ [Place.ofPath path] }
  | .error dead => .error ⟨"mkdir", path, dead.reason⟩

def makeDirs (t : FileTree) (path : String) : Except FileFault FileTree :=
  (Path.ancestors path).foldlM makeDir t

def writeFile (t : FileTree) (path contents : String) : Except FileFault FileTree :=
  match t.look path with
  | .ok (_, .directory) => .error ⟨"open", path, "is a directory"⟩
  | .ok (place, .file _) =>
    .ok { t with files := t.files.map fun f => if f.1 = place then (place, contents) else f }
  | .error .missing =>
    let place := Place.ofPath path
    match t.node? place.parent with
    | some .directory => .ok { t with files := t.files ++ [(place, contents)] }
    | _ => .error ⟨"open", path, Dead.missing.reason⟩
  | .error dead => .error ⟨"open", path, dead.reason⟩

/-- Applies a change to the tree, or reports why it cannot be made. -/
def change (f : FileTree → Except FileFault FileTree) : StateM FileTree (Except FileFault Unit) :=
  fun t =>
    match f t with
    | .ok t' => (.ok (), t')
    | .error fault => (.error fault, t)

/-- A tree as the host of a command that is given some standard input, without a terminal and
without a clipboard. -/
def host (input : String) : Host (StateM FileTree) where
  readFile path := do return (← get).contents path
  makeDirs path := change (·.makeDirs path)
  writeFile path contents := change (·.writeFile path contents)
  readInput := return .ok input
  converse _ _ _ := return none
  copy _ := return .error "not available"
  decodeConfig := ConfigFile.decode
  dump := Conversion.detail
  dumpTable t := Text.unlines (t.instructions.map (·.synopsis))

/-- The paths of the files in the working directory that another tree does not have, with the sizes
of their contents in bytes, by ascending path. -/
def added (t before : FileTree) : List (String × Nat) :=
  ((t.files.filter fun f => f.1.isInside && !before.files.any (·.1 = f.1)).map fun f =>
    (f.1.path, f.2.utf8ByteSize)).mergeSort fun a b => a.1 ≤ b.1

end FileTree

end RvCodec.Cli

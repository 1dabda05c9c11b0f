import EngineDuel.Host.Fault
import EngineDuel.Host.Path
import EngineDuel.Text.Raw

/-!
# Files and directories

A workspace is a tree of files and directories, kept as a list of entries by place. There are no links
in the tree, neither symbolic nor hard ones: different places are different files. All names in it are
texts. Each operation takes a name and the directory in which a relative name begins, and it fails with
a fault or returns the workspace after it.

A file holds bytes or is an installed program; programs can be copied like other files.
-/

namespace EngineDuel.Host

/-- The programs that are installed. -/
inductive Installed where
  /-- Plays tournaments. -/
  | arena
  /-- Searches for the best value of a number. -/
  | tuner
  /-- The engine that follows its options. -/
  | scripted
  /-- The shell, of which one kind knows escapes in what it echoes. -/
  | shell (echoEscapes : Bool)
  /-- A small program, known by its name. -/
  | tool (name : String)
  deriving DecidableEq, Repr

/-- What a file holds. -/
inductive Content where
  | bytes (data : List UInt8)
  | program (p : Installed)
  deriving DecidableEq, Repr

/-- A file. -/
structure File where
  content : Content
  /-- Whether it may be run. -/
  runnable : Bool := false
  deriving DecidableEq, Repr

/-- What there is at a place. -/
inductive Entry where
  | directory
  | file (f : File)
  deriving DecidableEq, Repr

/-- A tree of files and directories, without the root. -/
structure Workspace where
  entries : List (Place × Entry) := []
  deriving DecidableEq, Repr

/-- The name in the tree that a text of the system is. What is no text names nothing. -/
def nameOf (t : RawText) : Except Fault String :=
  match t.text? with
  | some name => .ok name
  | none => .error .missing

/-- A place that a name leads to, and what there is. -/
structure Target where
  place : Place
  entry : Option Entry
  deriving DecidableEq, Repr

namespace Workspace

/-! ## Places -/

/-- What there is at a place. -/
def find? (w : Workspace) (place : Place) : Option Entry :=
  if place = [] then some .directory else w.entries.lookup place

/-- The workspace with something at a place; what was there is replaced. -/
def set (w : Workspace) (place : Place) (e : Entry) : Workspace :=
  if (w.entries.lookup place).isSome then
    ⟨w.entries.map fun x => if x.1 = place then (place, e) else x⟩
  else ⟨w.entries ++ [(place, e)]⟩

/-- The workspace without a place and what lies below it. -/
def erase (w : Workspace) (place : Place) : Workspace :=
  ⟨w.entries.filter fun x => !(place.isPrefixOf x.1)⟩

/-- The places directly below a place, with their names. -/
def children (w : Workspace) (place : Place) : List String :=
  w.entries.filterMap fun x =>
    if x.1.length = place.length + 1 && place.isPrefixOf x.1 then x.1.getLast? else none

/-- The longest piece of a name, in bytes. -/
def longestPiece : Nat := 255

/-- The longest name, in bytes. -/
def longestPath : Nat := 4095

/-- Follows the pieces of a name. Only the last piece may lead to nothing. -/
def walk (w : Workspace) (here : Place) : List String → Except Fault Target
  | [] => .ok ⟨here, w.find? here⟩
  | piece :: rest =>
    match w.find? here with
    | none => .error .missing
    | some (.file _) => .error .notDirectory
    | some .directory =>
      if piece = "" || piece = "." then walk w here rest
      else if piece = ".." then walk w here.dropLast rest
      else if longestPiece < piece.utf8ByteSize then .error .nameTooLong
      else
        let place := here ++ [piece]
        match w.find? place, rest with
        | none, [] => .ok ⟨place, none⟩
        | none, _ :: _ => .error .missing
        | some _, _ => walk w place rest

/-- Where a name leads. -/
def resolve (w : Workspace) (cwd : Place) (path : String) : Except Fault Target :=
  if path = "" then .error .missing
  else if path.contains '\x00' then .error .nulInName
  else if longestPath < path.utf8ByteSize then .error .nameTooLong
  else w.walk (if Path.isAbsolute path then [] else cwd) (Path.pieces path)

/-- What there is under a name. -/
def entry (w : Workspace) (cwd : Place) (path : String) : Except Fault Entry := do
  match (← w.resolve cwd path).entry with
  | some e => return e
  | none => throw .missing

/-- Whether a name leads to a directory. -/
def isDirectory (w : Workspace) (cwd : Place) (path : String) : Bool :=
  match w.entry cwd path with
  | .ok .directory => true
  | _ => false

/-! ## Directories -/

/-- Makes a directory. -/
def makeDirectory (w : Workspace) (cwd : Place) (path : String) : Except Fault Workspace := do
  -- A slash after the last piece is allowed here.
  let t ← w.resolve cwd (if Path.trimBack path.toList.reverse = ['/'] then path
    else String.ofList (path.toList.reverse.dropWhile (· = '/')).reverse)
  match t.entry with
  | some _ => throw .alreadyThere
  | none => return w.set t.place .directory

/-- Makes a directory and those above it, from `path` upwards; `depth` bounds how many. -/
def makeDirectories (w : Workspace) (cwd : Place) : Nat → String → Except Fault Workspace
  | 0, _ => .ok w
  | depth + 1, path =>
    if path = "" then .ok w
    else
      match w.makeDirectory cwd path with
      | .ok w => .ok w
      | .error .missing => do
        let above ← makeDirectories w cwd depth ((Path.parent? path).getD "")
        match above.makeDirectory cwd path with
        | .ok w => return w
        | .error e => if above.isDirectory cwd path then return above else throw e
      | .error e => if w.isDirectory cwd path then .ok w else .error e

/-- Makes a directory and all those above it that do not exist. -/
def makeAll (w : Workspace) (cwd : Place) (path : String) : Except Fault Workspace :=
  w.makeDirectories cwd (path.length + 1) path

/-! ## Files -/

/-- The place of a file that is to be written. -/
def writable (w : Workspace) (cwd : Place) (path : String) : Except Fault (Place × Option File) := do
  if Path.endsWithSlash path then
    let _ ← w.resolve cwd (String.ofList (path.toList.reverse.dropWhile (· = '/')).reverse)
    throw .isDirectory
  let t ← w.resolve cwd path
  match t.entry with
  | some .directory => throw .isDirectory
  | some (.file f) => return (t.place, some f)
  | none => return (t.place, none)

/-- Creates a file, or empties it if there is one; then it holds `content`. -/
def write (w : Workspace) (cwd : Place) (path : String) (content : Content) :
    Except Fault Workspace := do
  let (place, old) ← w.writable cwd path
  return w.set place (.file ⟨content, old.elim false File.runnable⟩)

/-- Adds bytes to a file, which is created if there is none. An installed program stays as it is. -/
def append (w : Workspace) (cwd : Place) (path : String) (data : List UInt8) :
    Except Fault Workspace := do
  let (place, old) ← w.writable cwd path
  match old with
  | some ⟨.bytes before, runnable⟩ => return w.set place (.file ⟨.bytes (before ++ data), runnable⟩)
  | some ⟨.program _, _⟩ => return w
  | none => return w.set place (.file ⟨.bytes data, false⟩)

/-- The bytes of a file. Those of an installed program are never asked for. -/
def read (w : Workspace) (cwd : Place) (path : String) : Except Fault (List UInt8) := do
  match ← w.entry cwd path with
  | .directory => throw .isDirectory
  | .file ⟨.bytes data, _⟩ => return data
  | .file ⟨.program _, _⟩ => return [0x7f]

/-- The text of a file. -/
def readText (w : Workspace) (cwd : Place) (path : String) : Except Fault String := do
  match Text.decode? (← w.read cwd path) with
  | some text => return text
  | none => throw .notText

/-- Copies a file. The copy may be run if the file may. A file that is copied to its own place is
emptied, because the copy is opened first. -/
def copy (w : Workspace) (cwd : Place) (path dest : String) : Except Fault Workspace := do
  let source ← w.resolve cwd path
  match source.entry with
  | none => throw .missing
  | some .directory => throw .notFile
  | some (.file f) =>
    let (place, _) ← w.writable cwd dest
    return w.set place (.file (if place = source.place then { f with content := .bytes [] } else f))

/-- The files below a directory, with their names from there. -/
def listing (w : Workspace) (root : Place) : List (String × File) :=
  w.entries.filterMap fun x =>
    match x.2 with
    | .file f =>
      if root.isPrefixOf x.1 then some ("/".intercalate (x.1.drop root.length), f) else none
    | .directory => none

/-! ## Two users of one workspace -/

/-- What two users make of a workspace that both began with: the changes of the first, and elsewhere
what the second left. -/
def merge (start a b : Workspace) : Workspace :=
  let changed := a.entries.filter fun x => start.entries.lookup x.1 ≠ some x.2
  let gone := start.entries.filter fun x => (a.entries.lookup x.1).isNone
  let kept := gone.foldl (fun (w : Workspace) x => w.erase x.1) b
  changed.foldl (fun w x => w.set x.1 x.2) kept

end Workspace

end EngineDuel.Host

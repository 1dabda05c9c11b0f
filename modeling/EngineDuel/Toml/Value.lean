/-!
# TOML documents

A document is a tree of tables. How a table came to be decides what a later line may add to it, so
each table keeps its origin.
-/

namespace EngineDuel

/-- How a table came to be. -/
inductive Toml.Origin where
  /-- It has a header, or is the document. -/
  | header
  /-- It lies on the way to a table with a header. -/
  | implied
  /-- It lies on the way to a key with dots. -/
  | dotted
  /-- It is written between braces, and complete. -/
  | inline
  deriving DecidableEq, Repr

/-- A value of a document. -/
inductive Toml where
  | text (s : String)
  | integer (n : Int)
  | float (x : Float)
  | bool (b : Bool)
  /-- A date, a time or both. -/
  | moment
  | array (items : List Toml)
  | table (origin : Toml.Origin) (members : List (String × Toml))
  /-- Tables with one header for each, last first. -/
  | tables (items : List (List (String × Toml)))
  deriving Repr, Inhabited

namespace Toml

/-- The members of a table. -/
abbrev Members := List (String × Toml)

/-- Members with one of them changed; a new one comes last. -/
def setMember (name : String) (value : Toml) : Members → Members
  | [] => [(name, value)]
  | (n, v) :: rest => if n = name then (n, value) :: rest else (n, v) :: setMember name value rest

/-- Goes down a path of tables, makes those that are missing, and changes the members of the last
one, of which the change is also told the origin. A path of a key with dots does not lead into a
table with a header, unless that is one of several; no path leads into a table between braces. -/
def changeAt? (dots : Bool) (change : Origin → Members → Option Members) :
    List String → Origin → Members → Option Members
  | [], origin, members => change origin members
  | name :: path, _, members =>
    match members.lookup name with
    | none => do
      let origin : Origin := if dots then .dotted else .implied
      let inner ← changeAt? dots change path origin []
      return setMember name (.table origin inner) members
    | some (.table origin inner) =>
      if origin = .inline || (dots && origin = .header) then none
      else do
        let inner ← changeAt? dots change path origin inner
        return setMember name (.table origin inner) members
    | some (.tables (last :: earlier)) => do
      let last ← changeAt? dots change path .header last
      return setMember name (.tables (last :: earlier)) members
    | some _ => none

/-- Adds a value under a key with dots. The tables on the way must be ones that such keys made. -/
def addAt? (path : List String) (name : String) (value : Toml) (origin : Origin)
    (members : Members) : Option Members :=
  let add (o : Origin) (ms : Members) : Option Members :=
    if (!path.isEmpty && o ≠ .dotted) || (ms.lookup name).isSome then none
    else some (ms ++ [(name, value)])
  changeAt? true add path origin members

/-- Adds a table with a header to a document. -/
def openTable? (path : List String) (name : String) (document : Members) : Option Members :=
  let add (_ : Origin) (ms : Members) : Option Members :=
    match ms.lookup name with
    | none => some (ms ++ [(name, .table .header [])])
    | some (.table .implied inner) => some (setMember name (.table .header inner) ms)
    | some _ => none
  changeAt? false add path .header document

/-- Adds one of several tables with the same header to a document. -/
def openTables? (path : List String) (name : String) (document : Members) : Option Members :=
  let add (_ : Origin) (ms : Members) : Option Members :=
    match ms.lookup name with
    | none => some (ms ++ [(name, .tables [[]])])
    | some (.tables items) => some (setMember name (.tables ([] :: items)) ms)
    | some _ => none
  changeAt? false add path .header document

end Toml

end EngineDuel

import EngineDuel.Text.Blank

/-!
# Names of files

A name consists of pieces between slashes. A slash at its start makes it begin at the root. Slashes
at its end, repeated slashes and pieces `.` say nothing more, except for a `.` at the start of a name.
-/

namespace EngineDuel.Host

/-- A place in the tree of files: the names on the way from the root. -/
abbrev Place := List String

namespace Path

/-- A name, read backwards, without what says nothing at its end. -/
def trimBack : List Char → List Char
  | ['/'] => ['/']
  | '/' :: rest => trimBack rest
  | '.' :: '/' :: rest => trimBack ('/' :: rest)
  | name => name

/-- The name of the directory that a name lies in: empty for a name of one piece, and none for the
root and the empty name. -/
def parent? (path : String) : Option String :=
  let back := trimBack path.toList.reverse
  if back = [] || back = ['/'] then none
  else some (String.ofList (trimBack (back.dropWhile (· ≠ '/'))).reverse)

/-- The pieces of a name. -/
def pieces (path : String) : List String :=
  (Text.splitAt (· == '/') path.toList).map String.ofList

/-- Whether a name begins at the root. -/
def isAbsolute (path : String) : Bool := path.startsWith "/"

/-- Whether a name ends with a slash. -/
def endsWithSlash (path : String) : Bool := path.endsWith "/"

/-- Whether a name tells where a program lies; a name without a slash is looked for. -/
def hasSlash (path : String) : Bool := path.contains '/'

/-- The last piece of a name. -/
def lastPiece (path : String) : String := (pieces path).getLast?.getD ""

/-- The text of a place. -/
def ofPlace (place : Place) : String := "/" ++ "/".intercalate place

end Path

end EngineDuel.Host

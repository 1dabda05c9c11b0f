/-!
# Faults of the host

What can go wrong when files are used and programs are started, and how it is told: most faults have
a number beside their text.
-/

namespace EngineDuel.Host

/-- Why the host refused something. -/
inductive Fault where
  /-- A file or directory on the way does not exist. -/
  | missing
  /-- A file that may be run is no program. -/
  | badProgram
  | denied
  | alreadyThere
  | notDirectory
  | isDirectory
  | brokenPipe
  | nameTooLong
  /-- A name with a NUL character. -/
  | nulInName
  /-- An argument with a NUL character. -/
  | nulInArgument
  /-- What is to be copied is no file. -/
  | notFile
  /-- The bytes of a text are not UTF-8. -/
  | notText
  /-- A program that was started by too many others, one by another. -/
  | tooDeep
  deriving DecidableEq, Repr

/-- A fault with its number. -/
def numbered (text : String) (number : Nat) : String :=
  text ++ " (os error " ++ toString number ++ ")"

/-- The text of a fault. -/
def Fault.message : Fault → String
  | missing => numbered "No such file or directory" 2
  | badProgram => numbered "Exec format error" 8
  | tooDeep => numbered "Resource temporarily unavailable" 11
  | denied => numbered "Permission denied" 13
  | alreadyThere => numbered "File exists" 17
  | notDirectory => numbered "Not a directory" 20
  | isDirectory => numbered "Is a directory" 21
  | brokenPipe => numbered "Broken pipe" 32
  | nameTooLong => numbered "File name too long" 36
  | nulInName => "file name contained an unexpected NUL byte"
  | nulInArgument => "nul byte found in provided data"
  | notFile => "the source path is neither a regular file nor a symlink to a regular file"
  | notText => "stream did not contain valid UTF-8"

end EngineDuel.Host

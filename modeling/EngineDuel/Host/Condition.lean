import EngineDuel.Host.Printf
import EngineDuel.Host.Workspace

/-!
# Conditions

What `test` tells: whether texts are equal or empty, how numbers compare, and what kind of file there
is under a name. All texts are octets.
-/

namespace EngineDuel.Host.Condition

/-- A condition on one text. -/
def unary? (w : Workspace) (cwd : Place) (name arg : String) : Option Bool :=
  let file := nameOf (.ofOctets arg.toList) >>= w.entry cwd
  let exists_ := match file with
    | .ok _ => true
    | .error _ => false
  match name with
  | "-n" => some (arg ≠ "")
  | "-z" => some (arg = "")
  | "-e" | "-r" | "-w" => some exists_
  | "-f" => some (match file with
    | .ok (.file _) => true
    | _ => false)
  | "-d" => some (match file with
    | .ok .directory => true
    | _ => false)
  | "-x" => some (match file with
    | .ok (.file f) => f.runnable
    | .ok .directory => true
    | .error _ => false)
  | "-s" => some (match file with
    | .ok (.file ⟨.bytes data, _⟩) => !data.isEmpty
    | .ok _ => true
    | .error _ => false)
  | "-h" | "-L" | "-p" | "-S" | "-b" | "-c" | "-t" => some false
  | _ => none

/-- A comparison of two whole numbers. -/
def compare? (name : String) (a b : Int) : Option Bool :=
  match name with
  | "-eq" => some (a = b)
  | "-ne" => some (a ≠ b)
  | "-lt" => some (a < b)
  | "-le" => some (a ≤ b)
  | "-gt" => some (b < a)
  | "-ge" => some (b ≤ a)
  | _ => none

/-- The names of the comparisons of numbers. -/
def comparisons : List String := ["-eq", "-ne", "-lt", "-le", "-gt", "-ge"]

/-- A number in decimal notation, with blanks around it. -/
def number? (s : String) : Option Int :=
  let cs := Text.trim s.toList
  match cs with
  | '-' :: ds => (Printf.digitsValue 10 Printf.anyDigit ds).map fun n => -(n : Int)
  | '+' :: ds => (Printf.digitsValue 10 Printf.anyDigit ds).map Int.ofNat
  | ds => (Printf.digitsValue 10 Printf.anyDigit ds).map Int.ofNat

/-- A condition on two texts; an error says what is wrong with them. -/
def binary? (a name b : String) : Option (Except String Bool) :=
  match name with
  | "=" | "==" => some (.ok (a = b))
  | "!=" => some (.ok (a ≠ b))
  | "<" => some (.ok (a < b))
  | ">" => some (.ok (b < a))
  | _ =>
    if comparisons.contains name then
      match number? a, number? b with
      | some x, some y => (compare? name x y).map .ok
      | none, _ => some (.error ("Illegal number: " ++ a))
      | _, none => some (.error ("Illegal number: " ++ b))
    else none

/-- The value of a condition of at most four words. -/
def short (w : Workspace) (cwd : Place) : List String → Except String Bool
  | [] => .ok false
  | [a] => .ok (a ≠ "")
  | [name, a] =>
    if name = "!" then .ok (a = "")
    else match unary? w cwd name a with
      | some b => .ok b
      | none => .error (name ++ ": unexpected operator")
  | [a, name, b] =>
    match binary? a name b with
    | some r => r
    | none =>
      if a = "!" then (short w cwd [name, b]).map (!·)
      else if a = "(" && b = ")" then .ok (name ≠ "")
      else .error (name ++ ": unexpected operator")
  | a :: rest =>
    if a = "!" then (short w cwd rest).map (!·)
    else .error "too many arguments"

/-- The value of a condition: parts joined by `-o`, of parts joined by `-a`. -/
def holds (w : Workspace) (cwd : Place) (args : List String) : Except String Bool :=
  if args.length ≤ 4 && !(args.contains "-a" || args.contains "-o") || args.length ≤ 3 then
    short w cwd args
  else
    (Text.splitAt (· == "-o") args).foldlM (fun (found : Bool) part => do
      let all ← (Text.splitAt (· == "-a") part).foldlM (fun (so : Bool) p => do
        return (← short w cwd p) && so) true
      return all || found) false

/-- The value of a condition as the number with which a program tells it. -/
def code : Except String Bool → Nat
  | .ok true => 0
  | .ok false => 1
  | .error _ => 2

end EngineDuel.Host.Condition

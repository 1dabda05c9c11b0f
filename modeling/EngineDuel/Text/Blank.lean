/-!
# Blank characters

The white space of Unicode, and the two ways in which the lines of an engine use it: a line is read
without the blanks at its ends, and a command is read as its words.

Texts are lists of characters here, as everywhere below the outermost layer.
-/

namespace EngineDuel.Text

/-- Unicode's `White_Space`. -/
def isBlank (c : Char) : Bool :=
  let n := c.toNat
  (0x9 ≤ n && n ≤ 0xd) || n == 0x20 || n == 0x85 || n == 0xa0 || n == 0x1680
    || (0x2000 ≤ n && n ≤ 0x200a) || n == 0x2028 || n == 0x2029 || n == 0x202f || n == 0x205f
    || n == 0x3000

/-- A text without the blanks it starts with. -/
def trimStart (s : List Char) : List Char := s.dropWhile isBlank

/-- A text without the blanks it ends with. -/
def trimEnd (s : List Char) : List Char := (s.reverse.dropWhile isBlank).reverse

/-- A text without the blanks at its two ends. -/
def trim (s : List Char) : List Char := trimEnd (trimStart s)

/-- The pieces of a list between the elements that `p` picks; there is always at least one. -/
def splitAt {α : Type} (p : α → Bool) : List α → List (List α)
  | [] => [[]]
  | a :: rest =>
    if p a then [] :: splitAt p rest
    else match splitAt p rest with
      | [] => [[a]]
      | piece :: pieces => (a :: piece) :: pieces

theorem splitAt_ne_nil {α : Type} (p : α → Bool) (s : List α) : splitAt p s ≠ [] := by
  cases s with
  | nil => simp [splitAt]
  | cons a rest =>
    unfold splitAt
    split
    · simp
    · split <;> simp

/-- The words of a text: its longest runs of characters that are not blank. -/
def words (s : List Char) : List (List Char) := (splitAt isBlank s).filter (· ≠ [])

/-- Whether `t` stands somewhere in `s`. -/
def contains (t : List Char) : List Char → Bool
  | [] => t.isEmpty
  | s@(_ :: rest) => t.isPrefixOf s || contains t rest

/-- The text between the first `n` characters and the end, if the first `n` are `t`. -/
def dropPrefix? (t s : List Char) : Option (List Char) :=
  if t.isPrefixOf s then some (s.drop t.length) else none

/-- Texts joined by a separator. -/
def join (sep : List Char) : List (List Char) → List Char
  | [] => []
  | [s] => s
  | s :: rest => s ++ sep ++ join sep rest

end EngineDuel.Text

import EngineDuel.Match.Tournament
import EngineDuel.Number.Numeral
import EngineDuel.Text.Digit
import EngineDuel.Text.Word

/-!
# The final line

The last line of a tournament tells the standings and ends with both ratings. Whoever started the
tournament reads the ratings back from it: after the first `Arena Finished:`, the last place counts
at which the ratings stand, as `a_elo=`, a number, a comma, blanks, `b_elo=` and a number.
-/

namespace EngineDuel.Report

/-- What the final line starts with. -/
def finalMark : List Char := "Arena Finished:".toList

/-- What stands before the rating of A. -/
def aMark : List Char := "a_elo=".toList

/-- What stands before the rating of B. -/
def bMark : List Char := "b_elo=".toList

/-- A percentage, to one place. -/
def percentage (x : Float) : String := Number.fixed 1 x ++ "%"

/-- The final line. -/
def finalLine (s : Standings) (r : Ratings) : String :=
  "Arena Finished: total=" ++ toString s.games.toNat ++ ", a_wins=" ++ toString s.aWins.toNat
    ++ ", b_wins=" ++ toString s.bWins.toNat ++ ", draws=" ++ toString s.draws.toNat
    ++ ", black_wins=" ++ toString s.blackWins.toNat
    ++ ", white_wins=" ++ toString s.whiteWins.toNat
    ++ ", a_win_rate=" ++ percentage (s.rate s.aWins)
    ++ ", b_win_rate=" ++ percentage (s.rate s.bWins)
    ++ ", draw_rate=" ++ percentage (s.rate s.draws)
    ++ ", a_elo=" ++ Number.plain r.a ++ ", b_elo=" ++ Number.plain r.b

/-! ## Reading -/

/-- The ratings in a final line. -/
structure FinalRatings where
  aElo : Float
  bElo : Float
  deriving Repr

/-- Digits of any script at the start of a text, and what follows them. -/
def spanDigits (s : List Char) : List Char × List Char :=
  (s.takeWhile Text.isDigit, s.dropWhile Text.isDigit)

/-- A number at the start of a text, as long as possible, and what follows it: an optional minus
sign, digits, and optionally a point and digits. -/
def spanNumber? (s : List Char) : Option (List Char × List Char) :=
  let (sign, s) := match s with
    | '-' :: rest => (['-'], rest)
    | _ => ([], s)
  let (whole, s) := spanDigits s
  if whole.isEmpty then none
  else
    match s with
    | '.' :: rest =>
      let (fraction, rest) := spanDigits rest
      if fraction.isEmpty then some (sign ++ whole, s)
      else some (sign ++ whole ++ '.' :: fraction, rest)
    | _ => some (sign ++ whole, s)

/-- The texts of the two numbers, if the ratings stand at the start of a text. -/
def ratingsAt? (s : List Char) : Option (List Char × List Char) := do
  let s ← Text.dropPrefix? aMark s
  let (a, s) ← spanNumber? s
  let s ← Text.dropPrefix? [','] s
  let s ← Text.dropPrefix? bMark (Text.trimStart s)
  let (b, _) ← spanNumber? s
  return (a, b)

/-- The texts of the numbers at the last place of the first line of a text where the ratings stand.
They do not stand right after a word character, such as `before`. -/
def lastRatings? (before : Char) : List Char → Option (List Char × List Char)
  | [] => none
  | s@(c :: rest) =>
    let here := if Text.isWord before then none else ratingsAt? s
    if c = '\n' then here else (lastRatings? c rest).or here

/-- The texts of the ratings in a text: the first mark counts after which they can be read on the
same line. -/
def ratingTexts? : List Char → Option (List Char × List Char)
  | [] => none
  | s@(_ :: rest) =>
    ((Text.dropPrefix? finalMark s).bind (lastRatings? ':')).or (ratingTexts? rest)

/-- The ratings in a line. -/
def readFinalLine? (line : String) : Option FinalRatings := do
  let (a, b) ← ratingTexts? line.toList
  return ⟨← Number.float? a, ← Number.float? b⟩

end EngineDuel.Report

import EngineDuel.Game.Side
import EngineDuel.Text.Blank

/-!
# Declared results

An engine declares the result of a game in words. The winner is the colour that the words name, in
capitals or not; if they name both it is black, and if they name none the game is a draw.
-/

namespace EngineDuel

/-- The winner that an engine's words declare. -/
def declaredWinner (text : String) : Option Color :=
  let lower := text.toList.map Char.toLower
  if Text.contains Color.black.name.toList lower then some .black
  else if Text.contains Color.white.name.toList lower then some .white
  else none

end EngineDuel

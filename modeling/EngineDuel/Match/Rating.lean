import EngineDuel.Game.Side

/-!
# Elo ratings

After each game the players exchange rating points: `k` times the difference between the score and
what the two ratings had let expect. What A gains B loses.
-/

namespace EngineDuel

/-- The score that a rating lets expect against an opponent. -/
def expectedScore (rating opponent : Float) : Float :=
  1.0 / (1.0 + Float.pow 10.0 ((opponent - rating) / 400.0))

/-- The change of a rating by a score. -/
def ratingDelta (rating opponent actual k : Float) : Float :=
  k * (actual - expectedScore rating opponent)

/-- The changes of both ratings by one game. -/
structure RatingUpdate where
  deltaA : Float
  deltaB : Float
  deriving Repr

/-- The ratings of both players, and how fast they change. -/
structure Ratings where
  a : Float := 1000.0
  b : Float := 1000.0
  k : Float := 32.0
  deriving Repr

namespace Ratings

/-- The change by a game in which A scored. -/
def change (r : Ratings) (aScore : Float) : RatingUpdate :=
  let delta := ratingDelta r.a r.b aScore r.k
  ⟨delta, -delta⟩

/-- The ratings after a game in which A scored. -/
def after (r : Ratings) (aScore : Float) : Ratings :=
  let delta := (r.change aScore).deltaA
  { r with a := r.a + delta, b := r.b - delta }

end Ratings

end EngineDuel

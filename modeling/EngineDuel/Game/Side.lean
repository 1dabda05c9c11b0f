/-!
# Colours, players and seats

A game is between black, who moves first, and white. A match is between two players, A and B, whose
engines stay the same from game to game; the seating of a game says which colour A has.
-/

namespace EngineDuel

/-- The colour of a side in one game. -/
inductive Color where
  | black
  | white
  deriving DecidableEq, Repr, Inhabited

namespace Color

/-- The other colour. -/
def flip : Color → Color
  | black => white
  | white => black

@[simp] theorem flip_flip (c : Color) : c.flip.flip = c := by cases c <;> rfl

/-- The name of a colour in all output. -/
def name : Color → String
  | black => "black"
  | white => "white"

end Color

/-- The place of an engine in a match. -/
inductive Player where
  | a
  | b
  deriving DecidableEq, Repr, Inhabited

namespace Player

/-- The opponent. -/
def other : Player → Player
  | a => b
  | b => a

@[simp] theorem other_other (p : Player) : p.other.other = p := by cases p <;> rfl

theorem eq_other_of_ne {p q : Player} (h : p ≠ q) : p = q.other := by
  cases p <;> cases q <;> first | rfl | exact absurd rfl h

/-- The name of a player in reports. -/
def name : Player → String
  | a => "a"
  | b => "b"

end Player

/-- One value for each player. -/
structure ByPlayer (α : Type) where
  a : α
  b : α
  deriving DecidableEq, Repr, Inhabited

namespace ByPlayer

variable {α : Type}

/-- The value of a player. -/
def get (v : ByPlayer α) : Player → α
  | .a => v.a
  | .b => v.b

/-- Another value for one player. -/
def set (v : ByPlayer α) (p : Player) (x : α) : ByPlayer α :=
  match p with
  | .a => { v with a := x }
  | .b => { v with b := x }

@[simp] theorem get_set (v : ByPlayer α) (p : Player) (x : α) : (v.set p x).get p = x := by
  cases p <;> rfl

@[simp] theorem get_set_other (v : ByPlayer α) (p : Player) (x : α) :
    (v.set p x).get p.other = v.get p.other := by
  cases p <;> rfl

end ByPlayer

/-- Who has which colour in one game. -/
structure Seating where
  aColor : Color
  deriving DecidableEq, Repr, Inhabited

namespace Seating

/-- The colour of a player. -/
def colorOf (s : Seating) : Player → Color
  | .a => s.aColor
  | .b => s.aColor.flip

/-- The player of a colour. -/
def playerOf (s : Seating) (c : Color) : Player := if c = s.aColor then .a else .b

@[simp] theorem playerOf_colorOf (s : Seating) (p : Player) : s.playerOf (s.colorOf p) = p := by
  rcases s with ⟨_ | _⟩ <;> cases p <;> rfl

@[simp] theorem colorOf_playerOf (s : Seating) (c : Color) : s.colorOf (s.playerOf c) = c := by
  rcases s with ⟨_ | _⟩ <;> cases c <;> rfl

theorem playerOf_flip (s : Seating) (c : Color) : s.playerOf c.flip = (s.playerOf c).other := by
  rcases s with ⟨_ | _⟩ <;> cases c <;> rfl

end Seating

end EngineDuel

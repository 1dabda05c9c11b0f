import EngineDuel.Text.Blank

/-!
# Lines of bytes

An engine's output is a sequence of bytes. Its lines are the pieces between line feeds, each without
one carriage return right before its line feed; a last piece without a line feed counts if it is not
empty. Reading stops at the first piece that is not UTF-8.
-/

namespace EngineDuel.Text

/-- The line feed byte. -/
def lineFeed : UInt8 := 0x0a

/-- The carriage return byte. -/
def carriageReturn : UInt8 := 0x0d

/-- A line without one carriage return at its end. -/
def dropReturn (line : List UInt8) : List UInt8 :=
  if line.getLast? = some carriageReturn then line.dropLast else line

/-- The lines of a sequence of bytes. -/
def byteLines (bytes : List UInt8) : List (List UInt8) :=
  let pieces := splitAt (· == lineFeed) bytes
  let last := pieces.getLast?.getD []
  pieces.dropLast.map dropReturn ++ (if last.isEmpty then [] else [last])

/-- The text that bytes encode, if they are UTF-8. -/
def decode? (bytes : List UInt8) : Option String := String.fromUTF8? (ByteArray.mk bytes.toArray)

/-- The bytes of a text. -/
def encode (text : String) : List UInt8 := text.toUTF8.toList

/-- The texts of the lines up to the first that is not UTF-8. -/
def readableLines (bytes : List UInt8) : List String :=
  ((byteLines bytes).map decode?).takeWhile (·.isSome) |>.filterMap id

/-- Whether a byte continues a character in UTF-8. -/
def isContinuation (b : UInt8) : Bool := 0x80 ≤ b && b ≤ 0xbf

/-- The bytes of the longest start of a character that `bytes` begin with, and whether it is whole. -/
def firstCharacter (bytes : List UInt8) : Nat × Bool :=
  match bytes with
  | [] => (0, false)
  | a :: rest =>
    if a < 0x80 then (1, true)
    else
      let second (lo hi : UInt8) : Bool := match rest with
        | b :: _ => lo ≤ b && b ≤ hi
        | [] => false
      let following (n : Nat) (lo hi : UInt8) : Nat × Bool :=
        if second lo hi then
          let more := ((rest.drop 1).take (n - 1)).takeWhile isContinuation
          (2 + more.length, more.length == n - 1)
        else (1, false)
      if 0xc2 ≤ a && a ≤ 0xdf then following 1 0x80 0xbf
      else if a == 0xe0 then following 2 0xa0 0xbf
      else if a == 0xed then following 2 0x80 0x9f
      else if 0xe1 ≤ a && a ≤ 0xef then following 2 0x80 0xbf
      else if a == 0xf0 then following 3 0x90 0xbf
      else if 0xf1 ≤ a && a ≤ 0xf3 then following 3 0x80 0xbf
      else if a == 0xf4 then following 3 0x80 0x8f
      else (1, false)

/-- The text of bytes that need not be UTF-8: each longest start of a character that is not whole is
shown as the replacement character. -/
def decodeLossy (bytes : List UInt8) : String :=
  match decode? bytes with
  | some text => text
  | none => String.join (go bytes.length bytes)
where
  go : Nat → List UInt8 → List String
    | 0, _ => []
    | _, [] => []
    | fuel + 1, bytes =>
      let (n, whole) := firstCharacter bytes
      let piece := if whole then (decode? (bytes.take n)).getD "\ufffd" else "\ufffd"
      piece :: go fuel (bytes.drop (max n 1))

end EngineDuel.Text

import EngineDuel.Text.Lines

/-!
# Texts of the system

The names of programs, their arguments and their variables are bytes. Most of them are texts in UTF-8;
the others can be passed on, but only be shown with replacement characters.

Whoever works on bytes sees them as characters below 256, here called octets.
-/

namespace EngineDuel

namespace Text

/-- Bytes as the characters with the same numbers. -/
def octets (bytes : List UInt8) : List Char := bytes.map fun b => Char.ofNat b.toNat

/-- The bytes that octets stand for. -/
def ofOctets (s : List Char) : List UInt8 := s.map fun c => UInt8.ofNat c.toNat

end Text

/-- A text of the system: a text, or bytes that are not UTF-8. -/
inductive RawText where
  | text (s : String)
  | other (bytes : List UInt8) (h : Text.decode? bytes = none)
  deriving DecidableEq, Repr

namespace RawText

instance : Inhabited RawText := ⟨text ""⟩

instance : Coe String RawText := ⟨text⟩

/-- The text that bytes are. -/
def ofBytes (bytes : List UInt8) : RawText :=
  match h : Text.decode? bytes with
  | some s => text s
  | none => other bytes h

/-- The bytes of a text. -/
def bytes : RawText → List UInt8
  | text s => Text.encode s
  | other bytes _ => bytes

/-- The text, if it is one. -/
def text? : RawText → Option String
  | text s => some s
  | other .. => none

/-- The text as it is shown. -/
def shown : RawText → String
  | text s => s
  | other bytes _ => Text.decodeLossy bytes

/-! ## Pieces -/

/-- The octets of a text. -/
def octets (t : RawText) : List Char := Text.octets t.bytes

/-- The text with some octets. -/
def ofOctets (s : List Char) : RawText := ofBytes (Text.ofOctets s)

/-- What a text is taken apart into: its characters, or its octets if it is not UTF-8. -/
def letters : RawText → List Char
  | text s => s.toList
  | other bytes _ => Text.octets bytes

/-- Some of the letters of a text as a text. -/
def ofLetters : RawText → List Char → RawText
  | text _, s => text (String.ofList s)
  | other .., s => ofOctets s

end RawText

end EngineDuel

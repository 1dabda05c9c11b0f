import EngineDuel.Text.Lines

/-!
# The way to an engine

Bytes for an engine are held back until a line is complete, in a store of `capacity` bytes, and then
passed on. The other end may stop taking bytes; then writing fails, and what it did not take stays in
the store.

Each operation returns the bytes that got through, whether all went well, and the pipe after it.
-/

namespace EngineDuel.Wire

/-- How many bytes are held back at most. -/
def capacity : Nat := 8192

/-- The way to an engine. -/
structure Pipe where
  /-- How many bytes the other end will still take; without it, any number. -/
  room : Option Nat := none
  /-- The bytes that are held back. -/
  held : List UInt8 := []
  /-- The text of a failure. -/
  fault : String
  deriving DecidableEq, Repr

/-- What an operation on a pipe did. -/
structure Transfer where
  /-- The bytes that got through. -/
  delivered : List UInt8
  ok : Bool
  pipe : Pipe
  deriving DecidableEq, Repr

/-- One operation after another; the second is left out if the first fails. -/
def Transfer.andThen (t : Transfer) (next : Pipe → Transfer) : Transfer :=
  if t.ok then
    let u := next t.pipe
    ⟨t.delivered ++ u.delivered, u.ok, u.pipe⟩
  else t

namespace Pipe

/-- The number of bytes that the other end takes out of `bytes`. -/
def taken (p : Pipe) (bytes : List UInt8) : Nat :=
  match p.room with
  | none => bytes.length
  | some n => min n bytes.length

/-- The pipe after the other end has taken some bytes. -/
def afterTaking (p : Pipe) (n : Nat) : Pipe := { p with room := p.room.map (· - n) }

/-- Offers bytes to the other end, past the store. -/
def offer (p : Pipe) (bytes : List UInt8) : Transfer :=
  let n := p.taken bytes
  ⟨bytes.take n, n == bytes.length, p.afterTaking n⟩

/-- Passes on what is held back; what is not taken stays. -/
def flush (p : Pipe) : Transfer :=
  let n := p.taken p.held
  ⟨p.held.take n, n == p.held.length, { p.afterTaking n with held := p.held.drop n }⟩

/-- Adds bytes: to the store if it has space for them, or else after a flush; as many bytes as the
store holds at most do not go through it. -/
def put (p : Pipe) (bytes : List UInt8) : Transfer :=
  let keep (p : Pipe) : Transfer :=
    if bytes.length < capacity then ⟨[], true, { p with held := p.held ++ bytes }⟩
    else p.offer bytes
  if p.held.length + bytes.length ≤ capacity then keep p
  else p.flush.andThen keep

/-- Sends a line. -/
def sendLine (p : Pipe) (line : String) : Transfer :=
  ((p.put (Text.encode line)).andThen fun p => p.put [Text.lineFeed]).andThen flush

end Pipe

end EngineDuel.Wire

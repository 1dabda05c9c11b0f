/-!
# Spans of time

A span is a whole number of nanoseconds. Clocks count in milliseconds of 64 bits, so a span is shown
to a clock as its whole milliseconds, at most `2^64 - 1` of them.
-/

namespace EngineDuel

/-- A span of time. -/
structure Duration where
  nanos : Nat
  deriving DecidableEq, Repr, Inhabited

namespace Duration

/-- No time. -/
def zero : Duration := ⟨0⟩

/-- A span of whole milliseconds. -/
def ofMillis (ms : Nat) : Duration := ⟨ms * 1000000⟩

instance : Add Duration := ⟨fun a b => ⟨a.nanos + b.nanos⟩⟩

/-- The whole milliseconds of a span. -/
def wholeMillis (d : Duration) : Nat := d.nanos / 1000000

/-- The whole milliseconds of a span as a clock counts them. -/
def millis (d : Duration) : UInt64 := UInt64.ofNat (min d.wholeMillis (UInt64.size - 1))

theorem toNat_millis (d : Duration) : d.millis.toNat = min d.wholeMillis (UInt64.size - 1) := by
  simp only [millis, UInt64.toNat_ofNat', UInt64.size]
  omega

end Duration

end EngineDuel

import FrameLoop.Binary64
import FrameLoop.Digits

/-!
# Spans of time

A `Duration` is a whole number of nanoseconds below 2^64 seconds; the bound is
part of the type, so nothing downstream restates it. Where a duration is kept
in fewer bits it is cut off, never wrapped (`Duration.saturated`), and a
duration made from a binary64 number of seconds is rounded once, to the
nearest nanosecond (`Duration.ofSeconds?`).

`Instant` is a reading of a clock, as nanoseconds from an arbitrary start that
may lie in either direction.
-/

namespace FrameLoop

def nanosPerSecond : Nat := 1000000000

def nanosPerMilli : Nat := 1000000

/-- Durations lie below this many nanoseconds: 2^64 seconds. -/
def Duration.limit : Nat := UInt64.size * nanosPerSecond

/-- **A span of time**, in whole nanoseconds, of less than 2^64 seconds. -/
structure Duration where
  nanos : Nat
  inRange : nanos < Duration.limit
deriving DecidableEq, Repr

namespace Duration

theorem limit_pos : 0 < limit := by decide

def zero : Duration := ⟨0, limit_pos⟩

instance : Inhabited Duration := ⟨zero⟩

/-- The span of this many nanoseconds, if it is in range. -/
def ofNanos? (n : Nat) : Option Duration :=
  if h : n < limit then some ⟨n, h⟩ else none

/-- The span of this many nanoseconds, or the longest span. -/
def ofNanos (n : Nat) : Duration :=
  ⟨min n (limit - 1), by have := limit_pos; omega⟩

/-- The span of this many milliseconds, or the longest span. -/
def ofMillis (n : Nat) : Duration := ofNanos (n * nanosPerMilli)

/-- Whole seconds and the nanoseconds beyond them; nanoseconds that make up
further seconds are carried. -/
def ofParts? (secs nanos : Nat) : Option Duration :=
  ofNanos? (secs * nanosPerSecond + nanos)

/-- The whole seconds. -/
def secs (d : Duration) : Nat := d.nanos / nanosPerSecond

/-- The nanoseconds beyond the whole seconds. -/
def subsec (d : Duration) : Nat := d.nanos % nanosPerSecond

/-- **The span as it is kept in 64 bits of nanoseconds**: a longer one is cut
off at the longest that fits. -/
def saturated (d : Duration) : Duration :=
  ⟨min d.nanos (UInt64.size - 1), by have := d.inRange; omega⟩

/-- The longer of two spans. -/
def max (a b : Duration) : Duration := if a.nanos ≤ b.nanos then b else a

/-- **A span from a number of seconds** that is finite and not negative: the
exact value, to the nearest nanosecond, a half going to the even one; `none`
when 2^64 seconds are reached. -/
def ofSeconds? (x : Binary64) : Option Duration :=
  ofNanos? (Rounding.nearest (x.units * nanosPerSecond) Binary64.unitsPerOne)

/-- The span as a number of milliseconds: the seconds as one binary64 number,
then a thousand times that. -/
def toMillis (d : Duration) : Binary64 :=
  let fraction := (Binary64.ofNat d.subsec).div (Binary64.ofNat nanosPerSecond)
  ((Binary64.ofNat d.secs).addMagnitudes fraction).mul (Binary64.ofNat 1000)

/-! ## The readable text -/

/-- The digits of `value / 10^places` behind the point, without the zeros at
the end, and without the point if none is left. -/
def fractionText (value places : Nat) : String :=
  let kept := ((Digits.padded places value).reverse.dropWhile (· == '0')).reverse
  if kept.isEmpty then "" else String.ofList ('.' :: kept)

/-- **The readable text**: the largest unit of which there is at least one,
and as many decimal places as are needed. -/
def text (d : Duration) : String :=
  if 0 < d.secs then toString d.secs ++ fractionText d.subsec 9 ++ "s"
  else if nanosPerMilli ≤ d.nanos then
    toString (d.nanos / nanosPerMilli) ++ fractionText (d.nanos % nanosPerMilli) 6 ++ "ms"
  else if 1000 ≤ d.nanos then
    toString (d.nanos / 1000) ++ fractionText (d.nanos % 1000) 3 ++ "µs"
  else toString d.nanos ++ "ns"

@[simp] theorem saturated_nanos (d : Duration) :
    d.saturated.nanos = min d.nanos (UInt64.size - 1) := rfl

end Duration

/-! ## Clock readings -/

/-- **A reading of a clock**, in nanoseconds from an arbitrary start. -/
structure Instant where
  nanos : Int
deriving DecidableEq, Inhabited, Repr

namespace Instant

/-- The nanoseconds from `earlier` to `now`, zero if the clock went back. -/
def since (now earlier : Instant) : Nat := (now.nanos - earlier.nanos).toNat

/-- The reading this many nanoseconds before. -/
def back (t : Instant) (n : Nat) : Instant := ⟨t.nanos - n⟩

/-- The reading at whole seconds and nanoseconds beyond them; the seconds may
be negative, the nanoseconds are always added. -/
def ofParts (secs : Int) (nanos : Nat) : Instant := ⟨secs * nanosPerSecond + nanos⟩

/-- The whole seconds, rounded down. -/
def secs (t : Instant) : Int := Int.fdiv t.nanos nanosPerSecond

/-- The nanoseconds beyond the whole seconds. -/
def subsec (t : Instant) : Nat := (Int.fmod t.nanos nanosPerSecond).toNat

end Instant

end FrameLoop

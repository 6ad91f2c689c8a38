import FrameLoop.Feed

/-!
# Wake-ups at a fixed rate

An `Interval` knows one thing beside its period: the next *deadline*, in
nanoseconds of the clock it lives on. A wake-up delivers the deadline it was
waiting for, not the time at which it was noticed, so lateness does not
accumulate. A wake-up noticed more than five milliseconds late skips to the
next multiple of the period after the present, the way a display refresh
behaves when the page is busy.

The first deadline is the instant of creation.
-/

namespace FrameLoop

/-- **A fixed-rate source**: its period and the deadline it waits for, both in
nanoseconds. -/
structure Interval where
  period : Nat
  deadline : Nat
deriving DecidableEq, Inhabited, Repr

namespace Interval

/-- How late a wake-up may be noticed before the ones missed are skipped. -/
def tolerance : Nat := 5 * nanosPerMilli

/-- The period in use for a requested one: at least a millisecond. -/
def effectivePeriod (requested : Duration) : Duration :=
  requested.max (.ofMillis 1)

/-- A source created now. -/
def start (requested : Duration) (now : Nat) : Interval :=
  ⟨(effectivePeriod requested).nanos, now⟩

/-- Whether the deadline has been reached. -/
def due (i : Interval) (now : Nat) : Bool := decide (i.deadline ≤ now)

/-- The source after delivering its deadline at `now`. -/
def advance (i : Interval) (now : Nat) : Interval :=
  if i.deadline + tolerance < now then
    { i with deadline := now + i.period - (now - i.deadline) % i.period }
  else { i with deadline := i.deadline + i.period }

/-- The next wake-up at `now`, and the source after it. -/
def next (i : Interval) (now : Nat) : Offer × Interval :=
  if i.due now then (.reading ⟨i.deadline⟩, i.advance now) else (.pending, i)

/-- The first whole millisecond at which the deadline is reached, no earlier
than `clock` (in milliseconds). -/
def wakingMilli (i : Interval) (clock : Nat) : Nat :=
  Nat.max clock ((i.deadline + nanosPerMilli - 1) / nanosPerMilli)

/-! ## On a clock of its own -/

/-- What can be done with a source on a clock of whole milliseconds. -/
inductive Action where
  /-- Wait for the next wake-up. -/
  | next
  /-- Let this many milliseconds pass. -/
  | sleep (millis : Nat)

/-- What an action shows: a sleep the clock after it, a wait also the reading. -/
structure Observation where
  reading : Option Nat
  clock : Nat

/-- One action, from the source and the clock before it. -/
def act (i : Interval) (clock : Nat) : Action → Observation × Interval
  | .next =>
    let woken := i.wakingMilli clock
    (⟨some i.deadline, woken⟩, i.advance (woken * nanosPerMilli))
  | .sleep k => (⟨none, clock + k⟩, i)

/-- What a list of actions shows. -/
def run (i : Interval) (clock : Nat) : List Action → List Observation
  | [] => []
  | a :: rest => (i.act clock a).1 :: run (i.act clock a).2 (i.act clock a).1.clock rest

end Interval

end FrameLoop

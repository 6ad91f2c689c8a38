import FrameLoop.Duration

/-!
# The pacer

A wake-up is only an occasion to look at the clock. `Pacer.evaluate` decides
whether it becomes a tick: it does when at least one frame delay has passed
since the *reference*. The new reference is not the reading itself but the
reading less what has passed beyond a whole number of delays, so that late
wake-ups do not push the later ticks back.

The carried part is kept in 64 bits of nanoseconds, so it is taken modulo
2^64. For a delay of at most 2^64 nanoseconds that changes nothing
(`carried_of_le`).
-/

namespace FrameLoop

/-- **The pacer's memory**: the instant the next interval is measured from,
once there has been a tick. -/
structure Pacer where
  reference : Option Instant := none
deriving DecidableEq, Inhabited, Repr

namespace Pacer

/-- What passed beyond a whole number of delays, kept in 64 bits; nothing when
there is no delay. -/
def carried (elapsed delay : Nat) : Nat :=
  if delay = 0 then 0 else elapsed % delay % UInt64.size

/-- **One wake-up.** The first is always a tick. A later one is a tick when
the time since the reference reaches the delay; a clock that went back counts
as no time at all. A wake-up that is no tick leaves the pacer as it was. -/
def evaluate (p : Pacer) (now : Instant) (delay : Duration) : Bool × Pacer :=
  match p.reference with
  | none => (true, ⟨some now⟩)
  | some last =>
    let elapsed := now.since last
    if elapsed < delay.nanos then (false, p)
    else (true, ⟨some (now.back (carried elapsed delay.nanos))⟩)

/-- Wake-ups one after another, each with the delay in force: for each whether
it was a tick and the pacer after it. -/
def run (p : Pacer) : List (Instant × Duration) → List (Bool × Pacer)
  | [] => []
  | (now, delay) :: rest =>
    let step := p.evaluate now delay
    step :: run step.2 rest

/-- A wake-up that is declined leaves the reference alone. -/
theorem evaluate_declined {p : Pacer} {now : Instant} {delay : Duration}
    (h : (p.evaluate now delay).1 = false) : (p.evaluate now delay).2 = p := by
  cases hr : p.reference with
  | none => simp [evaluate, hr] at h
  | some last =>
    by_cases he : now.since last < delay.nanos
    · simp [evaluate, hr, he]
    · simp [evaluate, hr, he] at h

/-- Up to 2^64 nanoseconds of delay, the carried part is the remainder. -/
theorem carried_of_le {elapsed delay : Nat} (h0 : 0 < delay) (h : delay ≤ UInt64.size) :
    carried elapsed delay = elapsed % delay := by
  have := Nat.mod_lt elapsed h0
  have hd : delay ≠ 0 := by omega
  simp only [carried, hd, if_false]
  exact Nat.mod_eq_of_lt (by omega)

end Pacer

end FrameLoop

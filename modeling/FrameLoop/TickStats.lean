import FrameLoop.Timestamp

/-!
# Counters of a loop

What a scheduler publishes after every tick that has drained, a faulting one
included. A tick that runs no job counts as a tick, with no jobs and no
sub-cycles.
-/

namespace FrameLoop

/-- **The counters published after the last drained tick.** -/
structure TickStats where
  /-- How many ticks have drained. -/
  ticks : Nat := 0
  /-- How long the last tick waited for its jobs. -/
  lastTickDuration : Duration := .zero
  /-- From the start of the tick before to the start of the last. -/
  lastCycleDelta : Duration := .zero
  /-- How many steps the last tick launched. -/
  jobsLastTick : Nat := 0
  /-- How many waves the last tick launched. -/
  subCyclesLastTick : Nat := 0
  /-- When the first tick started. -/
  startedAt : Option Timestamp := none
deriving DecidableEq, Inhabited, Repr

namespace TickStats

/-- What one drained tick contributes. -/
structure Entry where
  duration : Duration
  delta : Duration
  jobs : Nat
  subCycles : Nat
  startedAt : Timestamp

/-- The counters after one more drained tick. The time of the first tick is
never replaced. -/
def add (s : TickStats) (e : Entry) : TickStats where
  ticks := s.ticks + 1
  lastTickDuration := e.duration
  lastCycleDelta := e.delta
  jobsLastTick := e.jobs
  subCyclesLastTick := e.subCycles
  startedAt := some (s.startedAt.getD e.startedAt)

end TickStats

end FrameLoop

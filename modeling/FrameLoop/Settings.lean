import FrameLoop.Duration
import FrameLoop.Error

/-!
# Settings

Three settings, all with a default: how far apart ticks are at least, how
often the built-in source wakes the loop, and which log messages are wanted.
The two times are binary64 numbers of milliseconds, as they are written, and
become durations when they are used (`durationOfMillis`).
-/

namespace FrameLoop

/-! ## Milliseconds -/

/-- **A duration from a number of milliseconds.** What is no positive number
counts as zero. A positive number is divided by a thousand, in binary64, and
the seconds are rounded to nanoseconds; where no duration holds them the
conversion panics. -/
def durationOfMillis (ms : Binary64) : Except Panic Duration :=
  if !ms.isFinite || ms.isNegative || ms.isZero then .ok .zero
  else
    match Duration.ofSeconds? (ms.div (.ofNat 1000)) with
    | some d => .ok d
    | none => .error .overlongSeconds

/-- Whether a number of milliseconds is replaced by zero without being zero. -/
def millisRejected (ms : Binary64) : Bool :=
  !ms.isZero && (!ms.isFinite || ms.isNegative)

/-! ## The settings -/

/-- Settings of a scheduler. -/
structure SchedulerSettings where
  /-- The least time between two ticks, in milliseconds: sixty a second. -/
  frameDelayMs : Binary64 := (Binary64.ofNat 1000).div (.ofNat 60)
  /-- The period of the built-in source, in milliseconds: faster than the
  frame delay, so that the pacer decides and not the timer. -/
  wakeupIntervalMs : Binary64 := (Binary64.ofNat 1000).div (.ofNat 240)
deriving DecidableEq, Inhabited, Repr

namespace SchedulerSettings

def frameDelay (s : SchedulerSettings) : Except Panic Duration :=
  durationOfMillis s.frameDelayMs

def wakeupInterval (s : SchedulerSettings) : Except Panic Duration :=
  durationOfMillis s.wakeupIntervalMs

/-- The period of the built-in source where nothing else is said. -/
def defaultWakeup : Duration :=
  match ({} : SchedulerSettings).wakeupInterval with
  | .ok d => d
  | .error _ => .zero

end SchedulerSettings

/-- The messages that are wanted where nothing else is said. -/
def defaultFilter : String := "framepace=info,framepace_scheduler=info"

/-- Settings of the log. -/
structure LoggingSettings where
  filter : String := defaultFilter
deriving DecidableEq, Inhabited, Repr

/-- **All settings.** -/
structure Settings where
  scheduler : SchedulerSettings := {}
  logging : LoggingSettings := {}
deriving DecidableEq, Inhabited, Repr

end FrameLoop

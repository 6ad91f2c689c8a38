import FrameLoop.CommandLine
import FrameLoop.Demo.Play
import FrameLoop.Settings.Layers

/-!
# What a run of the program comes to

The program loads its settings, falls back to the defaults if they cannot be
loaded, plays the demonstration until a fault or the end of the time asked
for, prints the counters, and reports a fault. What it shows at its end is an
`Outcome`, a function of the command line and what it was run in, on a clock
on which every wake-up comes when it is due.
-/

namespace FrameLoop.CommandLine

/-- **What a run of the program shows.** -/
structure Outcome where
  exitCode : Nat
  /-- Whether the log has a warning that the settings could not be loaded. -/
  settingsRejected : Bool := false
  /-- The counters, where they are printed. -/
  stats : Option TickStats := none
  /-- What is printed about an error. -/
  complaint : Option String := none

/-- Nothing went wrong. -/
def exitOk : Nat := 0

/-- The loop has faulted. -/
def exitFault : Nat := 1

/-- The command line could not be understood. -/
def exitUsage : Nat := 2

/-- The program broke down. -/
def exitPanic : Nat := 101

/-- The lines about what an error was caused by; they are numbered if there is
more than one. -/
def causeLines (messages : List String) : List String :=
  match messages with
  | [message] => ["    " ++ message]
  | messages => messages.mapIdx fun i message => "    " ++ toString i ++ ": " ++ message

/-- What is printed about a fault. -/
def complaint (e : SchedulerError) : String :=
  "Error: scheduler faulted\n\nCaused by:\n"
    ++ "\n".intercalate (causeLines (e.message :: e.chain)) ++ "\n"

/-- The instant at which a run is to stop. A timer does not go off before the
next whole millisecond. -/
def deadline (o : RunOptions) : Option Nat :=
  o.durationSecs.map fun secs => max 1 (secs * 1000) * nanosPerMilli

/-- How many wake-ups a run may take: for each tick those that the frame delay
lets pass, and one a millisecond until the deadline. -/
def wakeups (o : RunOptions) (p : Demo.Play) : Nat :=
  let s := p.world.scheduler p.scheduler
  let perTick := s.frameDelay.nanos / (Interval.effectivePeriod s.wakeup).nanos + 2
  let ticks := (o.abortAfter.map fun n => max n 1).getD 0
  ticks * perTick + (deadline o).getD 0 / nanosPerMilli + 1

/-- What is shown at the end of a play. -/
def conclude (settingsRejected : Bool) (p : Demo.Play) : Outcome :=
  match p.outcome with
  | some (.faulted e) =>
    { exitCode := exitFault, settingsRejected, stats := some p.stats
      complaint := some (complaint e) }
  | _ => { exitCode := exitOk, settingsRejected, stats := some p.stats }

/-- **A run** with its settings loaded or not; `none` if it goes on until it
is interrupted. -/
def outcome? (o : RunOptions) (loaded : Except SettingsError Settings) : Option Outcome :=
  let (rejected, settings) : Bool × Settings := match loaded with
    | .ok s => (false, s)
    | .error _ => (true, {})
  match Demo.Play.setUp settings.scheduler o.frameDelayMs o.abortAfter with
  | .error _ => some { exitCode := exitPanic, settingsRejected := rejected }
  | .ok p =>
    let p := p.start
    let p := p.run (deadline o) (wakeups o p)
    if p.outcome.isNone && o.durationSecs.isNone then none
    else some (conclude rejected p.stop)

/-- **What a command line comes to**, in a directory. -/
def outcomeOf? (args : List String) (around : Surroundings) (d : Directory) : Option Outcome :=
  match parse args with
  | .help | .version => some { exitCode := exitOk }
  | .unusable => some { exitCode := exitUsage }
  | .run o => outcome? o (Settings.load o.config around d)

end FrameLoop.CommandLine

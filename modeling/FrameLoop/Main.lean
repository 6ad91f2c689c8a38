import FrameLoop.CommandLine.Outcome
import FrameLoop.Exchange

/-!
# The program

The outer layer: it reads the arguments, the environment and the files that
may hold settings, lets the clock run, and prints. Which of the files and
variables count, what is printed and when the loop ends is decided elsewhere.
-/

open FrameLoop

namespace FrameLoop.Main

/-- The variables in a text that has them one by one, each with a null behind it
and an equals sign between its name and its value. -/
def environmentOf (text : String) : List (String × String) :=
  (text.splitOn "\x00").filterMap fun entry =>
    match entry.splitOn "=" with
    | name :: part :: parts => some (name, "=".intercalate (part :: parts))
    | _ => none

/-- The surroundings of this run. -/
def surroundings : IO Surroundings := do
  let environment := environmentOf (← IO.FS.readFile "/proc/self/environ")
  let place := Place.follow [] (← IO.currentDir).toString
  return { environment, home := environment.lookup "HOME", place }

/-- The path of a place from the root. -/
def pathOf (place : Place) : String := "/" ++ "/".intercalate place

/-- The text of a file, if it is there. -/
def fileText (place : Place) : IO (Option String) := do
  try
    let text ← IO.FS.readFile (pathOf place)
    return some text
  catch _ => return none

/-- Whether a place is a directory now. -/
def isDirectory (place : Place) : IO Bool := do
  ((← IO.currentDir) / pathOf place).isDir

/-- What there is now where a path leads from a place, and on its way. -/
def reached (path : String) (here : Place) : IO (List (String × Option String)) := do
  let directories ← ((here.start path).through (Place.names path)).filterM isDirectory
  let file := here.follow path
  let text ← fileText file
  return directories.map (pathOf ·, none) ++ text.toList.map (pathOf file, some ·)

/-- What there is now at the places that a path may stand for. -/
def directoryFor (place : Place) (path : String) : IO Directory := do
  let found ← place.upward.mapM (reached path)
  return { entries := found.flatten }

/-- A value that goes with a line of the log. -/
def valueText : Notice.Value → String
  | .text s => s
  | .count n => toString n
  | .binary x => x.toHex

/-- Print what the log has been told, and forget it. -/
def log (p : Demo.Play) : IO Demo.Play := do
  for n in p.world.notices do
    let line := n.render
    if line.level = .info ∨ line.level = .warn ∨ line.level = .error then
      let values := line.values.map fun (k, v) => " " ++ k ++ "=" ++ valueText v
      IO.println (line.level.word ++ " " ++ line.text ++ String.join values)
  return p.withWorld { p.world with notices := [] }

/-- Play until the loop has ended or the deadline has passed. -/
partial def play (started : Nat) (deadline : Option Nat) (p : Demo.Play) : IO Demo.Play := do
  let p ← log p
  let next := p.nextWake
  if p.outcome.isSome || deadline.any (· ≤ next) then return p
  let clock := (← IO.monoNanosNow) - started
  if clock < next then IO.sleep (UInt32.ofNat ((next - clock) / nanosPerMilli + 1))
  let clock := (← IO.monoNanosNow) - started
  play started deadline ((p.atClock clock).wake)

/-- A run with its options. -/
def run (o : RunOptions) : IO UInt32 := do
  let around ← surroundings
  let directory ← directoryFor around.place (Settings.location o.config around)
  let settings ← match Settings.load o.config around directory with
    | .ok s => pure s
    | .error e => do
      IO.println ("WARN Config load failed (" ++ e.message ++ "), using defaults")
      pure {}
  match Demo.Play.setUp settings.scheduler o.frameDelayMs o.abortAfter with
  | .error p =>
    IO.eprintln p.message
    return UInt32.ofNat CommandLine.exitPanic
  | .ok p =>
    let p ← play (← IO.monoNanosNow) (CommandLine.deadline o) p.start
    let p ← log p.stop
    IO.println p.stats.toJson.pretty
    let shown := CommandLine.conclude false p
    IO.eprint (shown.complaint.getD "")
    return UInt32.ofNat shown.exitCode

end FrameLoop.Main

/-- The program. -/
def main (args : List String) : IO UInt32 := do
  match CommandLine.parse args with
  | .help =>
    IO.print CommandLine.usageText
    return UInt32.ofNat CommandLine.exitOk
  | .version =>
    IO.print CommandLine.versionText
    return UInt32.ofNat CommandLine.exitOk
  | .unusable =>
    IO.eprint CommandLine.usageText
    return UInt32.ofNat CommandLine.exitUsage
  | .run o => FrameLoop.Main.run o

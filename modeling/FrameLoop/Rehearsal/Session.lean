import FrameLoop.Rehearsal.Thread

/-!
# A rehearsal from first to last

After every act the stage *settles*: whatever can go on goes on, and then the
gates that are due are opened one at a time, the first in order first, with
everything that can go on going on in between. The clock moves by whole
milliseconds, and the stage settles at each of them. An act may be told to
hold: then no gate is opened.

A script can make a stage that never settles. Settling therefore has a
patience, a number of moves after which the rehearsal is given up.
-/

namespace FrameLoop.Rehearsal

/-- One act of the script, and whether the gates stay closed after it. -/
structure Cue where
  act : Act
  hold : Bool

/-- How a scheduler stands. -/
structure Row where
  id : Handle
  state : SchedulerState
  jobs : Nat
  ticks : Nat
  jobsLastTick : Nat
  subCyclesLastTick : Nat

/-- **What one act showed.** -/
structure Report where
  answer : Answer
  events : List Event
  /-- The calls that finished, by their numbers. -/
  finished : List (Nat × Answer)
  notices : List Notice
  rows : List Row

namespace Stage

/-- How many moves settling may take. -/
def patience : Nat := 1000000

/-- The first gate that is due. -/
def dueGate (st : Stage) : Option Nat :=
  (st.gates.find? fun (g, _) => decide (g.due ≤ st.millis)).map (·.2)

/-- **Settle**, within a number of moves; `false` if it takes more. -/
def settle (hold : Bool) : Nat → Stage → Bool × Stage
  | 0, st => (false, st)
  | fuel + 1, st =>
    match st.agenda with
    | task :: rest => settle hold fuel (doTask { st with agenda := rest } task).tidy
    | [] =>
      if hold then (true, st)
      else
        match st.dueGate with
        | some number => settle hold fuel (st.openGate number)
        | none => (true, st)

/-- Let milliseconds pass, one at a time. -/
def advance (hold : Bool) : Nat → Stage → Bool × Stage
  | 0, st => (true, st)
  | n + 1, st =>
    let st := (st.withWorld { st.world with clock := st.world.clock + nanosPerMilli }).tidy
    match settle hold patience st with
    | (true, st) => advance hold n st
    | (false, st) => (false, st)

/-- Open somebody's first gate, due or not; the answer is whether there was
one. -/
def release (st : Stage) (who : String) : Answer × Stage :=
  match st.gates.find? fun (g, _) => g.who == who with
  | some (_, number) => (.flag true, st.openGate number)
  | none => (.flag false, st)

/-- How the schedulers stand, those that a handle stands for, the first made
first. -/
def rows (st : Stage) : List Row :=
  (st.schedulers.mergeSort fun a b => decide (a.2 ≤ b.2)).map fun (id, r) =>
    let s := st.world.scheduler r
    { id, state := s.state, jobs := st.world.jobCount r, ticks := s.stats.ticks
      jobsLastTick := s.stats.jobsLastTick, subCyclesLastTick := s.stats.subCyclesLastTick }

/-- Take what has been seen since the last report. -/
def takeReport (st : Stage) (answer : Answer) : Report × Stage :=
  ({ answer
     events := st.events
     finished := st.finished.mergeSort fun a b => decide (a.1 ≤ b.1)
     notices := st.world.notices
     rows := st.rows },
    { st with events := [], finished := [], world := { st.world with notices := [] } })

/-- **Follow one cue**; `none` if the stage does not settle. -/
def follow (st : Stage) (cue : Cue) : Option (Report × Stage) :=
  let (passed, answer, st) : Bool × Answer × Stage := match cue.act with
    | .advance millis => let (ok, st) := advance cue.hold millis st; (ok, .nothing, st)
    | .settle => (true, .nothing, st)
    | .release who => let (answer, st) := st.release who; (true, answer, st)
    | act => let (answer, st) := st.perform act; (true, answer, st)
  match settle cue.hold patience st.tidy with
  | (settled, st) => if passed && settled then some (st.takeReport answer) else none

/-- The reports of a script, up to the end or to where the stage does not
settle; whether it settled everywhere. -/
def play (st : Stage) : List Cue → List Report × Bool
  | [] => ([], true)
  | cue :: rest =>
    match st.follow cue with
    | some (report, st) => let (reports, ok) := st.play rest; (report :: reports, ok)
    | none => ([], false)

end Stage

/-- **Run a script.** -/
def run (script : List Cue) : List Report × Bool := Stage.play {} script

end FrameLoop.Rehearsal

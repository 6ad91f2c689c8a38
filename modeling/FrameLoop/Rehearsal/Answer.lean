import FrameLoop.Rehearsal.Script
import FrameLoop.Scheduler

/-!
# Answers and events

What an act comes to is an `Answer`; what could be watched while the script
was running is a list of `Event`s. Jobs appear in both by the handles under
which they were first kept.
-/

namespace FrameLoop.Rehearsal

/-- **What an act comes to.** -/
inductive Answer where
  | nothing
  | flag (b : Bool)
  | text (s : String)
  | texts (ss : List String)
  | count (n : Nat)
  | flags (bs : List Bool)
  | tree (entries : List (Nat × Handle))
  | duration (d : Duration)
  | state (s : SchedulerState)
  | stats (s : TickStats)
  /-- How a loop ended, if it has. -/
  | outcome (c : Option Completion)
  /-- The same, with whether it has. -/
  | signal (c : Option Completion)
  /-- Whether there was something new, unless nothing new can come, and the
  counters. -/
  | received (changed : Option Bool) (s : TickStats)
  /-- Whose gates are closed, and when they are due. -/
  | gates (entries : List (String × Nat))
  | loaded (name : String)
  /-- The number of a call that goes on in the background. -/
  | call (n : Nat)
  | schedulerError (e : SchedulerError)
  | engineError (e : EngineError)
  | stepError (cause : Cause)
  | panicked (p : Panic)
  | noHandle
  | unknownAct
  | notAsync
deriving Repr

/-- **Something that could be watched.** -/
inductive Event where
  /-- A job passed the first gate of its `n`-th step. -/
  | ran (job : Handle) (n : Nat)
  /-- Somebody acted. -/
  | acted (who act : String) (answer : Answer)
  /-- The start or the stop hook of a service was entered. -/
  | entered (service : String) (starts : Bool)
  /-- A command began. -/
  | command (tag : Tag)
deriving Repr

/-- The answer that tells how a loop ended. -/
def Answer.ofCompletion : Completion → Answer
  | .graceful => .text "ok"
  | .faulted e => .schedulerError e

end FrameLoop.Rehearsal

/-!
# States and outcomes

The words in which a scheduler, an engine and a job step speak of themselves.
A scheduler is `idle` until it is started, `running` while it ticks,
`stopping` from a stop request until the tick in flight has drained, and ends
`stopped` or `faulted`; the last two are final.
-/

namespace FrameLoop

/-- **Where a scheduler stands.** -/
inductive SchedulerState where
  | idle
  | running
  | stopping
  | stopped
  | faulted
deriving DecidableEq, Inhabited, Repr

namespace SchedulerState

/-- The final states. -/
def isTerminal : SchedulerState → Bool
  | stopped | faulted => true
  | _ => false

/-- The word for a state. -/
def word : SchedulerState → String
  | idle => "idle"
  | running => "running"
  | stopping => "stopping"
  | stopped => "stopped"
  | faulted => "faulted"

/-- The word with a capital, as debug text shows it. -/
def title : SchedulerState → String
  | idle => "Idle"
  | running => "Running"
  | stopping => "Stopping"
  | stopped => "Stopped"
  | faulted => "Faulted"

def all : List SchedulerState := [idle, running, stopping, stopped, faulted]

/-- The state a word stands for. -/
def ofWord? (s : String) : Option SchedulerState := all.find? (·.word == s)

theorem ofWord?_word (s : SchedulerState) : ofWord? s.word = some s := by
  cases s <;> decide

end SchedulerState

/-- **What a step asks for when it returns.** -/
inductive JobOutcome where
  /-- Stay for the next tick. -/
  | resume
  /-- Leave after this step. -/
  | detach
  /-- Give up, and end the whole loop. -/
  | abort
deriving DecidableEq, Inhabited, Repr

namespace JobOutcome

/-- The word for an outcome. -/
def word : JobOutcome → String
  | resume => "resume"
  | detach => "detach"
  | abort => "abort"

def all : List JobOutcome := [resume, detach, abort]

/-- The outcome a word stands for. -/
def ofWord? (s : String) : Option JobOutcome := all.find? (·.word == s)

theorem ofWord?_word (o : JobOutcome) : ofWord? o.word = some o := by
  cases o <;> decide

end JobOutcome

/-- Whether the services of an engine and its scheduler are live. -/
inductive EngineState where
  | stopped
  | running
deriving DecidableEq, Inhabited, Repr

namespace EngineState

/-- The word for a state. -/
def word : EngineState → String
  | stopped => "stopped"
  | running => "running"

/-- The word with a capital, as debug text shows it. -/
def title : EngineState → String
  | stopped => "Stopped"
  | running => "Running"

def all : List EngineState := [stopped, running]

/-- The state a word stands for. -/
def ofWord? (s : String) : Option EngineState := all.find? (·.word == s)

theorem ofWord?_word (s : EngineState) : ofWord? s.word = some s := by
  cases s <;> decide

end EngineState

end FrameLoop

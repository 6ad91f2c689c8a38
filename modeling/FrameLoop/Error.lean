import FrameLoop.Names

/-!
# What can go wrong

Two kinds of errors must never be mixed up. A *fatal* one ends the loop and is
delivered to everybody who waits for the end: it names the job to blame, or it
is an internal one. A *local* one goes back to the caller of the operation
that caused it and to nobody else (`SchedulerError.isFatal`).

Each error is its cause; its wording is one function of it.
-/

namespace FrameLoop

/-- **An error of somebody else's**, as the messages of it and of what it was
caused by, outermost first. -/
structure Cause where
  message : String
  sources : List String := []
deriving DecidableEq, Inhabited, Repr

namespace Cause

/-- All messages, outermost first. -/
def chain (c : Cause) : List String := c.message :: c.sources

/-- The error with these messages; none at all is one empty message. -/
def ofChain : List String → Cause
  | [] => ⟨"", []⟩
  | m :: rest => ⟨m, rest⟩

end Cause

/-- **An error of a scheduler.** -/
inductive SchedulerError where
  /-- A job asked to end the loop. -/
  | jobAborted (name : String)
  /-- A step returned an error. -/
  | jobFailed (name : String) (cause : Cause)
  /-- A step panicked. -/
  | jobPanicked (name message : String)
  /-- No job with this id is registered. -/
  | jobNotFound (id : JobId)
  /-- A job was to be attached beneath itself or beneath a job below it. -/
  | cyclicDependency (name : String)
  /-- The scheduler has left the idle state before. -/
  | alreadyStarted
  /-- The loop itself broke; no job is to blame. -/
  | internal (message : String)
deriving DecidableEq, Inhabited, Repr

namespace SchedulerError

/-- The wording. -/
def message : SchedulerError → String
  | jobAborted name => "Job '" ++ name ++ "' aborted"
  | jobFailed name _ => "Job '" ++ name ++ "' failed"
  | jobPanicked name m => "Job '" ++ name ++ "' panicked: " ++ m
  | jobNotFound id => "Job not found: " ++ id.text
  | cyclicDependency name => "Cyclic job dependency: '" ++ name ++ "'"
  | alreadyStarted => "Scheduler already started"
  | internal m => "Internal error: " ++ m

/-- The job to blame, if a job is. -/
def jobName? : SchedulerError → Option String
  | jobAborted name | jobFailed name _ | jobPanicked name _ => some name
  | _ => none

/-- Whether the error is a broken loop. -/
def isInternal : SchedulerError → Bool
  | internal _ => true
  | _ => false

/-- **Whether the error ends the loop.** -/
def isFatal (e : SchedulerError) : Bool := e.jobName?.isSome || e.isInternal

/-- What the error was caused by: only a failed step carries that along. -/
def chain : SchedulerError → List String
  | jobFailed _ cause => cause.chain
  | _ => []

end SchedulerError

/-- **An error of an engine.** -/
inductive EngineError where
  /-- A service of this kind is loaded already. -/
  | duplicateService (name : String)
  /-- The start hook of a service failed. -/
  | serviceStart (name : String) (cause : Cause)
  /-- The scheduler refused. -/
  | scheduler (e : SchedulerError)
deriving DecidableEq, Inhabited, Repr

namespace EngineError

/-- The wording; that of a scheduler's error is the scheduler's. -/
def message : EngineError → String
  | duplicateService name => "Service already loaded: " ++ name
  | serviceStart name _ => "Service '" ++ name ++ "' failed to start"
  | scheduler e => e.message

/-- What the error was caused by. -/
def chain : EngineError → List String
  | duplicateService _ => []
  | serviceStart _ cause => cause.chain
  | scheduler e => e.chain

/-- The scheduler's error inside, if it is one. -/
def inner? : EngineError → Option SchedulerError
  | scheduler e => some e
  | _ => none

end EngineError

/-- **A panic**: the text it was raised with, or `none` if it was raised with
something that is no text. -/
structure Panic where
  text? : Option String
deriving DecidableEq, Inhabited, Repr

namespace Panic

/-- What is reported of a panic. -/
def message (p : Panic) : String := p.text?.getD "non-string panic payload"

/-- A number of seconds that no duration holds. -/
def overlongSeconds : Panic :=
  ⟨some "cannot convert float seconds to Duration: value is either too big or NaN"⟩

end Panic

/-- An error in the settings. -/
structure SettingsError where
  detail : String
deriving DecidableEq, Inhabited, Repr

namespace SettingsError

/-- The stable code under which logs carry the error. -/
def code : String := "CONFIG_ERROR"

/-- What every wording of the error begins with. -/
def heading : String := "Configuration error: "

/-- The wording. -/
def message (e : SettingsError) : String := heading ++ e.detail

end SettingsError

end FrameLoop

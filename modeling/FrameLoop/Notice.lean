import FrameLoop.Error
import FrameLoop.Lifecycle
import FrameLoop.Duration

/-!
# The log

What the library tells the log is a `Notice`: one constructor for each thing
worth telling, with what belongs to it. How a notice reads (its level, its
text and its named values) is one function of it, `Notice.render`.
-/

namespace FrameLoop

/-- **Something worth telling the log.** -/
inductive Notice where
  | schedulerStarted (frameDelay : Duration) (jobs : Nat)
  | schedulerStopping
  | stopAlreadyRequested
  | stopIgnored (state : SchedulerState)
  | stopSignalled
  | scheduleIgnored (job : String)
  | jobScheduled (job : String)
  | jobUnscheduled (job : String)
  | jobDetached (job : String)
  | jobFault (job : String) (error : SchedulerError)
  | additionalFault (job : String) (error : SchedulerError)
  | tickDrained (jobs subCycles : Nat)
  | schedulerStopped (ticks : Nat)
  | sourceExhausted (ticks : Nat)
  | schedulerFaulted (ticks : Nat) (error : SchedulerError)
  | driverPanicked (message : String)
  | queueDrained (applied : Nat)
  | serviceLoaded (service : String)
  | serviceStarted (service : String)
  | serviceStartFailed (service : String) (cause : Cause)
  | serviceStopFailed (service : String) (cause : Cause)
  | engineStarted (services : Nat)
  | engineStopped
  | millisRejected (value : Binary64)
  | heartbeatOnline (frameDelay : Duration)
  | heartbeatOffline (beats : Nat)
  | heartbeat (beats : Nat)
  | warmupComplete
deriving DecidableEq, Repr

namespace Notice

/-- How much a notice matters, least first. -/
inductive Level where
  | trace
  | debug
  | info
  | warn
  | error
deriving DecidableEq, Repr

def Level.word : Level → String
  | trace => "TRACE"
  | debug => "DEBUG"
  | info => "INFO"
  | warn => "WARN"
  | error => "ERROR"

/-- A value that goes with a notice. -/
inductive Value where
  | text (s : String)
  | count (n : Nat)
  | binary (x : Binary64)
deriving DecidableEq, Repr

/-- **A notice as the log shows it.** -/
structure Line where
  level : Level
  text : String
  values : List (String × Value) := []
deriving DecidableEq, Repr

/-- How a notice reads. -/
def render : Notice → Line
  | schedulerStarted d n =>
    ⟨.info, "scheduler started", [("frame_delay_ms", .binary d.toMillis), ("jobs", .count n)]⟩
  | schedulerStopping => ⟨.info, "scheduler stopping", []⟩
  | stopAlreadyRequested => ⟨.debug, "stop already requested, waiting for drain", []⟩
  | stopIgnored s => ⟨.debug, "stop ignored", [("state", .text s.word)]⟩
  | stopSignalled => ⟨.info, "scheduler stop signalled", []⟩
  | scheduleIgnored j => ⟨.debug, "schedule ignored on terminal scheduler", [("job", .text j)]⟩
  | jobScheduled j => ⟨.debug, "job scheduled", [("job", .text j)]⟩
  | jobUnscheduled j => ⟨.debug, "job unscheduled", [("job", .text j)]⟩
  | jobDetached j => ⟨.debug, "job detached", [("job", .text j)]⟩
  | jobFault j e =>
    ⟨.error, "job fault, draining tick", [("job", .text j), ("error", .text e.message)]⟩
  | additionalFault j e =>
    ⟨.warn, "additional job fault in faulted tick",
      [("job", .text j), ("error", .text e.message)]⟩
  | tickDrained n k => ⟨.trace, "tick drained", [("jobs", .count n), ("sub_cycles", .count k)]⟩
  | schedulerStopped n => ⟨.info, "scheduler stopped", [("ticks", .count n)]⟩
  | sourceExhausted n =>
    ⟨.warn, "tick source exhausted, scheduler stopped", [("ticks", .count n)]⟩
  | schedulerFaulted n e =>
    ⟨.error, "scheduler faulted", [("ticks", .count n), ("error", .text e.message)]⟩
  | driverPanicked m => ⟨.error, "scheduler driver panicked", [("panic", .text m)]⟩
  | queueDrained n => ⟨.trace, "command queue drained", [("applied", .count n)]⟩
  | serviceLoaded s => ⟨.debug, "service loaded", [("service", .text s)]⟩
  | serviceStarted s => ⟨.debug, "service started", [("service", .text s)]⟩
  | serviceStartFailed s c =>
    ⟨.error, "service failed to start", [("service", .text s), ("error", .text c.message)]⟩
  | serviceStopFailed s c =>
    ⟨.warn, "service failed to stop cleanly", [("service", .text s), ("error", .text c.message)]⟩
  | engineStarted n => ⟨.info, "engine started", [("services", .count n)]⟩
  | engineStopped => ⟨.info, "engine stopped", []⟩
  | millisRejected x =>
    ⟨.warn, "invalid millisecond value in config, using 0", [("value", .binary x)]⟩
  | heartbeatOnline d => ⟨.info, "heartbeat online", [("frame_delay", .text d.text)]⟩
  | heartbeatOffline n => ⟨.info, "heartbeat offline", [("beats", .count n)]⟩
  | heartbeat n => ⟨.info, "heartbeat", [("beats", .count n)]⟩
  | warmupComplete => ⟨.info, "warmup complete", []⟩

end Notice

end FrameLoop

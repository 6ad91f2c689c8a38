import FrameLoop.Feed
import FrameLoop.Settings
import FrameLoop.Lifecycle

/-!
# Scripts

A rehearsal drives the library by a script: things done from outside, one
after another, and things that jobs, commands and hooks do when their turn
comes. All of them are *acts* (`Act`); a job is given a list of steps, a step
a list of acts and an ending. Whatever an act works on is named by a *handle*,
a name of the script's own choice.
-/

namespace FrameLoop.Rehearsal

/-- A name that a script gives to something. -/
abbrev Handle := String

/-- How a scripted step ends. -/
inductive Ending where
  | outcome (o : JobOutcome)
  /-- With an error that has these messages, outermost first. -/
  | failed (messages : List String)
  | panicked (p : Panic)
deriving DecidableEq, Inhabited, Repr

/-- Where the wake-ups of a loop come from. -/
inductive SourceScript where
  /-- The source that the scheduler brings along. -/
  | builtIn
  /-- A new feed; its trigger gets the handle. -/
  | manual (trigger : Handle)
  | interval (period : Duration)
  | script (offers : List Offer)
deriving Inhabited, Repr

/-- How a scheduler is set up. -/
inductive Pace where
  | settings (s : SchedulerSettings)
  | frameDelay (d : Duration)
deriving Inhabited, Repr

/-- Which sort of service is loaded. -/
inductive ServiceSort where
  /-- One of several sorts that may contribute a job. -/
  | slot (n : Nat)
  /-- The sort that contributes none. -/
  | jobless
  /-- The heartbeat of the demonstration. -/
  | heartbeat
deriving DecidableEq, Inhabited, Repr

namespace ServiceSort

/-- The kind under which an engine knows services of this sort. -/
def kind : ServiceSort → Nat
  | slot n => n
  | jobless => 100
  | heartbeat => 101

/-- Where the gates of its hooks stand in the order of gates: after those of
all jobs. -/
def gateIndex (s : ServiceSort) : Nat := 1000000 + s.kind

end ServiceSort

/-- What marks a command in the list of events. -/
inductive Tag where
  | text (s : String)
  | number (n : Int)
deriving DecidableEq, Inhabited, Repr

/-- What can be held by a handle. -/
inductive Held where
  | job
  | trigger
  | sender
  | scheduler
  | engine
  | receiver
  | signal
deriving DecidableEq, Inhabited, Repr

mutual

/-- **One thing done.** -/
inductive Act where
  -- jobs
  | job (spec : JobScript)
  | cloneJob (id source : Handle)
  | child (parent child : Handle)
  | erase (parent child : Handle)
  | children (job : Handle)
  | parent (job : Handle)
  | root (job : Handle)
  | descendants (job : Handle)
  | tree (job : Handle)
  | same (a b : Handle)
  | jobName (job : Handle)
  -- schedulers
  | scheduler (id : Handle) (pace : Pace)
  | start (scheduler : Handle) (source : SourceScript)
  | signalStop (scheduler : Handle)
  | schedule (scheduler job : Handle)
  | unschedule (scheduler job : Handle)
  | contains (scheduler job : Handle)
  | jobCount (scheduler : Handle)
  | frameDelay (scheduler : Handle)
  | setFrameDelay (scheduler : Handle) (delay : Duration)
  | state (scheduler : Handle)
  | stats (scheduler : Handle)
  | finished (scheduler : Handle)
  | outcome (scheduler : Handle)
  | signal (id scheduler : Handle)
  | signalState (signal : Handle)
  | subscribe (id scheduler : Handle)
  | received (id : Handle)
  | describeScheduler (scheduler : Handle)
  | describeJob (job : Handle)
  | describeEngine (engine : Handle)
  -- triggers
  | fire (trigger : Handle) (reading : Option Instant) (times : Nat)
  | connected (trigger : Handle)
  | cloneTrigger (id source : Handle)
  -- queues
  | enqueue (sender : Handle) (command : CommandScript)
  | senderConnected (sender : Handle)
  -- engines
  | engine (id scheduler : Handle)
  | engineState (engine : Handle)
  | engineSchedule (engine job : Handle)
  | services (engine : Handle)
  | engineJobCount (engine : Handle)
  | lookup (engine : Handle) (sort : ServiceSort)
  -- the stage itself
  | drop (what : Held) (id : Handle)
  | log (text : String)
  | inflight
  | now
  | advance (millis : Nat)
  | settle
  | release (who : String)
  -- what takes time
  | stop (scheduler : Handle)
  | waitScheduler (scheduler : Handle)
  | waitSignal (signal : Handle)
  | step (job : Handle)
  | load (engine : Handle) (sort : ServiceSort) (name : String) (job : Option JobScript)
      (start stop : HookScript)
  | startEngine (engine : Handle) (source : SourceScript)
  | stopEngine (engine : Handle)
  -- only while a step or a hook is acting
  | pause (millis : Nat)
  | await (act : Act)
  -- only within a command
  | panic (p : Panic)
  -- anything else
  | unknown (word : String)

/-- A step: it waits, then acts, then ends. One that is `immediate` does
nothing but end. -/
structure StepScript where
  delay : Nat
  acts : List Act
  ending : Ending
  immediate : Bool

/-- What a job does. -/
inductive Behaviour where
  /-- The steps one after another; after the last, the last again, or all of
  them from the front if the job cycles. -/
  | steps (steps : List StepScript) (cycle : Bool)
  /-- Apply commands; the handle is the sender's. -/
  | queue (sender : Handle)
  | warmup
  | faultInjector (after : Nat)

/-- A job to be made: its handle, its name and what it does. -/
structure JobScript where
  id : Handle
  name : String
  behaviour : Behaviour

/-- A command: what marks it, and what it does. -/
structure CommandScript where
  tag : Tag
  acts : List Act

/-- A hook: it acts, then panics, fails or succeeds. -/
structure HookScript where
  acts : List Act
  panic : Option Panic
  failure : Option (List String)

end

instance : Inhabited Act := ⟨.settle⟩

/-- The hook that does nothing and succeeds. -/
def HookScript.empty : HookScript := ⟨[], none, none⟩

instance : Inhabited HookScript := ⟨.empty⟩

/-- The step that does nothing and stays for the next tick. -/
def StepScript.plain : StepScript := ⟨0, [], .outcome .resume, false⟩

instance : Inhabited StepScript := ⟨.plain⟩

instance : Inhabited JobScript := ⟨⟨"", "", .steps [] false⟩⟩

/-- The word for an act. -/
def Act.word : Act → String
  | job _ => "job"
  | cloneJob .. => "clone_job"
  | child .. => "child"
  | erase .. => "erase"
  | children _ => "children"
  | parent _ => "parent"
  | root _ => "root"
  | descendants _ => "descendants"
  | tree _ => "tree"
  | same .. => "same"
  | jobName _ => "job_name"
  | scheduler .. => "sched"
  | start .. => "start"
  | signalStop _ => "signal_stop"
  | schedule .. => "schedule"
  | unschedule .. => "unschedule"
  | contains .. => "contains"
  | jobCount _ => "job_count"
  | frameDelay _ => "frame_delay"
  | setFrameDelay .. => "set_frame_delay"
  | state _ => "state"
  | stats _ => "stats"
  | finished _ => "finished"
  | outcome _ => "outcome"
  | signal .. => "signal"
  | signalState _ => "signal_state"
  | subscribe .. => "subscribe"
  | received _ => "sub"
  | describeScheduler _ | describeJob _ | describeEngine _ => "debug"
  | fire .. => "fire"
  | connected _ => "connected"
  | cloneTrigger .. => "clone_trigger"
  | enqueue .. => "enqueue"
  | senderConnected _ => "sender_connected"
  | engine .. => "engine"
  | engineState _ => "engine_state"
  | engineSchedule .. => "engine_schedule"
  | services _ => "services"
  | engineJobCount _ => "engine_job_count"
  | lookup .. => "lookup"
  | drop .. => "drop"
  | log _ => "log"
  | inflight => "inflight"
  | now => "now"
  | advance _ => "advance"
  | settle => "settle"
  | release _ => "release"
  | stop _ => "stop"
  | waitScheduler _ | waitSignal _ => "wait"
  | step _ => "step"
  | load .. => "load"
  | startEngine .. => "engine_start"
  | stopEngine _ => "engine_stop"
  | pause _ => "pause"
  | await _ => "await"
  | panic _ => ""
  | unknown word => word

/-- The step a job does on its `n`-th call, counted from one. -/
def Behaviour.stepAt (steps : List StepScript) (cycle : Bool) (n : Nat) : Option StepScript :=
  if cycle && decide (0 < steps.length) then steps[(n - 1) % steps.length]?
  else steps[min (n - 1) (steps.length - 1)]?

end FrameLoop.Rehearsal

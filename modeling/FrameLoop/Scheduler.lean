import FrameLoop.Notice
import FrameLoop.Pacer
import FrameLoop.Source
import FrameLoop.Tick
import FrameLoop.TickStats

/-!
# A scheduler

A scheduler owns a registry of jobs and a loop that runs them. The loop has a
*driver*, which is either waiting for a wake-up or in the middle of a tick;
there is no driver before the start and none after the end.

Four things tell how the scheduler stands, and they are kept apart because
different events write them: its `state`, the slot through which a stop
request reaches the driver (`shutdown`), the position of the driver, and the
`outcome` that everybody reads who waits for the end. `requestStop` writes the
first two, `finish` all four, and the first outcome stays.

A stop request is looked at while the driver waits, so a tick in flight runs to
its end, and a driver that its source has woken goes by that first. A fault ends
the loop, but only after every step of its wave has returned.
-/

namespace FrameLoop

/-- **How a loop ended**, as those who wait for the end are told. -/
inductive Completion where
  | graceful
  | faulted (e : SchedulerError)
deriving DecidableEq, Repr

/-- What the driver keeps from tick to tick. -/
structure Loop where
  source : Source
  pacer : Pacer := {}
  /-- When the last tick started. -/
  lastStart : Option Nat := none
  /-- When the source woke the driver, if the driver has not gone by that at
  once; gone when it waits again. -/
  roused : Option Nat := none
deriving Inhabited, Repr

/-- When the source is asked, if the driver looks up at `now`: a driver that has
been woken goes by what woke it. -/
def Loop.askedAt (l : Loop) (now : Nat) : Nat := l.roused.getD now

/-- **Where the driver is.** -/
inductive Driver where
  | absent
  | waiting (loop : Loop)
  | ticking (loop : Loop) (tick : Tick)
  | ended
deriving Inhabited, Repr

namespace Driver

def loop? : Driver → Option Loop
  | waiting l | ticking l _ => some l
  | absent | ended => none

def tick? : Driver → Option Tick
  | ticking _ t => some t
  | _ => none

/-- The feed that the loop listens to. -/
def feed? (d : Driver) : Option FeedRef := d.loop?.bind (·.source.feed?)

/-- Whether there is a driver. -/
def isActive (d : Driver) : Bool := d.loop?.isSome

end Driver

/-- **A scheduler.** -/
structure Scheduler where
  loopId : LoopId
  /-- The jobs registered directly. -/
  registry : List JobRef := []
  /-- The least time between two ticks. -/
  frameDelay : Duration
  /-- The period of the built-in source. -/
  wakeup : Duration
  state : SchedulerState := .idle
  /-- Where stop requests arrive, while the loop runs: whether one has. -/
  shutdown : Option Bool := none
  outcome : Option Completion := none
  stats : TickStats := {}
  driver : Driver := .absent
  /-- Nobody holds the scheduler any more. -/
  released : Bool := false
deriving Inhabited, Repr

namespace Scheduler

/-- A new scheduler. The frame delay is kept in 64 bits of nanoseconds. -/
def new (loopId : LoopId) (frameDelay wakeup : Duration) : Scheduler :=
  { loopId, frameDelay := frameDelay.saturated, wakeup }

/-- Change the frame delay, from the next wake-up on. -/
def setFrameDelay (s : Scheduler) (d : Duration) : Scheduler := { s with frameDelay := d.saturated }

/-- The built-in source, created at `now`. -/
def builtIn (s : Scheduler) (now : Nat) : Source := .interval (.start s.wakeup now)

/-! ## The registry -/

/-- **Register a job.** Registering a job twice does nothing, and nothing is
registered once the loop has ended. -/
def schedule (s : Scheduler) (j : JobRef) : Bool × Scheduler :=
  if s.state.isTerminal ∨ j ∈ s.registry then (false, s)
  else (true, { s with registry := s.registry ++ [j] })

/-- Take a job out of the registry; `false` if it was not in it. -/
def unregister (s : Scheduler) (j : JobRef) : Bool × Scheduler :=
  if j ∈ s.registry then (true, { s with registry := s.registry.erase j }) else (false, s)

/-- Take a job from where it is: from its parent, or from the registry if it
has none. -/
def remove (s : Scheduler) (f : Forest) (j : JobRef) : Bool × Scheduler × Forest :=
  match f.parent j with
  | some p => ((f.erase p j).1, s, (f.erase p j).2)
  | none => ((s.unregister j).1, (s.unregister j).2, f)

/-- Whether a job is registered, itself or with the tree it is in. -/
def contains (s : Scheduler) (f : Forest) (j : JobRef) : Bool := decide (f.root j ∈ s.registry)

/-- How many jobs are registered, with the trees below them. -/
def jobCount (s : Scheduler) (f : Forest) : Nat :=
  s.registry.foldr (fun j n => 1 + f.descendantCount j + n) 0

/-! ## Starting and ending -/

/-- Begin to wait for wake-ups. Refused once the scheduler has left the idle
state. -/
def start (s : Scheduler) (source : Source) : Except SchedulerError Scheduler :=
  if s.state = .idle then
    .ok { s with state := .running, shutdown := some false, driver := .waiting { source } }
  else .error .alreadyStarted

/-- **Ask a running loop to stop**; `false` if it is not running. -/
def requestStop (s : Scheduler) : Bool × Scheduler :=
  if s.state = .running then
    (true, { s with state := .stopping, shutdown := s.shutdown.map fun _ => true })
  else (false, s)

/-- Whether a stop request is what the driver goes by when it looks up: one has
come, and no wake-up came before it. -/
def seesStop (s : Scheduler) (loop : Loop) : Bool :=
  s.shutdown == some true && loop.roused.isNone

theorem seesStop_of_unasked {s : Scheduler} (loop : Loop) (unasked : s.shutdown ≠ some true) :
    s.seesStop loop = false := by
  simp [seesStop, unasked]

/-- Why the driver gives up. -/
inductive Exit where
  | stopped
  | exhausted
  | faulted (e : SchedulerError)
deriving Repr

def Exit.state : Exit → SchedulerState
  | stopped | exhausted => .stopped
  | faulted _ => .faulted

def Exit.completion : Exit → Completion
  | stopped | exhausted => .graceful
  | faulted e => .faulted e

def Exit.notice (ticks : Nat) : Exit → Notice
  | stopped => .schedulerStopped ticks
  | exhausted => .sourceExhausted ticks
  | faulted e => .schedulerFaulted ticks e

/-- **The driver ends.** The final state is recorded once, and the outcome
with it; the source goes with the driver. -/
def finish (s : Scheduler) (exit : Exit) : Scheduler × List Notice :=
  if s.state.isTerminal then ({ s with driver := .ended }, [])
  else
    ({ s with
        state := exit.state
        shutdown := none
        outcome := some (s.outcome.getD exit.completion)
        driver := .ended },
      [exit.notice s.stats.ticks])

/-! ## The tick -/

/-- What a move of the driver leaves: the scheduler, the steps that are to be
launched, and what the log is told. -/
structure Move where
  scheduler : Scheduler
  launched : List JobRef := []
  notices : List Notice := []

/-- The counters that a drained tick contributes. -/
def entry (loop : Loop) (t : Tick) (now : Nat) : TickStats.Entry where
  duration := .ofNanos (now - t.started)
  delta := .ofNanos (t.started - loop.lastStart.getD t.started)
  jobs := t.launched.length
  subCycles := t.waves.length
  startedAt := .ofNanos t.started

/-- **The tick has drained.** Its counters are published; then the loop waits
for the next wake-up, or ends with the fault. -/
def drain (s : Scheduler) (loop : Loop) (t : Tick) (now : Nat) : Move :=
  let counted := { s with stats := s.stats.add (entry loop t now) }
  let drained := Notice.tickDrained t.launched.length t.waves.length
  match t.fault with
  | some e =>
    let (ended, told) := counted.finish (.faulted e)
    { scheduler := ended, notices := drained :: told }
  | none =>
    let loop := { loop with lastStart := some t.started, roused := none }
    { scheduler := { counted with driver := .waiting loop }, notices := [drained] }

/-- A wave is over, or the tick has only begun: launch the next wave, or drain
if there is none. -/
def proceed (s : Scheduler) (loop : Loop) (t : Tick) (now : Nat) : Move :=
  match t.nextWave with
  | [] => s.drain loop t now
  | wave => { scheduler := { s with driver := .ticking loop (t.launch wave) }, launched := wave }

/-- **A tick starts**: its first wave is the registry. -/
def startTick (s : Scheduler) (loop : Loop) (now : Nat) : Move :=
  s.proceed loop { started := now, found := s.registry } now

/-- **The driver goes by what its source offers.** A wake-up goes to the pacer,
which makes it a tick or lets it pass. `offer` is what the source offers and
`source` the source after it. -/
def wake (s : Scheduler) (loop : Loop) (offer : Offer) (source : Source) (now : Nat) : Move :=
  match offer with
  | .pending => { scheduler := s }
  | .exhausted =>
    let (ended, told) := s.finish .exhausted
    { scheduler := ended, notices := told }
  | .broken message =>
    let (ended, told) := s.finish (.faulted (.internal message))
    { scheduler := ended, notices := .driverPanicked message :: told }
  | .reading t =>
    let (due, pacer) := loop.pacer.evaluate t s.frameDelay
    let loop := { loop with source, pacer }
    if due then s.startTick loop now
    else { scheduler := { s with driver := .waiting { loop with roused := none } } }

/-- What the log is told of a fault: the first of a tick and the later ones
differ. -/
def faultNotice (t : Tick) (name : String) (e : SchedulerError) : Notice :=
  if t.fault.isNone then .jobFault name e else .additionalFault name e

/-- **A step of the wave has returned.** The job's children are found unless
the step made a fault; a job that detaches leaves its place afterwards. The
last step of a wave ends the wave. A step that is not out changes nothing. -/
def returned (s : Scheduler) (f : Forest) (j : JobRef) (v : Verdict) (now : Nat) :
    Move × Forest :=
  match s.driver with
  | .ticking loop t =>
    if j ∈ t.pending then
      let fault := v.fault? (f.name j)
      let settled := t.settle j (f.children j) fault
      let (s, f, told) := match v with
        | .outcome .detach =>
          let (_, s, f') := s.remove f j
          (s, f', [Notice.jobDetached (f.name j)])
        | _ => (s, f, (fault.map (faultNotice t (f.name j))).toList)
      let move : Move :=
        if settled.pending.isEmpty then s.proceed loop settled now
        else { scheduler := { s with driver := .ticking loop settled } }
      ({ move with notices := told ++ move.notices }, f)
    else ({ scheduler := s }, f)
  | _ => ({ scheduler := s }, f)

/-! ## Who is kept alive -/

/-- The jobs that the scheduler keeps alive. -/
def holds (s : Scheduler) : List JobRef :=
  s.registry ++ (s.driver.tick?.map (·.holds)).getD []

/-- The scheduler after its last holder has let go: the registry goes with it. -/
def release (s : Scheduler) : Scheduler := { s with registry := [], released := true }

end Scheduler

end FrameLoop

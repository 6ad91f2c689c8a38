import FrameLoop.World

/-!
# Running a loop

The events in the life of a loop, each as one function of the world: it is
started, a stop is asked for, its driver is woken, its driver looks up between
ticks, and a step of its tick returns. The last two answer which steps are to be
launched; it is the host that runs them and says when they have returned.

A driver that waits for a stop request and for its source at once is woken by the
one or the other; what woke it and what it then does are two events. A driver
that looks up without having been woken does both in one.
-/

namespace FrameLoop.World

/-- **Start a loop on a source.** If the scheduler has been started before,
the source is dropped. -/
def start (w : World) (r : SchedulerRef) (source : Source) : Except SchedulerError Unit × World :=
  let s := w.scheduler r
  match s.start source with
  | .ok s =>
    (.ok (), (w.setScheduler r s).tell [.schedulerStarted s.frameDelay s.registry.length])
  | .error e =>
    (.error e, match source.feed? with | some q => w.closeFeed q | none => w)

/-- Start a loop on its built-in source. -/
def startBuiltIn (w : World) (r : SchedulerRef) : Except SchedulerError Unit × World :=
  w.start r ((w.scheduler r).builtIn w.clock)

/-- **Ask for a stop and do not wait.** -/
def signalStop (w : World) (r : SchedulerRef) : Bool × World :=
  let (requested, s) := (w.scheduler r).requestStop
  (requested, (w.setScheduler r s).tell (if requested then [.stopSignalled] else []))

/-- **Ask for a stop.** Answers whether the caller has to wait for the end. -/
def stop (w : World) (r : SchedulerRef) : Bool × World :=
  let s := w.scheduler r
  match s.state with
  | .running => (true, (w.setScheduler r s.requestStop.2).tell [.schedulerStopping])
  | .stopping => (true, w.tell [.stopAlreadyRequested])
  | state => (false, w.tell [.stopIgnored state])

/-- Put the outcome of a move of the driver in its place. -/
def applyMove (w : World) (r : SchedulerRef) (m : Scheduler.Move) : List JobRef × World :=
  (m.launched, (w.setScheduler r m.scheduler).tell m.notices)

/-- **The source of a loop wakes its driver**, unless a stop request has come
before. Until the driver goes by what woke it (`poll`), anything may happen, a
stop request included. A reading stays in its line meanwhile: nobody else takes
from there. -/
def rouse (w : World) (r : SchedulerRef) : World :=
  let s := w.scheduler r
  match s.driver with
  | .waiting loop =>
    if loop.roused.isNone && s.shutdown != some true && loop.source.ready w.feeds w.clock then
      w.setScheduler r { s with driver := .waiting { loop with roused := some w.clock } }
    else w
  | _ => w

/-- **The driver looks up.** Only a driver between two ticks does. A stop request
comes before any wake-up, except one that has woken the driver already. -/
def poll (w : World) (r : SchedulerRef) : List JobRef × World :=
  let s := w.scheduler r
  match s.driver with
  | .waiting loop =>
    if s.seesStop loop then
      let (s, told) := s.finish .stopped
      w.applyMove r { scheduler := s, notices := told }
    else
      let (offer, source, feeds) := loop.source.next w.feeds (loop.askedAt w.clock)
      { w with feeds }.applyMove r (s.wake loop offer source w.clock)
  | _ => ([], w)

/-- Whether the driver would do something if it looked up now. -/
def canPoll (w : World) (r : SchedulerRef) : Bool :=
  match (w.scheduler r).driver with
  | .waiting loop =>
    (w.scheduler r).seesStop loop || loop.source.ready w.feeds (loop.askedAt w.clock)
  | _ => false

/-- **A step has returned.** -/
def returned (w : World) (r : SchedulerRef) (j : JobRef) (v : Verdict) : List JobRef × World :=
  let (move, forest) := (w.scheduler r).returned w.forest j v w.clock
  { w with forest }.applyMove r move

end FrameLoop.World

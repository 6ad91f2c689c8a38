import FrameLoop.Engine
import FrameLoop.Scheduler
import FrameLoop.Settings

/-!
# Everything together

A `World` holds what schedulers, engines, hosts and jobs share: the forest of
jobs, the feeds, the schedulers and engines by number, the calls under way,
the clock and what the log has been told. Each operation of the library is a
function of the world; what takes time is split at the places where it waits,
so that any order of events is some order of these functions.

This module has the parts and the simple operations. The loops are in
`World.Loop`, engines in `World.Services`, and who is kept alive by whom in
`World.Holdings`.
-/

namespace FrameLoop

/-- **Everything there is.** -/
structure World where
  /-- Nanoseconds since the start of the clock. -/
  clock : Nat := 0
  forest : Forest := {}
  feeds : List Feed := []
  schedulers : List Scheduler := []
  engines : List Engine := []
  /-- The calls on engines that are under way. -/
  calls : List Engine.Call := []
  nextCall : CallRef := 0
  /-- What the log has been told, the oldest first. -/
  notices : List Notice := []
deriving Inhabited

namespace World

/-- Tell the log. -/
def tell (w : World) (ns : List Notice) : World := { w with notices := w.notices ++ ns }

/-! ## Jobs -/

/-- A new job. -/
def newJob (w : World) (name : String) : JobRef × World :=
  ((w.forest.create name).1, { w with forest := (w.forest.create name).2 })

/-- Attach a job beneath another. -/
def attach (w : World) (p c : JobRef) : Except SchedulerError Bool × World :=
  match w.forest.attach p c with
  | .ok (added, f) => (.ok added, { w with forest := f })
  | .error e => (.error e, w)

/-- Detach a child. -/
def eraseChild (w : World) (p c : JobRef) : Bool × World :=
  ((w.forest.erase p c).1, { w with forest := (w.forest.erase p c).2 })

/-! ## Feeds -/

/-- A new feed, with one trigger. -/
def newFeed (w : World) : FeedRef × World := (w.feeds.length, { w with feeds := w.feeds ++ [{}] })

/-- A feed that does not exist has no listener and no trigger. -/
def feed (w : World) (q : FeedRef) : Feed := w.feeds.getD q { listening := false, triggers := 0 }

def setFeed (w : World) (q : FeedRef) (f : Feed) : World := { w with feeds := w.feeds.set q f }

/-- Queue a wake-up. -/
def fire (w : World) (q : FeedRef) (t : Instant) : Bool × World :=
  (((w.feed q).fire t).1, w.setFeed q ((w.feed q).fire t).2)

/-- One more trigger for a feed. -/
def addTrigger (w : World) (q : FeedRef) : World := w.setFeed q (w.feed q).addTrigger

/-- One trigger less for a feed. -/
def dropTrigger (w : World) (q : FeedRef) : World := w.setFeed q (w.feed q).dropTrigger

/-- The source that listens to a feed is gone. -/
def closeFeed (w : World) (q : FeedRef) : World := w.setFeed q (w.feed q).close

/-! ## Schedulers -/

/-- A new scheduler. -/
def newScheduler (w : World) (loopId : LoopId) (frameDelay wakeup : Duration) :
    SchedulerRef × World :=
  (w.schedulers.length, { w with schedulers := w.schedulers ++ [.new loopId frameDelay wakeup] })

/-- A duration from a setting; the log is told of a value that is replaced. -/
def readMillis (w : World) (ms : Binary64) : Except Panic Duration × World :=
  (durationOfMillis ms, if millisRejected ms then w.tell [.millisRejected ms] else w)

/-- **A new scheduler as the settings say.** -/
def schedulerOfSettings (w : World) (loopId : LoopId) (s : SchedulerSettings) :
    Except Panic SchedulerRef × World :=
  match w.readMillis s.frameDelayMs with
  | (.error p, w) => (.error p, w)
  | (.ok frameDelay, w) =>
    match w.readMillis s.wakeupIntervalMs with
    | (.error p, w) => (.error p, w)
    | (.ok wakeup, w) =>
      let (r, w) := w.newScheduler loopId frameDelay wakeup
      (.ok r, w)

/-- A scheduler by its number; one that does not exist is idle and empty. -/
def scheduler (w : World) (r : SchedulerRef) : Scheduler := w.schedulers.getD r default

/-- Put a scheduler in its place. The feed that its loop listened to closes
when the loop listens to it no more. -/
def setScheduler (w : World) (r : SchedulerRef) (s : Scheduler) : World :=
  let before := (w.scheduler r).driver.feed?
  let w := { w with schedulers := w.schedulers.set r s }
  match before with
  | some q => if s.driver.feed? = some q then w else w.closeFeed q
  | none => w

/-- **Register a job.** -/
def schedule (w : World) (r : SchedulerRef) (j : JobRef) : Bool × World :=
  let s := w.scheduler r
  if s.state.isTerminal then (false, w.tell [.scheduleIgnored (w.forest.name j)])
  else
    let (added, s) := s.schedule j
    (added, (w.setScheduler r s).tell (if added then [.jobScheduled (w.forest.name j)] else []))

/-- **Take a job out.** A child leaves its parent, a root leaves the registry
with all that is below it. -/
def unschedule (w : World) (id : JobId) (r : SchedulerRef) (j : JobRef) :
    Except SchedulerError Unit × World :=
  let (removed, s, f) := (w.scheduler r).remove w.forest j
  if removed then
    (.ok (), ({ w.setScheduler r s with forest := f }).tell [.jobUnscheduled (w.forest.name j)])
  else (.error (.jobNotFound id), w)

def contains (w : World) (r : SchedulerRef) (j : JobRef) : Bool :=
  (w.scheduler r).contains w.forest j

def jobCount (w : World) (r : SchedulerRef) : Nat := (w.scheduler r).jobCount w.forest

def setFrameDelay (w : World) (r : SchedulerRef) (d : Duration) : World :=
  w.setScheduler r ((w.scheduler r).setFrameDelay d)

end World

end FrameLoop

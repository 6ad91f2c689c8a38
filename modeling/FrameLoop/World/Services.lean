import FrameLoop.World.Loop

/-!
# Running an engine

A call on an engine goes on from one place where it waits to the next. Each
function here takes a call as far as it gets and answers what has to happen
then (`Engine.Progress`): a hook is to be run, the scheduler has to end, or
nothing, because the call is over.

An engine counts as running from the moment its last start hook has returned
until a stop has drained its scheduler. Nothing else writes its state: a hook
that fails or panics leaves it as it was.
-/

namespace FrameLoop.World

open Engine (Call Progress Result Stage)

/-- A new engine around a scheduler. -/
def newEngine (w : World) (r : SchedulerRef) : EngineRef × World :=
  (w.engines.length, { w with engines := w.engines ++ [{ scheduler := r }] })

/-- An engine by its number. -/
def engine (w : World) (e : EngineRef) : Engine := w.engines.getD e default

def setEngine (w : World) (e : EngineRef) (g : Engine) : World :=
  { w with engines := w.engines.set e g }

def setEngineState (w : World) (e : EngineRef) (s : EngineState) : World :=
  w.setEngine e { w.engine e with state := s }

/-! ## Calls -/

/-- A new call on an engine, at a stage. -/
def openCall (w : World) (e : EngineRef) (stage : Stage) : CallRef × World :=
  (w.nextCall,
    { w with
      calls := w.calls ++ [{ number := w.nextCall, engine := e, stage }]
      nextCall := w.nextCall + 1 })

def call? (w : World) (c : CallRef) : Option Call := w.calls.find? (·.number == c)

/-- A call has come to another stage. -/
def setStage (w : World) (c : CallRef) (stage : Stage) : World :=
  { w with calls := w.calls.map fun k => if k.number = c then { k with stage } else k }

/-- **A call is over**, or was given up because its hook panicked. -/
def closeCall (w : World) (c : CallRef) : World :=
  { w with calls := w.calls.filter (·.number != c) }

/-- A call is over, with a result. -/
def conclude (w : World) (c : CallRef) (result : Result) : Progress × World :=
  (.done result, w.closeCall c)

/-! ## Going on -/

/-- Start the services in the list; with none left, the engine is running. -/
def startNext (w : World) (c : CallRef) (e : EngineRef) : List Service → Progress × World
  | s :: rest => (.enterStart c s, w.setStage c (.starting (s :: rest)))
  | [] =>
    ((w.setEngineState e .running).tell [.engineStarted (w.engine e).services.length]).conclude c
      .started

/-- The scheduler has ended: what the call waited for. -/
def schedulerEnded (w : World) (c : CallRef) : Progress × World :=
  match w.call? c with
  | some ⟨_, e, .draining⟩ =>
    ((w.setEngineState e .stopped).tell [.engineStopped]).conclude c .stopped
  | some ⟨_, _, .abandoning error⟩ => w.conclude c (.failed error)
  | _ => (.done .stopped, w)

/-- Stop the scheduler, and go on once it has ended. -/
def stopScheduler (w : World) (c : CallRef) (e : EngineRef) (stage : Stage) : Progress × World :=
  let r := (w.engine e).scheduler
  let (waits, w) := (w.setStage c stage).stop r
  if waits then (.awaitEnd c r, w) else w.schedulerEnded c

/-- Stop the services in the list; with none left, stop the scheduler. -/
def stopNext (w : World) (c : CallRef) (e : EngineRef) : List Service → Progress × World
  | s :: rest => (.enterStop c s, w.setStage c (.stopping (s :: rest)))
  | [] => w.stopScheduler c e .draining

/-- A start hook has succeeded: the job that the service contributes is
registered. -/
def serviceStarted (w : World) (e : EngineRef) (s : Service) (job : Option JobRef) : World :=
  let w := match job with
    | some j => (w.schedule (w.engine e).scheduler j).2
    | none => w
  w.tell [.serviceStarted s.name]

/-- **The hook that a call was running has returned.** -/
def hookReturned (w : World) (c : CallRef) (result : HookResult) : Progress × World :=
  match w.call? c with
  | some ⟨_, e, .loading s⟩ =>
    match result with
    | .ok job => (w.serviceStarted e s job).conclude c (.loaded s.name)
    | .failed cause =>
      ((w.tell [.serviceStartFailed s.name cause]).setEngine e ((w.engine e).drop s.kind)).conclude
        c (.failed (.serviceStart s.name cause))
  | some ⟨_, e, .starting (s :: rest)⟩ =>
    match result with
    | .ok job => (w.serviceStarted e s job).startNext c e rest
    | .failed cause =>
      (w.tell [.serviceStartFailed s.name cause]).stopScheduler c e
        (.abandoning (.serviceStart s.name cause))
  | some ⟨_, e, .stopping (s :: rest)⟩ =>
    match result with
    | .ok _ => w.stopNext c e rest
    | .failed cause => (w.tell [.serviceStopFailed s.name cause]).stopNext c e rest
  | _ => (.done .stopped, w)

/-! ## Calling -/

/-- **Load a service.** In a running engine its start hook runs at once. -/
def load (w : World) (e : EngineRef) (s : Service) : Progress × World :=
  match (w.engine e).accept s with
  | none => (.done (.failed (.duplicateService s.name)), w)
  | some g =>
    let w := (w.setEngine e g).tell [.serviceLoaded s.name]
    if g.state = .running then
      let (c, w) := w.openCall e (.loading s)
      (.enterStart c s, w)
    else (.done (.loaded s.name), w)

/-- **Start an engine on a source**: its scheduler, then its services in the
order in which they were loaded. -/
def startEngine (w : World) (e : EngineRef) (source : Source) : Progress × World :=
  match w.start (w.engine e).scheduler source with
  | (.error error, w) => (.done (.failed (.scheduler error)), w)
  | (.ok (), w) =>
    let services := (w.engine e).services
    let (c, w) := w.openCall e (.starting services)
    w.startNext c e services

/-- **Stop an engine**: its services in the opposite order, then its
scheduler. -/
def stopEngine (w : World) (e : EngineRef) : Progress × World :=
  let services := (w.engine e).services.reverse
  let (c, w) := w.openCall e (.stopping services)
  w.stopNext c e services

end FrameLoop.World

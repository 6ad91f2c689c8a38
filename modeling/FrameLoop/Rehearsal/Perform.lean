import FrameLoop.Rehearsal.Stage

/-!
# Doing one act

`Stage.perform` does an act that is over at once. An act that takes time is
split in two: its handles are looked up when it is come upon (`Stage.errand`),
and the rest goes on in the background, under a number that the answer tells.
Acts on the stage itself, such as moving the clock, are not done here; neither
are those that only make sense while a step or a hook is acting.
-/

namespace FrameLoop.Rehearsal.Stage

/-- Do something with what a handle stands for. -/
def withHandle {α : Type} (st : Stage) (table : List (Handle × α)) (id : Handle)
    (f : α → Answer × Stage) : Answer × Stage :=
  match table.lookup id with
  | some a => f a
  | none => (.noHandle, st)

/-- Ask something about what a handle stands for. -/
def asking {α : Type} (st : Stage) (table : List (Handle × α)) (id : Handle) (f : α → Answer) :
    Answer × Stage :=
  st.withHandle table id fun a => (f a, st)

def withJob (st : Stage) (id : Handle) (f : JobRef → Answer × Stage) : Answer × Stage :=
  st.withHandle st.jobs id f

def withScheduler (st : Stage) (id : Handle) (f : SchedulerRef → Answer × Stage) :
    Answer × Stage :=
  st.withHandle st.schedulers id f

/-- The answer for a job that may not be there. -/
def jobAnswer (st : Stage) : Option JobRef → Answer
  | some j => .text (st.label j)
  | none => .nothing

/-- The answer to something that may be refused. -/
def unitAnswer : Except SchedulerError Unit → Answer
  | .ok () => .text "ok"
  | .error e => .schedulerError e

/-! ## The parts of `perform` -/

/-- Set a scheduler up. -/
def setUp (st : Stage) (id : Handle) : Pace → Answer × Stage
  | .settings s =>
    match st.world.schedulerOfSettings loopId s with
    | (.ok r, w) => (.nothing, { st with world := w, schedulers := bind st.schedulers id r })
    | (.error p, w) => (.panicked p, st.withWorld w)
  | .frameDelay d =>
    let (r, w) := st.world.newScheduler loopId d SchedulerSettings.defaultWakeup
    (.nothing, { st with world := w, schedulers := bind st.schedulers id r })

/-- Start a loop. -/
def startLoop (st : Stage) (r : SchedulerRef) (source : SourceScript) : Answer × Stage :=
  let (source, st) := st.makeSource source
  let (result, w) := match source with
    | some s => st.world.start r s
    | none => st.world.startBuiltIn r
  (unitAnswer result, st.withWorld w)

/-- Queue wake-ups; the answer is that of the last. -/
def fire (st : Stage) (q : FeedRef) (t : Instant) : Nat → Answer × Stage
  | 0 => (.flag false, st)
  | 1 =>
    let (taken, w) := st.world.fire q t
    (.flag taken, st.withWorld w)
  | n + 2 => (st.withWorld (st.world.fire q t).2).fire q t (n + 1)

/-- Look at the counters through a receiver. -/
def receive (st : Stage) (id : Handle) (r : SchedulerRef) (seen : Nat) : Answer × Stage :=
  let s := st.world.scheduler r
  let changed := if s.released then none else some (s.stats.ticks != seen)
  (.received changed s.stats, { st with receivers := bind st.receivers id (r, s.stats.ticks) })

/-- Hand a command in. -/
def enqueue (st : Stage) (j : JobRef) (c : CommandScript) : Answer × Stage :=
  let (taken, q) := ((st.queues.lookup j).getD { isOpen := false }).enqueue c
  (.flag taken, { st with queues := st.queues.map fun (k, old) => (k, if k = j then q else old) })

/-- What there is to say about the service of a sort. -/
def lookup (st : Stage) (e : EngineRef) (sort : ServiceSort) : Answer :=
  match (st.world.engine e).service? sort.kind with
  | some s =>
    match sort with
    | .heartbeat => .count ((st.beats.lookup s.tag).getD 0)
    | _ => .text s.name
  | none => .nothing

/-- Let go of what a handle stands for; the answer is whether it stood for
something. -/
def letGo (st : Stage) (id : Handle) : Held → Answer × Stage
  | .job => (.flag (st.jobs.lookup id).isSome, { st with jobs := unbind st.jobs id })
  | .trigger => (.flag (st.triggers.lookup id).isSome, st.dropTrigger id)
  | .sender => (.flag (st.senders.lookup id).isSome, { st with senders := unbind st.senders id })
  | .scheduler =>
    (.flag (st.schedulers.lookup id).isSome, { st with schedulers := unbind st.schedulers id })
  | .engine => (.flag (st.engines.lookup id).isSome, { st with engines := unbind st.engines id })
  | .receiver =>
    (.flag (st.receivers.lookup id).isSome, { st with receivers := unbind st.receivers id })
  | .signal => (.flag (st.signals.lookup id).isSome, { st with signals := unbind st.signals id })

/-! ## What takes time -/

/-- Make a service as a script says; the job it contributes is made with it. -/
def makeService (st : Stage) (sort : ServiceSort) (name : String) (job : Option JobScript)
    (start stop : HookScript) : Service × Stage :=
  let (keeps, st) := match job with
    | some spec => let (j, st) := st.makeJob spec; (some j, st)
    | none => (none, st)
  let service : Service := { tag := st.nextService, kind := sort.kind, name, keeps }
  (service,
    { st with
      services := st.services ++ [(st.nextService, ⟨sort, start, stop⟩)]
      nextService := st.nextService + 1 })

/-- A call with its handles looked up; `none` for an act that is no call. -/
def errand? (st : Stage) : Act → Option (Errand × Stage)
  | .stop s => some (((st.schedulers.lookup s).map .stop).getD (.answer .noHandle), st)
  | .waitScheduler s => some (((st.schedulers.lookup s).map .wait).getD (.answer .noHandle), st)
  | .waitSignal g => some (((st.signals.lookup g).map .wait).getD (.answer .noHandle), st)
  | .step j => some (((st.jobs.lookup j).map .step).getD (.answer .noHandle), st)
  | .load e sort name job start stop =>
    match st.engines.lookup e with
    | some e =>
      let (s, st) := st.makeService sort name job start stop
      some (.load e s, st)
    | none => some (.answer .noHandle, st)
  | .startEngine e source =>
    match st.engines.lookup e with
    | some e =>
      let (source, st) := st.makeSource source
      some (.startEngine e source, st)
    | none => some (.answer .noHandle, st)
  | .stopEngine e => some (((st.engines.lookup e).map .stopEngine).getD (.answer .noHandle), st)
  | _ => none

/-! ## One act -/

/-- **Do one act.** -/
def perform (st : Stage) (act : Act) : Answer × Stage :=
  match st.errand? act with
  | some (e, st) =>
    (.call st.nextCall,
      { st.spawn (.call st.nextCall) [.errand e] with nextCall := st.nextCall + 1 })
  | none =>
    let w := st.world
    match act with
    | .job spec => (.nothing, (st.makeJob spec).2)
    | .cloneJob id source => st.withJob source fun j => (.nothing, st.keepJob id j)
    | .child p c => st.withJob p fun p => st.withJob c fun c =>
      match w.attach p c with
      | (.ok added, w) => (.flag added, st.withWorld w)
      | (.error e, _) => (.schedulerError e, st)
    | .erase p c => st.withJob p fun p => st.withJob c fun c =>
      (.flag (w.eraseChild p c).1, st.withWorld (w.eraseChild p c).2)
    | .children j => st.asking st.jobs j fun j => .texts ((w.forest.children j).map st.label)
    | .parent j => st.asking st.jobs j fun j => st.jobAnswer (w.forest.parent j)
    | .root j => st.asking st.jobs j fun j => .text (st.label (w.forest.root j))
    | .descendants j => st.asking st.jobs j fun j => .count (w.forest.descendantCount j)
    | .tree j => st.asking st.jobs j fun j =>
      .tree ((w.forest.tree j).map fun (depth, k) => (depth, st.label k))
    | .same a b => st.withJob a fun a => st.withJob b fun b =>
      (.flags [a == b, a == b, w.forest.name a == w.forest.name b], st)
    | .jobName j => st.asking st.jobs j fun j => .text (w.forest.name j)
    | .scheduler id pace => st.setUp id pace
    | .start s source => st.withScheduler s fun r => st.startLoop r source
    | .signalStop s => st.withScheduler s fun r =>
      (.flag (w.signalStop r).1, st.withWorld (w.signalStop r).2)
    | .schedule s j => st.withScheduler s fun r => st.withJob j fun j =>
      (.flag (w.schedule r j).1, st.withWorld (w.schedule r j).2)
    | .unschedule s j => st.withScheduler s fun r => st.withJob j fun j =>
      let (result, w) := w.unschedule (st.jobId j) r j
      (unitAnswer result, st.withWorld w)
    | .contains s j => st.withScheduler s fun r => st.withJob j fun j =>
      (.flag (w.contains r j), st)
    | .jobCount s => st.asking st.schedulers s fun r => .count (w.jobCount r)
    | .frameDelay s => st.asking st.schedulers s fun r => .duration (w.scheduler r).frameDelay
    | .setFrameDelay s d => st.withScheduler s fun r =>
      (.nothing, st.withWorld (w.setFrameDelay r d))
    | .state s => st.asking st.schedulers s fun r => .state (w.scheduler r).state
    | .stats s => st.asking st.schedulers s fun r => .stats (w.scheduler r).stats
    | .finished s => st.asking st.schedulers s fun r => .flag (st.hasEnded r)
    | .outcome s => st.asking st.schedulers s fun r => .outcome (w.scheduler r).outcome
    | .signal id s => st.withScheduler s fun r =>
      (.nothing, { st with signals := bind st.signals id r })
    | .signalState g => st.asking st.signals g fun r => .signal (w.scheduler r).outcome
    | .subscribe id s => st.withScheduler s fun r =>
      (.nothing, { st with receivers := bind st.receivers id (r, (w.scheduler r).stats.ticks) })
    | .received id => st.withHandle st.receivers id fun (r, seen) => st.receive id r seen
    | .describeScheduler s => st.asking st.schedulers s fun r => .text (w.describeScheduler r)
    | .describeJob j => st.asking st.jobs j fun j => .text (w.describeJob (st.jobId j) j)
    | .describeEngine e => st.asking st.engines e fun e => .text (w.describeEngine e)
    | .fire t reading times => st.withHandle st.triggers t fun q =>
      st.fire q (reading.getD ⟨w.clock⟩) times
    | .connected t => st.asking st.triggers t fun q => .flag (w.feed q).listening
    | .cloneTrigger id source => st.withHandle st.triggers source fun q =>
      (.nothing, (st.withWorld (w.addTrigger q)).keepTrigger id q)
    | .enqueue s c => st.withHandle st.senders s fun j => st.enqueue j c
    | .senderConnected s => st.asking st.senders s fun j =>
      .flag (((st.queues.lookup j).map (·.isOpen)).getD false)
    | .engine id s => st.withScheduler s fun r =>
      let (e, w) := w.newEngine r
      (.nothing, { st with world := w, engines := bind st.engines id e })
    | .engineState e => st.asking st.engines e fun e => .text (w.engine e).state.word
    | .engineSchedule e j => st.withHandle st.engines e fun e => st.withJob j fun j =>
      let (added, w) := w.schedule (w.engine e).scheduler j
      (.flag added, st.withWorld w)
    | .services e => st.asking st.engines e fun e => .texts (w.engine e).names
    | .engineJobCount e => st.asking st.engines e fun e =>
      .count (w.jobCount (w.engine e).scheduler)
    | .lookup e sort => st.asking st.engines e fun e => st.lookup e sort
    | .drop what id => st.letGo id what
    | .log text => (.text text, st)
    | .inflight => (.gates (st.gates.map fun (g, _) => (g.who, g.due)), st)
    | .now => (.count st.millis, st)
    | _ => (.unknownAct, st)

end FrameLoop.Rehearsal.Stage

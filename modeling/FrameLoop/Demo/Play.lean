import FrameLoop.Demo
import FrameLoop.World.Holdings

/-!
# The demonstration under way

A `Play` is a world with an engine, the heartbeat service and the jobs of the
demonstration, set up as a user asks. Every step of its jobs returns at once,
so the play goes from wake-up to wake-up: `Play.wake` lets the driver look up
and runs whatever tick comes of it to its end.

How time passes is not decided here. `Play.nextWake` says when the next
wake-up is due, and the clock is put forward by the caller.
-/

namespace FrameLoop.Demo

/-- **The demonstration, set up.** -/
structure Play where
  world : World
  scheduler : SchedulerRef
  engine : EngineRef
  warmup : JobRef
  /-- The fault injector, and the step from which on it aborts. -/
  injector : Option (JobRef × Nat)
  /-- How many steps the heartbeat has done. -/
  beats : Nat := 0
  /-- How many steps the fault injector has done. -/
  calls : Nat := 0

/-- The heartbeat as a service. -/
def heartbeat : Service := { tag := 0, kind := 0, name := heartbeatName }

namespace Play

def withWorld (p : Play) (w : World) : Play := { p with world := w }

/-! ## Setting up -/

/-- Put the jobs of the demonstration on a scheduler, around which the engine
is built. -/
def cast (w : World) (r : SchedulerRef) (abortAfter : Option Nat) : Play :=
  let (e, w) := w.newEngine r
  let (_, w) := w.load e heartbeat
  let (warmup, w) := w.newJob warmupName
  let (_, w) := w.schedule r warmup
  match abortAfter with
  | none => { world := w, scheduler := r, engine := e, warmup, injector := none }
  | some after =>
    let (j, w) := w.newJob faultInjectorName
    let (_, w) := w.schedule r j
    { world := w, scheduler := r, engine := e, warmup, injector := some (j, after) }

/-- **Set the demonstration up** as settings and options say. -/
def setUp (s : SchedulerSettings) (frameDelayMs : Option Binary64) (abortAfter : Option Nat) :
    Except Panic Play :=
  match World.schedulerOfSettings {} ⟨"demo"⟩ s with
  | (.error p, _) => .error p
  | (.ok r, w) =>
    match frameDelayMs with
    | none => .ok (cast w r abortAfter)
    | some ms =>
      match w.readMillis ms with
      | (.error p, _) => .error p
      | (.ok d, w) => .ok (cast (w.setFrameDelay r d) r abortAfter)

/-- Run the hooks of the heartbeat as the engine asks for them. Its start hook
contributes a new job. -/
def hooks : Nat → Engine.Progress → Play → Play
  | fuel + 1, .enterStart c _, p =>
    let w := p.world.tell [.heartbeatOnline (p.world.scheduler p.scheduler).frameDelay]
    let (j, w) := w.newJob heartbeatName
    let (progress, w) := w.hookReturned c (.ok (some j))
    hooks fuel progress (p.withWorld w)
  | fuel + 1, .enterStop c _, p =>
    let (progress, w) := (p.world.tell [.heartbeatOffline p.beats]).hookReturned c (.ok none)
    hooks fuel progress (p.withWorld w)
  | fuel + 1, .awaitEnd c r, p =>
    let (_, w) := p.world.poll r
    let (progress, w) := w.schedulerEnded c
    hooks fuel progress (p.withWorld w)
  | _, _, p => p

/-- **Start the engine** on the built-in source. -/
def start (p : Play) : Play :=
  let source := (p.world.scheduler p.scheduler).builtIn p.world.clock
  let (progress, w) := p.world.startEngine p.engine source
  hooks 3 progress (p.withWorld w)

/-- **Stop the engine.** No tick is in flight between two wake-ups, so the
scheduler ends as soon as its driver looks up. -/
def stop (p : Play) : Play :=
  let (progress, w) := p.world.stopEngine p.engine
  hooks 3 progress (p.withWorld w)

/-! ## Ticking -/

/-- **One step of a job**: how it ends, and the play after it. -/
def step (p : Play) (j : JobRef) : Verdict × Play :=
  if j = p.warmup then (.outcome .detach, p.withWorld (p.world.tell [.warmupComplete]))
  else
    match p.injector with
    | some (k, after) =>
      if j = k then (.outcome (faultInjector after (p.calls + 1)), { p with calls := p.calls + 1 })
      else beat p
    | none => beat p
where
  /-- A step of the heartbeat. -/
  beat (p : Play) : Verdict × Play :=
    (.outcome .resume,
      { p with beats := p.beats + 1, world := p.world.tell (beatNotices (p.beats + 1)) })

/-- Run the steps that have been launched, and those launched because of them. -/
def runSteps : Nat → List JobRef → Play → Play
  | fuel + 1, j :: rest, p =>
    let (v, p) := p.step j
    let (more, w) := p.world.returned p.scheduler j v
    runSteps fuel (rest ++ more) (p.withWorld w)
  | _, _, p => p

/-- **The driver looks up**, and the tick that comes of it runs to its end. A
tick runs every job at most once. -/
def wake (p : Play) : Play :=
  let (wave, w) := p.world.poll p.scheduler
  runSteps w.forest.nodes.length wave (p.withWorld w)

/-- How the loop ended, if it has. -/
def outcome (p : Play) : Option Completion := (p.world.scheduler p.scheduler).outcome

/-- The counters. -/
def stats (p : Play) : TickStats := (p.world.scheduler p.scheduler).stats

/-- The instant at which the next wake-up is due, in nanoseconds. -/
def nextWake (p : Play) : Nat :=
  match (p.world.scheduler p.scheduler).driver.loop? with
  | some ⟨.interval i, _, _, _⟩ => i.deadline
  | _ => p.world.clock

/-- Put the clock forward. -/
def atClock (p : Play) (clock : Nat) : Play :=
  p.withWorld { p.world with clock := max p.world.clock clock }

/-- **Go from wake-up to wake-up** until the loop has ended or the next one is
not before the deadline, or for so many wake-ups. -/
def run (deadline : Option Nat) : Nat → Play → Play
  | 0, p => p
  | fuel + 1, p =>
    if p.outcome.isSome || deadline.any (· ≤ p.nextWake) then p
    else run deadline fuel (p.atClock p.nextWake).wake

end Play

end FrameLoop.Demo

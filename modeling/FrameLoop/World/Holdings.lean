import FrameLoop.World.Services

/-!
# Who is kept alive

Jobs, schedulers and engines live as long as somebody holds them. Somebody is
a host with a handle (`Holdings`), or another part of the world: an engine
holds its scheduler and its services, a call holds its engine, a driver holds
its scheduler, a scheduler holds the jobs registered with it, a tick holds the
jobs it is running, a parent holds its children. `World.sweep` lets go of all
the rest, so it is to be applied whenever something may have been let go.
-/

namespace FrameLoop

/-- **What is held from outside.** -/
structure Holdings where
  jobs : List JobRef := []
  schedulers : List SchedulerRef := []
  engines : List EngineRef := []

namespace World

/-- Whether an engine is held. -/
def engineLives (w : World) (h : Holdings) (e : EngineRef) : Bool :=
  decide (e ∈ h.engines) || w.calls.any (·.engine == e)

/-- Whether a scheduler is held. -/
def schedulerLives (w : World) (h : Holdings) (r : SchedulerRef) : Bool :=
  decide (r ∈ h.schedulers) || (w.scheduler r).driver.isActive
    || (List.range w.engines.length).any fun e =>
      w.engineLives h e && (w.engine e).scheduler == r

/-- Let go of the engines that nobody holds. -/
def releaseEngines (w : World) (h : Holdings) : World :=
  { w with
    engines := w.engines.mapIdx fun e g =>
      if w.engineLives h e then g else { g with registry := .empty, released := true } }

/-- Let go of the schedulers that nobody holds. -/
def releaseSchedulers (w : World) (h : Holdings) : World :=
  { w with
    schedulers := w.schedulers.mapIdx fun r s =>
      if w.schedulerLives h r then s else s.release }

/-- The jobs held from outside, by a service or by a scheduler. -/
def heldJobs (w : World) (h : Holdings) : List JobRef :=
  h.jobs ++ w.engines.flatMap (fun g => g.services.filterMap (·.keeps))
    ++ w.calls.flatMap (fun c => c.stage.services.filterMap (·.keeps))
    ++ w.schedulers.flatMap (·.holds)

/-- **Let go of everything that nobody holds.** -/
def sweep (w : World) (h : Holdings) : World :=
  let w := (w.releaseEngines h).releaseSchedulers h
  { w with forest := w.forest.sweep (w.heldJobs h) }

end World

end FrameLoop

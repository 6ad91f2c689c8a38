import FrameLoop.Proofs.Run.Frame

/-!
# The clock

Time passes when the host says so and at no other event (`clock_step`). Whatever a driver
does, a look-up, a tick and its end, happens at one time; how long a step takes, or how late a
driver looks up, is what has passed between two events.
-/

namespace FrameLoop.World

section Clock

variable (w : World)

@[simp] theorem clock_tell (ns : List Notice) : (w.tell ns).clock = w.clock := rfl

@[simp] theorem clock_setScheduler (r : SchedulerRef) (s : Scheduler) :
    (w.setScheduler r s).clock = w.clock := by
  unfold setScheduler
  dsimp only
  split
  · split <;> rfl
  · rfl

@[simp] theorem clock_dropSource (source : Source) : (w.dropSource source).clock = w.clock := by
  unfold dropSource
  split <;> rfl

@[simp] theorem clock_schedule (r : SchedulerRef) (j : JobRef) :
    (w.schedule r j).2.clock = w.clock := by
  unfold schedule
  dsimp only
  split <;> simp

@[simp] theorem clock_unschedule (id : JobId) (r : SchedulerRef) (j : JobRef) :
    (w.unschedule id r j).2.clock = w.clock := by
  unfold unschedule
  dsimp only
  split <;> simp

@[simp] theorem clock_start (r : SchedulerRef) (source : Source) :
    (w.start r source).2.clock = w.clock := by
  by_cases idle : (w.scheduler r).state = .idle
  · rw [starts_of_idle idle, clock_tell, clock_setScheduler]
  · rw [start_of_busy idle, clock_dropSource]

@[simp] theorem clock_stop (r : SchedulerRef) : (w.stop r).2.clock = w.clock := by
  unfold stop
  dsimp only
  split <;> simp

@[simp] theorem clock_rouse (r : SchedulerRef) : (w.rouse r).clock = w.clock := by
  obtain same | ⟨loop, -, -, -, -, wakes⟩ := w.rouse_cases r
  · rw [same]
  · rw [wakes, clock_setScheduler]

@[simp] theorem clock_poll (r : SchedulerRef) : (w.poll r).2.clock = w.clock := by
  obtain move | ⟨move, -⟩ := w.poll_cases r
  · rw [move]
    exact clock_setScheduler _ r _
  · rw [move]

/-! ## Calls on engines -/

@[simp] theorem clock_startNext (c : CallRef) (e : EngineRef) (services : List Service) :
    (w.startNext c e services).2.clock = w.clock := by
  cases services <;> rfl

@[simp] theorem clock_schedulerEnded (c : CallRef) : (w.schedulerEnded c).2.clock = w.clock := by
  unfold schedulerEnded
  split <;> rfl

@[simp] theorem clock_stopScheduler (c : CallRef) (e : EngineRef) (stage : Engine.Stage) :
    (w.stopScheduler c e stage).2.clock = w.clock := by
  have stopped := clock_stop (w.setStage c stage) (w.engine e).scheduler
  unfold stopScheduler
  dsimp only
  split
  · exact stopped
  · rw [clock_schedulerEnded]
    exact stopped

@[simp] theorem clock_stopNext (c : CallRef) (e : EngineRef) (services : List Service) :
    (w.stopNext c e services).2.clock = w.clock := by
  cases services with
  | nil => exact w.clock_stopScheduler c e .draining
  | cons s rest => rfl

@[simp] theorem clock_serviceStarted (e : EngineRef) (s : Service) (job : Option JobRef) :
    (w.serviceStarted e s job).clock = w.clock := by
  cases job with
  | none => rfl
  | some j => exact w.clock_schedule _ j

@[simp] theorem clock_hookReturned (c : CallRef) (result : HookResult) :
    (w.hookReturned c result).2.clock = w.clock := by
  unfold hookReturned
  split
  · next s _ =>
    split
    · exact w.clock_serviceStarted _ s _
    · rfl
  · split <;> simp
  · split <;> simp
  · rfl

@[simp] theorem clock_load (e : EngineRef) (s : Service) : (w.load e s).2.clock = w.clock := by
  unfold load
  split
  · rfl
  · dsimp only
    split <;> rfl

@[simp] theorem clock_startEngine (e : EngineRef) (source : Source) :
    (w.startEngine e source).2.clock = w.clock := by
  have same := w.clock_start (w.engine e).scheduler source
  unfold startEngine
  split
  · next h => rw [h] at same; exact same
  · next h =>
    rw [h] at same
    dsimp only
    rw [clock_startNext]
    exact same

/-! ## Every event -/

/-- How much time an event lets pass. -/
def Event.passes : Event → Nat
  | .pass nanos => nanos
  | _ => 0

/-- **Time passes at one kind of event only.** -/
theorem clock_step (e : Event) : (w.step e).2.clock = w.clock + e.passes := by
  unfold step
  split
  · cases e with
    | pass nanos => rfl
    | attach p c => unfold act attach; dsimp only; split <;> rfl
    | schedule r j => exact w.clock_schedule r j
    | unschedule id r j => exact w.clock_unschedule id r j
    | setFrameDelay r d => exact w.clock_setScheduler r _
    | start r source => exact w.clock_start r source
    | signalStop r => exact w.clock_setScheduler r _
    | stop r => exact w.clock_stop r
    | rouse r => exact w.clock_rouse r
    | poll r => exact w.clock_poll r
    | returned r j v => exact clock_setScheduler _ r _
    | load e s => exact w.clock_load e s
    | startEngine e source => exact w.clock_startEngine e source
    | stopEngine e =>
      exact clock_stopNext (w.openCall e (.stopping (w.engine e).services.reverse)).2 _ e _
    | hookReturned c result => exact w.clock_hookReturned c result
    | schedulerEnded c => exact w.clock_schedulerEnded c
    | newJob | eraseChild | newFeed | fire | addTrigger | dropTrigger | newScheduler | newEngine
    | hookPanicked | tell | readLog | sweep => rfl
  · next cannot =>
    cases e with
    | pass nanos => exact absurd rfl cannot
    | _ => rfl

end Clock

/-- **The clock does not go back.** -/
theorem clock_le_concat (es : List Event) (e : Event) :
    (run es).clock ≤ (run (es ++ [e])).clock := by
  rw [run_concat, clock_step]
  exact Nat.le_add_right _ _

end FrameLoop.World

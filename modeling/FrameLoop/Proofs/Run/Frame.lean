import FrameLoop.Proofs.Run

/-!
# What an event leaves alone

Most events have nothing to do with most of the world. This module says once
what each of them can do to a scheduler and to the forest, so that nothing
else has to look inside the operations.

A scheduler is changed by its driver (`Event.poll`, `Event.returned`) or
quietly. `Scheduler.Quiet` lists the quiet changes, guards included, and
`quiet_step` says that there are no others. What the driver does is in
`scheduler_poll` and `scheduler_returned`: one function of the scheduler, the
forest and the clock each.

The forest is changed by few events, in few ways (`forest_step`), besides
letting go of jobs.

Two kinds of things come from outside: what is registered or listened to, and
what is linked. Both inversions say which event brings them (`World.registers`,
`World.starts`, and the event of an attachment itself).
-/

namespace FrameLoop

/-! ## Quiet changes -/

namespace Scheduler

/-- What may come to a scheduler from outside. -/
structure Intake where
  /-- The jobs that may be registered. -/
  jobs : JobRef → Prop
  /-- The sources on which the loop may be started. -/
  sources : Source → Prop
  /-- When the driver may be woken, in what state of its loop. -/
  wakes : Loop → Nat → Prop

variable {may : Intake}

/-- **The changes of a scheduler that its driver has no part in.** -/
inductive Quiet (may : Intake) : Scheduler → Scheduler → Prop where
  | same (s : Scheduler) : Quiet may s s
  | made (loopId : LoopId) (frameDelay wakeup : Duration) :
    Quiet may default (.new loopId frameDelay wakeup)
  | scheduled (s : Scheduler) (j : JobRef) (brought : may.jobs j)
    (live : s.state.isTerminal = false) (new : j ∉ s.registry) :
    Quiet may s { s with registry := s.registry ++ [j] }
  | unregistered (s : Scheduler) (j : JobRef) :
    Quiet may s { s with registry := s.registry.erase j }
  | paced (s : Scheduler) (d : Duration) : Quiet may s (s.setFrameDelay d)
  | started (s : Scheduler) (source : Source) (brought : may.sources source)
    (idle : s.state = .idle) :
    Quiet may s
      { s with state := .running, shutdown := some false, driver := .waiting { source } }
  | asked (s : Scheduler) (running : s.state = .running) :
    Quiet may s { s with state := .stopping, shutdown := s.shutdown.map fun _ => true }
  | roused (s : Scheduler) {loop : Loop} {now : Nat} (waiting : s.driver = .waiting loop)
    (fresh : loop.roused = none) (unasked : s.shutdown ≠ some true) (woken : may.wakes loop now) :
    Quiet may s { s with driver := .waiting { loop with roused := some now } }
  | released (s : Scheduler) (inactive : s.driver.isActive = false) : Quiet may s s.release

theorem quiet_schedule (s : Scheduler) {j : JobRef} (brought : may.jobs j) :
    Quiet may s (s.schedule j).2 := by
  unfold schedule
  split
  · exact .same s
  · next h =>
    simp only [not_or, Bool.not_eq_true] at h
    exact .scheduled s j brought h.1 h.2

theorem quiet_unregister (s : Scheduler) (j : JobRef) : Quiet may s (s.unregister j).2 := by
  unfold unregister
  split
  · exact .unregistered s j
  · exact .same s

theorem quiet_remove (s : Scheduler) (f : Forest) (j : JobRef) :
    Quiet may s (s.remove f j).2.1 := by
  unfold remove
  split
  · exact .same s
  · exact s.quiet_unregister j

theorem quiet_start {s s' : Scheduler} {source : Source} (brought : may.sources source)
    (h : s.start source = .ok s') : Quiet may s s' := by
  unfold start at h
  split at h
  · next idle => cases h; exact .started s source brought idle
  · cases h

theorem quiet_requestStop (s : Scheduler) : Quiet may s s.requestStop.2 := by
  unfold requestStop
  split
  · next running => exact .asked s running
  · exact .same s

end Scheduler

/-- **The changes of a forest**, letting go apart. A link is made only where
`may` allows it, between jobs that are there. -/
inductive Forest.Change (may : JobRef → JobRef → Prop) : Forest → Forest → Prop where
  | same (f : Forest) : Change may f f
  | created (f : Forest) (name : String) : Change may f (f.create name).2
  | attached {f f' : Forest} {p c : JobRef} {added : Bool} (asked : may p c)
    (hp : f.has p = true) (hc : f.has c = true) (h : f.attach p c = .ok (added, f')) :
    Change may f f'
  | erased (f : Forest) (p c : JobRef) : Change may f (f.erase p c).2

/-- A job that is taken from where it is leaves at most one parent. -/
theorem Scheduler.forest_remove {may : JobRef → JobRef → Prop} (s : Scheduler) (f : Forest)
    (j : JobRef) : Forest.Change may f (s.remove f j).2.2 := by
  unfold remove
  split
  · exact .erased f _ j
  · exact .same f

namespace World

open Scheduler (Intake Quiet)

variable {may : Intake}

/-! ## Parts that are not schedulers

Telling the log, feeds, engines and calls leave the schedulers and the forest
as they are. -/

@[simp] theorem schedulers_tell (w : World) (ns : List Notice) :
    (w.tell ns).schedulers = w.schedulers := rfl

@[simp] theorem forest_tell (w : World) (ns : List Notice) : (w.tell ns).forest = w.forest := rfl

@[simp] theorem scheduler_tell (w : World) (ns : List Notice) (r : SchedulerRef) :
    (w.tell ns).scheduler r = w.scheduler r := rfl

/-- Two worlds with the same schedulers have the same scheduler in each place. -/
theorem scheduler_congr {w w' : World} (h : w'.schedulers = w.schedulers) (r : SchedulerRef) :
    w'.scheduler r = w.scheduler r := by
  unfold scheduler
  rw [h]

@[simp] theorem schedulers_openCall (w : World) (e : EngineRef) (stage : Engine.Stage) :
    (w.openCall e stage).2.schedulers = w.schedulers := rfl

@[simp] theorem forest_openCall (w : World) (e : EngineRef) (stage : Engine.Stage) :
    (w.openCall e stage).2.forest = w.forest := rfl

@[simp] theorem schedulers_setStage (w : World) (c : CallRef) (stage : Engine.Stage) :
    (w.setStage c stage).schedulers = w.schedulers := rfl

@[simp] theorem forest_setStage (w : World) (c : CallRef) (stage : Engine.Stage) :
    (w.setStage c stage).forest = w.forest := rfl

@[simp] theorem schedulers_conclude (w : World) (c : CallRef) (result : Engine.Result) :
    (w.conclude c result).2.schedulers = w.schedulers := rfl

@[simp] theorem forest_conclude (w : World) (c : CallRef) (result : Engine.Result) :
    (w.conclude c result).2.forest = w.forest := rfl

@[simp] theorem schedulers_setEngine (w : World) (e : EngineRef) (g : Engine) :
    (w.setEngine e g).schedulers = w.schedulers := rfl

@[simp] theorem forest_setEngine (w : World) (e : EngineRef) (g : Engine) :
    (w.setEngine e g).forest = w.forest := rfl

@[simp] theorem schedulers_startNext (w : World) (c : CallRef) (e : EngineRef)
    (services : List Service) : (w.startNext c e services).2.schedulers = w.schedulers := by
  cases services <;> rfl

@[simp] theorem forest_startNext (w : World) (c : CallRef) (e : EngineRef)
    (services : List Service) : (w.startNext c e services).2.forest = w.forest := by
  cases services <;> rfl

@[simp] theorem schedulers_schedulerEnded (w : World) (c : CallRef) :
    (w.schedulerEnded c).2.schedulers = w.schedulers := by
  unfold schedulerEnded
  split <;> rfl

@[simp] theorem forest_schedulerEnded (w : World) (c : CallRef) :
    (w.schedulerEnded c).2.forest = w.forest := by
  unfold schedulerEnded
  split <;> rfl

/-! ## Putting a scheduler in its place -/

@[simp] theorem forest_setScheduler (w : World) (r : SchedulerRef) (s : Scheduler) :
    (w.setScheduler r s).forest = w.forest := by
  unfold setScheduler
  dsimp only
  split
  · split <;> rfl
  · rfl

@[simp] theorem schedulers_setScheduler (w : World) (r : SchedulerRef) (s : Scheduler) :
    (w.setScheduler r s).schedulers = w.schedulers.set r s := by
  unfold setScheduler
  dsimp only
  split
  · split <;> rfl
  · rfl

@[simp] theorem notices_setScheduler (w : World) (r : SchedulerRef) (s : Scheduler) :
    (w.setScheduler r s).notices = w.notices := by
  unfold setScheduler
  dsimp only
  split
  · split <;> rfl
  · rfl

theorem scheduler_setScheduler_self {w : World} {r : SchedulerRef} (s : Scheduler)
    (h : r < w.schedulers.length) : (w.setScheduler r s).scheduler r = s := by
  simp [scheduler, h]

theorem scheduler_setScheduler_ne {w : World} {r k : SchedulerRef} (s : Scheduler) (h : k ≠ r) :
    (w.setScheduler r s).scheduler k = w.scheduler k := by
  simp [scheduler, h.symm]

/-- A scheduler that is not there is the default one, and stays so. -/
theorem scheduler_of_length_le {w : World} {r : SchedulerRef} (h : w.schedulers.length ≤ r) :
    w.scheduler r = default := by
  simp [scheduler, h]

theorem length_of_active {w : World} {r : SchedulerRef}
    (active : (w.scheduler r).driver.isActive = true) : r < w.schedulers.length := by
  by_contra absent
  rw [scheduler_of_length_le (Nat.le_of_not_lt absent)] at active
  cases active

/-- A quiet change in one place is a quiet change, or none, in every place. -/
theorem quiet_setScheduler {w : World} {r k : SchedulerRef} {s : Scheduler}
    (h : k = r → Quiet may (w.scheduler r) s) :
    Quiet may (w.scheduler k) ((w.setScheduler r s).scheduler k) := by
  by_cases hk : k = r
  · subst hk
    by_cases hr : k < w.schedulers.length
    · rw [scheduler_setScheduler_self s hr]; exact h rfl
    · have gone : w.schedulers.length ≤ k := Nat.le_of_not_lt hr
      rw [scheduler_of_length_le gone, scheduler_of_length_le (by simpa using gone)]
      exact .same _
  · rw [scheduler_setScheduler_ne s hk]; exact .same _

/-! ## The operations on schedulers -/

theorem quiet_newScheduler (w : World) (loopId : LoopId) (frameDelay wakeup : Duration)
    (k : SchedulerRef) :
    Quiet may (w.scheduler k) ((w.newScheduler loopId frameDelay wakeup).2.scheduler k) := by
  have place : (w.newScheduler loopId frameDelay wakeup).2.schedulers =
      w.schedulers ++ [.new loopId frameDelay wakeup] := rfl
  rcases Nat.lt_trichotomy k w.schedulers.length with h | rfl | h
  · have : (w.newScheduler loopId frameDelay wakeup).2.scheduler k = w.scheduler k := by
      simp [scheduler, place, List.getElem?_append_left h]
    rw [this]; exact .same _
  · rw [scheduler_of_length_le (Nat.le_refl _)]
    have : (w.newScheduler loopId frameDelay wakeup).2.scheduler w.schedulers.length =
        .new loopId frameDelay wakeup := by simp [scheduler, place]
    rw [this]; exact .made _ _ _
  · rw [scheduler_of_length_le (Nat.le_of_lt h), scheduler_of_length_le]
    · exact .same _
    · rw [place, List.length_append]; exact h

theorem quiet_schedule (w : World) {r k : SchedulerRef} {j : JobRef}
    (brought : k = r → may.jobs j) :
    Quiet may (w.scheduler k) ((w.schedule r j).2.scheduler k) := by
  unfold schedule
  dsimp only
  split
  · exact .same _
  · exact quiet_setScheduler fun here => (w.scheduler r).quiet_schedule (brought here)

@[simp] theorem forest_schedule (w : World) (r : SchedulerRef) (j : JobRef) :
    (w.schedule r j).2.forest = w.forest := by
  unfold schedule
  dsimp only
  split <;> simp

theorem quiet_unschedule (w : World) (id : JobId) (r : SchedulerRef) (j : JobRef)
    (k : SchedulerRef) : Quiet may (w.scheduler k) ((w.unschedule id r j).2.scheduler k) := by
  unfold unschedule
  dsimp only
  split
  · exact quiet_setScheduler fun _ => (w.scheduler r).quiet_remove w.forest j
  · exact .same _

theorem quiet_start (w : World) {r k : SchedulerRef} {source : Source}
    (brought : k = r → may.sources source) :
    Quiet may (w.scheduler k) ((w.start r source).2.scheduler k) := by
  unfold start
  dsimp only
  split
  · next h => exact quiet_setScheduler fun here => Scheduler.quiet_start (brought here) h
  · split <;> exact .same _

@[simp] theorem forest_start (w : World) (r : SchedulerRef) (source : Source) :
    (w.start r source).2.forest = w.forest := by
  unfold start
  dsimp only
  split
  · simp
  · split <;> rfl

theorem quiet_signalStop (w : World) (r k : SchedulerRef) :
    Quiet may (w.scheduler k) ((w.signalStop r).2.scheduler k) :=
  quiet_setScheduler fun _ => (w.scheduler r).quiet_requestStop

@[simp] theorem forest_signalStop (w : World) (r : SchedulerRef) :
    (w.signalStop r).2.forest = w.forest :=
  forest_setScheduler w r (w.scheduler r).requestStop.2

theorem quiet_stop (w : World) (r k : SchedulerRef) :
    Quiet may (w.scheduler k) ((w.stop r).2.scheduler k) := by
  unfold stop
  dsimp only
  split
  · exact quiet_setScheduler fun _ => (w.scheduler r).quiet_requestStop
  · exact .same _
  · exact .same _

@[simp] theorem forest_stop (w : World) (r : SchedulerRef) :
    (w.stop r).2.forest = w.forest := by
  unfold stop
  dsimp only
  split <;> simp

/-- **A source wakes a driver that waits**, was not woken before and has not been asked to
stop; or nothing happens. -/
theorem rouse_cases (w : World) (r : SchedulerRef) :
    w.rouse r = w ∨
      ∃ loop, (w.scheduler r).driver = .waiting loop ∧ loop.roused = none ∧
        (w.scheduler r).shutdown ≠ some true ∧ loop.source.ready w.feeds w.clock = true ∧
        w.rouse r = w.setScheduler r
          { w.scheduler r with driver := .waiting { loop with roused := some w.clock } } := by
  unfold rouse
  dsimp only
  split
  · next loop waiting =>
    split
    · next wakes =>
      simp only [Bool.and_eq_true, Option.isNone_iff_eq_none, bne_iff_ne] at wakes
      exact .inr ⟨loop, waiting, wakes.1.1, wakes.1.2, wakes.2, rfl⟩
    · exact .inl rfl
  · exact .inl rfl

theorem quiet_rouse (w : World) {r k : SchedulerRef}
    (woken : k = r → ∀ loop, loop.source.ready w.feeds w.clock = true → may.wakes loop w.clock) :
    Quiet may (w.scheduler k) ((w.rouse r).scheduler k) := by
  obtain same | ⟨loop, waiting, fresh, unasked, ready, wakes⟩ := w.rouse_cases r
  · rw [same]
    exact .same _
  · rw [wakes]
    exact quiet_setScheduler fun here => .roused _ waiting fresh unasked (woken here loop ready)

@[simp] theorem forest_rouse (w : World) (r : SchedulerRef) : (w.rouse r).forest = w.forest := by
  obtain same | ⟨loop, -, -, -, -, wakes⟩ := w.rouse_cases r
  · rw [same]
  · rw [wakes, forest_setScheduler]

theorem quiet_setFrameDelay (w : World) (r : SchedulerRef) (d : Duration) (k : SchedulerRef) :
    Quiet may (w.scheduler k) ((w.setFrameDelay r d).scheduler k) :=
  quiet_setScheduler fun _ => .paced (w.scheduler r) d

/-- Letting go releases schedulers without a driver only. -/
theorem quiet_sweep (w : World) (h : Holdings) (k : SchedulerRef) :
    Quiet may (w.scheduler k) ((w.sweep h).scheduler k) := by
  have place : (w.sweep h).schedulers = (w.releaseEngines h).schedulers.mapIdx fun r s =>
      if (w.releaseEngines h).schedulerLives h r then s else s.release := rfl
  by_cases hk : k < w.schedulers.length
  · have found : (w.sweep h).scheduler k =
        if (w.releaseEngines h).schedulerLives h k then w.scheduler k
        else (w.scheduler k).release := by
      have same : (w.releaseEngines h).schedulers = w.schedulers := rfl
      simp only [scheduler, place, List.getD_eq_getElem?_getD, List.getElem?_mapIdx, same,
        List.getElem?_eq_getElem hk, Option.map_some, Option.getD_some]
    rw [found]
    split
    · exact .same _
    · next dead =>
      refine .released _ ?_
      simp only [schedulerLives, Bool.or_eq_true, not_or, Bool.not_eq_true] at dead
      exact dead.1.2
  · rw [scheduler_of_length_le (Nat.le_of_not_lt hk), scheduler_of_length_le]
    · exact .same _
    · simpa [place, releaseEngines] using hk

/-! ## The operations on engines

Each of them does to the schedulers what at most one operation on them does. -/

theorem quiet_stopScheduler (w : World) (c : CallRef) (e : EngineRef) (stage : Engine.Stage)
    (k : SchedulerRef) :
    Quiet may (w.scheduler k) ((w.stopScheduler c e stage).2.scheduler k) := by
  have quiet : Quiet may (w.scheduler k) _ :=
    quiet_stop (w.setStage c stage) (w.engine e).scheduler k
  unfold stopScheduler
  dsimp only
  split
  · exact quiet
  · rw [scheduler_congr (schedulers_schedulerEnded _ c)]; exact quiet

@[simp] theorem forest_stopScheduler (w : World) (c : CallRef) (e : EngineRef)
    (stage : Engine.Stage) : (w.stopScheduler c e stage).2.forest = w.forest := by
  unfold stopScheduler
  dsimp only
  split <;> simp

theorem quiet_stopNext (w : World) (c : CallRef) (e : EngineRef) (services : List Service)
    (k : SchedulerRef) :
    Quiet may (w.scheduler k) ((w.stopNext c e services).2.scheduler k) := by
  cases services with
  | nil => exact quiet_stopScheduler w c e .draining k
  | cons s rest => exact .same _

@[simp] theorem forest_stopNext (w : World) (c : CallRef) (e : EngineRef)
    (services : List Service) : (w.stopNext c e services).2.forest = w.forest := by
  cases services with
  | nil => exact forest_stopScheduler w c e .draining
  | cons s rest => rfl

theorem quiet_serviceStarted (w : World) (e : EngineRef) (s : Service) {job : Option JobRef}
    {k : SchedulerRef} (brought : k = (w.engine e).scheduler → ∀ j ∈ job, may.jobs j) :
    Quiet may (w.scheduler k) ((w.serviceStarted e s job).scheduler k) := by
  cases job with
  | none => exact .same _
  | some j => exact quiet_schedule w fun here => brought here j rfl

@[simp] theorem forest_serviceStarted (w : World) (e : EngineRef) (s : Service)
    (job : Option JobRef) : (w.serviceStarted e s job).forest = w.forest := by
  cases job with
  | none => rfl
  | some j => exact forest_schedule w (w.engine e).scheduler j

/-- The engine on which a call runs a start hook, if that is what it does. -/
def starting? (w : World) (c : CallRef) : Option EngineRef :=
  match w.call? c with
  | some ⟨_, e, .loading _⟩ | some ⟨_, e, .starting (_ :: _)⟩ => some e
  | _ => none

theorem quiet_hookReturned (w : World) (c : CallRef) {result : HookResult} {k : SchedulerRef}
    (brought : ∀ e, w.starting? c = some e → k = (w.engine e).scheduler →
      ∀ j ∈ result.job?, may.jobs j) :
    Quiet may (w.scheduler k) ((w.hookReturned c result).2.scheduler k) := by
  unfold hookReturned
  split
  · next call =>
    have starts := brought _ (by rw [starting?, call])
    split
    · next s _ _ => exact quiet_serviceStarted w _ s starts
    · exact .same _
  · next call =>
    have starts := brought _ (by rw [starting?, call])
    split
    · rw [scheduler_congr (schedulers_startNext _ _ _ _)]
      exact quiet_serviceStarted w _ _ starts
    · exact quiet_stopScheduler (w.tell _) _ _ _ k
  · split
    · exact quiet_stopNext w _ _ _ k
    · exact quiet_stopNext (w.tell _) _ _ _ k
  · exact .same _

@[simp] theorem forest_hookReturned (w : World) (c : CallRef) (result : HookResult) :
    (w.hookReturned c result).2.forest = w.forest := by
  unfold hookReturned
  split
  · split <;> simp
  · split <;> simp
  · split <;> simp
  · rfl

@[simp] theorem schedulers_load (w : World) (e : EngineRef) (s : Service) :
    (w.load e s).2.schedulers = w.schedulers := by
  unfold load
  split
  · rfl
  · dsimp only
    split <;> rfl

@[simp] theorem forest_load (w : World) (e : EngineRef) (s : Service) :
    (w.load e s).2.forest = w.forest := by
  unfold load
  split
  · rfl
  · dsimp only
    split <;> rfl

theorem quiet_startEngine (w : World) (e : EngineRef) {source : Source} {k : SchedulerRef}
    (brought : k = (w.engine e).scheduler → may.sources source) :
    Quiet may (w.scheduler k) ((w.startEngine e source).2.scheduler k) := by
  have quiet := quiet_start w brought
  unfold startEngine
  split
  · next h => rw [h] at quiet; exact quiet
  · next h =>
    rw [h] at quiet
    dsimp only
    rw [scheduler_congr (schedulers_startNext _ _ _ _)]
    exact quiet

@[simp] theorem forest_startEngine (w : World) (e : EngineRef) (source : Source) :
    (w.startEngine e source).2.forest = w.forest := by
  have same := forest_start w (w.engine e).scheduler source
  unfold startEngine
  split
  · next h => rw [h] at same; exact same
  · next h =>
    rw [h] at same
    simpa using same

theorem quiet_stopEngine (w : World) (e : EngineRef) (k : SchedulerRef) :
    Quiet may (w.scheduler k) ((w.stopEngine e).2.scheduler k) :=
  quiet_stopNext (w.openCall e (.stopping (w.engine e).services.reverse)).2 _ e _ k

@[simp] theorem forest_stopEngine (w : World) (e : EngineRef) :
    (w.stopEngine e).2.forest = w.forest :=
  forest_stopNext (w.openCall e (.stopping (w.engine e).services.reverse)).2 _ e _

/-! ## The driver -/

/-- The move that a driver makes when it looks up. -/
def lookUp (w : World) (r : SchedulerRef) : Scheduler.Move :=
  match (w.scheduler r).driver with
  | .waiting loop =>
    if (w.scheduler r).seesStop loop then
      { scheduler := ((w.scheduler r).finish .stopped).1
        notices := ((w.scheduler r).finish .stopped).2 }
    else
      (w.scheduler r).wake loop (loop.source.next w.feeds (loop.askedAt w.clock)).1
        (loop.source.next w.feeds (loop.askedAt w.clock)).2.1 w.clock
  | _ => { scheduler := w.scheduler r }

/-- The move that a driver makes when a step has returned. -/
def settle (w : World) (r : SchedulerRef) (j : JobRef) (v : Verdict) : Scheduler.Move :=
  ((w.scheduler r).returned w.forest j v w.clock).1

/-- The feeds after the source of a loop has been asked, if looking up asks it. -/
def drawn (w : World) (r : SchedulerRef) : List Feed :=
  match (w.scheduler r).driver with
  | .waiting loop =>
    if (w.scheduler r).seesStop loop then w.feeds
    else (loop.source.next w.feeds (loop.askedAt w.clock)).2.2
  | .absent | .ticking .. | .ended => w.feeds

/-- A driver that waits makes its move, after the source has been asked. -/
theorem poll_of_waiting {w : World} {r : SchedulerRef} {loop : Loop}
    (h : (w.scheduler r).driver = .waiting loop) :
    w.poll r = { w with feeds := w.drawn r }.applyMove r (w.lookUp r) := by
  cases asked : (w.scheduler r).seesStop loop with
  | true => simp only [poll, lookUp, drawn, h, asked, if_true]
  | false => simp only [poll, lookUp, drawn, h, asked, Bool.false_eq_true, if_false]

/-- Where there is no driver between two ticks nothing happens. -/
theorem poll_cases (w : World) (r : SchedulerRef) :
    w.poll r = { w with feeds := w.drawn r }.applyMove r (w.lookUp r) ∨
      (w.poll r = ([], w) ∧ w.lookUp r = { scheduler := w.scheduler r }) := by
  cases h : (w.scheduler r).driver with
  | waiting loop => exact .inl (poll_of_waiting h)
  | absent | ticking _ _ | ended => exact .inr (by simp only [poll, lookUp, h, and_self])

theorem launched_poll (w : World) (r : SchedulerRef) : (w.poll r).1 = (w.lookUp r).launched := by
  obtain h | ⟨h, still⟩ := w.poll_cases r
  · rw [h]; rfl
  · rw [h, still]

theorem scheduler_poll {w : World} {r : SchedulerRef} (h : r < w.schedulers.length) :
    (w.poll r).2.scheduler r = (w.lookUp r).scheduler := by
  obtain move | ⟨move, still⟩ := w.poll_cases r
  · rw [move]; exact scheduler_setScheduler_self _ h
  · rw [move, still]

theorem scheduler_poll_ne (w : World) {r k : SchedulerRef} (h : k ≠ r) :
    (w.poll r).2.scheduler k = w.scheduler k := by
  obtain move | ⟨move, -⟩ := w.poll_cases r
  · rw [move]; exact scheduler_setScheduler_ne _ h
  · rw [move]

theorem step_poll {w : World} {r : SchedulerRef} (active : (w.scheduler r).driver.isActive = true) :
    w.step (.poll r) = w.poll r :=
  if_pos (decide_eq_true (length_of_active active))

@[simp] theorem forest_poll (w : World) (r : SchedulerRef) : (w.poll r).2.forest = w.forest := by
  obtain move | ⟨move, -⟩ := w.poll_cases r
  · rw [move]; exact forest_setScheduler _ r _
  · rw [move]

theorem launched_returned (w : World) (r : SchedulerRef) (j : JobRef) (v : Verdict) :
    (w.returned r j v).1 = (w.settle r j v).launched := rfl

theorem scheduler_returned {w : World} {r : SchedulerRef} (j : JobRef) (v : Verdict)
    (h : r < w.schedulers.length) :
    (w.returned r j v).2.scheduler r = (w.settle r j v).scheduler :=
  scheduler_setScheduler_self _ h

theorem scheduler_returned_ne (w : World) {r k : SchedulerRef} (j : JobRef) (v : Verdict)
    (h : k ≠ r) : (w.returned r j v).2.scheduler k = w.scheduler k :=
  scheduler_setScheduler_ne _ h

theorem forest_returned (w : World) (r : SchedulerRef) (j : JobRef) (v : Verdict) :
    (w.returned r j v).2.forest = ((w.scheduler r).returned w.forest j v w.clock).2 :=
  forest_setScheduler _ r _

theorem notices_returned (w : World) (r : SchedulerRef) (j : JobRef) (v : Verdict) :
    (w.returned r j v).2.notices = w.notices ++ (w.settle r j v).notices := by
  show (World.setScheduler _ _ _).notices ++ _ = _
  rw [notices_setScheduler]
  rfl

/-! ## Every event -/

/-- Whether an event is a move of the driver of a scheduler. -/
def Event.drives (r : SchedulerRef) : Event → Bool
  | .poll k | .returned k _ _ => k == r
  | _ => false

/-- **The job that an event registers with a scheduler**, be it by a call or because a
service brings it along. -/
def registers (w : World) (r : SchedulerRef) : Event → Option JobRef
  | .schedule k j => if r = k then some j else none
  | .hookReturned c result =>
    (w.starting? c).bind fun e => if r = (w.engine e).scheduler then result.job? else none
  | _ => none

/-- **The source on which an event starts a loop.** -/
def starts (w : World) (r : SchedulerRef) : Event → Option Source
  | .start k source => if r = k then some source else none
  | .startEngine e source => if r = (w.engine e).scheduler then some source else none
  | _ => none

/-- What comes to a scheduler with an event: it is there, and it can be given. -/
def intake (w : World) (r : SchedulerRef) (e : Event) : Intake where
  jobs j := w.registers r e = some j ∧ w.forest.has j = true
  sources source := w.starts r e = some source ∧ w.canGive source = true
  wakes loop now := e = .rouse r ∧ now = w.clock ∧ loop.source.ready w.feeds now = true

/-- **An event that is no move of its driver changes a scheduler quietly.** -/
theorem quiet_step (w : World) {e : Event} {r : SchedulerRef} (h : e.drives r = false) :
    Quiet (w.intake r e) (w.scheduler r) ((w.step e).2.scheduler r) := by
  unfold step
  split
  · next can =>
    cases e with
    | newScheduler loopId frameDelay wakeup => exact quiet_newScheduler w loopId frameDelay wakeup r
    | schedule k j =>
      simp only [Event.canHappen, Bool.and_eq_true] at can
      exact quiet_schedule w fun here => ⟨if_pos here, can.2⟩
    | unschedule id k j => exact quiet_unschedule w id k j r
    | setFrameDelay k d => exact quiet_setFrameDelay w k d r
    | start k source =>
      simp only [Event.canHappen, Bool.and_eq_true] at can
      exact quiet_start w fun here => ⟨if_pos here, can.2⟩
    | signalStop k => exact quiet_signalStop w k r
    | stop k => exact quiet_stop w k r
    | rouse k => exact quiet_rouse w fun here loop ready => ⟨here ▸ rfl, rfl, ready⟩
    | poll k =>
      have other : r ≠ k := fun same => by simp [Event.drives, same] at h
      rw [act, scheduler_poll_ne w other]
      exact .same _
    | returned k j v =>
      have other : r ≠ k := fun same => by simp [Event.drives, same] at h
      rw [act, scheduler_returned_ne w j v other]
      exact .same _
    | attach p c => unfold act attach; dsimp only; split <;> exact .same _
    | load e s => rw [act, scheduler_congr (schedulers_load w e s)]; exact .same _
    | startEngine e source =>
      simp only [Event.canHappen, Bool.and_eq_true] at can
      exact quiet_startEngine w e fun here => ⟨if_pos here, can.2⟩
    | stopEngine e => exact quiet_stopEngine w e r
    | hookReturned c result =>
      simp only [Event.canHappen, Bool.and_eq_true] at can
      refine quiet_hookReturned w c fun e call here j job => ⟨?_, ?_⟩
      · rw [registers, call, Option.bind_some, if_pos here]
        exact job
      · exact (Option.all_eq_true _ _).1 can.2 j job
    | schedulerEnded c =>
      rw [act, scheduler_congr (schedulers_schedulerEnded w c)]
      exact .same _
    | sweep held => exact quiet_sweep w held r
    | newJob | eraseChild | newFeed | fire | addTrigger | dropTrigger | newEngine | hookPanicked
    | pass | tell | readLog => exact .same _
  · exact .same _

/-- **The scheduler after an event**: it has changed quietly, or its driver has
looked up, or a step has been reported to its driver. Nothing moves the driver
of a scheduler that is not there. -/
theorem step_cases (w : World) (e : Event) (r : SchedulerRef) :
    (Quiet (w.intake r e) (w.scheduler r) ((w.step e).2.scheduler r) ∧
        (e.drives r = true → w.scheduler r = default ∧ w.step e = ([], w))) ∨
      (e = .poll r ∧ w.step e = w.poll r ∧
        (w.poll r).2.scheduler r = (w.lookUp r).scheduler) ∨
      ∃ j v, e = .returned r j v ∧ w.step e = w.returned r j v ∧
        (w.returned r j v).2.scheduler r = (w.settle r j v).scheduler := by
  cases driven : e.drives r with
  | false => exact .inl ⟨w.quiet_step driven, fun h => absurd h Bool.false_ne_true⟩
  | true =>
    by_cases here : r < w.schedulers.length
    · have can (h : e.canHappen w = decide (r < w.schedulers.length)) : w.step e = w.act e :=
        if_pos (by simp [h, here])
      cases e with
      | poll k =>
        obtain rfl : k = r := by simpa [Event.drives] using driven
        exact .inr (.inl ⟨rfl, can rfl, scheduler_poll here⟩)
      | returned k j v =>
        obtain rfl : k = r := by simpa [Event.drives] using driven
        exact .inr (.inr ⟨j, v, rfl, can rfl, scheduler_returned j v here⟩)
      | _ => simp [Event.drives] at driven
    · have absent : w.step e = ([], w) := by
        refine if_neg ?_
        cases e with
        | poll k =>
          obtain rfl : k = r := by simpa [Event.drives] using driven
          simpa [Event.canHappen] using here
        | returned k j v =>
          obtain rfl : k = r := by simpa [Event.drives] using driven
          simpa [Event.canHappen] using here
        | _ => simp [Event.drives] at driven
      rw [absent]
      exact .inl ⟨.same _, fun _ => ⟨scheduler_of_length_le (Nat.le_of_not_lt here), rfl⟩⟩

/-- **Every event changes the forest in one of the ways there are**, or lets go
of jobs. -/
theorem forest_step (w : World) {e : Event} (h : ∀ held, e ≠ .sweep held) :
    Forest.Change (fun p c => e = .attach p c) w.forest (w.step e).2.forest := by
  unfold step
  split
  · next can =>
    cases e with
    | newJob name => exact .created w.forest name
    | attach p c =>
      simp only [Event.canHappen, Bool.and_eq_true] at can
      unfold act attach
      dsimp only
      split
      · next h => exact .attached rfl can.1 can.2 h
      · exact .same _
    | eraseChild p c => exact .erased w.forest p c
    | schedule r j => rw [act, forest_schedule]; exact .same _
    | unschedule id r j =>
      unfold act unschedule
      dsimp only
      split
      · exact (w.scheduler r).forest_remove w.forest j
      · exact .same _
    | setFrameDelay r d => rw [act, setFrameDelay, forest_setScheduler]; exact .same _
    | start r source => rw [act, forest_start]; exact .same _
    | signalStop r => rw [act, forest_signalStop]; exact .same _
    | stop r => rw [act, forest_stop]; exact .same _
    | rouse r => rw [act, forest_rouse]; exact .same _
    | poll r => rw [act, forest_poll]; exact .same _
    | returned r j v =>
      rw [act, forest_returned]
      unfold Scheduler.returned
      split
      · split
        · dsimp only
          split
          · exact (w.scheduler r).forest_remove w.forest j
          · exact .same _
        · exact .same _
      · exact .same _
    | load e s => rw [act, forest_load]; exact .same _
    | startEngine e source => rw [act, forest_startEngine]; exact .same _
    | stopEngine e => rw [act, forest_stopEngine]; exact .same _
    | hookReturned c result => rw [act, forest_hookReturned]; exact .same _
    | schedulerEnded c => rw [act, forest_schedulerEnded]; exact .same _
    | sweep held => exact absurd rfl (h held)
    | newFeed | fire | addTrigger | dropTrigger | newScheduler | newEngine | hookPanicked
    | pass | tell | readLog => exact .same _
  · exact .same _

/-! ## Starting -/

section Start

variable {w : World} {r : SchedulerRef}

/-- The world once somebody has let go of a source. -/
def dropSource (w : World) (source : Source) : World :=
  match source.feed? with
  | some q => w.closeFeed q
  | none => w

@[simp] theorem schedulers_dropSource (w : World) (source : Source) :
    (w.dropSource source).schedulers = w.schedulers := by
  unfold dropSource
  split <;> rfl

@[simp] theorem forest_dropSource (w : World) (source : Source) :
    (w.dropSource source).forest = w.forest := by
  unfold dropSource
  split <;> rfl

/-- **An idle scheduler starts** on the source that it is given. -/
theorem starts_of_idle (idle : (w.scheduler r).state = .idle) (source : Source) :
    w.start r source =
      (.ok (),
        (w.setScheduler r
          { w.scheduler r with
            state := .running
            shutdown := some false
            driver := .waiting { source } }).tell
          [.schedulerStarted (w.scheduler r).frameDelay (w.scheduler r).registry.length]) := by
  unfold start Scheduler.start
  dsimp only
  rw [if_pos idle]

/-- **A scheduler that has left the idle state is not started again.** The source is let
go of, and that is all. -/
theorem start_of_busy (busy : (w.scheduler r).state ≠ .idle) (source : Source) :
    w.start r source = (.error .alreadyStarted, w.dropSource source) := by
  unfold start Scheduler.start
  dsimp only
  rw [if_neg busy]
  rfl

/-- Nor is it by way of an engine. -/
theorem startEngine_of_busy {e : EngineRef}
    (busy : (w.scheduler (w.engine e).scheduler).state ≠ .idle) (source : Source) :
    w.startEngine e source =
      (.done (.failed (.scheduler .alreadyStarted)), w.dropSource source) := by
  rw [startEngine, start_of_busy busy]

end Start

/-! ## How many schedulers there are -/

section Length

variable (w : World)

@[simp] theorem length_setScheduler (r : SchedulerRef) (s : Scheduler) :
    (w.setScheduler r s).schedulers.length = w.schedulers.length := by
  rw [schedulers_setScheduler, List.length_set]

@[simp] theorem length_schedule (r : SchedulerRef) (j : JobRef) :
    (w.schedule r j).2.schedulers.length = w.schedulers.length := by
  unfold schedule
  dsimp only
  split <;> simp

@[simp] theorem length_unschedule (id : JobId) (r : SchedulerRef) (j : JobRef) :
    (w.unschedule id r j).2.schedulers.length = w.schedulers.length := by
  unfold unschedule
  dsimp only
  split <;> simp

@[simp] theorem length_start (r : SchedulerRef) (source : Source) :
    (w.start r source).2.schedulers.length = w.schedulers.length := by
  unfold start
  dsimp only
  split
  · simp
  · split <;> rfl

@[simp] theorem length_stop (r : SchedulerRef) :
    (w.stop r).2.schedulers.length = w.schedulers.length := by
  unfold stop
  dsimp only
  split <;> simp

@[simp] theorem length_rouse (r : SchedulerRef) :
    (w.rouse r).schedulers.length = w.schedulers.length := by
  obtain same | ⟨loop, -, -, -, -, wakes⟩ := w.rouse_cases r
  · rw [same]
  · rw [wakes, length_setScheduler]

@[simp] theorem length_poll (r : SchedulerRef) :
    (w.poll r).2.schedulers.length = w.schedulers.length := by
  obtain move | ⟨move, -⟩ := w.poll_cases r
  · rw [move]
    exact length_setScheduler _ r _
  · rw [move]

@[simp] theorem length_stopScheduler (c : CallRef) (e : EngineRef) (stage : Engine.Stage) :
    (w.stopScheduler c e stage).2.schedulers.length = w.schedulers.length := by
  unfold stopScheduler
  dsimp only
  split <;> simp

@[simp] theorem length_stopNext (c : CallRef) (e : EngineRef) (services : List Service) :
    (w.stopNext c e services).2.schedulers.length = w.schedulers.length := by
  cases services with
  | nil => exact w.length_stopScheduler c e .draining
  | cons s rest => rfl

@[simp] theorem length_serviceStarted (e : EngineRef) (s : Service) (job : Option JobRef) :
    (w.serviceStarted e s job).schedulers.length = w.schedulers.length := by
  cases job with
  | none => rfl
  | some j => exact w.length_schedule _ j

@[simp] theorem length_hookReturned (c : CallRef) (result : HookResult) :
    (w.hookReturned c result).2.schedulers.length = w.schedulers.length := by
  unfold hookReturned
  split
  · split <;> simp
  · split <;> simp
  · split <;> simp
  · rfl

@[simp] theorem length_startEngine (e : EngineRef) (source : Source) :
    (w.startEngine e source).2.schedulers.length = w.schedulers.length := by
  have same := w.length_start (w.engine e).scheduler source
  unfold startEngine
  split
  · next h => rw [h] at same; exact same
  · next h => rw [h] at same; simpa using same

@[simp] theorem length_stopEngine (e : EngineRef) :
    (w.stopEngine e).2.schedulers.length = w.schedulers.length :=
  length_stopNext (w.openCall e (.stopping (w.engine e).services.reverse)).2 _ e _

/-- **No scheduler loses its number.** -/
theorem length_step (d : Event) : w.schedulers.length ≤ (w.step d).2.schedulers.length := by
  unfold step
  split
  · cases d with
    | newScheduler loopId frameDelay wakeup => simp [act, newScheduler]
    | sweep held => simp [act, sweep, releaseSchedulers, releaseEngines]
    | attach p c => unfold act attach; dsimp only; split <;> exact Nat.le_refl _
    | schedule r j => simp [act]
    | unschedule id r j => simp [act]
    | setFrameDelay r d => simp [act, setFrameDelay]
    | start r source => simp [act]
    | signalStop r => simp [act, signalStop]
    | stop r => simp [act]
    | rouse r => simp [act]
    | poll r => simp [act]
    | returned r j v => simp [act, returned, applyMove]
    | load e s => simp [act]
    | startEngine e source => simp [act]
    | stopEngine e => simp [act]
    | hookReturned c result => simp [act]
    | schedulerEnded c => simp [act]
    | newJob | eraseChild | newFeed | fire | addTrigger | dropTrigger | newEngine | hookPanicked
    | pass | tell | readLog => exact Nat.le_refl _
  · exact Nat.le_refl _

end Length

end World

end FrameLoop

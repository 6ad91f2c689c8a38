import FrameLoop.Proofs.Engine.Account

/-!
# What a running engine has started

An engine counts as running when all its services have been started, and a service that is
loaded into a running engine is started before the load returns. `running_started` says how
far this goes: in a running engine every service of which a load has returned has been
started, and its job has been offered to the scheduler, unless it came late. Then nothing
ever starts it: `late_never_started` has such a service in a running engine.

**What this does not say.** That a service is started says nothing of what became of it
later; its stop hook may have run.
-/

namespace FrameLoop

namespace World

open Engine (Call Stage)

variable {w : World} {es : List Event} {e : EngineRef} {c : CallRef} {s : Service}

/-- **A job has been offered to a scheduler**: it is registered, unless the scheduler has ended
and registers nothing any more. -/
def Offered (w : World) (r : SchedulerRef) (j : JobRef) : Prop :=
  j ∈ (w.scheduler r).registry ∨ (w.scheduler r).state.isTerminal = true

/-- A scheduler that has not ended registers a job. -/
theorem mem_registry_schedule {r : SchedulerRef} (j : JobRef) (here : r < w.schedulers.length)
    (live : ¬ (w.scheduler r).state.isTerminal = true) :
    j ∈ ((w.schedule r j).2.scheduler r).registry := by
  unfold World.schedule
  dsimp only
  rw [if_neg live, scheduler_tell, scheduler_setScheduler_self _ here, Scheduler.schedule]
  split
  · next refused => exact refused.resolve_left live
  · exact List.mem_append_right _ (List.mem_singleton_self j)

theorem offered_schedule {r : SchedulerRef} (j : JobRef) (here : r < w.schedulers.length) :
    Offered (w.schedule r j).2 r j := by
  by_cases ended : (w.scheduler r).state.isTerminal = true
  · refine .inr ?_
    unfold World.schedule
    dsimp only
    rwa [if_pos ended]
  · exact .inl (mem_registry_schedule j here ended)

/-- **The job that a service contributes is offered** when its start hook returns. -/
theorem offered_hookReturned {j : JobRef} (numbered : w.Numbered) (runs : w.RunsStart e c s)
    (here : (w.engine e).scheduler < w.schedulers.length) :
    Offered (w.hookReturned c (.ok (some j))).2 (w.engine e).scheduler j := by
  have offered : Offered (w.serviceStarted e s (some j)) (w.engine e).scheduler j :=
    offered_schedule j here
  unfold World.hookReturned
  rcases runs with known | ⟨rest, known⟩
  · rw [show w.call? c = some ⟨c, e, .loading s⟩ from numbered.call? known]
    exact offered
  · rw [show w.call? c = some ⟨c, e, .starting (s :: rest)⟩ from numbered.call? known]
    rwa [Offered, scheduler_congr (schedulers_startNext _ _ _ _)]

/-- **A running engine has started its services.** If a load of a service has returned `Ok`, and
the service did not come late, then its start hook has returned `Ok`, and the job that it
contributes was offered to the scheduler of the engine. -/
theorem running_started (running : ((run es).engine e).state = .running)
    (loaded : Loaded e s es) (intime : ¬ CameLate e s es) :
    ∃ pre c job post, es = pre ++ .hookReturned c (.ok job) :: post ∧
      (Event.hookReturned c (.ok job)).canHappen (run pre) = true ∧ (run pre).RunsStart e c s ∧
      ∀ j ∈ job, Offered (run (pre ++ [.hookReturned c (.ok job)]))
        ((run pre).engine e).scheduler j := by
  have started := ((accounted_run es e).complete running s loaded).resolve_right intime
  obtain ⟨pre, d, post, rfl, can, c, job, rfl, runs⟩ := started
  refine ⟨pre, c, job, post, rfl, can, runs, ?_⟩
  rintro j rfl
  have numbered := numbered_run pre
  obtain ⟨stage, known⟩ : ∃ stage, ⟨c, e, stage⟩ ∈ (run pre).calls :=
    runs.elim (fun h => ⟨_, h⟩) fun ⟨_, h⟩ => ⟨_, h⟩
  have here := home_of_lt (numbered.engine _ known)
  rw [run_concat_of_canHappen can]
  exact offered_hookReturned numbered runs here

/-- A service that contributes a job. -/
def firstService : Service := { tag := 0, kind := 0, name := "first" }

/-- A service of another kind. -/
def secondService : Service := { tag := 1, kind := 1, name := "second" }

/-- The second service is loaded while the start of the engine waits for the hook of the
first. -/
def lateRun : List Event :=
  [.newJob "work", .newScheduler ⟨"loop"⟩ .zero .zero, .newEngine 0, .load 0 firstService,
    .startEngine 0 (.script []), .load 0 secondService, .hookReturned 0 (.ok (some 0))]

/-- The service that was there when the start began has been started. -/
theorem running_started_of_lateRun :
    ((run lateRun).engine 0).state = .running ∧ Loaded 0 firstService lateRun ∧
      ¬ CameLate 0 firstService lateRun ∧
      ∃ pre c job post, lateRun = pre ++ .hookReturned c (.ok job) :: post ∧
        (Event.hookReturned c (.ok job)).canHappen (run pre) = true ∧
        (run pre).RunsStart 0 c firstService ∧
        ∀ j ∈ job, Offered (run (pre ++ [.hookReturned c (.ok job)]))
          ((run pre).engine 0).scheduler j := by
  have loaded : Loaded 0 firstService lateRun :=
    ⟨lateRun.take 3, .load 0 firstService, lateRun.drop 4, rfl, by decide, 0, ⟨rfl, rfl⟩,
      .inl rfl⟩
  have intime : ¬ CameLate 0 firstService lateRun := by
    simp only [CameLate, lateRun, happened_cons, not_happened_nil, or_false, ComesLate,
      reduceCtorEq, false_and, and_false, false_or]
    rintro (⟨-, -, -, c, services, known⟩ | ⟨-, same, -⟩)
    · exact absurd known List.not_mem_nil
    · simp [firstService, secondService] at same
  exact ⟨rfl, loaded, intime, running_started rfl loaded intime⟩

/-- **The service that came late is registered with a running engine and has not been started**,
although its load has returned `Ok`. -/
theorem late_never_started :
    ((run lateRun).engine 0).state = .running ∧
      secondService ∈ ((run lateRun).engine 0).services ∧ Loaded 0 secondService lateRun ∧
      ¬ Started 0 secondService lateRun := by
  refine ⟨rfl, by decide, ?_, ?_⟩
  · exact ⟨lateRun.take 5, .load 0 secondService, lateRun.drop 6, rfl, by decide, 1, ⟨rfl, rfl⟩,
      .inl rfl⟩
  · simp only [Started, lateRun, happened_cons, not_happened_nil, or_false, StartOk, reduceCtorEq,
      false_and, and_false, false_or, exists_false]
    have only {c : CallRef} {stage : Stage}
        (known : ⟨c, 0, stage⟩ ∈ (run (lateRun.take 6)).calls) : stage = .starting [firstService] :=
      congrArg Call.stage (List.mem_singleton.1 known)
    rintro ⟨-, c, job, same, known | ⟨rest, known⟩⟩
    · cases only known
    · simpa [firstService, secondService] using only known

end World

end FrameLoop

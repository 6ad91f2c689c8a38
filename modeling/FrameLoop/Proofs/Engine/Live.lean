import FrameLoop.Proofs.Engine.Started
import FrameLoop.Proofs.Engine.Teardown

/-!
# Whether a running engine has a live scheduler

An engine keeps its own mark of whether it runs and does not look at its scheduler again. So
the mark says that the scheduler has been started, and nothing of what became of it since: the
scheduler may have ended by a fault, with its source, or because somebody has stopped it
directly. `running_unless_ended` says what the mark is good for, and what becomes of the job of a
service that is loaded: it is registered if the scheduler lives when the start hook returns.
`running_without_scheduler` is a running engine whose scheduler has ended. A load into it
returns `Ok` and its job is nowhere.

**What this does not say.** A job that is registered when the load returns may be taken out
again, and the scheduler may end right after.
-/

namespace FrameLoop

namespace World

open Engine (Call Progress Result Stage)

variable {w : World} {es : List Event} {e : EngineRef} {c : CallRef} {s : Service} {j : JobRef}

/-- A scheduler that has been started lives or has ended. -/
theorem lives_or_ended {r : SchedulerRef} (sound : (w.scheduler r).Sound)
    (busy : (w.scheduler r).state ≠ .idle) :
    w.Lives r ∨ (w.scheduler r).state.isTerminal = true := by
  by_cases lives : w.Lives r
  · exact .inl lives
  · exact .inr (terminal_of_not_lives sound busy (.inl lives))

/-- A scheduler that lives has not ended. -/
theorem not_terminal_of_lives {r : SchedulerRef} (lives : w.Lives r) :
    (w.scheduler r).state.isTerminal = false := by
  rcases lives with state | state
  · rw [state]
    rfl
  · rw [state]
    rfl

/-- **The job of a service that is loaded** is offered to the scheduler, and that is all. -/
theorem hookReturned_of_loaded (numbered : w.Numbered) (call : ⟨c, e, .loading s⟩ ∈ w.calls)
    (can : (Event.hookReturned c (.ok (some j))).canHappen w = true) :
    w.Told e c (.done (.loaded s.name)) (.hookReturned c (.ok (some j))) ∧
      (w.step (.hookReturned c (.ok (some j)))).2.schedulers =
        (w.schedule (w.engine e).scheduler j).2.schedulers := by
  have found : w.call? c = some ⟨c, e, .loading s⟩ := numbered.call? call
  have progress : w.progress (.hookReturned c (.ok (some j))) =
      some (w.hookReturned c (.ok (some j))).1 := if_pos can
  have stepped : (w.step (.hookReturned c (.ok (some j)))).2 =
      (w.hookReturned c (.ok (some j))).2 := congrArg Prod.snd (if_pos can)
  rw [World.hookReturned, found] at progress stepped
  refine ⟨⟨?_, progress⟩, ?_⟩
  · rw [party?, found]
    rfl
  · rw [stepped]
    rfl

/-- **Only a stop that returns makes a running engine stop.** -/
theorem Conducts.still_running {before after : Option Stage} {g : Engine} {p : Progress}
    {d : Event} (h : w.Conducts e c d before after g p)
    (running : (w.engine e).state = .running) : g.state = .running ∨ p = .done .stopped := by
  have winds {stage : Stage} (next : w.Winds (w.engine e) c stage after g p) :
      g.state = .running ∨ p = .done .stopped := by
    cases next with
    | waits | abandoned => exact .inl running
    | drained => exact .inr rfl
  cases h with
  | registers accepts | loads accepts =>
    exact .inl ((Engine.accept_some accepts).state.trans running)
  | begins _ next | started _ next =>
    obtain ⟨_, _, -, -, rfl, -⟩ | ⟨-, -, rfl, -⟩ := next.inversion
    · exact .inl running
    · exact .inl rfl
  | loaded | drops | abandoned => exact .inl running
  | abandons _ next => exact winds next
  | stops next | stopped _ next =>
    obtain ⟨_, _, -, -, rfl, -⟩ | ⟨-, next⟩ := next.inversion
    · exact .inl running
    · exact winds next
  | drained => exact .inr rfl

/-- A running engine goes on running until a stop of it returns. -/
theorem running_run (es more : List Event) (running : ((run es).engine e).state = .running) :
    ((run (es ++ more)).engine e).state = .running ∨
      ∃ c, Happened (run es) (StopReturns e c) more := by
  induction more using List.reverseRecOn with
  | nil => exact .inl (by rwa [List.append_nil])
  | append_singleton more d ih =>
    rcases ih with still | ⟨c, stopped⟩
    · have on := on_step (es ++ more) d e
      rw [← run_concat, List.append_assoc] at on
      cases on with
      | apart engine | released engine => exact .inl (by rw [engine, still])
      | made r absent =>
        have unknown : (run (es ++ more)).engine e = default := by simp [World.engine, absent]
        rw [unknown] at still
        cases still
      | @conducted c _ _ _ _ told conducts engine =>
        rcases conducts.still_running still with runs | rfl
        · exact .inl (engine ▸ runs)
        · exact .inr ⟨c, happened_next.2 (.inr ⟨canHappen_of_progress told.progress, told⟩)⟩
    · exact .inr ⟨c, stopped.append [d]⟩

/-- **A running engine has a scheduler that was started**: it lives or it has ended, and if it has
ended, the engine goes on running without it until a stop of the engine returns. A load into a
running engine returns `Ok` when its start hook does. The job that it contributes is then in the
registry if the scheduler lives, and nothing is registered if it has ended. -/
theorem running_unless_ended (es : List Event) (e : EngineRef) :
    (((run es).engine e).state = .running →
      (run es).Lives ((run es).engine e).scheduler ∨
        ((run es).scheduler ((run es).engine e).scheduler).state.isTerminal = true ∧
          ∀ more, (∀ c, ¬ Happened (run es) (StopReturns e c) more) →
            ((run (es ++ more)).engine e).state = .running ∧
              ((run (es ++ more)).scheduler
                ((run (es ++ more)).engine e).scheduler).state.isTerminal = true) ∧
      ∀ c s j, ⟨c, e, .loading s⟩ ∈ (run es).calls →
        (Event.hookReturned c (.ok (some j))).canHappen (run es) = true →
          (run es).Told e c (.done (.loaded s.name)) (.hookReturned c (.ok (some j))) ∧
          ((run es).Lives ((run es).engine e).scheduler →
            j ∈ ((run (es ++ [.hookReturned c (.ok (some j))])).scheduler
              ((run es).engine e).scheduler).registry) ∧
          (¬ (run es).Lives ((run es).engine e).scheduler →
            (run (es ++ [.hookReturned c (.ok (some j))])).schedulers = (run es).schedulers) := by
  have orderly := orderly_run es e
  have sound := sound_run es ((run es).engine e).scheduler
  refine ⟨fun running => ?_, fun c s j call can => ?_⟩
  · refine (lives_or_ended sound fun idle => (orderly.idle idle).1 running).imp_right ?_
    intro ended
    refine ⟨ended, fun more unstopped => ⟨?_, ?_⟩⟩
    · refine (running_run es more running).resolve_right ?_
      rintro ⟨c, stopped⟩
      exact unstopped c stopped
    · have here : e < (run es).engines.length := by
        by_contra absent
        have unknown : (run es).engine e = default := by
          simp [World.engine, Nat.le_of_not_lt absent]
        rw [unknown] at running
        cases running
      rw [(scheduler_run es more here).2, (terminal_run _ es more ended).1]
      exact ended
  · obtain ⟨told, schedulers⟩ := hookReturned_of_loaded (numbered_run es) call can
    have here := home_of_lt ((numbered_run es).engine _ call)
    rw [run_concat]
    refine ⟨told, fun lives => ?_, fun dead => ?_⟩
    · rw [scheduler_congr schedulers]
      refine mem_registry_schedule j here ?_
      rw [not_terminal_of_lives lives]
      exact Bool.false_ne_true
    · have busy : ((run es).scheduler ((run es).engine e).scheduler).state ≠ .idle :=
        fun idle => (orderly.idle idle).2 c _ rfl call
      have terminal := (lives_or_ended sound busy).resolve_left dead
      rw [schedulers]
      exact (schedule_of_terminal terminal j).2

/-- A service with a job is being loaded into a running engine. -/
def loadingRun : List Event :=
  [.newJob "work", .newScheduler ⟨"loop"⟩ .zero .zero, .newEngine 0,
    .startEngine 0 (.script []), .load 0 firstService]

/-- The scheduler lives, and the job is registered when the hook returns. If the source ends
first, the engine goes on running. -/
theorem running_unless_ended_of_loadingRun :
    ((run loadingRun).engine 0).state = .running ∧
      0 ∈ ((run (loadingRun ++ [.hookReturned 1 (.ok (some 0))])).scheduler 0).registry ∧
      ∀ more, (∀ c, ¬ Happened (run (loadingRun ++ [.poll 0])) (StopReturns 0 c) more) →
        ((run (loadingRun ++ [.poll 0] ++ more)).engine 0).state = .running := by
  obtain ⟨-, loads⟩ := running_unless_ended loadingRun 0
  obtain ⟨-, registers, -⟩ := loads 1 firstService 0 (List.mem_singleton_self _) (by decide)
  obtain ⟨runs, -⟩ := running_unless_ended (loadingRun ++ [.poll 0]) 0
  have dead : ¬ (run (loadingRun ++ [.poll 0])).Lives 0 := by
    rintro (state | state)
    · cases state
    · cases state
  refine ⟨rfl, registers (.inl rfl), fun more unstopped => ?_⟩
  exact (((runs rfl).resolve_left dead).2 more unstopped).1

/-- **A running engine whose scheduler has ended** with its source: a service is loaded, the load
returns `Ok`, and its job is not registered. -/
theorem running_without_scheduler :
    ((run (loadingRun ++ [.poll 0])).engine 0).state = .running ∧
      ((run (loadingRun ++ [.poll 0])).scheduler 0).state = .stopped ∧
      (run (loadingRun ++ [.poll 0])).Told 0 1 (.done (.loaded "first"))
        (.hookReturned 1 (.ok (some 0))) ∧
      ((run (loadingRun ++ [.poll 0, .hookReturned 1 (.ok (some 0))])).engine 0).state =
        .running ∧
      ((run (loadingRun ++ [.poll 0, .hookReturned 1 (.ok (some 0))])).scheduler 0).registry = [] :=
  ⟨rfl, rfl, ⟨rfl, rfl⟩, rfl, rfl⟩

end World

end FrameLoop

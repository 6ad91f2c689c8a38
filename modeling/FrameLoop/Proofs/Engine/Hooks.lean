import FrameLoop.Proofs.Engine.Started
import FrameLoop.Proofs.Engine.Teardown
import FrameLoop.Proofs.Engine.Transcript
import FrameLoop.Proofs.Stop

/-!
# The hooks of a start and of a stop

A start runs the start hooks of the services in load order and gives up at the first that
fails; a stop runs all stop hooks in the opposite order, whichever of them fail. This module
follows one such call by its transcript. `StartCame` and `StopCame` say how far the call
has come with that many hooks returned, and `hooks_in_order` that it has come as far as this
at every moment, if no other call on the engine overlaps it. What else goes on is free: ticks
run the jobs of the services that have been started already, and the scheduler may end.

**What this does not say.** A hook may never return, and then its call does not come further.
A hook that panics takes its call with it: nothing more is seen of the call.
-/

namespace FrameLoop

namespace World

open Engine (Call Progress Result Stage)

variable {w w' : World} {pre more es : List Event} {d : Event} {e : EngineRef} {c : CallRef}
  {stage : Stage} {p : Progress}

/-! ## Waiting for the scheduler -/

/-- A scheduler that lives winds down once it has been asked to stop. -/
theorem windsDown_stop {r : SchedulerRef} (lives : w.Lives r) :
    ((w.stop r).2.scheduler r).state.windsDown = true := by
  have here : r < w.schedulers.length := by
    by_contra absent
    rw [Lives, scheduler_of_length_le (Nat.le_of_not_lt absent)] at lives
    rcases lives with idle | idle <;> cases idle
  unfold World.stop
  dsimp only
  rcases lives with running | stopping
  · rw [running]
    dsimp only
    rw [scheduler_tell, scheduler_setScheduler_self _ here, Scheduler.requestStop, if_pos running]
    rfl
  · rw [stopping]
    dsimp only
    rw [scheduler_tell, stopping]
    rfl

/-- A call does not wait for the scheduler again once that has ended. -/
theorem not_awaitEnd_schedulerEnded (w : World) (c k : CallRef) (r : SchedulerRef) :
    (w.schedulerEnded c).1 ≠ .awaitEnd k r := by
  unfold World.schedulerEnded
  split <;> exact Progress.noConfusion

theorem windsDown_stopScheduler {r : SchedulerRef} {k : CallRef}
    (awaits : (w.stopScheduler c e stage).1 = .awaitEnd k r) :
    ((w.stopScheduler c e stage).2.scheduler r).state.windsDown = true := by
  unfold World.stopScheduler at awaits ⊢
  dsimp only at awaits ⊢
  split
  · next waits =>
    rw [if_pos waits] at awaits
    obtain ⟨-, rfl⟩ := Progress.awaitEnd.inj awaits
    exact windsDown_stop ((stop_fst _ _).1 waits)
  · next refuses =>
    rw [if_neg refuses] at awaits
    exact absurd awaits (not_awaitEnd_schedulerEnded _ c k r)

theorem windsDown_stopNext {services : List Service} {r : SchedulerRef} {k : CallRef}
    (awaits : (w.stopNext c e services).1 = .awaitEnd k r) :
    ((w.stopNext c e services).2.scheduler r).state.windsDown = true := by
  cases services with
  | nil => exact windsDown_stopScheduler awaits
  | cons s rest => cases awaits

/-- **A call that has to wait for the scheduler has asked it to stop.** -/
theorem windsDown_hookReturned {r : SchedulerRef} {k : CallRef} {result : HookResult}
    (awaits : (w.hookReturned c result).1 = .awaitEnd k r) :
    ((w.hookReturned c result).2.scheduler r).state.windsDown = true := by
  have starts (u : World) (e : EngineRef) (services : List Service) :
      (u.startNext c e services).1 ≠ .awaitEnd k r := by
    cases services <;> exact Progress.noConfusion
  unfold World.hookReturned at awaits ⊢
  split at awaits
  · split at awaits <;> cases awaits
  · split at awaits
    · exact absurd awaits (starts _ _ _)
    · exact windsDown_stopScheduler awaits
  · split at awaits
    · exact windsDown_stopNext awaits
    · exact windsDown_stopNext awaits
  · cases awaits

/-- The scheduler of an engine has been asked to stop. -/
def Asked (w : World) (e : EngineRef) : Prop :=
  (w.scheduler (w.engine e).scheduler).state.windsDown = true

/-- **The scheduler of an engine has drained**: it is in a final state, and with its driver the
last tick is gone. -/
structure HasDrained (w : World) (e : EngineRef) : Prop where
  terminal : (w.scheduler (w.engine e).scheduler).state.isTerminal = true
  driver : (w.scheduler (w.engine e).scheduler).driver = .ended

/-- Who has to wait for the end of a scheduler until it does not live any more finds that it has
drained. -/
theorem hasDrained_of_not_lives
    (busy : ((run es).scheduler ((run es).engine e).scheduler).state ≠ .idle)
    (ended : ¬ (run es).Lives ((run es).engine e).scheduler ∨
      ((run es).scheduler ((run es).engine e).scheduler).outcome.isSome = true) :
    HasDrained (run es) e := by
  have sound := sound_run es ((run es).engine e).scheduler
  have terminal := terminal_of_not_lives sound busy ended
  exact ⟨terminal, sound.ended_of_terminal terminal⟩

theorem Asked.step (asked : Asked (run es) e) (here : e < (run es).engines.length) (d : Event) :
    Asked (run (es ++ [d])) e := by
  show ((run (es ++ [d])).scheduler ((run (es ++ [d])).engine e).scheduler).state.windsDown = true
  rw [(scheduler_run es [d] here).2]
  exact windsDown_run asked [d]

theorem HasDrained.step (drained : HasDrained (run es) e) (here : e < (run es).engines.length)
    (d : Event) : HasDrained (run (es ++ [d])) e := by
  have same := (scheduler_run es [d] here).2
  have terminal : ((run (es ++ [d])).scheduler
      ((run (es ++ [d])).engine e).scheduler).state.isTerminal = true := by
    rw [same, (terminal_run _ es [d] drained.terminal).1]
    exact drained.terminal
  exact ⟨terminal, (sound_run _ _).ended_of_terminal terminal⟩

/-- **A call that has to wait for the scheduler of its engine has asked it to stop.** -/
theorem asked_of_awaitEnd {result : HookResult}
    (told : (run es).Told e c p (.hookReturned c result)) (here : e < (run es).engines.length)
    (awaits : p = .awaitEnd c ((run es).engine e).scheduler) :
    Asked (run (es ++ [.hookReturned c result])) e := by
  have can := canHappen_of_progress told.progress
  have stepped := run_concat_of_canHappen can
  have answer : (run es).progress (.hookReturned c result) =
      some ((run es).hookReturned c result).1 := if_pos can
  have waits := (Option.some.inj (answer.symm.trans told.progress)).trans awaits
  rw [Asked, (scheduler_run es _ here).2, stepped]
  exact windsDown_hookReturned waits

/-! ## Where a call stands -/

/-- A call stands at a stage, unless it was given up there because its hook panicked. -/
structure StandsAt (w : World) (e : EngineRef) (c : CallRef) (givenUp : Prop) (stage : Stage) :
    Prop where
  only : ∀ at_, ⟨c, e, at_⟩ ∈ w.calls → at_ = stage
  there : givenUp ∨ ⟨c, e, stage⟩ ∈ w.calls

/-- A call is over. -/
def IsOver (w : World) (e : EngineRef) (c : CallRef) : Prop := ∀ stage, ⟨c, e, stage⟩ ∉ w.calls

/-- A call that goes on stands where it has come to. -/
theorem standsAt_of_calls {givenUp : Prop}
    (calls : ∀ at_, ⟨c, e, at_⟩ ∈ w.calls ↔ some stage = some at_) :
    StandsAt w e c givenUp stage where
  only at_ known := (Option.some.inj ((calls at_).1 known)).symm
  there := .inr ((calls stage).2 rfl)

theorem isOver_of_calls (calls : ∀ at_, ⟨c, e, at_⟩ ∈ w.calls ↔ none = some at_) :
    IsOver w e c := by
  intro at_ known
  cases (calls at_).1 known

section Rests

variable {givenUp givenUp' : Prop}
  (calls : ∀ stage, ⟨c, e, stage⟩ ∈ w'.calls → ⟨c, e, stage⟩ ∈ w.calls)
include calls

theorem IsOver.rests (returned : IsOver w e c) : IsOver w' e c :=
  fun stage known => returned stage (calls stage known)

/-- A call stands where it stood while it rests. -/
theorem StandsAt.rests (stands : StandsAt w e c givenUp stage)
    (stays : ∀ stage, ⟨c, e, stage⟩ ∈ w.calls →
      ⟨c, e, stage⟩ ∈ w'.calls ∨ d = .hookPanicked c ∧ stage.runsHook = true)
    (remains : givenUp → givenUp')
    (gives : d = .hookPanicked c → stage.runsHook = true → givenUp') :
    StandsAt w' e c givenUp' stage where
  only at_ known := stands.only at_ (calls at_ known)
  there := by
    rcases stands.there with gone | known
    · exact .inl (remains gone)
    · rcases stays stage known with still | ⟨panics, hook⟩
      · exact .inr still
      · exact .inl (gives panics hook)

end Rests

/-! ## How far a start has come -/

/-- **How far a start has come** that found these services, by what its transcript shows. -/
inductive StartCame (w : World) (e : EngineRef) (c : CallRef) (services : List Service)
    (givenUp : Prop) (T : List Mark) : Prop where
  /-- The services of a first part have been started; the start hook of the next one runs. -/
  | starting {first rest : List Service} {s : Service} {jobs : List (Option JobRef)}
    (split : services = first ++ s :: rest) (each : jobs.length = first.length)
    (shows : Shows T ((first ++ [s]).map .start) (jobs.map .ok) [])
    (engine : (w.engine e).state = .stopped)
    (stands : StandsAt w e c givenUp (.starting (s :: rest)))
  /-- All services have been started, and the engine runs. -/
  | started {jobs : List (Option JobRef)} (each : jobs.length = services.length)
    (shows : Shows T (services.map .start) (jobs.map .ok) [.started])
    (engine : (w.engine e).state = .running) (returned : IsOver w e c)
  /-- A start hook has failed; the start waits for the scheduler, which has been asked to stop. -/
  | abandoning {first rest : List Service} {s : Service} {jobs : List (Option JobRef)}
    {cause : Cause} (split : services = first ++ s :: rest) (each : jobs.length = first.length)
    (shows : Shows T ((first ++ [s]).map .start) (jobs.map .ok ++ [.failed cause]) [])
    (engine : (w.engine e).state = .stopped)
    (stands : StandsAt w e c False (.abandoning (.serviceStart s.name cause)))
    (asked : Asked w e)
  /-- A start hook has failed, the scheduler has drained, and the start has returned the error. -/
  | failed {first rest : List Service} {s : Service} {jobs : List (Option JobRef)}
    {cause : Cause} (split : services = first ++ s :: rest) (each : jobs.length = first.length)
    (shows : Shows T ((first ++ [s]).map .start) (jobs.map .ok ++ [.failed cause])
      [.failed (.serviceStart s.name cause)])
    (engine : (w.engine e).state = .stopped) (returned : IsOver w e c) (drained : HasDrained w e)

/-- The start goes on to the next service, or is over if there is none. -/
theorem StartCame.next {givenUp : Prop} {M : List Mark} {first rest : List Service}
    {jobs : List (Option JobRef)} {g : Engine} {after : Option Stage}
    (next : (w.engine e).StartsNext c rest after g p) (each : jobs.length = first.length)
    (still : (w.engine e).state = .stopped)
    (shows : Shows M (first.map .start) (jobs.map .ok) [])
    (engine : w'.engine e = g) (calls : ∀ stage, ⟨c, e, stage⟩ ∈ w'.calls ↔ after = some stage) :
    StartCame w' e c (first ++ rest) givenUp (M ++ [.told p]) := by
  cases next with
  | hook s rest =>
    have enters : Shows [.told (.enterStart c s)] [.start s] [] [] := ⟨rfl, rfl, rfl⟩
    refine .starting rfl each ?_ (by rw [engine, still]) (standsAt_of_calls calls)
    simpa using shows.append enters
  | finished =>
    refine .started (by simpa using each) ?_ (by rw [engine]) (isOver_of_calls calls)
    simpa using shows.done .started

/-- The start gives up, and waits for the scheduler unless that has ended. -/
theorem StartCame.abandons {givenUp : Prop} {M : List Mark} {first rest : List Service}
    {s : Service} {jobs : List (Option JobRef)} {cause : Cause} {g : Engine}
    {after : Option Stage}
    (winds : w.Winds (w.engine e) c (.abandoning (.serviceStart s.name cause)) after g p)
    (each : jobs.length = first.length) (still : (w.engine e).state = .stopped)
    (shows : Shows M ((first ++ [s]).map .start) (jobs.map .ok ++ [.failed cause]) [])
    (engine : w'.engine e = g)
    (calls : ∀ stage, ⟨c, e, stage⟩ ∈ w'.calls ↔ after = some stage)
    (asked : p = .awaitEnd c (w.engine e).scheduler → Asked w' e)
    (drained : ¬ w.Lives (w.engine e).scheduler → HasDrained w' e) :
    StartCame w' e c (first ++ s :: rest) givenUp (M ++ [.told p]) := by
  cases winds with
  | waits lives =>
    exact .abandoning rfl each (shows.awaits c _) (by rw [engine, still])
      (standsAt_of_calls calls) (asked rfl)
  | abandoned _ ended =>
    exact .failed rfl each (shows.done _) (by rw [engine, still]) (isOver_of_calls calls)
      (drained ended)

/-- **A start comes as far as this at every event.** -/
theorem StartCame.step {services : List Service} {givenUp givenUp' : Prop} {T : List Mark}
    (came : StartCame (run es) e c services givenUp T) (sole : Sole (run es) e c)
    (busy : ((run es).scheduler ((run es).engine e).scheduler).state ≠ .idle)
    (quiet : d.begins e = false) (remains : givenUp → givenUp')
    (gives : d = .hookPanicked c → givenUp') :
    StartCame (run (es ++ [d])) e c services givenUp' (T ++ (run es).marks e c d) := by
  obtain ⟨pursues, -⟩ := pursues_step sole quiet
  cases pursues with
  | rests unseen state calls stays =>
    rw [unseen, List.append_nil]
    cases came with
    | starting split each shows engine stands =>
      have stands := stands.rests calls stays remains fun panics _ => gives panics
      exact .starting split each shows (state.trans engine) stands
    | started each shows engine returned =>
      exact .started each shows (state.trans engine) (returned.rests calls)
    | abandoning split each shows engine stands asked =>
      have stands := stands.rests calls stays id fun _ hook => by cases hook
      exact .abandoning split each shows (state.trans engine) stands (asked.step sole.here d)
    | failed split each shows engine returned drained =>
      exact .failed split each shows (state.trans engine) (returned.rests calls)
        (drained.step sole.here d)
  | @moves stage after g p told known conducts engine' calls =>
    rw [marks_of_told told, ← List.append_assoc]
    cases came with
    | @starting first rest s jobs split each shows engine stands =>
      subst split
      obtain rfl := stands.only _ known
      cases conducts with
      | started job next =>
        have shows : Shows (T ++ [.returned (.ok job)]) ((first ++ [s]).map .start)
            ((jobs ++ [job]).map .ok) [] := by
          simpa using shows.returned (.ok job)
        rw [List.append_cons first]
        exact .next next (by simp [each]) engine shows engine' calls
      | abandons cause winds =>
        refine .abandons winds each engine (shows.returned (.failed cause)) engine' calls
          (asked_of_awaitEnd told sole.here) ?_
        exact fun dead => (hasDrained_of_not_lives busy (.inl dead)).step sole.here _
    | @abandoning first rest s jobs cause split each shows engine stands asked =>
      obtain rfl := stands.only _ known
      cases conducts with
      | abandoned _ ended =>
        have drained :=
          (hasDrained_of_not_lives busy (.inr ended)).step sole.here (.schedulerEnded c)
        show StartCame _ e c services givenUp' (T ++ [] ++ [.told (.done _)])
        rw [List.append_nil]
        exact .failed split each (shows.done _) (by rw [engine', engine]) (isOver_of_calls calls)
          drained
    | started _ _ _ returned | failed _ _ _ _ returned => exact absurd known (returned stage)

/-- A start has a number of its own, even if it returns at once. -/
theorem nextCall_startEngine (idle : (w.scheduler (w.engine e).scheduler).state = .idle)
    (source : Source) : w.nextCall < (w.startEngine e source).2.nextCall := by
  have same := nextCall_of_affairs (affairs_start w (w.engine e).scheduler source)
  have begins : (w.scheduler (w.engine e).scheduler).start source = .ok _ := if_pos idle
  unfold World.startEngine
  rw [World.start, begins] at same ⊢
  dsimp only at same ⊢
  generalize World.tell _ _ = u at same ⊢
  have next (c : CallRef) (v : World) (services : List Service) :
      (v.startNext c e services).2.nextCall = v.nextCall := by
    cases services <;> rfl
  rw [next]
  show w.nextCall < u.nextCall + 1
  rw [same]
  exact Nat.lt_succ_self _

/-- No call on a free engine has the number of the next call. -/
theorem Free.unknown (free : Free w e) (c : CallRef) (stage : Stage) : ⟨c, e, stage⟩ ∉ w.calls :=
  fun known => free _ known rfl

/-- **A start begins** at the first service that there is, or is over if there is none. -/
theorem startCame_startEngine {source : Source}
    (can : (Event.startEngine e source).canHappen (run pre) = true) (free : Free (run pre) e)
    (idle : ((run pre).scheduler ((run pre).engine e).scheduler).state = .idle) (givenUp : Prop) :
    StartCame (run (pre ++ [.startEngine e source])) e (run pre).nextCall
        ((run pre).engine e).services givenUp
        (transcript e (run pre).nextCall (run pre) [.startEngine e source]) ∧
      Sole (run (pre ++ [.startEngine e source])) e (run pre).nextCall := by
  obtain ⟨after, g, next, becomes⟩ := (numbered_run pre).startEngine idle source
  have here := lt_of_startEngine can
  have stepped : run (pre ++ [.startEngine e source]) = ((run pre).startEngine e source).2 :=
    run_concat_of_canHappen can
  rw [← stepped] at becomes
  have told : (run pre).Told e (run pre).nextCall ((run pre).startEngine e source).1
      (.startEngine e source) := ⟨rfl, if_pos can⟩
  have still : ((run pre).engine e).state = .stopped := by
    cases state : ((run pre).engine e).state with
    | stopped => rfl
    | running => exact absurd state ((orderly_run pre e).idle idle).1
  refine ⟨?_, sole_of_begins free here becomes ?_⟩
  · have nothing : Shows [] (([] : List Service).map .start)
        (([] : List (Option JobRef)).map .ok) [] := ⟨rfl, rfl, rfl⟩
    rw [transcript, transcript, marks_of_told told, List.append_nil]
    exact .next next rfl still nothing (becomes.engine here) (becomes.begun (free.unknown _))
  · rw [stepped]
    exact nextCall_startEngine idle source

/-- **A start comes as far as this**, whatever else goes on. -/
theorem startCame_run {source : Source}
    (can : (Event.startEngine e source).canHappen (run pre) = true) (free : Free (run pre) e)
    (idle : ((run pre).scheduler ((run pre).engine e).scheduler).state = .idle)
    (quiet : ∀ d ∈ more, d.begins e = false) :
    StartCame (run (pre ++ .startEngine e source :: more)) e (run pre).nextCall
        ((run pre).engine e).services (.hookPanicked (run pre).nextCall ∈ more)
        (transcript e (run pre).nextCall (run pre) (.startEngine e source :: more)) ∧
      Sole (run (pre ++ .startEngine e source :: more)) e (run pre).nextCall := by
  induction more using List.reverseRecOn with
  | nil => exact startCame_startEngine can free idle _
  | append_singleton more d ih =>
    rw [List.forall_mem_append, List.forall_mem_singleton] at quiet
    obtain ⟨came, sole⟩ := ih quiet.1
    have busy : ((run (pre ++ .startEngine e source :: more)).scheduler
        ((run (pre ++ .startEngine e source :: more)).engine e).scheduler).state ≠ .idle :=
      not_idle_of_startCalled ⟨pre, _, more, rfl, can, source, rfl⟩
    rw [← List.cons_append, ← List.append_assoc, transcript_concat, ← run_append]
    refine ⟨came.step sole busy quiet.2 (List.mem_append_left _) ?_, (pursues_step sole quiet.2).2⟩
    rintro rfl
    exact List.mem_append_right _ (List.mem_singleton_self _)

/-- **The job that a service contributes is offered before the start goes on.** -/
theorem offered_of_startCame {services : List Service} {givenUp : Prop} {T : List Mark}
    {j : JobRef} (came : StartCame (run es) e c services givenUp T)
    (known : ⟨c, e, stage⟩ ∈ (run es).calls)
    (can : (Event.hookReturned c (.ok (some j))).canHappen (run es) = true) :
    Offered (run (es ++ [.hookReturned c (.ok (some j))])) ((run es).engine e).scheduler j := by
  have numbered := numbered_run es
  have hook : stage.runsHook = true := by
    have found : (run es).call? c = some ⟨c, e, stage⟩ := numbered.call? known
    simp only [Event.canHappen, found, Bool.and_eq_true] at can
    exact can.1
  have here := home_of_lt (numbered.engine _ known)
  rw [run_concat_of_canHappen can]
  cases came with
  | starting _ _ _ _ stands =>
    obtain rfl := stands.only _ known
    exact offered_hookReturned numbered (.inr ⟨_, known⟩) here
  | abandoning _ _ _ _ stands =>
    obtain rfl := stands.only _ known
    cases hook
  | started _ _ _ returned | failed _ _ _ _ returned => exact absurd known (returned stage)

/-! ## How far a stop has come -/

/-- **How far a stop has come** that found these services, by what its transcript shows. `begun`
is whether the scheduler had been started when the stop began. -/
inductive StopCame (w : World) (e : EngineRef) (c : CallRef) (services : List Service)
    (begun givenUp : Prop) (T : List Mark) : Prop where
  /-- The stop hooks of a last part have run, in reverse; that of the one before runs. -/
  | stopping {done rest : List Service} {s : Service} {results : List HookResult}
    (split : services.reverse = done ++ s :: rest) (each : results.length = done.length)
    (shows : Shows T ((done ++ [s]).map .stop) results [])
    (stands : StandsAt w e c givenUp (.stopping (s :: rest)))
  /-- All stop hooks have run; the stop waits for the scheduler, which has been asked to stop. -/
  | draining {results : List HookResult} (each : results.length = services.length)
    (shows : Shows T (services.reverse.map .stop) results [])
    (stands : StandsAt w e c False .draining) (asked : Asked w e)
  /-- All stop hooks have run, the scheduler has drained, and the engine is stopped. -/
  | stopped {results : List HookResult} (each : results.length = services.length)
    (shows : Shows T (services.reverse.map .stop) results [.stopped])
    (engine : (w.engine e).state = .stopped) (returned : IsOver w e c)
    (drained : begun → HasDrained w e)

/-- The stop goes on to the next service, or to the scheduler if there is none. -/
theorem StopCame.next {services done rest : List Service} {begun givenUp : Prop} {M : List Mark}
    {results : List HookResult} {g : Engine} {after : Option Stage}
    (next : w.StopsNext (w.engine e) c rest after g p) (split : services.reverse = done ++ rest)
    (each : results.length = done.length) (shows : Shows M (done.map .stop) results [])
    (engine : w'.engine e = g) (calls : ∀ stage, ⟨c, e, stage⟩ ∈ w'.calls ↔ after = some stage)
    (asked : p = .awaitEnd c (w.engine e).scheduler → Asked w' e)
    (drained : ¬ w.Lives (w.engine e).scheduler → begun → HasDrained w' e) :
    StopCame w' e c services begun givenUp (M ++ [.told p]) := by
  cases next with
  | hook s rest =>
    have enters : Shows [.told (.enterStop c s)] [.stop s] [] [] := ⟨rfl, rfl, rfl⟩
    refine .stopping split each ?_ (standsAt_of_calls calls)
    simpa using shows.append enters
  | finished winds =>
    rw [List.append_nil] at split
    have each : results.length = services.length := by
      rw [each, ← split, List.length_reverse]
    rw [← split] at shows
    cases winds with
    | waits lives =>
      exact .draining each (shows.awaits c _) (standsAt_of_calls calls) (asked rfl)
    | drained ended =>
      exact .stopped each (shows.done .stopped) (by rw [engine]) (isOver_of_calls calls)
        (drained ended)

/-- **A stop comes as far as this at every event.** -/
theorem StopCame.step {services : List Service} {begun givenUp givenUp' : Prop} {T : List Mark}
    (came : StopCame (run es) e c services begun givenUp T) (sole : Sole (run es) e c)
    (busy : begun → ((run es).scheduler ((run es).engine e).scheduler).state ≠ .idle)
    (quiet : d.begins e = false) (remains : givenUp → givenUp')
    (gives : d = .hookPanicked c → givenUp') :
    StopCame (run (es ++ [d])) e c services begun givenUp' (T ++ (run es).marks e c d) := by
  obtain ⟨pursues, -⟩ := pursues_step sole quiet
  cases pursues with
  | rests unseen state calls stays =>
    rw [unseen, List.append_nil]
    cases came with
    | stopping split each shows stands =>
      have stands := stands.rests calls stays remains fun panics _ => gives panics
      exact .stopping split each shows stands
    | draining each shows stands asked =>
      have stands := stands.rests calls stays id fun _ hook => by cases hook
      exact .draining each shows stands (asked.step sole.here d)
    | stopped each shows engine returned drained =>
      exact .stopped each shows (state.trans engine) (returned.rests calls)
        fun begun => (drained begun).step sole.here d
  | @moves stage after g p told known conducts engine' calls =>
    rw [marks_of_told told, ← List.append_assoc]
    cases came with
    | @stopping done rest s results split each shows stands =>
      obtain rfl := stands.only _ known
      cases conducts with
      | stopped result next =>
        have shows : Shows (T ++ [.returned result]) ((done ++ [s]).map .stop)
            (results ++ [result]) [] := by
          simpa using shows.returned result
        rw [List.append_cons done] at split
        refine .next next split (by simp [each]) shows engine' calls
          (asked_of_awaitEnd told sole.here) fun dead begun => ?_
        exact (hasDrained_of_not_lives (busy begun) (.inl dead)).step sole.here _
    | draining each shows stands asked =>
      obtain rfl := stands.only _ known
      cases conducts with
      | drained ended =>
        show StopCame _ e c services begun givenUp' (T ++ [] ++ [.told (.done _)])
        rw [List.append_nil]
        refine .stopped each (shows.done .stopped) (by rw [engine']) (isOver_of_calls calls)
          fun begun => ?_
        exact (hasDrained_of_not_lives (busy begun) (.inr ended)).step sole.here _
    | stopped _ _ _ returned => exact absurd known (returned stage)

/-- **A stop begins** at the last service that there is, or at the scheduler. -/
theorem stopCame_stopEngine (can : (Event.stopEngine e).canHappen (run pre) = true)
    (free : Free (run pre) e) (givenUp : Prop) :
    StopCame (run (pre ++ [.stopEngine e])) e (run pre).nextCall ((run pre).engine e).services
        (((run pre).scheduler ((run pre).engine e).scheduler).state ≠ .idle) givenUp
        (transcript e (run pre).nextCall (run pre) [.stopEngine e]) ∧
      Sole (run (pre ++ [.stopEngine e])) e (run pre).nextCall := by
  obtain ⟨after, g, next, becomes⟩ := (numbered_run pre).stopEngine (e := e)
  have here : e < (run pre).engines.length := length_of_hasEngine can
  have stepped : run (pre ++ [.stopEngine e]) = ((run pre).stopEngine e).2 :=
    run_concat_of_canHappen can
  rw [← stepped] at becomes
  have told : (run pre).Told e (run pre).nextCall ((run pre).stopEngine e).1 (.stopEngine e) :=
    ⟨rfl, if_pos can⟩
  refine ⟨?_, sole_of_begins free here becomes ?_⟩
  · have nothing : Shows [] (([] : List Service).map .stop) [] [] := ⟨rfl, rfl, rfl⟩
    rw [transcript, transcript, marks_of_told told, List.append_nil]
    refine .next next rfl rfl nothing (becomes.engine here) (becomes.begun (free.unknown _))
      (fun awaits => ?_) fun dead busy => ?_
    · rw [Asked, (scheduler_run pre _ here).2, stepped]
      exact windsDown_stopNext awaits
    · exact (hasDrained_of_not_lives busy (.inl dead)).step here _
  · rw [stepped]
    exact nextCall_stopEngine _ e

/-- **A stop comes as far as this**, whatever else goes on. -/
theorem stopCame_run (can : (Event.stopEngine e).canHappen (run pre) = true)
    (free : Free (run pre) e) (quiet : ∀ d ∈ more, d.begins e = false) :
    StopCame (run (pre ++ .stopEngine e :: more)) e (run pre).nextCall
        ((run pre).engine e).services
        (((run pre).scheduler ((run pre).engine e).scheduler).state ≠ .idle)
        (.hookPanicked (run pre).nextCall ∈ more)
        (transcript e (run pre).nextCall (run pre) (.stopEngine e :: more)) ∧
      Sole (run (pre ++ .stopEngine e :: more)) e (run pre).nextCall := by
  induction more using List.reverseRecOn with
  | nil => exact stopCame_stopEngine can free _
  | append_singleton more d ih =>
    rw [List.forall_mem_append, List.forall_mem_singleton] at quiet
    obtain ⟨came, sole⟩ := ih quiet.1
    have here : e < (run pre).engines.length := length_of_hasEngine can
    rw [← List.cons_append, ← List.append_assoc, transcript_concat, ← run_append]
    refine ⟨came.step sole (fun begun => ?_) quiet.2 (List.mem_append_left _) ?_,
      (pursues_step sole quiet.2).2⟩
    · rw [(scheduler_run pre _ here).2]
      exact started_run _ pre _ begun
    · rintro rfl
      exact List.mem_append_right _ (List.mem_singleton_self _)

/-- A call that stops the scheduler of its engine enters no stop hook any more. -/
theorem not_enterStop_stopScheduler (w : World) (c k : CallRef) (i : EngineRef) (stage : Stage)
    (s : Service) : (w.stopScheduler k i stage).1 ≠ .enterStop c s := by
  unfold World.stopScheduler World.schedulerEnded
  dsimp only
  split
  · exact Progress.noConfusion
  · split <;> exact Progress.noConfusion

theorem schedulers_of_stopNext {k : CallRef} {i : EngineRef} {services : List Service}
    {s : Service} (enters : (w.stopNext k i services).1 = .enterStop c s) :
    (w.stopNext k i services).2.schedulers = w.schedulers := by
  cases services with
  | nil => exact absurd enters (not_enterStop_stopScheduler w c k i _ s)
  | cons t rest => exact schedulers_setStage w k _

/-- **Until all its hooks have returned a stop leaves the schedulers alone.** -/
theorem schedulers_of_enterStop {s : Service} (told : w.progress d = some (.enterStop c s)) :
    (w.step d).2.schedulers = w.schedulers := by
  have can := canHappen_of_progress told
  have stepped : (w.step d).2 = (w.act d).2 := congrArg Prod.snd (if_pos can)
  have starts (u : World) (k : CallRef) (i : EngineRef) (services : List Service) :
      (u.startNext k i services).1 ≠ .enterStop c s := by
    cases services <;> exact Progress.noConfusion
  unfold progress at told
  rw [if_pos can] at told
  rw [stepped]
  split at told
  · next i t =>
    have enters := Option.some.inj told
    unfold World.load at enters
    split at enters
    · cases enters
    · dsimp only at enters
      split at enters <;> cases enters
  · next i source =>
    have enters := Option.some.inj told
    unfold World.startEngine at enters
    split at enters
    · cases enters
    · exact absurd enters (starts _ _ _ _)
  · exact schedulers_of_stopNext (Option.some.inj told)
  · next k result =>
    have enters := Option.some.inj told
    show (w.hookReturned k result).2.schedulers = w.schedulers
    unfold World.hookReturned at enters ⊢
    split at enters
    · split at enters <;> cases enters
    · split at enters
      · exact absurd enters (starts _ _ _ _)
      · exact absurd enters (not_enterStop_stopScheduler _ _ _ _ _ _)
    · split at enters
      · exact schedulers_of_stopNext enters
      · exact schedulers_of_stopNext enters
    · cases enters
  · next k =>
    have enters := Option.some.inj told
    unfold World.schedulerEnded at enters
    split at enters <;> cases enters
  · cases told

/-! ## Both -/

/-- **A call on an engine that no other call overlaps**: it can be made, no other is under way,
and none begins in the events that follow. -/
structure CalledAlone (w : World) (e : EngineRef) (d : Event) (more : List Event) : Prop where
  can : d.canHappen w = true
  free : Free w e
  quiet : ∀ d ∈ more, d.begins e = false

/-- What follows has a first part. -/
theorem CalledAlone.left {front back : List Event} (h : CalledAlone w e d (front ++ back)) :
    CalledAlone w e d front :=
  ⟨h.can, h.free, fun d hd => h.quiet d (List.mem_append_left _ hd)⟩

/-- **The order of the hooks.** A start is refused if the scheduler is not idle: it enters no
hook and changes nothing, but that the source is dropped. A start that finds the scheduler idle
and that no other call on the engine overlaps enters the start hooks of the services in load
order, each when the one before has returned and its job has been offered, up to the first that
fails. If one fails, the start returns its error when the scheduler has drained, and the engine
is stopped; if none does, the engine runs. A stop that no other call overlaps enters all stop
hooks, once each and in the opposite order, whether they fail or not, and leaves the schedulers
alone meanwhile. Then it asks the scheduler to stop, returns when that has drained, or was never
started, and leaves the engine stopped. A call that waits for the scheduler can go on when that
has drained. -/
theorem hooks_in_order (pre : List Event) (e : EngineRef) :
    (∀ source, ((run pre).scheduler ((run pre).engine e).scheduler).state ≠ .idle →
      (run pre).startEngine e source = (.done (.failed (.scheduler .alreadyStarted)),
        match source.feed? with | some q => (run pre).closeFeed q | none => run pre)) ∧
      (∀ source more, CalledAlone (run pre) e (.startEngine e source) more →
        ((run pre).scheduler ((run pre).engine e).scheduler).state = .idle →
          StartCame (run (pre ++ .startEngine e source :: more)) e (run pre).nextCall
            ((run pre).engine e).services (.hookPanicked (run pre).nextCall ∈ more)
            (transcript e (run pre).nextCall (run pre) (.startEngine e source :: more)) ∧
          ∀ front j back, more = front ++ .hookReturned (run pre).nextCall (.ok (some j)) :: back →
            (Event.hookReturned (run pre).nextCall (.ok (some j))).canHappen
                (run (pre ++ .startEngine e source :: front)) = true →
              Offered (run (pre ++ .startEngine e source :: front ++
                [.hookReturned (run pre).nextCall (.ok (some j))]))
                ((run pre).engine e).scheduler j) ∧
      (∀ more, CalledAlone (run pre) e (.stopEngine e) more →
        StopCame (run (pre ++ .stopEngine e :: more)) e (run pre).nextCall
            ((run pre).engine e).services
            (((run pre).scheduler ((run pre).engine e).scheduler).state ≠ .idle)
            (.hookPanicked (run pre).nextCall ∈ more)
            (transcript e (run pre).nextCall (run pre) (.stopEngine e :: more)) ∧
          ∀ front d back, .stopEngine e :: more = front ++ d :: back →
            (∀ s, EntersStop e (run pre).nextCall s (run (pre ++ front)) d →
              (run (pre ++ front ++ [d])).schedulers = (run (pre ++ front)).schedulers) ∧
            (StopReturns e (run pre).nextCall (run (pre ++ front)) d →
              ((run (pre ++ front)).scheduler ((run pre).engine e).scheduler).state = .idle ∨
                HasDrained (run (pre ++ front)) e)) ∧
      ∀ c stage, ⟨c, e, stage⟩ ∈ (run pre).calls → stage.runsHook = false →
        HasDrained (run pre) e → (Event.schedulerEnded c).canHappen (run pre) = true := by
  refine ⟨fun source busy => startEngine_of_busy busy source, ?_, ?_, ?_⟩
  · intro source more alone idle
    refine ⟨(startCame_run alone.can alone.free idle alone.quiet).1, ?_⟩
    rintro front j back rfl can
    obtain ⟨came, sole⟩ := startCame_run alone.can alone.free idle alone.left.quiet
    obtain ⟨⟨number, i, stage⟩, known, -⟩ :=
      (Option.any_eq_true _ _).1 (Bool.and_eq_true _ _ ▸ can).1
    obtain ⟨known, rfl⟩ := of_call? known
    obtain rfl := sole.home i stage known
    have offered := offered_of_startCame came known can
    rwa [(scheduler_run pre _ (lt_of_startEngine alone.can)).2] at offered
  · intro more alone
    refine ⟨(stopCame_run alone.can alone.free alone.quiet).1, fun front d back split => ?_⟩
    have here : e < (run pre).engines.length := length_of_hasEngine alone.can
    refine ⟨fun s enters => ?_, fun returns => ?_⟩
    · rw [run_concat]
      exact schedulers_of_enterStop enters.progress
    · by_cases idle : ((run (pre ++ front)).scheduler ((run pre).engine e).scheduler).state = .idle
      · exact .inl idle
      · rw [← (scheduler_run pre front here).2] at idle
        have terminal := (stopped_of_returns returns idle).2
        exact .inr ⟨terminal, (sound_run _ _).ended_of_terminal terminal⟩
  · intro c stage known waits drained
    have found : (run pre).call? c = some ⟨c, e, stage⟩ := (numbered_run pre).call? known
    have settled : ((run pre).scheduler ((run pre).engine e).scheduler).outcome.isSome = true := by
      rw [Option.isSome_iff_ne_none, Ne, (sound_run pre _).outcome.1, drained.terminal]
      exact Bool.noConfusion
    rw [Event.canHappen, found, Option.any_some, endAwaited, waits, settled]
    rfl

/-- An engine with two services, the first of which contributes a job. -/
def pairRun : List Event :=
  [.newJob "work", .newScheduler ⟨"loop"⟩ .zero .zero, .newEngine 0, .load 0 firstService,
    .load 0 secondService]

/-- A start of it: the second service fails, and the start waits for the scheduler. -/
def failingStart : List Event :=
  [.hookReturned 0 (.ok (some 0)), .hookReturned 0 (.failed ⟨"refused", ["in use"]⟩), .poll 0,
    .schedulerEnded 0]

/-- A stop of it: the hook of the second service fails, too. -/
def failingStop : List Event :=
  [.hookReturned 1 (.failed ⟨"stuck", []⟩), .hookReturned 1 (.ok none)]

/-- The start comes to the error of the second service, the stop runs both hooks, and another
start is refused. -/
theorem hooks_in_order_of_failingStart :
    CalledAlone (run pairRun) 0 (.startEngine 0 (.script [])) failingStart ∧
      StartCame (run (pairRun ++ .startEngine 0 (.script []) :: failingStart)) 0 0
        [firstService, secondService] (.hookPanicked 0 ∈ failingStart)
        (transcript 0 0 (run pairRun) (.startEngine 0 (.script []) :: failingStart)) ∧
      (transcript 0 0 (run pairRun) (.startEngine 0 (.script []) :: failingStart)).filterMap
        Mark.end? = [.failed (.serviceStart "second" ⟨"refused", ["in use"]⟩)] ∧
      Offered (run (pairRun ++ [.startEngine 0 (.script []), .hookReturned 0 (.ok (some 0))])) 0 0 ∧
      CalledAlone (run (pairRun ++ .startEngine 0 (.script []) :: failingStart)) 0
        (.stopEngine 0) failingStop ∧
      (transcript 0 1 (run (pairRun ++ .startEngine 0 (.script []) :: failingStart))
        (.stopEngine 0 :: failingStop)).filterMap Mark.hook? =
          [.stop secondService, .stop firstService] ∧
      ((run (pairRun ++ .startEngine 0 (.script []) :: failingStart)).startEngine 0
        (.script [])).1 = .done (.failed (.scheduler .alreadyStarted)) := by
  obtain ⟨-, starts, -⟩ := hooks_in_order pairRun 0
  obtain ⟨refuses, -, stops, -⟩ :=
    hooks_in_order (pairRun ++ .startEngine 0 (.script []) :: failingStart) 0
  have start : CalledAlone (run pairRun) 0 (.startEngine 0 (.script [])) failingStart :=
    ⟨by decide, fun k known => absurd known List.not_mem_nil, by decide⟩
  have stop : CalledAlone (run (pairRun ++ .startEngine 0 (.script []) :: failingStart)) 0
      (.stopEngine 0) failingStop :=
    ⟨by decide, fun k known => absurd known List.not_mem_nil, by decide⟩
  obtain ⟨came, offers⟩ := starts (.script []) failingStart start (by decide)
  obtain ⟨stopped, -⟩ := stops failingStop stop
  refine ⟨start, came, by decide, offers [] 0 failingStart.tail rfl (by decide), stop, ?_, ?_⟩
  · -- The stop has returned, so all hooks have been entered.
    have returned : IsOver (run (pairRun ++ .startEngine 0 (.script []) :: failingStart ++
        .stopEngine 0 :: failingStop)) 0 1 := fun stage => List.not_mem_nil
    cases stopped with
    | stopping _ _ _ stands =>
      exact absurd (stands.there.resolve_left (by simp [failingStop])) (returned _)
    | draining _ _ stands => exact absurd (stands.there.resolve_left id) (returned _)
    | stopped _ shows => exact shows.hooks
  · rw [refuses (.script []) (by decide)]

end World

end FrameLoop

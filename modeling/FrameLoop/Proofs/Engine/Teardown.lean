import FrameLoop.Proofs.Engine.Account

/-!
# What a stop of an engine leaves behind

A stop runs the stop hooks of the services that it found, in the opposite order, and then
stops the scheduler and waits for its end. While it waits other calls on the engine go on.
`stop_complete` says what holds once the stop has returned, whatever they do: every service
that was registered when the stop began has had its stop hook entered, with that every service
that had been started by then; and the scheduler has ended for good. The engine is stopped,
unless a start of it that was still under way has returned after the stop.

Two things get past a stop. A service that is loaded while the stop waits for a hook is
started, because the engine counts as running until its scheduler has drained, and the stop
does not know of it: `late_service_unstopped`. And a start that waits for a hook while the
stop runs to its end makes the engine run when it returns, without a scheduler:
`start_outlives_stop`.

**What this does not say.** A stop hook that has been entered may have failed, and nothing
makes a stop return.
-/

namespace FrameLoop

namespace World

open Engine (Call Progress Result Stage)

variable {w w' : World} {pre mid : List Event} {d : Event} {e : EngineRef} {c : CallRef}
  {s : Service}

/-! ## A stop -/

/-- A start of the engine is called. -/
def StartCalled (e : EngineRef) (_ : World) (d : Event) : Prop :=
  ∃ source, d = .startEngine e source

/-- A start of the engine returns `Ok`. -/
def StartReturns (e : EngineRef) (w : World) (d : Event) : Prop :=
  ∃ c, w.Told e c (.done .started) d

/-- A call enters the stop hook of a service. -/
def EntersStop (e : EngineRef) (c : CallRef) (s : Service) (w : World) (d : Event) : Prop :=
  w.Told e c (.enterStop c s) d

/-- A stop call returns. -/
def StopReturns (e : EngineRef) (c : CallRef) (w : World) (d : Event) : Prop :=
  w.Told e c (.done .stopped) d

/-- A call that begins after some events has entered the stop hook of a service. -/
def Entered (e : EngineRef) (pre mid : List Event) (s : Service) : Prop :=
  Happened (run pre) (EntersStop e (run pre).nextCall s) mid

/-- **A stop of an engine**: it is called at the first of some events, and it returns at the
last of them. -/
structure Stops (e : EngineRef) (pre mid : List Event) : Prop where
  called : ∃ rest, mid = .stopEngine e :: rest
  can : (Event.stopEngine e).canHappen (run pre) = true
  returned : ∃ front d, mid = front ++ [d] ∧
    StopReturns e (run pre).nextCall (run (pre ++ front)) d

/-! ## The scheduler of the engine -/

/-- An engine keeps its scheduler. -/
theorem scheduler_run (es more : List Event) (here : e < (run es).engines.length) :
    e < (run (es ++ more)).engines.length ∧
      ((run (es ++ more)).engine e).scheduler = ((run es).engine e).scheduler := by
  induction more using List.reverseRecOn with
  | nil => simp [here]
  | append_singleton more d ih =>
    obtain ⟨there, same⟩ := ih
    rw [← List.append_assoc, run_concat]
    refine ⟨Nat.lt_of_lt_of_le there (affairs_step (numbered_run _) d).length_le, ?_⟩
    cases on_step (es ++ more) d e with
    | apart engine => rw [engine, same]
    | made r absent => exact absurd there (by rw [absent]; exact Nat.lt_irrefl _)
    | released engine => rw [engine, same]
    | conducted _ conducts engine => rw [engine, conducts.keeps.1, same]

/-- A scheduler that has been started is not idle again. -/
theorem started_run (r : SchedulerRef) (es more : List Event)
    (started : ((run es).scheduler r).state ≠ .idle) :
    ((run (es ++ more)).scheduler r).state ≠ .idle := by
  induction more using List.reverseRecOn with
  | nil => simpa using started
  | append_singleton more d ih =>
    rw [← List.append_assoc, run_concat]
    exact fun idle => ih ((turn_step (sound_run _ r) d).of_idle (sound_run _ r) idle)

/-- The scheduler of an engine of which a start has been called is not idle. -/
theorem not_idle_of_startCalled {es : List Event} (begun : Happened {} (StartCalled e) es) :
    ((run es).scheduler ((run es).engine e).scheduler).state ≠ .idle := by
  obtain ⟨pre, d, post, rfl, can, source, rfl⟩ := begun
  have here : e < (run pre).engines.length := lt_of_startEngine can
  rw [(scheduler_run pre _ here).2, ← List.singleton_append, ← List.append_assoc]
  exact started_run _ _ post (busy_of_startEngine can)

/-! ## The way of a stop -/

/-- **How far a stop has come**: it is at the stop hook of a service, or it waits for the
scheduler, and every service that it has found has had its hook entered, apart from those
that are still to come. -/
structure Walked (e : EngineRef) (pre mid : List Event) : Prop where
  number : (run pre).nextCall < (run (pre ++ mid)).nextCall
  stage : ∀ stage, ⟨(run pre).nextCall, e, stage⟩ ∈ (run (pre ++ mid)).calls →
    stage = .draining ∨ ∃ services, stage = .stopping services
  stopping : ∀ services, ⟨(run pre).nextCall, e, .stopping services⟩ ∈ (run (pre ++ mid)).calls →
    ∀ s ∈ ((run pre).engine e).services, s ∈ services.tail ∨ Entered e pre mid s
  draining : ⟨(run pre).nextCall, e, .draining⟩ ∈ (run (pre ++ mid)).calls →
    ∀ s ∈ ((run pre).engine e).services, Entered e pre mid s
  returned : Happened (run pre) (StopReturns e (run pre).nextCall) mid →
    ∀ s ∈ ((run pre).engine e).services, Entered e pre mid s

/-- What happens at the next event of the stop. -/
theorem happened_next {P : World → Event → Prop} :
    Happened (run pre) P (mid ++ [d]) ↔ Happened (run pre) P mid ∨
      d.canHappen (run (pre ++ mid)) = true ∧ P (run (pre ++ mid)) d := by
  rw [happened_concat, run_append]

/-- Once the hooks of all services have been entered there is only the scheduler to wait for. -/
theorem walked_of_entered (number : (run pre).nextCall < (run (pre ++ mid)).nextCall)
    (stage : ∀ stage, ⟨(run pre).nextCall, e, stage⟩ ∈ (run (pre ++ mid)).calls →
      stage = .draining)
    (entered : ∀ s ∈ ((run pre).engine e).services, Entered e pre mid s) : Walked e pre mid where
  number := number
  stage at_ hk := .inl (stage at_ hk)
  stopping services hk := by cases stage _ hk
  draining _ := entered
  returned _ := entered

/-- The stop goes on to the services that are left, or to the scheduler. -/
theorem Walked.stopsNext {services : List Service} {g g' : Engine} {after : Option Stage}
    {p : Progress} (told : (run (pre ++ mid)).Told e (run pre).nextCall p d)
    (next : (run (pre ++ mid)).StopsNext g (run pre).nextCall services after g' p)
    (number : (run pre).nextCall < (run (pre ++ (mid ++ [d]))).nextCall)
    (calls : ∀ stage, ⟨(run pre).nextCall, e, stage⟩ ∈ (run (pre ++ (mid ++ [d]))).calls →
      after = some stage)
    (left : ∀ s ∈ ((run pre).engine e).services, s ∈ services ∨ Entered e pre mid s)
    (before : Happened (run pre) (StopReturns e (run pre).nextCall) mid →
      ∀ s ∈ ((run pre).engine e).services, Entered e pre mid s) :
    Walked e pre (mid ++ [d]) := by
  have can := canHappen_of_progress told.progress
  cases next with
  | hook t rest =>
    have enters : EntersStop e (run pre).nextCall t (run (pre ++ mid)) d := told
    exact
      { number := number
        stage := fun stage hk => .inr ⟨_, (Option.some.inj (calls stage hk)).symm⟩
        stopping := fun waiting hk s hs => by
          cases calls _ hk
          rcases left s hs with later | entered
          · rcases List.mem_cons.1 later with rfl | later
            · exact .inr (happened_next.2 (.inr ⟨can, enters⟩))
            · exact .inl later
          · exact .inr (entered.append [d])
        draining := fun hk => by cases calls _ hk
        returned := fun h s hs => by
          rcases happened_next.1 h with old | ⟨-, now⟩
          · exact (before old s hs).append [d]
          · cases (told.unique now).2.2 }
  | finished winds =>
    refine walked_of_entered number (fun stage hk => ?_) fun s hs => ?_
    · have here := calls stage hk
      obtain rfl | rfl := winds.stays
      · cases here
      · exact (Option.some.inj here).symm
    · exact ((left s hs).resolve_left List.not_mem_nil).append [d]

/-- A stop has a number of its own, even if it returns at once. -/
theorem nextCall_stopEngine (w : World) (e : EngineRef) :
    w.nextCall < (w.stopEngine e).2.nextCall := by
  have ended (u : World) (c : CallRef) : (u.schedulerEnded c).2.nextCall = u.nextCall := by
    unfold World.schedulerEnded
    split <;> rfl
  have same : (w.stopEngine e).2.nextCall = w.nextCall + 1 := by
    unfold World.stopEngine World.stopNext
    dsimp only
    split
    · rfl
    · unfold World.stopScheduler
      dsimp only
      split
      · exact nextCall_of_affairs (affairs_stop _ _)
      · exact (ended _ _).trans (nextCall_of_affairs (affairs_stop _ _))
  exact same ▸ Nat.lt_succ_self _

/-- **A stop begins** at the last service that there is, or at the scheduler. -/
theorem walked_stopEngine (can : (Event.stopEngine e).canHappen (run pre) = true) :
    Walked e pre ([] ++ [.stopEngine e]) := by
  obtain ⟨after, g, next, becomes⟩ := (numbered_run pre).stopEngine (e := e)
  have told : (run (pre ++ [])).Told e (run pre).nextCall ((run pre).stopEngine e).1
      (.stopEngine e) := by
    rw [List.append_nil]
    exact ⟨rfl, if_pos can⟩
  have stepped : run (pre ++ ([] ++ [.stopEngine e])) = ((run pre).stopEngine e).2 :=
    run_concat_of_canHappen can
  refine Walked.stopsNext told (by rw [List.append_nil]; exact next) ?_ (fun stage hk => ?_)
    (fun s hs => .inl (List.mem_reverse.2 hs)) fun h => absurd h not_happened_nil
  · rw [stepped]
    exact nextCall_stopEngine _ e
  · rw [stepped, becomes.mem_calls] at hk
    rcases hk with ⟨-, other⟩ | ⟨-, here⟩
    · exact absurd rfl other
    · exact here

theorem Walked.number_concat (walked : Walked e pre mid) (d : Event) :
    (run pre).nextCall < (run (pre ++ (mid ++ [d]))).nextCall := by
  rw [← List.append_assoc]
  exact Nat.lt_of_lt_of_le walked.number (nextCall_le_concat _ d)

/-- A stop is left where it is by what neither moves it nor lets it return. -/
theorem Walked.mono (walked : Walked e pre mid)
    (calls : ∀ stage, ⟨(run pre).nextCall, e, stage⟩ ∈ (run (pre ++ (mid ++ [d]))).calls →
      ⟨(run pre).nextCall, e, stage⟩ ∈ (run (pre ++ mid)).calls)
    (silent : ¬ StopReturns e (run pre).nextCall (run (pre ++ mid)) d) :
    Walked e pre (mid ++ [d]) where
  number := walked.number_concat d
  stage stage hk := walked.stage stage (calls stage hk)
  stopping services hk s hs :=
    (walked.stopping services (calls _ hk) s hs).imp_right (·.append [d])
  draining hk s hs := (walked.draining (calls _ hk) s hs).append [d]
  returned h s hs := by
    refine (walked.returned ?_ s hs).append [d]
    exact (happened_next.1 h).resolve_right fun now => silent now.2

/-- **A stop goes on** when its hook returns, or when the scheduler has ended. -/
theorem Walked.conducted (walked : Walked e pre mid) {before after : Option Stage} {g : Engine}
    {p : Progress} (told : (run (pre ++ mid)).Told e (run pre).nextCall p d)
    (conducts : (run (pre ++ mid)).Conducts e (run pre).nextCall d before after g p)
    (calls : ∀ k stage, ⟨k, e, stage⟩ ∈ (run (pre ++ (mid ++ [d]))).calls ↔
      ⟨k, e, stage⟩ ∈ (run (pre ++ mid)).calls ∧ k ≠ (run pre).nextCall ∨
        k = (run pre).nextCall ∧ after = some stage)
    (begun : ∀ stage, before = some stage →
      ⟨(run pre).nextCall, e, stage⟩ ∈ (run (pre ++ mid)).calls) :
    Walked e pre (mid ++ [d]) := by
  cases conducts with
  | registers | loads | begins | stops =>
    -- A call that begins now has another number.
    have number : (run (pre ++ mid)).nextCall = (run pre).nextCall :=
      congrArg Prod.snd (Option.some.inj told.party)
    exact absurd walked.number (by rw [number]; exact Nat.lt_irrefl _)
  | loaded | drops | started | abandons | abandoned =>
    -- The stop is at none of these stages.
    rcases walked.stage _ (begun _ rfl) with other | ⟨_, other⟩ <;> cases other
  | stopped result next =>
    exact Walked.stopsNext told next (walked.number_concat _) (fun _ => stage_of_call calls)
      (walked.stopping _ (begun _ rfl)) walked.returned
  | drained ended =>
    exact walked_of_entered (walked.number_concat _)
      (fun _ hk => absurd rfl (others_of_ended calls rfl hk).2)
      fun s hs => (walked.draining (begun _ rfl) s hs).append _

/-- A stop goes on as it should. -/
theorem Walked.step (walked : Walked e pre mid) (d : Event) : Walked e pre (mid ++ [d]) := by
  have on := on_step (pre ++ mid) d e
  rw [← run_concat, List.append_assoc] at on
  cases on with
  | apart engine calls silent =>
    refine walked.mono (fun stage => calls _ stage) fun told => ?_
    obtain ⟨⟨error, other⟩, -⟩ := silent _ _ told
    cases other
  | made r absent engine calls silent =>
    exact walked.mono (fun stage hk => absurd hk (calls _ stage)) fun told => silent _ _ told
  | released engine calls silent =>
    exact walked.mono (fun stage hk => absurd hk (calls _ stage)) fun told => silent _ _ told
  | @conducted c before after g p told conducts engine calls begun new =>
    by_cases own : c = (run pre).nextCall
    · subst own
      exact walked.conducted told conducts calls begun
    · -- Another call leaves the stop where it is.
      refine walked.mono (fun stage hk => ?_) fun returns => own (Told.unique told returns).2.1.symm
      rcases (calls _ stage).1 hk with ⟨old, -⟩ | ⟨same, -⟩
      · exact old
      · exact absurd same.symm own

/-- **A stop has come as far as it should**, whatever else goes on. -/
theorem walked_run (can : (Event.stopEngine e).canHappen (run pre) = true) (more : List Event) :
    Walked e pre (.stopEngine e :: more) := by
  induction more using List.reverseRecOn with
  | nil => exact walked_stopEngine can
  | append_singleton more d ih => exact ih.step d

/-! ## After a stop -/

/-- A stop returns when the scheduler has ended, or was never started; the engine is stopped
then. -/
theorem Conducts.stopped_of_returns {before after : Option Stage} {g : Engine} {p : Progress}
    (h : w.Conducts e c d before after g p) (returns : p = .done .stopped) :
    g.state = .stopped ∧ (¬ w.Lives (w.engine e).scheduler ∨
      (w.scheduler (w.engine e).scheduler).outcome.isSome = true) := by
  have winds {stage : Stage} (next : w.Winds (w.engine e) c stage after g p) :
      g.state = .stopped ∧ (¬ w.Lives (w.engine e).scheduler ∨
        (w.scheduler (w.engine e).scheduler).outcome.isSome = true) := by
    cases next with
    | waits | abandoned => cases returns
    | drained ended => exact ⟨rfl, .inl ended⟩
  cases h with
  | registers | loads | loaded | drops | abandoned => cases returns
  | begins _ next | started _ next =>
    obtain ⟨_, _, -, -, -, other⟩ | ⟨-, -, -, other⟩ := next.inversion <;>
      cases returns.symm.trans other
  | abandons _ next => exact winds next
  | stops next | stopped _ next =>
    obtain ⟨_, _, -, -, -, other⟩ | ⟨-, next⟩ := next.inversion
    · cases returns.symm.trans other
    · exact winds next
  | drained ended => exact ⟨rfl, .inr ended⟩

/-- **Only a start that returns makes an engine run.** -/
theorem Conducts.running {before after : Option Stage} {g : Engine} {p : Progress}
    (h : w.Conducts e c d before after g p) (running : g.state = .running) :
    (w.engine e).state = .running ∨ p = .done .started := by
  cases h with
  | registers accepts | loads accepts =>
    exact .inl ((Engine.accept_some accepts).state ▸ running)
  | begins _ next | started _ next =>
    obtain ⟨_, _, -, -, rfl, -⟩ | ⟨-, -, -, started⟩ := next.inversion
    · exact .inl running
    · exact .inr started
  | loaded | drops | abandoned => exact .inl running
  | abandons _ winds => exact .inl ((winds.eases rfl).state running)
  | stops next | stopped _ next => exact .inl (next.eases.state running)
  | drained => cases running

/-- An engine that is stopped is so still, unless a start of it returns. -/
theorem stopped_run (es more : List Event) (stopped : ((run es).engine e).state = .stopped) :
    ((run (es ++ more)).engine e).state = .stopped ∨ Happened (run es) (StartReturns e) more := by
  induction more using List.reverseRecOn with
  | nil => exact .inl (by simpa using stopped)
  | append_singleton more d ih =>
    rcases ih with still | started
    · have on := on_step (es ++ more) d e
      rw [← run_concat, List.append_assoc] at on
      cases on with
      | apart engine | released engine => exact .inl (by rw [engine, still])
      | made r absent engine => exact .inl (by rw [engine])
      | conducted told conducts engine =>
        cases state : ((run (es ++ (more ++ [d]))).engine e).state with
        | stopped => exact .inl rfl
        | running =>
          rw [engine] at state
          rcases conducts.running state with running | rfl
          · rw [still] at running
            cases running
          · exact .inr (happened_next.2 (.inr ⟨canHappen_of_progress told.progress, _, told⟩))
    · exact .inr (started.append [d])

/-- A scheduler that has been started and lives no more has ended. -/
theorem terminal_of_not_lives {r : SchedulerRef} (sound : (w.scheduler r).Sound)
    (busy : (w.scheduler r).state ≠ .idle)
    (ended : ¬ w.Lives r ∨ (w.scheduler r).outcome.isSome = true) :
    (w.scheduler r).state.isTerminal = true := by
  cases sound with
  | idle state => exact absurd state busy
  | running state _ outcome | stopping state _ outcome =>
    rcases ended with dead | settled
    · exact absurd (by simp [Lives, state]) dead
    · rw [outcome] at settled
      cases settled
  | stopped state | faulted _ state => rw [state]; rfl

/-- **When a stop returns** the engine is stopped and its scheduler has ended. -/
theorem stopped_of_returns {es : List Event} (returns : StopReturns e c (run es) d)
    (busy : ((run es).scheduler ((run es).engine e).scheduler).state ≠ .idle) :
    ((run (es ++ [d])).engine e).state = .stopped ∧
      ((run es).scheduler ((run es).engine e).scheduler).state.isTerminal = true := by
  have on := on_step es d e
  rw [← run_concat] at on
  cases on with
  | apart engine calls silent =>
    obtain ⟨⟨error, other⟩, -⟩ := silent _ _ returns
    cases other
  | made r absent engine calls silent | released engine calls silent =>
    exact absurd returns (silent _ _)
  | conducted told conducts engine =>
    obtain ⟨stopped, ended⟩ := conducts.stopped_of_returns (told.unique returns).2.2.symm
    exact ⟨engine ▸ stopped, terminal_of_not_lives (sound_run es _) busy ended⟩

/-- **What a stop leaves behind.** A stop of an engine that was called after a start of it has
returned. Whatever happens afterwards, the engine is stopped, unless a start of it has returned
since; its scheduler has ended; and between its call and its return the stop has entered the
stop hook of every service that was registered when it was called, so that of every service
whose start hook had returned `Ok` by then. -/
theorem stop_complete (stops : Stops e pre mid) (begun : Happened {} (StartCalled e) pre)
    (post : List Event) :
    (((run (pre ++ mid ++ post)).engine e).state = .stopped ∨
        Happened (run (pre ++ mid)) (StartReturns e) post) ∧
      ((run (pre ++ mid ++ post)).scheduler
        ((run (pre ++ mid ++ post)).engine e).scheduler).state.isTerminal = true ∧
      ∀ s, s ∈ ((run pre).engine e).services ∨ Started e s pre → Entered e pre mid s := by
  obtain ⟨⟨rest, rfl⟩, can, front, d, split, returns⟩ := stops
  have walked := walked_run can rest
  have held := released_of_hasEngine can
  have here : e < (run pre).engines.length := length_of_hasEngine can
  have entered : ∀ s ∈ ((run pre).engine e).services,
      Entered e pre (.stopEngine e :: rest) s := by
    refine walked.returned ?_
    rw [split]
    exact happened_next.2 (.inr ⟨canHappen_of_progress returns.progress, returns⟩)
  have busy : ((run (pre ++ front)).scheduler ((run (pre ++ front)).engine e).scheduler).state ≠
      .idle := by
    rw [(scheduler_run pre front here).2]
    exact started_run _ pre front (not_idle_of_startCalled begun)
  obtain ⟨stopped, terminal⟩ := stopped_of_returns returns busy
  have whole : pre ++ front ++ [d] = pre ++ .stopEngine e :: rest := by
    rw [List.append_assoc, ← split]
  rw [whole] at stopped
  refine ⟨stopped_run _ post stopped, ?_, ?_⟩
  · rw [← whole, List.append_assoc _ [d],
      (scheduler_run (pre ++ front) _ (scheduler_run pre front here).1).2,
      (terminal_run _ (pre ++ front) _ terminal).1]
    exact terminal
  · rintro s (known | started)
    · exact entered s known
    · refine entered s (((accounted_run pre e).kept s (.inr started)).resolve_right ?_)
      simp [held]

/-! ## What gets past a stop -/

/-- An engine is being started: the start waits for the hook of a service. -/
def startingRun : List Event :=
  [.newScheduler ⟨"loop"⟩ .zero .zero, .newEngine 0,
    .load 0 { tag := 0, kind := 0, name := "slow" }, .startEngine 0 (.script [])]

/-- A stop of it, which enters the stop hook of the service and waits for the scheduler. -/
def overtakingStop : List Event :=
  [.stopEngine 0, .hookReturned 1 (.ok none), .poll 0, .schedulerEnded 1]

/-- The stop leaves the engine stopped, until the start returns. -/
theorem stop_complete_of_overtakingStop :
    Stops 0 startingRun overtakingStop ∧ Happened {} (StartCalled 0) startingRun ∧
      (((run (startingRun ++ overtakingStop ++ [])).engine 0).state = .stopped ∨
        Happened (run (startingRun ++ overtakingStop)) (StartReturns 0) []) ∧
      ((run (startingRun ++ overtakingStop ++ [])).scheduler
        ((run (startingRun ++ overtakingStop ++ [])).engine 0).scheduler).state.isTerminal = true ∧
      ∀ s, s ∈ ((run startingRun).engine 0).services ∨ Started 0 s startingRun →
        Entered 0 startingRun overtakingStop s := by
  have stops : Stops 0 startingRun overtakingStop :=
    { called := ⟨_, rfl⟩
      can := by decide
      returned := ⟨overtakingStop.take 3, .schedulerEnded 1, rfl, rfl, rfl⟩ }
  have begun : Happened {} (StartCalled 0) startingRun :=
    ⟨startingRun.take 3, _, [], rfl, by decide, _, rfl⟩
  exact ⟨stops, begun, stop_complete stops begun []⟩

/-- **A start outlives a stop**: it returns after the stop has, and the engine runs without a
scheduler, for good. -/
theorem start_outlives_stop :
    Stops 0 startingRun overtakingStop ∧ Happened {} (StartCalled 0) startingRun ∧
      (run (startingRun ++ overtakingStop ++ [.hookReturned 0 (.ok none)])).calls.length = 0 ∧
      ((run (startingRun ++ overtakingStop ++ [.hookReturned 0 (.ok none)])).engine 0).state =
        .running ∧
      ((run (startingRun ++ overtakingStop ++ [.hookReturned 0 (.ok none)])).scheduler 0).state =
        .stopped := by
  refine ⟨?_, ⟨startingRun.take 3, _, [], rfl, by decide, _, rfl⟩, rfl, rfl, rfl⟩
  exact
    { called := ⟨_, rfl⟩
      can := by decide
      returned := ⟨overtakingStop.take 3, .schedulerEnded 1, rfl, rfl, rfl⟩ }

/-- A service that nobody has loaded yet. -/
def lateService : Service := { tag := 1, kind := 1, name := "late" }

/-- A stop of the engine, once it runs. While the stop waits for the hook of the first service
another is loaded, and started. -/
def crossedStop : List Event :=
  [.stopEngine 0, .load 0 lateService, .hookReturned 2 (.ok none), .hookReturned 1 (.ok none),
    .poll 0, .schedulerEnded 1]

/-- **A service that is loaded while a stop waits gets past it**: it is started, and its stop
hook is never entered. -/
theorem late_service_unstopped :
    Stops 0 (startingRun ++ [.hookReturned 0 (.ok none)]) crossedStop ∧
      Happened {} (StartCalled 0) (startingRun ++ [.hookReturned 0 (.ok none)]) ∧
      (run (startingRun ++ [.hookReturned 0 (.ok none)] ++ crossedStop)).calls.length = 0 ∧
      Started 0 lateService (startingRun ++ [.hookReturned 0 (.ok none)] ++ crossedStop) ∧
      ∀ c, ¬ Happened {} (EntersStop 0 c lateService)
        (startingRun ++ [.hookReturned 0 (.ok none)] ++ crossedStop) := by
  refine ⟨?_, ⟨startingRun.take 3, _, _, rfl, by decide, _, rfl⟩, rfl, ?_, fun c => ?_⟩
  · exact
      { called := ⟨_, rfl⟩
        can := by decide
        returned := ⟨crossedStop.take 5, .schedulerEnded 1, rfl, rfl, rfl⟩ }
  · refine ⟨startingRun ++ [.hookReturned 0 (.ok none)] ++ crossedStop.take 2,
      .hookReturned 2 (.ok none), crossedStop.drop 3, rfl, by decide, 2, none, rfl, .inl ?_⟩
    exact List.mem_append_right _ (List.mem_singleton_self _)
  · simp only [startingRun, crossedStop, List.cons_append, List.nil_append, happened_cons,
      not_happened_nil, or_false]
    rintro (h | h | h | h | h | h | h | h | h | h | h) <;> cases h.2.progress

end World

end FrameLoop

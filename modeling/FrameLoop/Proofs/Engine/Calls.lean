import FrameLoop.Proofs.Run.Frame

/-!
# What an event does to the engines

A call on an engine is a sequence of events, and calls on one engine may overlap. This
module says once what each of these events does, so that a law about engines is a case
analysis over it: `Conducts` lists what a call may do at an event, by the stage that it is
at before and after, by what becomes of its engine and by what its caller is told.

The lemmas about `InHand` say that the functions that take a call from one place where it
waits to the next do one of these things, and nothing else to engines and calls
(`Becomes`).
-/

namespace FrameLoop

open Engine (Call Progress Result Stage)

/-! ## What a call does -/

/-- **What comes of starting services**, one after the other: the start hook of the first
is to run, or the engine is running, if there are none. -/
inductive Engine.StartsNext (g : Engine) (c : CallRef) :
    List Service → Option Stage → Engine → Progress → Prop where
  | hook (s : Service) (rest : List Service) :
    StartsNext g c (s :: rest) (some (.starting (s :: rest))) g (.enterStart c s)
  | finished : StartsNext g c [] none { g with state := .running } (.done .started)

namespace World

/-- Whether a scheduler has to be waited for until it ends. -/
def Lives (w : World) (r : SchedulerRef) : Prop :=
  (w.scheduler r).state = .running ∨ (w.scheduler r).state = .stopping

/-- **What comes of stopping the scheduler of an engine**: it is waited for, or the call is
over. -/
inductive Winds (w : World) (g : Engine) (c : CallRef) :
    Stage → Option Stage → Engine → Progress → Prop where
  | waits {stage : Stage} (lives : w.Lives g.scheduler) :
    Winds w g c stage (some stage) g (.awaitEnd c g.scheduler)
  | drained (ended : ¬ w.Lives g.scheduler) :
    Winds w g c .draining none { g with state := .stopped } (.done .stopped)
  | abandoned (error : EngineError) (ended : ¬ w.Lives g.scheduler) :
    Winds w g c (.abandoning error) none g (.done (.failed error))

/-- **What comes of stopping services**, one after the other: the stop hook of the first is
to run, or the scheduler is stopped, if there are none. -/
inductive StopsNext (w : World) (g : Engine) (c : CallRef) :
    List Service → Option Stage → Engine → Progress → Prop where
  | hook (s : Service) (rest : List Service) :
    StopsNext w g c (s :: rest) (some (.stopping (s :: rest))) g (.enterStop c s)
  | finished {after : Option Stage} {g' : Engine} {p : Progress}
    (winds : Winds w g c .draining after g' p) : StopsNext w g c [] after g' p

/-- **What a call does at an event**: from the stage that it is at, if it has begun, to the
stage at which it is then, if it is not over; what becomes of its engine; and what the
caller is told. -/
inductive Conducts (w : World) (e : EngineRef) (c : CallRef) :
    Event → Option Stage → Option Stage → Engine → Progress → Prop where
  | registers {s : Service} {g : Engine} (accepts : (w.engine e).accept s = some g)
    (still : (w.engine e).state ≠ .running) :
    Conducts w e c (.load e s) none none g (.done (.loaded s.name))
  | loads {s : Service} {g : Engine} (accepts : (w.engine e).accept s = some g)
    (running : (w.engine e).state = .running) :
    Conducts w e c (.load e s) none (some (.loading s)) g (.enterStart c s)
  | begins {source : Source} {after : Option Stage} {g : Engine} {p : Progress}
    (idle : (w.scheduler (w.engine e).scheduler).state = .idle)
    (next : (w.engine e).StartsNext c (w.engine e).services after g p) :
    Conducts w e c (.startEngine e source) none after g p
  | loaded {s : Service} (job : Option JobRef) :
    Conducts w e c (.hookReturned c (.ok job)) (some (.loading s)) none (w.engine e)
      (.done (.loaded s.name))
  | drops {s : Service} (cause : Cause) :
    Conducts w e c (.hookReturned c (.failed cause)) (some (.loading s)) none
      ((w.engine e).drop s.kind) (.done (.failed (.serviceStart s.name cause)))
  | started {s : Service} {rest : List Service} (job : Option JobRef) {after : Option Stage}
    {g : Engine} {p : Progress} (next : (w.engine e).StartsNext c rest after g p) :
    Conducts w e c (.hookReturned c (.ok job)) (some (.starting (s :: rest))) after g p
  | abandons {s : Service} {rest : List Service} (cause : Cause) {after : Option Stage}
    {g : Engine} {p : Progress}
    (winds : w.Winds (w.engine e) c (.abandoning (.serviceStart s.name cause)) after g p) :
    Conducts w e c (.hookReturned c (.failed cause)) (some (.starting (s :: rest))) after g p
  | stops {after : Option Stage} {g : Engine} {p : Progress}
    (next : w.StopsNext (w.engine e) c (w.engine e).services.reverse after g p) :
    Conducts w e c (.stopEngine e) none after g p
  | stopped {s : Service} {rest : List Service} (result : HookResult) {after : Option Stage}
    {g : Engine} {p : Progress} (next : w.StopsNext (w.engine e) c rest after g p) :
    Conducts w e c (.hookReturned c result) (some (.stopping (s :: rest))) after g p
  | drained (ended : (w.scheduler (w.engine e).scheduler).outcome.isSome = true) :
    Conducts w e c (.schedulerEnded c) (some .draining) none
      { w.engine e with state := .stopped } (.done .stopped)
  | abandoned (error : EngineError)
    (ended : (w.scheduler (w.engine e).scheduler).outcome.isSome = true) :
    Conducts w e c (.schedulerEnded c) (some (.abandoning error)) none (w.engine e)
      (.done (.failed error))

/-! ## What becomes of the world -/

/-- The calls are those of another world, apart from the call of a number, which is at a
stage of its own or over. -/
def CallsAt (w u : World) (e : EngineRef) (c : CallRef) (stage : Option Stage) : Prop :=
  ∀ k, k ∈ u.calls ↔
    k ∈ w.calls ∧ k.number ≠ c ∨ ∃ at_, stage = some at_ ∧ k = ⟨c, e, at_⟩

/-- **What becomes of engines and calls** at an event of a call: its engine is as said, the
call is at the stage said, and all others are as before. -/
structure Becomes (w w' : World) (e : EngineRef) (c : CallRef) (g : Engine)
    (stage : Option Stage) : Prop where
  engines : w'.engines = w.engines.set e g
  calls : CallsAt w w' e c stage
  grows : w.nextCall ≤ w'.nextCall
  numbered : stage ≠ none → c < w'.nextCall

/-- **Calls are numbered**, no two alike. Each belongs to an engine that is there, and one
that runs hooks has a service whose hook that is. -/
structure Numbered (w : World) : Prop where
  alike : ∀ k ∈ w.calls, ∀ l ∈ w.calls, k.number = l.number → k = l
  fresh : ∀ k ∈ w.calls, k.number < w.nextCall
  engine : ∀ k ∈ w.calls, k.engine < w.engines.length
  busy : ∀ k ∈ w.calls, k.stage ≠ .starting [] ∧ k.stage ≠ .stopping []

variable {w w' u : World} {e : EngineRef} {c : CallRef} {stage stage' : Stage}

/-- The engines, the calls and the number of the next call. -/
def affairs (w : World) : List Engine × List Call × CallRef := (w.engines, w.calls, w.nextCall)

theorem engines_of_affairs (h : w'.affairs = w.affairs) : w'.engines = w.engines :=
  congrArg Prod.fst h

theorem calls_of_affairs (h : w'.affairs = w.affairs) : w'.calls = w.calls :=
  congrArg (·.2.1) h

theorem nextCall_of_affairs (h : w'.affairs = w.affairs) : w'.nextCall = w.nextCall :=
  congrArg (·.2.2) h

@[simp] theorem affairs_setScheduler (w : World) (r : SchedulerRef) (s : Scheduler) :
    (w.setScheduler r s).affairs = w.affairs := by
  unfold setScheduler
  dsimp only
  split
  · split <;> rfl
  · rfl

@[simp] theorem affairs_tell (w : World) (ns : List Notice) : (w.tell ns).affairs = w.affairs := rfl

@[simp] theorem affairs_schedule (w : World) (r : SchedulerRef) (j : JobRef) :
    (w.schedule r j).2.affairs = w.affairs := by
  unfold schedule
  dsimp only
  split
  · rfl
  · exact affairs_setScheduler w r _

@[simp] theorem affairs_start (w : World) (r : SchedulerRef) (source : Source) :
    (w.start r source).2.affairs = w.affairs := by
  unfold start
  dsimp only
  split
  · exact affairs_setScheduler w r _
  · split <;> rfl

@[simp] theorem affairs_stop (w : World) (r : SchedulerRef) :
    (w.stop r).2.affairs = w.affairs := by
  unfold stop
  dsimp only
  split
  · exact affairs_setScheduler w r _
  · rfl
  · rfl

@[simp] theorem affairs_serviceStarted (w : World) (e : EngineRef) (s : Service)
    (job : Option JobRef) : (w.serviceStarted e s job).affairs = w.affairs := by
  cases job with
  | none => rfl
  | some j => exact affairs_schedule w _ j

/-! ### The calls -/

/-- The call of a number is one of the calls. -/
theorem of_call? {k : Call} (h : w.call? c = some k) : k ∈ w.calls ∧ k.number = c :=
  ⟨List.mem_of_find?_eq_some h, by simpa using List.find?_some h⟩

/-- A call is found by its number. -/
theorem Numbered.call? (numbered : w.Numbered) {k : Call} (h : k ∈ w.calls) :
    w.call? k.number = some k := by
  cases found : w.call? k.number with
  | none =>
    have absent := List.find?_eq_none.1 found k h
    simp at absent
  | some l => rw [numbered.alike l (of_call? found).1 k h (of_call? found).2]

/-- A call that is under way is where it is. -/
theorem Numbered.callsAt (numbered : w.Numbered) {number : CallRef}
    (h : w.call? c = some ⟨number, e, stage⟩) : CallsAt w w e c (some stage) := by
  obtain ⟨here, rfl⟩ := of_call? h
  intro k
  constructor
  · intro hk
    by_cases same : k.number = number
    · exact .inr ⟨stage, rfl, numbered.alike k hk _ here same⟩
    · exact .inl ⟨hk, same⟩
  · rintro (⟨hk, -⟩ | ⟨at_, same, rfl⟩)
    · exact hk
    · cases same
      exact here

/-- A call that has just been opened. -/
theorem Numbered.callsAt_openCall (numbered : w.Numbered) (e : EngineRef) (stage : Stage) :
    CallsAt w (w.openCall e stage).2 e w.nextCall (some stage) := by
  intro k
  show k ∈ w.calls ++ [_] ↔ _
  rw [List.mem_append, List.mem_singleton]
  constructor
  · rintro (old | rfl)
    · exact .inl ⟨old, Nat.ne_of_lt (numbered.fresh k old)⟩
    · exact .inr ⟨stage, rfl, rfl⟩
  · rintro (⟨old, -⟩ | ⟨at_, same, rfl⟩)
    · exact .inl old
    · cases same
      exact .inr rfl

namespace CallsAt

theorem call? (h : CallsAt w u e c (some stage)) : u.call? c = some ⟨c, e, stage⟩ := by
  have here : (⟨c, e, stage⟩ : Call) ∈ u.calls := (h _).2 (.inr ⟨stage, rfl, rfl⟩)
  cases found : u.call? c with
  | none =>
    have absent := List.find?_eq_none.1 found _ here
    simp at absent
  | some k =>
    obtain ⟨hk, number⟩ := of_call? found
    rcases (h k).1 hk with ⟨-, other⟩ | ⟨at_, same, rfl⟩
    · exact absurd number other
    · cases same
      rfl

theorem setStage (h : CallsAt w u e c (some stage)) (stage' : Stage) :
    CallsAt w (u.setStage c stage') e c (some stage') := by
  intro k
  show k ∈ u.calls.map _ ↔ _
  rw [List.mem_map]
  constructor
  · rintro ⟨l, hl, rfl⟩
    rcases (h l).1 hl with ⟨old, other⟩ | ⟨at_, same, rfl⟩
    · rw [if_neg other]
      exact .inl ⟨old, other⟩
    · rw [if_pos rfl]
      exact .inr ⟨stage', rfl, rfl⟩
  · rintro (⟨old, other⟩ | ⟨at_, same, rfl⟩)
    · exact ⟨k, (h k).2 (.inl ⟨old, other⟩), if_neg other⟩
    · cases same
      exact ⟨⟨c, e, stage⟩, (h _).2 (.inr ⟨stage, rfl, rfl⟩), if_pos rfl⟩

theorem closeCall (h : CallsAt w u e c (some stage)) : CallsAt w (u.closeCall c) e c none := by
  intro k
  show k ∈ u.calls.filter _ ↔ _
  rw [List.mem_filter, h]
  constructor
  · rintro ⟨⟨old, other⟩ | ⟨at_, same, rfl⟩, open_⟩
    · exact .inl ⟨old, other⟩
    · simp at open_
  · rintro (⟨old, other⟩ | ⟨at_, same, -⟩)
    · exact ⟨.inl ⟨old, other⟩, by simpa using other⟩
    · cases same

theorem congr (h : CallsAt w u e c (some stage)) (calls : w'.calls = u.calls) :
    CallsAt w w' e c (some stage) := by
  intro k
  rw [calls, h]

end CallsAt

/-! ### The engines -/

theorem set_engine (w : World) (e : EngineRef) : w.engines.set e (w.engine e) = w.engines := by
  by_cases here : e < w.engines.length
  · simp [engine, here]
  · exact List.set_eq_of_length_le (Nat.le_of_not_lt here)

theorem engine_congr (h : w'.engines = w.engines) (e : EngineRef) : w'.engine e = w.engine e := by
  rw [engine, h, engine]

/-- The engine of the call is as said. -/
theorem Becomes.engine {g : Engine} {stage : Option Stage} (h : Becomes w w' e c g stage)
    (here : e < w.engines.length) : w'.engine e = g := by
  simp [World.engine, h.engines, here]

/-- The other engines are as before. -/
theorem Becomes.engine_ne {g : Engine} {stage : Option Stage} (h : Becomes w w' e c g stage)
    {i : EngineRef} (other : i ≠ e) : w'.engine i = w.engine i := by
  simp [World.engine, h.engines, Ne.symm other]

/-! ## Going on

`u` is the world in which a call goes on. It is `w`, with the call at some stage and
perhaps something changed that is neither engine nor call. -/

/-- **A call is in hand**: it is under way in a world that has the engines and the other
calls of `w`. -/
structure InHand (w u : World) (e : EngineRef) (c : CallRef) : Prop where
  engines : u.engines = w.engines
  calls : ∃ stage, CallsAt w u e c (some stage)
  grows : w.nextCall ≤ u.nextCall
  numbered : c < u.nextCall

theorem InHand.engine (h : InHand w u e c) : u.engine e = w.engine e := engine_congr h.engines e

theorem InHand.congr (h : InHand w u e c) (same : w'.affairs = u.affairs) : InHand w w' e c where
  engines := (engines_of_affairs same).trans h.engines
  calls := h.calls.imp fun _ calls => calls.congr (calls_of_affairs same)
  grows := nextCall_of_affairs same ▸ h.grows
  numbered := nextCall_of_affairs same ▸ h.numbered

theorem InHand.setStage (h : InHand w u e c) (stage : Stage) :
    InHand w (u.setStage c stage) e c where
  engines := h.engines
  calls := h.calls.elim fun _ calls => ⟨stage, calls.setStage stage⟩
  grows := h.grows
  numbered := h.numbered

/-- Only engines and calls matter to what has become of them. -/
theorem Becomes.congr {g : Engine} {stage : Option Stage} (h : Becomes w u e c g stage)
    (same : w'.affairs = u.affairs) : Becomes w w' e c g stage where
  engines := (engines_of_affairs same).trans h.engines
  calls k := by
    rw [calls_of_affairs same]
    exact h.calls k
  grows := nextCall_of_affairs same ▸ h.grows
  numbered := nextCall_of_affairs same ▸ h.numbered

/-- The call moves on to a stage. -/
theorem InHand.moves (h : InHand w u e c) (stage : Stage) :
    Becomes w (u.setStage c stage) e c (w.engine e) (some stage) where
  engines := h.engines.trans (w.set_engine e).symm
  calls := h.calls.elim fun _ calls => calls.setStage stage
  grows := h.grows
  numbered _ := h.numbered

/-- The call is over, and the engine may have changed. -/
theorem InHand.ends (h : InHand w u e c) (g : Engine) :
    Becomes w ((u.setEngine e g).closeCall c) e c g none where
  engines := congrArg (·.set e g) h.engines
  calls := h.calls.elim fun _ calls => CallsAt.closeCall (calls.congr rfl)
  grows := h.grows
  numbered some := absurd rfl some

theorem InHand.closes (h : InHand w u e c) : Becomes w (u.closeCall c) e c (w.engine e) none where
  engines := h.engines.trans (w.set_engine e).symm
  calls := h.calls.elim fun _ calls => calls.closeCall
  grows := h.grows
  numbered some := absurd rfl some

/-- **What `startNext` does.** -/
theorem InHand.startNext (h : InHand w u e c) (services : List Service) :
    ∃ after g, (w.engine e).StartsNext c services after g (u.startNext c e services).1 ∧
      Becomes w (u.startNext c e services).2 e c g after := by
  cases services with
  | cons s rest => exact ⟨_, _, .hook s rest, h.moves _⟩
  | nil =>
    refine ⟨none, { w.engine e with state := .running }, .finished, ?_⟩
    rw [← h.engine]
    exact (h.congr (affairs_tell u _)).ends { u.engine e with state := .running }

/-- Whether the scheduler lives does not change while the call goes on. -/
theorem lives_congr {r : SchedulerRef} (h : u.scheduler r = w.scheduler r) :
    u.Lives r ↔ w.Lives r := by
  rw [Lives, h, Lives]

/-- Asking a scheduler to stop answers whether it lives. -/
theorem stop_fst (w : World) (r : SchedulerRef) : (w.stop r).1 = true ↔ w.Lives r := by
  unfold stop Lives
  dsimp only
  split
  · next running => simp [running]
  · next stopping => simp [stopping]
  · next notRunning notStopping =>
    refine iff_of_false Bool.false_ne_true ?_
    rintro (running | stopping)
    · exact notRunning running
    · exact notStopping stopping

/-- **What `schedulerEnded` does** with a call that has run all stop hooks. -/
theorem InHand.drained (h : InHand w u e c) {number : CallRef}
    (here : u.call? c = some ⟨number, e, .draining⟩) :
    (u.schedulerEnded c).1 = .done .stopped ∧
      Becomes w (u.schedulerEnded c).2 e c { w.engine e with state := .stopped } none := by
  have ends :=
    (h.congr (affairs_tell u [.engineStopped])).ends { u.engine e with state := .stopped }
  unfold World.schedulerEnded
  rw [here]
  rw [h.engine] at ends
  exact ⟨rfl, h.engine ▸ ends⟩

/-- **What `schedulerEnded` does** with a call of which a start hook has failed. -/
theorem InHand.abandoned (h : InHand w u e c) {number : CallRef} {error : EngineError}
    (here : u.call? c = some ⟨number, e, .abandoning error⟩) :
    (u.schedulerEnded c).1 = .done (.failed error) ∧
      Becomes w (u.schedulerEnded c).2 e c (w.engine e) none := by
  unfold World.schedulerEnded
  rw [here]
  exact ⟨rfl, h.closes⟩

/-- **What `stopScheduler` does**, at the two stages from which it is called. -/
theorem InHand.stopScheduler (h : InHand w u e c) (stage : Stage)
    (ending : stage = .draining ∨ ∃ error, stage = .abandoning error)
    (scheduler : u.scheduler (w.engine e).scheduler = w.scheduler (w.engine e).scheduler) :
    ∃ after g, w.Winds (w.engine e) c stage after g (u.stopScheduler c e stage).1 ∧
      Becomes w (u.stopScheduler c e stage).2 e c g after := by
  have moved : ((u.setStage c stage).stop (w.engine e).scheduler).2.affairs =
      (u.setStage c stage).affairs := affairs_stop _ _
  have lives := (stop_fst (u.setStage c stage) (w.engine e).scheduler).trans
    (lives_congr (u := u.setStage c stage) scheduler)
  have inHand : InHand w ((u.setStage c stage).stop (w.engine e).scheduler).2 e c :=
    (h.setStage stage).congr moved
  have found : ((u.setStage c stage).stop (w.engine e).scheduler).2.call? c =
      some ⟨c, e, stage⟩ :=
    ((h.moves stage).calls.congr (calls_of_affairs moved)).call?
  unfold World.stopScheduler
  rw [h.engine]
  dsimp only
  split
  · next waits => exact ⟨_, _, .waits (lives.1 waits), (h.moves stage).congr moved⟩
  · next refuses =>
    have ended := fun alive => refuses (lives.2 alive)
    rcases ending with rfl | ⟨error, rfl⟩
    · obtain ⟨told, becomes⟩ := inHand.drained found
      exact ⟨none, _, told ▸ .drained ended, becomes⟩
    · obtain ⟨told, becomes⟩ := inHand.abandoned found
      exact ⟨none, _, told ▸ .abandoned error ended, becomes⟩

/-- **What `stopNext` does.** -/
theorem InHand.stopNext (h : InHand w u e c) (services : List Service)
    (scheduler : u.scheduler (w.engine e).scheduler = w.scheduler (w.engine e).scheduler) :
    ∃ after g, w.StopsNext (w.engine e) c services after g (u.stopNext c e services).1 ∧
      Becomes w (u.stopNext c e services).2 e c g after := by
  cases services with
  | cons s rest => exact ⟨_, _, .hook s rest, h.moves _⟩
  | nil =>
    obtain ⟨after, g, winds, becomes⟩ := h.stopScheduler .draining (.inl rfl) scheduler
    exact ⟨after, g, .finished winds, becomes⟩

end World

end FrameLoop

import FrameLoop.Proofs.Engine.Calls
import FrameLoop.Proofs.Engine.Entries

/-!
# What becomes of engines and calls

Most events have nothing to do with engines. `affairs_step` says once what each of them
can do to the engines and to the calls on them: nothing; a new engine; letting go of
engines; giving up a call whose hook has panicked; or what a call does there
(`Conducts`). No law about engines has to look inside the operations.

The inversion needs calls to be told apart by their numbers. `Numbered` says that they
are, and `numbered_run` that this is so after every run.
-/

namespace FrameLoop

namespace World

open Engine (Call Progress Result Stage)

variable {w w' u : World} {e : EngineRef} {c : CallRef} {stage : Stage}

/-- **What is told at an event** to the caller of the engine that it belongs to. -/
def progress (w : World) (d : Event) : Option Progress :=
  if d.canHappen w then
    match d with
    | .load e s => some (w.load e s).1
    | .startEngine e source => some (w.startEngine e source).1
    | .stopEngine e => some (w.stopEngine e).1
    | .hookReturned c result => some (w.hookReturned c result).1
    | .schedulerEnded c => some (w.schedulerEnded c).1
    | _ => none
  else none

/-- **What an event does to the engines and the calls.** -/
inductive Affairs (w : World) (d : Event) (w' : World) : Prop where
  | rests (same : w'.affairs = w.affairs) (silent : w.progress d = none)
  | refused (error : EngineError) (same : w'.affairs = w.affairs)
    (told : w.progress d = some (.done (.failed error)))
    (new : ∀ k, (∀ result, d ≠ .hookReturned k result) ∧ d ≠ .schedulerEnded k)
  | made (r : SchedulerRef) (here : r < w.schedulers.length) (silent : w.progress d = none)
    (engines : w'.engines = w.engines ++ [{ scheduler := r }]) (calls : w'.calls = w.calls)
    (next : w'.nextCall = w.nextCall)
  | released (host : Holdings) (silent : w.progress d = none)
    (engines : w'.engines = (w.releaseEngines host).engines) (calls : w'.calls = w.calls)
    (next : w'.nextCall = w.nextCall)
  | panicked (c : CallRef) (silent : w.progress d = none) (engines : w'.engines = w.engines)
    (calls : w'.calls = w.calls.filter (·.number != c)) (next : w'.nextCall = w.nextCall)
    (which : d = .hookPanicked c)
  | conducted {e : EngineRef} {c : CallRef} {before after : Option Stage} {g : Engine}
    {p : Progress} (told : w.progress d = some p) (conducts : Conducts w e c d before after g p)
    (becomes : Becomes w w' e c g after) (here : e < w.engines.length)
    (begun : ∀ stage, before = some stage → ⟨c, e, stage⟩ ∈ w.calls)
    (new : before = none → c = w.nextCall)

/-- A call begins. -/
theorem Affairs.begins {d : Event} {after : Option Stage} {g : Engine} {p : Progress}
    (told : w.progress d = some p) (conducts : Conducts w e c d none after g p)
    (becomes : Becomes w w' e c g after) (here : e < w.engines.length)
    (new : c = w.nextCall) : Affairs w d w' :=
  .conducted told conducts becomes here (by simp) fun _ => new

/-- A call that is under way goes on. -/
theorem Affairs.goesOn {d : Event} {after : Option Stage} {g : Engine} {p : Progress}
    (told : w.progress d = some p) (conducts : Conducts w e c d (some stage) after g p)
    (becomes : Becomes w w' e c g after) (here : e < w.engines.length)
    (known : ⟨c, e, stage⟩ ∈ w.calls) : Affairs w d w' :=
  .conducted told conducts becomes here (fun _ same => Option.some.inj same ▸ known) (by simp)

theorem affairs_unschedule (w : World) (id : JobId) (r : SchedulerRef) (j : JobRef) :
    (w.unschedule id r j).2.affairs = w.affairs := by
  unfold unschedule
  dsimp only
  split
  · exact affairs_setScheduler w r _
  · rfl

theorem affairs_rouse (w : World) (r : SchedulerRef) : (w.rouse r).affairs = w.affairs := by
  obtain same | ⟨loop, -, -, -, -, wakes⟩ := w.rouse_cases r
  · rw [same]
  · rw [wakes]
    exact affairs_setScheduler w r _

theorem affairs_poll (w : World) (r : SchedulerRef) : (w.poll r).2.affairs = w.affairs := by
  obtain move | ⟨move, -⟩ := w.poll_cases r
  · rw [move]
    exact affairs_setScheduler _ r _
  · rw [move]

theorem affairs_attach (w : World) (p j : JobRef) : (w.attach p j).2.affairs = w.affairs := by
  unfold attach
  split <;> rfl

section Step

variable (numbered : w.Numbered)
include numbered

/-- Nothing is at the number of the next call. -/
theorem Numbered.callsAt_next (e : EngineRef) : CallsAt w w e w.nextCall none := by
  intro k
  constructor
  · intro hk
    exact .inl ⟨hk, Nat.ne_of_lt (numbered.fresh k hk)⟩
  · rintro (⟨hk, -⟩ | ⟨at_, same, -⟩)
    · exact hk
    · cases same

/-- A call that has just been opened is in hand. -/
theorem Numbered.opened (same : u.affairs = w.affairs) (e : EngineRef) (stage : Stage) :
    InHand w (u.openCall e stage).2 e w.nextCall where
  engines := (engines_of_affairs same : u.engines = w.engines)
  calls := by
    refine ⟨stage, (numbered.callsAt_openCall e stage).congr ?_⟩
    show u.calls ++ [⟨u.nextCall, e, stage⟩] = w.calls ++ [⟨w.nextCall, e, stage⟩]
    rw [calls_of_affairs same, nextCall_of_affairs same]
  grows := by
    show w.nextCall ≤ u.nextCall + 1
    rw [nextCall_of_affairs same]
    exact Nat.le_succ _
  numbered := by
    show w.nextCall < u.nextCall + 1
    rw [nextCall_of_affairs same]
    exact Nat.lt_succ_self _

/-- A call that is under way is in hand. -/
theorem Numbered.inHand (here : w.call? c = some ⟨c, e, stage⟩) (same : u.affairs = w.affairs) :
    InHand w u e c where
  engines := engines_of_affairs same
  calls := ⟨stage, (numbered.callsAt here).congr (calls_of_affairs same)⟩
  grows := Nat.le_of_eq (nextCall_of_affairs same).symm
  numbered := by
    rw [nextCall_of_affairs same]
    exact numbered.fresh _ (of_call? here).1

theorem affairs_load {s : Service} (can : (Event.load e s).canHappen w = true) :
    Affairs w (.load e s) (w.load e s).2 := by
  have told : w.progress (.load e s) = some (w.load e s).1 := if_pos can
  have here : e < w.engines.length := by
    simp only [Event.canHappen, Bool.and_eq_true] at can
    exact length_of_hasEngine can.1
  unfold load at told ⊢
  split at told
  · next refused =>
    exact .refused _ rfl told (by simp)
  · next g accepts =>
    have state := (Engine.accept_some accepts).state
    dsimp only at told ⊢
    split at told
    · next running =>
      rw [if_pos running]
      refine .begins told (.loads accepts (state ▸ running)) ?_ here rfl
      exact
        { engines := rfl
          calls := numbered.callsAt_openCall e (.loading s)
          grows := Nat.le_succ _
          numbered := fun _ => Nat.lt_succ_self _ }
    · next still =>
      rw [if_neg still]
      refine .begins told (.registers accepts (state ▸ still)) ?_ here rfl
      exact
        { engines := rfl
          calls := numbered.callsAt_next e
          grows := Nat.le_refl _
          numbered := fun some => absurd rfl some }

/-- **A start begins** on an idle scheduler, with the services that there are, in order. -/
theorem Numbered.startEngine (idle : (w.scheduler (w.engine e).scheduler).state = .idle)
    (source : Source) : ∃ after g,
      (w.engine e).StartsNext w.nextCall (w.engine e).services after g
        (w.startEngine e source).1 ∧
      Becomes w (w.startEngine e source).2 e w.nextCall g after := by
  have same := affairs_start w (w.engine e).scheduler source
  have begins : (w.scheduler (w.engine e).scheduler).start source = .ok _ := if_pos idle
  unfold World.startEngine
  rw [World.start] at same ⊢
  rw [begins] at same ⊢
  dsimp only at same ⊢
  generalize World.tell _ _ = u at same ⊢
  have services : (u.engine e).services = (w.engine e).services := by
    rw [engine_congr (engines_of_affairs same)]
  rw [services, show (u.openCall e (.starting (w.engine e).services)).1 = w.nextCall from
    nextCall_of_affairs same]
  exact (numbered.opened same e (.starting (w.engine e).services)).startNext (w.engine e).services

theorem affairs_startEngine {source : Source}
    (can : (Event.startEngine e source).canHappen w = true) :
    Affairs w (.startEngine e source) (w.startEngine e source).2 := by
  have told : w.progress (.startEngine e source) = some (w.startEngine e source).1 := if_pos can
  have here : e < w.engines.length := by
    simp only [Event.canHappen, Bool.and_eq_true] at can
    exact length_of_hasEngine can.1
  by_cases idle : (w.scheduler (w.engine e).scheduler).state = .idle
  · obtain ⟨after, g, next, becomes⟩ := numbered.startEngine idle source
    exact .begins told (.begins idle next) becomes here rfl
  · rw [startEngine_of_busy idle] at told ⊢
    refine .refused _ ?_ told (by simp)
    unfold dropSource
    dsimp only
    split <;> rfl

/-- **A stop begins** with the services that there are, in the opposite order. -/
theorem Numbered.stopEngine : ∃ after g,
    w.StopsNext (w.engine e) w.nextCall (w.engine e).services.reverse after g (w.stopEngine e).1 ∧
      Becomes w (w.stopEngine e).2 e w.nextCall g after :=
  (numbered.opened rfl e (.stopping (w.engine e).services.reverse)).stopNext
    (w.engine e).services.reverse rfl

theorem affairs_stopEngine (can : (Event.stopEngine e).canHappen w = true) :
    Affairs w (.stopEngine e) (w.stopEngine e).2 := by
  have told : w.progress (.stopEngine e) = some (w.stopEngine e).1 := if_pos can
  obtain ⟨after, g, next, becomes⟩ := numbered.stopEngine (e := e)
  exact .begins told (.stops next) becomes (length_of_hasEngine can) rfl

theorem affairs_hookReturned {result : HookResult}
    (can : (Event.hookReturned c result).canHappen w = true) :
    Affairs w (.hookReturned c result) (w.hookReturned c result).2 := by
  have told : w.progress (.hookReturned c result) = some (w.hookReturned c result).1 := if_pos can
  simp only [Event.canHappen, Bool.and_eq_true] at can
  obtain ⟨⟨number, e, stage⟩, found, hook⟩ := (Option.any_eq_true _ _).1 can.1
  obtain ⟨known, rfl⟩ := of_call? found
  have here : e < w.engines.length := numbered.engine _ known
  unfold hookReturned at told ⊢
  rw [found] at told ⊢
  cases stage with
  | loading s =>
    cases result with
    | ok job =>
      have inHand := numbered.inHand found (affairs_serviceStarted w e s job)
      exact .goesOn told (.loaded job) inHand.closes here known
    | failed cause =>
      have inHand := numbered.inHand found (affairs_tell w [.serviceStartFailed s.name cause])
      exact .goesOn told (.drops cause) (inHand.ends _) here known
  | starting services =>
    cases services with
    | nil => exact absurd rfl (numbered.busy _ known).1
    | cons s rest =>
      cases result with
      | ok job =>
        have inHand := numbered.inHand found (affairs_serviceStarted w e s job)
        obtain ⟨after, g, next, becomes⟩ := inHand.startNext rest
        exact .goesOn told (.started job next) becomes here known
      | failed cause =>
        have inHand := numbered.inHand found (affairs_tell w [.serviceStartFailed s.name cause])
        obtain ⟨after, g, winds, becomes⟩ :=
          inHand.stopScheduler (.abandoning (.serviceStart s.name cause)) (.inr ⟨_, rfl⟩) rfl
        exact .goesOn told (.abandons cause winds) becomes here known
  | stopping services =>
    cases services with
    | nil => exact absurd rfl (numbered.busy _ known).2
    | cons s rest =>
      cases result with
      | ok job =>
        obtain ⟨after, g, next, becomes⟩ := (numbered.inHand found rfl).stopNext rest rfl
        exact .goesOn told (.stopped _ next) becomes here known
      | failed cause =>
        have inHand := numbered.inHand found (affairs_tell w [.serviceStopFailed s.name cause])
        obtain ⟨after, g, next, becomes⟩ := inHand.stopNext rest rfl
        exact .goesOn told (.stopped _ next) becomes here known
  | abandoning error => cases hook
  | draining => cases hook

theorem affairs_schedulerEnded (can : (Event.schedulerEnded c).canHappen w = true) :
    Affairs w (.schedulerEnded c) (w.schedulerEnded c).2 := by
  have told : w.progress (.schedulerEnded c) = some (w.schedulerEnded c).1 := if_pos can
  obtain ⟨⟨number, e, stage⟩, found, awaited⟩ := (Option.any_eq_true _ _).1 can
  obtain ⟨known, rfl⟩ := of_call? found
  have here : e < w.engines.length := numbered.engine _ known
  simp only [endAwaited, Bool.and_eq_true] at awaited
  cases stage with
  | loading s => cases awaited.1
  | starting services => cases awaited.1
  | stopping services => cases awaited.1
  | abandoning error =>
    obtain ⟨said, becomes⟩ := (numbered.inHand found rfl).abandoned found
    rw [said] at told
    exact .goesOn told (.abandoned error awaited.2) becomes here known
  | draining =>
    obtain ⟨said, becomes⟩ := (numbered.inHand found rfl).drained found
    rw [said] at told
    exact .goesOn told (.drained awaited.2) becomes here known

/-- **Every event does one of these things to the engines and the calls.** -/
theorem affairs_step (d : Event) : Affairs w d (w.step d).2 := by
  unfold step
  split
  · next can =>
    cases d with
    | load e s => exact affairs_load numbered can
    | startEngine e source => exact affairs_startEngine numbered can
    | stopEngine e => exact affairs_stopEngine numbered can
    | hookReturned c result => exact affairs_hookReturned numbered can
    | schedulerEnded c => exact affairs_schedulerEnded numbered can
    | newEngine r => exact .made r (length_of_hasScheduler can) (if_pos can) rfl rfl rfl
    | hookPanicked c => exact .panicked c (if_pos can) rfl rfl rfl rfl
    | sweep host => exact .released host (if_pos can) rfl rfl rfl
    | attach p j => exact .rests (affairs_attach w p j) (if_pos can)
    | schedule r j => exact .rests (affairs_schedule w r j) (if_pos can)
    | unschedule id r j => exact .rests (affairs_unschedule w id r j) (if_pos can)
    | setFrameDelay r d => exact .rests (affairs_setScheduler w r _) (if_pos can)
    | start r source => exact .rests (affairs_start w r source) (if_pos can)
    | signalStop r => exact .rests (affairs_setScheduler w r _) (if_pos can)
    | stop r => exact .rests (affairs_stop w r) (if_pos can)
    | rouse r => exact .rests (affairs_rouse w r) (if_pos can)
    | poll r => exact .rests (affairs_poll w r) (if_pos can)
    | returned r j v => exact .rests (affairs_setScheduler _ r _) (if_pos can)
    | newJob | eraseChild | newFeed | fire | addTrigger | dropTrigger | newScheduler | pass
    | tell | readLog => exact .rests rfl (if_pos can)
  · next cannot =>
    have silent : w.progress d = none := if_neg cannot
    exact .rests rfl silent

end Step

/-! ## The numbers of calls -/

/-- A call that waits for a scheduler stays at its stage until it is over. -/
theorem Winds.stays {g g' : Engine} {after : Option Stage} {p : Progress}
    (h : w.Winds g c stage after g' p) : after = none ∨ after = some stage := by
  cases h with
  | waits => exact .inr rfl
  | drained | abandoned => exact .inl rfl

/-- No call is at the start hook, or at the stop hook, of no service. -/
theorem Conducts.busy {d : Event} {before after : Option Stage} {g : Engine} {p : Progress}
    (h : w.Conducts e c d before after g p) :
    after ≠ some (.starting []) ∧ after ≠ some (.stopping []) := by
  have starts {services : List Service} (next : (w.engine e).StartsNext c services after g p) :
      after ≠ some (.starting []) ∧ after ≠ some (.stopping []) := by
    cases next with
    | hook | finished => simp
  have winds {stage : Stage} (next : w.Winds (w.engine e) c stage after g p)
      (hookless : stage ≠ .starting [] ∧ stage ≠ .stopping []) :
      after ≠ some (.starting []) ∧ after ≠ some (.stopping []) := by
    obtain rfl | rfl := next.stays
    · simp
    · simpa using hookless
  have stops {services : List Service} (next : w.StopsNext (w.engine e) c services after g p) :
      after ≠ some (.starting []) ∧ after ≠ some (.stopping []) := by
    cases next with
    | hook => simp
    | finished next => exact winds next (by simp)
  cases h with
  | registers | loads | loaded | drops | drained | abandoned => simp
  | begins _ next => exact starts next
  | started _ next => exact starts next
  | abandons _ next => exact winds next (by simp)
  | stops next => exact stops next
  | stopped _ next => exact stops next

/-- Calls that are told apart are told apart still when some of them are over. -/
theorem Numbered.mono (numbered : w.Numbered) (calls : ∀ k ∈ w'.calls, k ∈ w.calls)
    (next : w'.nextCall = w.nextCall) (engines : w.engines.length ≤ w'.engines.length) :
    w'.Numbered where
  alike k hk l hl := numbered.alike k (calls k hk) l (calls l hl)
  fresh k hk := next ▸ numbered.fresh k (calls k hk)
  engine k hk := Nat.lt_of_lt_of_le (numbered.engine k (calls k hk)) engines
  busy k hk := numbered.busy k (calls k hk)

/-- **Calls are told apart after an event** if they were before. -/
theorem Affairs.numbered {d : Event} (h : Affairs w d w') (numbered : w.Numbered) :
    w'.Numbered := by
  cases h with
  | rests same | refused _ same =>
    exact numbered.mono (fun k hk => calls_of_affairs same ▸ hk) (nextCall_of_affairs same)
      (Nat.le_of_eq (congrArg List.length (engines_of_affairs same)).symm)
  | made r _ _ engines calls next =>
    exact numbered.mono (fun k hk => calls ▸ hk) next (by simp [engines])
  | released host _ engines calls next =>
    exact numbered.mono (fun k hk => calls ▸ hk) next (by simp [engines, releaseEngines])
  | panicked c _ engines calls next =>
    exact numbered.mono (fun k hk => (List.mem_filter.1 (calls ▸ hk)).1) next
      (Nat.le_of_eq (congrArg List.length engines).symm)
  | @conducted e c before after g p told conducts becomes here begun new =>
    exact
      { alike := fun k hk l hl same => by
          rcases (becomes.calls k).1 hk with ⟨oldk, otherk⟩ | ⟨_, at_, rfl⟩ <;>
            rcases (becomes.calls l).1 hl with ⟨oldl, otherl⟩ | ⟨_, at_', rfl⟩
          · exact numbered.alike k oldk l oldl same
          · exact absurd same otherk
          · exact absurd same.symm otherl
          · rw [Option.some.inj (at_.symm.trans at_')]
        fresh := fun k hk => by
          rcases (becomes.calls k).1 hk with ⟨old, -⟩ | ⟨_, at_, rfl⟩
          · exact Nat.lt_of_lt_of_le (numbered.fresh k old) becomes.grows
          · exact becomes.numbered (by simp [at_])
        engine := fun k hk => by
          rw [becomes.engines, List.length_set]
          rcases (becomes.calls k).1 hk with ⟨old, -⟩ | ⟨_, -, rfl⟩
          · exact numbered.engine k old
          · exact here
        busy := fun k hk => by
          rcases (becomes.calls k).1 hk with ⟨old, -⟩ | ⟨_, at_, rfl⟩
          · exact numbered.busy k old
          · rw [at_] at conducts
            simpa using conducts.busy }

/-- No engine loses its number. -/
theorem Affairs.length_le {d : Event} (h : Affairs w d w') :
    w.engines.length ≤ w'.engines.length := by
  cases h with
  | rests same | refused _ same =>
    exact Nat.le_of_eq (congrArg List.length (engines_of_affairs same)).symm
  | made _ _ _ engines => simp [engines]
  | released _ _ engines => simp [engines, releaseEngines]
  | panicked _ _ engines => exact Nat.le_of_eq (congrArg List.length engines).symm
  | conducted _ _ becomes => simp [becomes.engines]

/-- No number is given to a call twice. -/
theorem Affairs.nextCall_le {d : Event} (h : Affairs w d w') : w.nextCall ≤ w'.nextCall := by
  cases h with
  | rests same | refused _ same => exact Nat.le_of_eq (nextCall_of_affairs same).symm
  | made _ _ _ _ _ next | released _ _ _ _ next | panicked _ _ _ _ next =>
    exact Nat.le_of_eq next.symm
  | conducted _ _ becomes => exact becomes.grows

/-- **Calls are told apart by their numbers after every run.** -/
theorem numbered_run (es : List Event) : (run es).Numbered := by
  refine run_keeps (P := Numbered) ?_ (fun _ d numbered => ?_) es
  · constructor <;> simp
  · exact (affairs_step numbered d).numbered numbered

theorem nextCall_le_concat (es : List Event) (d : Event) :
    (run es).nextCall ≤ (run (es ++ [d])).nextCall := by
  rw [run_concat]
  exact (affairs_step (numbered_run es) d).nextCall_le

/-! ## One engine -/

/-- The engine and the call that an event belongs to. -/
def party? (w : World) : Event → Option (EngineRef × CallRef)
  | .load e _ | .startEngine e _ | .stopEngine e => some (e, w.nextCall)
  | .hookReturned c _ | .schedulerEnded c => (w.call? c).map fun k => (k.engine, c)
  | _ => none

/-- **What a caller is told**: how far a call on an engine has come at an event. -/
structure Told (w : World) (e : EngineRef) (c : CallRef) (p : Progress) (d : Event) : Prop where
  party : w.party? d = some (e, c)
  progress : w.progress d = some p

/-- A caller is told one thing at an event, and nobody else is told anything. -/
theorem Told.unique {i : EngineRef} {k : CallRef} {p q : Progress} {d : Event}
    (h : w.Told e c p d) (h' : w.Told i k q d) : i = e ∧ k = c ∧ q = p := by
  have party := Option.some.inj (h'.party.symm.trans h.party)
  exact ⟨congrArg Prod.fst party, congrArg Prod.snd party,
    Option.some.inj (h'.progress.symm.trans h.progress)⟩

/-- Only an event that can happen tells a caller anything. -/
theorem canHappen_of_progress {d : Event} {p : Progress} (h : w.progress d = some p) :
    d.canHappen w = true := by
  by_contra cannot
  have silent : w.progress d = none := if_neg cannot
  rw [silent] at h
  cases h

/-- The calls on an engine after an event of one of them. -/
theorem Becomes.mem_calls {g : Engine} {after : Option Stage} {k : CallRef} {stage : Stage}
    (h : Becomes w w' e c g after) : ⟨k, e, stage⟩ ∈ w'.calls ↔
      ⟨k, e, stage⟩ ∈ w.calls ∧ k ≠ c ∨ k = c ∧ after = some stage := by
  rw [h.calls]
  constructor
  · rintro (old | ⟨at_, same, here⟩)
    · exact .inl old
    · cases here
      exact .inr ⟨rfl, same⟩
  · rintro (old | ⟨rfl, same⟩)
    · exact .inl old
    · exact .inr ⟨stage, same, rfl⟩

/-- **What an event does to one engine**, and to the calls on it. -/
inductive On (w : World) (d : Event) (w' : World) (e : EngineRef) : Prop where
  | apart (engine : w'.engine e = w.engine e)
    (calls : ∀ k stage, ⟨k, e, stage⟩ ∈ w'.calls → ⟨k, e, stage⟩ ∈ w.calls)
    (silent : ∀ k p, w.Told e k p d → (∃ error, p = .done (.failed error)) ∧
      ∀ c, (∀ result, d ≠ .hookReturned c result) ∧ d ≠ .schedulerEnded c)
  | made (r : SchedulerRef) (absent : e = w.engines.length)
    (engine : w'.engine e = { scheduler := r }) (calls : ∀ k stage, ⟨k, e, stage⟩ ∉ w'.calls)
    (silent : ∀ k p, ¬ w.Told e k p d)
  | released (engine : w'.engine e = { w.engine e with registry := .empty, released := true })
    (calls : ∀ k stage, ⟨k, e, stage⟩ ∉ w'.calls) (silent : ∀ k p, ¬ w.Told e k p d)
  | conducted {c : CallRef} {before after : Option Stage} {g : Engine} {p : Progress}
    (told : w.Told e c p d) (conducts : Conducts w e c d before after g p)
    (engine : w'.engine e = g)
    (calls : ∀ k stage, ⟨k, e, stage⟩ ∈ w'.calls ↔
      ⟨k, e, stage⟩ ∈ w.calls ∧ k ≠ c ∨ k = c ∧ after = some stage)
    (begun : ∀ stage, before = some stage → ⟨c, e, stage⟩ ∈ w.calls)
    (new : before = none → (w.engine e).released = false ∧ ∀ stage, ⟨c, e, stage⟩ ∉ w.calls)

/-- What a call does belongs to it. -/
theorem Conducts.party {d : Event} {before after : Option Stage} {g : Engine} {p : Progress}
    (h : w.Conducts e c d before after g p) (numbered : w.Numbered)
    (begun : ∀ stage, before = some stage → ⟨c, e, stage⟩ ∈ w.calls)
    (new : before = none → c = w.nextCall) : w.party? d = some (e, c) := by
  have known (stage : Stage) (same : before = some stage) :
      (w.call? c).map (fun k => (k.engine, c)) = some (e, c) := by
    have found : w.call? c = some ⟨c, e, stage⟩ := numbered.call? (begun stage same)
    rw [found]
    rfl
  cases h with
  | registers | loads | begins | stops => rw [new rfl]; rfl
  | loaded | drops | started | abandons | stopped | drained | abandoned => exact known _ rfl

/-- A call begins on an engine that somebody holds. -/
theorem Conducts.hasEngine {d : Event} {after : Option Stage} {g : Engine} {p : Progress}
    (h : w.Conducts e c d none after g p) (can : d.canHappen w = true) :
    w.hasEngine e = true := by
  cases h with
  | registers | loads | begins =>
    simp only [Event.canHappen, Bool.and_eq_true] at can
    exact can.1
  | stops => exact can

theorem released_of_hasEngine (h : w.hasEngine e = true) : (w.engine e).released = false := by
  have here := length_of_hasEngine h
  simp only [World.hasEngine, List.getElem?_eq_getElem here, Option.any_some] at h
  simpa [World.engine, here] using h

/-- Letting go releases an engine only if nobody is calling it. -/
theorem engine_releaseEngines (w : World) (host : Holdings) (e : EngineRef) :
    (w.releaseEngines host).engine e = w.engine e ∨
      (∀ k ∈ w.calls, k.engine ≠ e) ∧
        (w.releaseEngines host).engine e =
          { w.engine e with registry := .empty, released := true } := by
  by_cases here : e < w.engines.length
  · by_cases lives : w.engineLives host e = true
    · left
      simp [World.engine, releaseEngines, here, lives]
    · right
      refine ⟨fun k hk same => lives ?_, by simp [World.engine, releaseEngines, here, lives]⟩
      have called : w.calls.any (·.engine == e) = true :=
        List.any_eq_true.2 ⟨k, hk, beq_iff_eq.2 same⟩
      simp [engineLives, called]
  · left
    simp [World.engine, releaseEngines, Nat.le_of_not_lt here]

/-- **What an event does to the engines it does to each of them.** -/
theorem Affairs.on {d : Event} (h : Affairs w d w') (numbered : w.Numbered) (e : EngineRef) :
    On w d w' e := by
  have quiet (silent : w.progress d = none) (k : CallRef) (p : Progress) : ¬ w.Told e k p d :=
    fun told => by simpa [silent] using told.progress
  cases h with
  | rests same silent =>
    exact .apart (engine_congr (engines_of_affairs same) e)
      (fun k stage hk => calls_of_affairs same ▸ hk) fun k p told => absurd told (quiet silent k p)
  | refused error same told new =>
    refine .apart (engine_congr (engines_of_affairs same) e)
      (fun k stage hk => calls_of_affairs same ▸ hk) fun k p told' => ⟨⟨error, ?_⟩, new⟩
    exact Option.some.inj (told'.progress.symm.trans told)
  | made r here silent engines calls =>
    rcases Nat.lt_trichotomy e w.engines.length with old | rfl | absent
    · refine .apart ?_ (fun k stage hk => calls ▸ hk) fun k p told => absurd told (quiet silent k p)
      simp [World.engine, engines, List.getElem?_append_left old]
    · refine .made r rfl ?_ (fun k stage hk => ?_) (quiet silent)
      · simp [World.engine, engines]
      · exact absurd (numbered.engine _ (calls ▸ hk)) (Nat.lt_irrefl _)
    · refine .apart ?_ (fun k stage hk => calls ▸ hk) fun k p told => absurd told (quiet silent k p)
      have after : w'.engines.length ≤ e := by rw [engines, List.length_append]; exact absent
      simp [World.engine, after, Nat.le_of_lt absent]
  | released host silent engines calls =>
    have same : w'.engine e = (w.releaseEngines host).engine e := by
      rw [World.engine, engines, World.engine]
    obtain kept | ⟨uncalled, gone⟩ := w.engine_releaseEngines host e
    · exact .apart (same.trans kept) (fun k stage hk => calls ▸ hk)
        fun k p told => absurd told (quiet silent k p)
    · exact .released (same.trans gone)
        (fun k stage hk => uncalled _ (calls ▸ hk) rfl) (quiet silent)
  | panicked c silent engines calls =>
    exact .apart (engine_congr engines e)
      (fun k stage hk => (List.mem_filter.1 (calls ▸ hk)).1)
      fun k p told => absurd told (quiet silent k p)
  | @conducted i c before after g p told conducts becomes here begun new =>
    have party := conducts.party numbered begun new
    by_cases own : e = i
    · subst own
      refine .conducted ⟨party, told⟩ conducts (becomes.engine here) (fun k stage => ?_) begun ?_
      · exact becomes.mem_calls
      · rintro rfl
        refine ⟨released_of_hasEngine (conducts.hasEngine (canHappen_of_progress told)), ?_⟩
        rintro stage known
        exact absurd (numbered.fresh _ known) (by rw [new rfl]; exact Nat.lt_irrefl _)
    · refine .apart (becomes.engine_ne own) (fun k stage hk => ?_) fun k p told' => ?_
      · rcases (becomes.calls _).1 hk with ⟨old, -⟩ | ⟨_, -, same⟩
        · exact old
        · exact absurd (congrArg Call.engine same) own
      · exact absurd (Told.unique ⟨party, told⟩ told').1 own

/-- **What an event of a run does to one engine.** -/
theorem on_step (es : List Event) (d : Event) (e : EngineRef) :
    On (run es) d ((run es).step d).2 e :=
  (affairs_step (numbered_run es) d).on (numbered_run es) e

end World

end FrameLoop

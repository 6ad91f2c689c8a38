import FrameLoop.Proofs.Engine.Affairs
import FrameLoop.Proofs.Lifecycle

/-!
# The services of an engine and the calls on it

Calls on one engine overlap, but not in every way. A start begins on an idle scheduler only,
so an engine is started once, and while its services are being started the engine is not
running: no load runs a hook then. A load that runs a hook has its service registered, and
no other load of a service of that kind is under way. `Orderly` collects these facts for one
engine; `orderly_run` says that they hold after every run.
-/

namespace FrameLoop

open Engine (Progress Stage)

/-- Whether a call at this stage runs a start hook. -/
def Engine.Stage.starts : Engine.Stage → Bool
  | .loading _ | .starting _ => true
  | .abandoning _ | .stopping _ | .draining => false

/-- Either there is a first service, whose hook is to run, or the engine is running. -/
theorem Engine.StartsNext.inversion {g g' : Engine} {c : CallRef} {services : List Service}
    {after : Option Stage} {p : Progress} (h : g.StartsNext c services after g' p) :
    (∃ s rest, services = s :: rest ∧ after = some (.starting services) ∧ g' = g ∧
        p = .enterStart c s) ∨
      services = [] ∧ after = none ∧ g' = { g with state := .running } ∧ p = .done .started := by
  cases h with
  | hook s rest => exact .inl ⟨s, rest, rfl, rfl, rfl, rfl⟩
  | finished => exact .inr ⟨rfl, rfl, rfl, rfl⟩

namespace World

open Engine (Call Progress Result Stage)

variable {w w' : World} {d : Event} {e : EngineRef} {c : CallRef} {s : Service}

/-! ## Winding down -/

/-- Either there is a first service, whose hook is to run, or the scheduler is stopped. -/
theorem StopsNext.inversion {g g' : Engine} {services : List Service} {after : Option Stage}
    {p : Progress} (h : w.StopsNext g c services after g' p) :
    (∃ s rest, services = s :: rest ∧ after = some (.stopping services) ∧ g' = g ∧
        p = .enterStop c s) ∨
      services = [] ∧ w.Winds g c .draining after g' p := by
  cases h with
  | hook s rest => exact .inl ⟨s, rest, rfl, rfl, rfl, rfl⟩
  | finished winds => exact .inr ⟨rfl, winds⟩

/-- **A call that winds down** starts nothing: it leaves the engine its services, does not
make it run, and comes to no start hook. -/
structure Eases (g g' : Engine) (after : Option Stage) : Prop where
  services : g'.services = g.services
  scheduler : g'.scheduler = g.scheduler
  released : g'.released = g.released
  state : g'.state = .running → g.state = .running
  after : ∀ stage, after = some stage → stage.starts = false

theorem Winds.eases {g g' : Engine} {stage : Stage} {after : Option Stage} {p : Progress}
    (h : w.Winds g c stage after g' p) (ends : stage.starts = false) : Eases g g' after := by
  cases h with
  | waits => exact ⟨rfl, rfl, rfl, id, fun _ same => Option.some.inj same ▸ ends⟩
  | drained => exact ⟨rfl, rfl, rfl, by simp, by simp⟩
  | abandoned => exact ⟨rfl, rfl, rfl, id, by simp⟩

theorem StopsNext.eases {g g' : Engine} {services : List Service} {after : Option Stage}
    {p : Progress} (h : w.StopsNext g c services after g' p) : Eases g g' after := by
  cases h with
  | hook => exact ⟨rfl, rfl, rfl, id, fun _ same => Option.some.inj same ▸ rfl⟩
  | finished winds => exact winds.eases rfl

/-! ## An engine and its scheduler -/

/-- An engine keeps its scheduler, and nobody lets go of it, whatever a call does. -/
theorem Conducts.keeps {before after : Option Stage} {g : Engine} {p : Progress}
    (h : w.Conducts e c d before after g p) :
    g.scheduler = (w.engine e).scheduler ∧ g.released = (w.engine e).released := by
  cases h with
  | registers accepts | loads accepts =>
    have accepted := Engine.accept_some accepts
    exact ⟨accepted.scheduler, accepted.released⟩
  | begins _ next | started _ next =>
    obtain ⟨_, _, -, -, rfl, -⟩ | ⟨-, -, rfl, -⟩ := next.inversion <;> exact ⟨rfl, rfl⟩
  | loaded | drops | drained | abandoned => exact ⟨rfl, rfl⟩
  | abandons _ winds => exact ⟨(winds.eases rfl).scheduler, (winds.eases rfl).released⟩
  | stops next | stopped _ next => exact ⟨next.eases.scheduler, next.eases.released⟩

/-- **The scheduler of an engine is there.** -/
theorem home_run (es : List Event) :
    ∀ g ∈ (run es).engines, g.scheduler < (run es).schedulers.length := by
  induction es using List.reverseRecOn with
  | nil => exact fun g hg => absurd hg List.not_mem_nil
  | append_singleton es d ih =>
    intro g hg
    rw [run_concat] at hg ⊢
    refine Nat.lt_of_lt_of_le ?_ (length_step (run es) d)
    cases affairs_step (numbered_run es) d with
    | rests same | refused _ same => exact ih g (engines_of_affairs same ▸ hg)
    | made r here _ engines =>
      rw [engines, List.mem_append, List.mem_singleton] at hg
      rcases hg with old | rfl
      · exact ih g old
      · exact here
    | released host _ engines =>
      rw [engines] at hg
      obtain ⟨i, here, rfl⟩ := List.mem_mapIdx.1 hg
      have home := ih _ (List.getElem_mem here)
      split
      · exact home
      · exact home
    | panicked _ _ engines => exact ih g (engines ▸ hg)
    | @conducted e _ _ _ _ _ _ conducts becomes here =>
      rw [becomes.engines] at hg
      rcases List.mem_or_eq_of_mem_set hg with old | rfl
      · exact ih g old
      · rw [conducts.keeps.1]
        refine ih _ ?_
        simp [World.engine, here]

theorem home_of_lt {es : List Event} (here : e < (run es).engines.length) :
    ((run es).engine e).scheduler < (run es).schedulers.length :=
  home_run es _ (by simp [World.engine, here])

/-- An engine that can be started is there. -/
theorem lt_of_startEngine {source : Source}
    (can : (Event.startEngine e source).canHappen w = true) : e < w.engines.length := by
  simp only [Event.canHappen, Bool.and_eq_true] at can
  exact length_of_hasEngine can.1

/-- The scheduler of an engine that has just been started is running. -/
theorem running_of_startEngine {source : Source}
    (idle : (w.scheduler (w.engine e).scheduler).state = .idle)
    (here : (w.engine e).scheduler < w.schedulers.length) :
    ((w.startEngine e source).2.scheduler (w.engine e).scheduler).state = .running := by
  have begins : (w.scheduler (w.engine e).scheduler).start source = .ok _ := if_pos idle
  unfold World.startEngine World.start
  dsimp only
  rw [begins]
  dsimp only
  rw [scheduler_congr (schedulers_startNext _ _ _ _), scheduler_congr (schedulers_openCall _ _ _),
    scheduler_tell, scheduler_setScheduler_self _ here]

section Calls

variable {after : Option Stage}
  (calls : ∀ k stage, ⟨k, e, stage⟩ ∈ w'.calls ↔
    ⟨k, e, stage⟩ ∈ w.calls ∧ k ≠ c ∨ k = c ∧ after = some stage)
include calls

/-- A call that comes to no start hook leaves no more of them. -/
theorem fewer_starts (none : ∀ stage, after = some stage → stage.starts = false) (k : CallRef)
    (stage : Stage) (starts : stage.starts = true) (hk : ⟨k, e, stage⟩ ∈ w'.calls) :
    ⟨k, e, stage⟩ ∈ w.calls := by
  rcases (calls k stage).1 hk with ⟨old, -⟩ | ⟨-, here⟩
  · exact old
  · rw [none stage here] at starts
    cases starts

/-- When a call has ended only others are left. -/
theorem others_of_ended (ended : after = none) {k : CallRef} {stage : Stage}
    (hk : ⟨k, e, stage⟩ ∈ w'.calls) : ⟨k, e, stage⟩ ∈ w.calls ∧ k ≠ c := by
  rcases (calls k stage).1 hk with old | ⟨-, here⟩
  · exact old
  · rw [ended] at here
    cases here

/-- A call is at the stage that it has come to. -/
theorem stage_of_call {stage : Stage} (hk : ⟨c, e, stage⟩ ∈ w'.calls) : after = some stage := by
  rcases (calls c stage).1 hk with ⟨-, other⟩ | ⟨-, here⟩
  · exact absurd rfl other
  · exact here

/-- Where no start hook was under way, the only one is that of the call. -/
theorem starts_of_none (none : ∀ k stage, stage.starts = true → ⟨k, e, stage⟩ ∉ w.calls)
    (k : CallRef) (stage : Stage) (starts : stage.starts = true) (hk : ⟨k, e, stage⟩ ∈ w'.calls) :
    k = c ∧ after = some stage := by
  rcases (calls k stage).1 hk with ⟨old, -⟩ | here
  · exact absurd old (none k stage starts)
  · exact here

end Calls

/-- The scheduler of an engine that is to be started is not idle then, whether it is started
or has been before. -/
theorem busy_of_startEngine {es : List Event} {source : Source}
    (can : (Event.startEngine e source).canHappen (run es) = true) :
    ((run (es ++ [.startEngine e source])).scheduler
      ((run es).engine e).scheduler).state ≠ .idle := by
  intro idle
  have before := idle
  rw [run_concat] at before
  have atRest := (turn_step (sound_run es _) _).of_idle (sound_run es _) before
  have started : run (es ++ [.startEngine e source]) = ((run es).startEngine e source).2 :=
    run_concat_of_canHappen can
  rw [started, running_of_startEngine atRest (home_of_lt (lt_of_startEngine can))] at idle
  cases idle

/-! ## The order of an engine -/

/-- **The services of an engine and the calls on it are in order.** -/
structure Orderly (w : World) (e : EngineRef) : Prop where
  held : ∀ c stage, ⟨c, e, stage⟩ ∈ w.calls → (w.engine e).released = false
  loading : ∀ c s, ⟨c, e, .loading s⟩ ∈ w.calls → s ∈ (w.engine e).services
  alone : ∀ c k s t, ⟨c, e, .loading s⟩ ∈ w.calls → ⟨k, e, .loading t⟩ ∈ w.calls →
    s.kind = t.kind → k = c
  starting : ∀ c services, ⟨c, e, .starting services⟩ ∈ w.calls →
    (w.engine e).state ≠ .running ∧ services ⊆ (w.engine e).services
  only : ∀ c services, ⟨c, e, .starting services⟩ ∈ w.calls → ∀ k stage, stage.starts = true →
    ⟨k, e, stage⟩ ∈ w.calls → k = c ∧ stage = .starting services
  idle : (w.scheduler (w.engine e).scheduler).state = .idle →
    (w.engine e).state ≠ .running ∧ ∀ c stage, stage.starts = true → ⟨c, e, stage⟩ ∉ w.calls

/-- An engine that is not called is in order. -/
theorem orderly_of_uncalled (calls : ∀ k stage, ⟨k, e, stage⟩ ∉ w.calls)
    (idle : (w.scheduler (w.engine e).scheduler).state = .idle → (w.engine e).state ≠ .running) :
    w.Orderly e where
  held k stage hk := absurd hk (calls k stage)
  loading k _ hk := absurd hk (calls k _)
  alone k _ _ _ hk := absurd hk (calls k _)
  starting k _ hk := absurd hk (calls k _)
  only k _ hk := absurd hk (calls k _)
  idle still := ⟨idle still, fun k stage _ => calls k stage⟩

/-- The next service of the start that is under way is in order, and so is its end. -/
theorem orderly_of_startsNext {services : List Service} {after : Option Stage} {p : Progress}
    (next : (w.engine e).StartsNext c services after (w'.engine e) p)
    (known : services ⊆ (w.engine e).services) (still : (w.engine e).state ≠ .running)
    (held : (w'.engine e).released = false)
    (calls : ∀ k stage, stage.starts = true → ⟨k, e, stage⟩ ∈ w'.calls →
      k = c ∧ after = some stage)
    (busy : (w'.scheduler (w'.engine e).scheduler).state ≠ .idle) : w'.Orderly e := by
  obtain ⟨s, rest, -, rfl, same, -⟩ | ⟨-, rfl, same, -⟩ := next.inversion
  · have only (k : CallRef) (stage : Stage) (starts : stage.starts = true)
        (hk : ⟨k, e, stage⟩ ∈ w'.calls) : k = c ∧ stage = .starting services :=
      (calls k stage starts hk).imp_right fun here => (Option.some.inj here).symm
    exact
      { held := fun _ _ _ => held
        loading := fun k t hk => by cases (only k _ rfl hk).2
        alone := fun k l t t' hk => by cases (only k _ rfl hk).2
        starting := fun k waiting hk => by
          obtain rfl : waiting = services := by simpa using (only k _ rfl hk).2
          exact same ▸ ⟨still, known⟩
        only := fun k waiting hk l stage starts hl => by
          obtain ⟨rfl, here⟩ := only k _ rfl hk
          exact here ▸ only l stage starts hl
        idle := fun idle => absurd idle busy }
  · have none (k : CallRef) (stage : Stage) (starts : stage.starts = true) :
        ⟨k, e, stage⟩ ∉ w'.calls := fun hk => by cases (calls k stage starts hk).2
    exact
      { held := fun _ _ _ => held
        loading := fun k t hk => absurd hk (none k _ rfl)
        alone := fun k l t t' hk => absurd hk (none k _ rfl)
        starting := fun k waiting hk => absurd hk (none k _ rfl)
        only := fun k waiting hk => absurd hk (none k _ rfl)
        idle := fun idle => absurd idle busy }

namespace Orderly

variable (orderly : w.Orderly e)
include orderly

/-- Nobody has let go of an engine that a call does something to. -/
theorem held_of_conducts {before : Option Stage}
    (begun : ∀ stage, before = some stage → ⟨c, e, stage⟩ ∈ w.calls)
    (new : before = none → (w.engine e).released = false ∧ ∀ stage, ⟨c, e, stage⟩ ∉ w.calls) :
    (w.engine e).released = false := by
  cases before with
  | none => exact (new rfl).1
  | some stage => exact orderly.held c stage (begun stage rfl)

/-- While the services are started no other call runs a start hook. -/
theorem starts_of_starting {after : Option Stage} {services : List Service}
    (call : ⟨c, e, .starting services⟩ ∈ w.calls)
    (calls : ∀ k stage, ⟨k, e, stage⟩ ∈ w'.calls ↔
      ⟨k, e, stage⟩ ∈ w.calls ∧ k ≠ c ∨ k = c ∧ after = some stage)
    (k : CallRef) (stage : Stage) (starts : stage.starts = true) (hk : ⟨k, e, stage⟩ ∈ w'.calls) :
    k = c ∧ after = some stage := by
  rcases (calls k stage).1 hk with ⟨old, other⟩ | here
  · exact absurd (orderly.only c services call k stage starts old).1 other
  · exact here

/-- More services, and no new start hooks, are in order. -/
theorem mono (held : ∀ c stage, ⟨c, e, stage⟩ ∈ w'.calls → (w'.engine e).released = false)
    (services : (w.engine e).services ⊆ (w'.engine e).services)
    (state : (w'.engine e).state = .running → (w.engine e).state = .running)
    (calls : ∀ k stage, stage.starts = true → ⟨k, e, stage⟩ ∈ w'.calls → ⟨k, e, stage⟩ ∈ w.calls)
    (idle : (w'.scheduler (w'.engine e).scheduler).state = .idle →
      (w.scheduler (w.engine e).scheduler).state = .idle) : w'.Orderly e where
  held := held
  loading k s hk := services (orderly.loading k s (calls k _ rfl hk))
  alone k l s t hk hl := orderly.alone k l s t (calls k _ rfl hk) (calls l _ rfl hl)
  starting k waiting hk :=
    ⟨fun running => (orderly.starting k waiting (calls k _ rfl hk)).1 (state running),
      fun _ hs => services ((orderly.starting k waiting (calls k _ rfl hk)).2 hs)⟩
  only k waiting hk l stage starts hl :=
    orderly.only k waiting (calls k _ rfl hk) l stage starts (calls l stage starts hl)
  idle still :=
    ⟨fun running => (orderly.idle (idle still)).1 (state running),
      fun k stage starts hk =>
        (orderly.idle (idle still)).2 k stage starts (calls k stage starts hk)⟩

/-- A load of a service of a new kind is in order, in an engine that is running. -/
theorem loads (c : CallRef) {g : Engine} (accepts : (w.engine e).accept s = some g)
    (running : (w.engine e).state = .running) (engine : w'.engine e = g)
    (held : (w'.engine e).released = false)
    (calls : ∀ k stage, ⟨k, e, stage⟩ ∈ w'.calls →
      ⟨k, e, stage⟩ ∈ w.calls ∨ k = c ∧ stage = .loading s)
    (idle : (w'.scheduler (w'.engine e).scheduler).state = .idle →
      (w.scheduler (w.engine e).scheduler).state = .idle) : w'.Orderly e := by
  have unstarted (k : CallRef) (waiting : List Service) :
      ⟨k, e, .starting waiting⟩ ∉ w'.calls := fun hk => by
    rcases calls k _ hk with old | ⟨-, here⟩
    · exact (orderly.starting k waiting old).1 running
    · cases here
  have loaded (k : CallRef) (t : Service) (hk : ⟨k, e, .loading t⟩ ∈ w'.calls) :
      ⟨k, e, .loading t⟩ ∈ w.calls ∨ k = c ∧ t = s := by
    refine (calls k _ hk).imp_right ?_
    rintro ⟨same, here⟩
    exact ⟨same, Stage.loading.inj here⟩
  have accepted := Engine.accept_some accepts
  exact
    { held := fun _ _ _ => held
      loading := fun k t hk => by
        rw [engine, accepted.services]
        rcases loaded k t hk with old | ⟨-, rfl⟩
        · exact List.mem_append_left _ (orderly.loading k t old)
        · exact List.mem_append_right _ (List.mem_singleton_self t)
      alone := fun k l t t' hk hl same => by
        rcases loaded k t hk with old | ⟨rfl, rfl⟩ <;>
          rcases loaded l t' hl with old' | ⟨rfl, rfl⟩
        · exact orderly.alone k l t t' old old' same
        · exact absurd same (accepted.new t (orderly.loading k t old))
        · exact absurd same.symm (accepted.new t' (orderly.loading l t' old'))
        · rfl
      starting := fun k waiting hk => absurd hk (unstarted k waiting)
      only := fun k waiting hk => absurd hk (unstarted k waiting)
      idle := fun still => absurd running (orderly.idle (idle still)).1 }

/-- A load that lets its service go leaves those of the other loads. -/
theorem drops (call : ⟨c, e, .loading s⟩ ∈ w.calls)
    (engine : w'.engine e = (w.engine e).drop s.kind) (held : (w'.engine e).released = false)
    (calls : ∀ k stage, ⟨k, e, stage⟩ ∈ w'.calls → ⟨k, e, stage⟩ ∈ w.calls ∧ k ≠ c)
    (idle : (w'.scheduler (w'.engine e).scheduler).state = .idle →
      (w.scheduler (w.engine e).scheduler).state = .idle) : w'.Orderly e := by
  have unstarted (k : CallRef) (waiting : List Service) :
      ⟨k, e, .starting waiting⟩ ∉ w'.calls := fun hk => by
    cases (orderly.only k waiting (calls k _ hk).1 c _ rfl call).2
  exact
    { held := fun _ _ _ => held
      loading := fun k t hk => by
        obtain ⟨old, other⟩ := calls k _ hk
        rw [engine, Engine.services_drop]
        refine List.mem_filter.2 ⟨orderly.loading k t old, ?_⟩
        exact bne_iff_ne.2 fun same => other (orderly.alone c k s t call old same.symm)
      alone := fun k l t t' hk hl => orderly.alone k l t t' (calls k _ hk).1 (calls l _ hl).1
      starting := fun k waiting hk => absurd hk (unstarted k waiting)
      only := fun k waiting hk => absurd hk (unstarted k waiting)
      idle := fun still => absurd call ((orderly.idle (idle still)).2 c _ rfl) }

/-- **An engine stays in order when a call has done something**, if its scheduler becomes idle at no
event and is running once the engine has been started. -/
theorem conducted {before after : Option Stage} {g : Engine} {p : Progress}
    (held : (w.engine e).released = false) (told : w.Told e c p d)
    (conducts : w.Conducts e c d before after g p) (engine : w'.engine e = g)
    (calls : ∀ k stage, ⟨k, e, stage⟩ ∈ w'.calls ↔
      ⟨k, e, stage⟩ ∈ w.calls ∧ k ≠ c ∨ k = c ∧ after = some stage)
    (begun : ∀ stage, before = some stage → ⟨c, e, stage⟩ ∈ w.calls)
    (idle : (w'.scheduler (w.engine e).scheduler).state = .idle →
      (w.scheduler (w.engine e).scheduler).state = .idle)
    (busy : d.canHappen w = true → ∀ source, d = .startEngine e source →
      (w'.scheduler (w.engine e).scheduler).state ≠ .idle) : w'.Orderly e := by
  obtain ⟨home, keeps⟩ := conducts.keeps
  have held' : (w'.engine e).released = false := by rw [engine, keeps, held]
  have idle' : (w'.scheduler (w'.engine e).scheduler).state = .idle →
      (w.scheduler (w.engine e).scheduler).state = .idle := by
    rw [engine, home]
    exact idle
  have fewer := fewer_starts calls
  have eases (h : Eases (w.engine e) g after) : w'.Orderly e := by
    have services : (w'.engine e).services = (w.engine e).services := engine ▸ h.services
    exact orderly.mono (fun _ _ _ => held') (services ▸ List.Subset.refl _) (engine ▸ h.state)
      (fewer h.after) idle'
  cases conducts with
  | registers accepts still =>
    have accepted := Engine.accept_some accepts
    refine orderly.mono (fun _ _ _ => held') ?_ (fun now => ?_) (fewer (by simp)) idle'
    · rw [engine, accepted.services]
      exact List.subset_append_left _ _
    · rwa [engine, accepted.state] at now
  | loads accepts running =>
    refine orderly.loads c accepts running engine held' (fun k stage hk => ?_) idle'
    rcases (calls k stage).1 hk with ⟨old, -⟩ | ⟨same, here⟩
    · exact .inl old
    · exact .inr ⟨same, (Option.some.inj here).symm⟩
  | begins atRest next =>
    obtain ⟨still, none⟩ := orderly.idle atRest
    refine orderly_of_startsNext (engine ▸ next) (List.Subset.refl _) still held'
      (starts_of_none calls none) ?_
    rw [engine, home]
    exact busy (canHappen_of_progress told.progress) _ rfl
  | loaded job => exact eases ⟨rfl, rfl, rfl, id, by simp⟩
  | drops cause =>
    exact orderly.drops (begun _ rfl) engine held' (fun _ _ => others_of_ended calls rfl) idle'
  | started job next =>
    have call := begun _ rfl
    obtain ⟨still, known⟩ := orderly.starting c _ call
    exact orderly_of_startsNext (engine ▸ next) (List.subset_of_cons_subset known) still held'
      (orderly.starts_of_starting call calls)
      fun atRest => (orderly.idle (idle' atRest)).2 c _ rfl call
  | abandons cause winds => exact eases (winds.eases rfl)
  | stops next => exact eases next.eases
  | stopped result next => exact eases next.eases
  | drained ended => exact eases ⟨rfl, rfl, rfl, by simp, by simp⟩
  | abandoned error ended => exact eases ⟨rfl, rfl, rfl, id, by simp⟩

/-- **An engine stays in order**, on the same conditions. -/
theorem step (on : On w d w' e)
    (idle : (w'.scheduler (w.engine e).scheduler).state = .idle →
      (w.scheduler (w.engine e).scheduler).state = .idle)
    (busy : d.canHappen w = true → ∀ source, d = .startEngine e source →
      (w'.scheduler (w.engine e).scheduler).state ≠ .idle) : w'.Orderly e := by
  cases on with
  | apart engine calls =>
    refine orderly.mono (fun k stage hk => ?_) (engine ▸ List.Subset.refl _) (engine ▸ id)
      (fun k stage _ => calls k stage) (engine ▸ idle)
    exact engine ▸ orderly.held k stage (calls k stage hk)
  | made r absent engine calls =>
    exact orderly_of_uncalled calls fun _ => by simp [engine]
  | released engine calls =>
    refine orderly_of_uncalled calls fun still => ?_
    rw [engine] at still ⊢
    exact (orderly.idle (idle still)).1
  | conducted told conducts engine calls begun new =>
    exact orderly.conducted (orderly.held_of_conducts begun new) told conducts engine calls begun
      idle busy

end Orderly

/-- **Every engine is in order after every run.** -/
theorem orderly_run (es : List Event) (e : EngineRef) : (run es).Orderly e := by
  induction es using List.reverseRecOn with
  | nil =>
    exact orderly_of_uncalled (fun _ _ => List.not_mem_nil) fun _ => EngineState.noConfusion
  | append_singleton es d ih =>
    refine ih.step (run_concat es d ▸ on_step es d e) ?_ ?_
    · rw [run_concat]
      exact (turn_step (sound_run es _) d).of_idle (sound_run es _)
    · rintro can source rfl
      exact busy_of_startEngine can

end World

end FrameLoop

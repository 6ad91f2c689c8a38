import FrameLoop.Proofs.Forest.Pruned
import FrameLoop.Proofs.Tick.Levels
import FrameLoop.Proofs.Tick.Places

/-!
# A tick that nobody disturbs

While a tick is in flight, jobs may leave their places because their steps ask for it, and
may be let go because the tick does not hold them any more. `World.Calm` says of an event
that nothing else changes the links or the registry, and `World.Undisturbed` of a tick that
all its events are calm, in whatever order they come.

What becomes of the forest and the registry in such a tick is said without that order
(`World.Underway`): jobs are cut from where they were when the tick started, not from where
they happen to be. That a job is taken from its parent, and not from the registry instead,
is the point at which the order might matter. It does not: only jobs of the first wave are
registered, and while that wave runs nobody is let go (`Underway.whole`), so a parent that
was there at the start is there still.
-/

namespace FrameLoop

/-! ## The counters -/

namespace Scheduler

/-- **A tick that goes no further is counted.** -/
theorem Proceeds.counted {s : Scheduler} {loop : Loop} {k : Tick} {now : Nat} {m : Move}
    (h : Proceeds s loop k now m) (still : m.scheduler.driver.tick? = none) :
    m.launched = [] ∧ m.scheduler.stats.jobsLastTick = k.launched.length ∧
      m.scheduler.stats.subCyclesLastTick = k.waves.length := by
  cases h with
  | wave more => cases still
  | drained => exact ⟨rfl, rfl, rfl⟩
  | faulted fault =>
    dsimp only
    rw [stats_finish]
    exact ⟨rfl, rfl, rfl⟩

/-- A quiet change counts nothing, and has nothing to do with ticks. -/
theorem Quiet.tick {may : Intake} {s s' : Scheduler} (h : Quiet may s s') (sound : s.Sound) :
    s'.driver.tick? = s.driver.tick? ∧ s'.stats = s.stats := by
  cases h with
  | same | made | scheduled | unregistered | paced | asked | released => exact ⟨rfl, rfl⟩
  | started _ source brought idle =>
    rw [(sound.of_idle idle).1]
    exact ⟨rfl, rfl⟩
  | roused _ waiting => exact ⟨by rw [waiting]; rfl, rfl⟩

/-- Only a job that asks for it leaves its place. -/
theorem depart_of_ne {v : Verdict} (stays : v ≠ .outcome .detach) (s : Scheduler) (f : Forest)
    (j : JobRef) : s.depart f j v = (s, f) := by
  unfold depart
  split
  · exact absurd rfl stays
  all_goals rfl

theorem holds_congr {s s' : Scheduler} (registry : s'.registry = s.registry)
    (tick : s'.driver.tick? = s.driver.tick?) : s'.holds = s.holds := by
  rw [holds, registry, tick, holds]

end Scheduler

/-- Who was launched was there, and who was found was there as a child. -/
theorem TickRecord.Follows.has_of_launched {t : TickRecord} {f : Forest}
    {verdicts : JobRef → Verdict} (follows : t.Follows f verdicts) (exact : t.Exact)
    (registered : ∀ j ∈ t.registry, f.has j = true) {j : JobRef} (h : j ∈ t.launched) :
    f.has j = true := by
  rcases exact.origin h with first | ⟨c, wave, b, hb, -, child⟩
  · exact registered j first
  · exact Forest.has_of_parent (follows.child b (List.mem_flatMap.2 ⟨c, wave, hb⟩) j child)

/-- A job that was registered and is out is out of the first wave. -/
theorem TickRecord.Exact.length_of_registered {t : TickRecord} (exact : t.Exact) {cs : List Wave}
    {c : Wave} (last : t.waves = cs ++ [c]) {j : JobRef} (registered : j ∈ t.registry)
    (running : j ∈ c.launched) : t.waves.length ≤ 1 := by
  by_contra more
  have here : t.waves[cs.length]? = some c := by simp [last]
  have length : t.waves.length = cs.length + 1 := by simp [last]
  refine ((exact.launches _ c here j).1 running).2 0 (by omega) ?_
  exact (exact.mem_launchedAt_zero (.inl (by omega)) j).2 registered

/-- Who has been detached had been launched. -/
theorem Tick.Tracks.launched_of_detached {k : Tick} {t : TickRecord} (tracks : k.Tracks t)
    {j : JobRef} (gone : j ∈ t.detached) : j ∈ t.launched := by
  obtain ⟨b, hb, -, rfl⟩ := TickRecord.mem_detached.1 gone
  exact tracks.pending.subset (List.mem_append_left _ (List.mem_map_of_mem hb))

/-- Whose step is out has not been detached. -/
theorem Tick.Tracks.not_mem_detached {k : Tick} {t : TickRecord} (tracks : k.Tracks t)
    {j : JobRef} (pending : j ∈ k.pending) : j ∉ t.detached := by
  have apart := (List.nodup_append.1 (tracks.pending.nodup_iff.2 tracks.exact.nodup)).2.2
  rw [TickRecord.mem_detached]
  rintro ⟨b, hb, -, same⟩
  exact apart b.job (List.mem_map_of_mem hb) j pending same

namespace World

/-! ## Calm -/

/-- **An event that leaves the tick of a scheduler to itself.** `outside` are the jobs that
are held by others than the scheduler. -/
inductive Calm (w : World) (r : SchedulerRef) (outside : List JobRef)
    (verdicts : JobRef → Verdict) : Event → Prop where
  /-- A step returns, and ends as it is to. -/
  | returned (j : JobRef) : Calm w r outside verdicts (.returned r j (verdicts j))
  /-- The driver looks up and starts no tick. -/
  | poll (still : w.startsTick r = false) : Calm w r outside verdicts (.poll r)
  /-- What is held from outside is not let go, nor is the scheduler. -/
  | sweep (held : Holdings) (kept : outside ⊆ w.kept held)
    (registry : ((w.sweep held).scheduler r).registry = (w.scheduler r).registry) :
    Calm w r outside verdicts (.sweep held)
  | newJob (name : String) : Calm w r outside verdicts (.newJob name)
  /-- Anything else, as long as it touches neither the links nor the registry. -/
  | other {e : Event} (apart : e.drives r = false)
    (registry : ((w.step e).2.scheduler r).registry = (w.scheduler r).registry)
    (forest : (w.step e).2.forest = w.forest) : Calm w r outside verdicts e

/-- All events are calm as they come. -/
def CalmFrom (r : SchedulerRef) (outside : List JobRef) (verdicts : JobRef → Verdict) :
    World → List Event → Prop
  | _, [] => True
  | w, e :: es => w.Calm r outside verdicts e ∧ CalmFrom r outside verdicts (w.step e).2 es

/-- **A tick that nobody disturbs**: it starts when the run has come to the end of `pre`,
everybody who is there then is held, and what happens next is calm. -/
structure Undisturbed (r : SchedulerRef) (pre ds : List Event) (outside : List JobRef)
    (verdicts : JobRef → Verdict) : Prop where
  starts : (run pre).startsTick r = true
  held : ∀ n ∈ (run pre).forest.nodes,
    n.job ∈ (run pre).forest.reachable (outside ++ ((run pre).scheduler r).registry)
  calm : CalmFrom r outside verdicts (run (pre ++ [.poll r])) ds

variable {w₀ w : World} {r : SchedulerRef} {outside : List JobRef} {verdicts : JobRef → Verdict}
  {J : Journal} {past : List TickRecord} {t : TickRecord}

theorem calmFrom_concat {es : List Event} {e : Event} :
    CalmFrom r outside verdicts w (es ++ [e]) ↔
      CalmFrom r outside verdicts w es ∧ (runFrom w es).Calm r outside verdicts e := by
  induction es generalizing w with
  | nil => simp [CalmFrom, runFrom]
  | cons d es ih =>
    rw [List.cons_append, CalmFrom, ih, CalmFrom, and_assoc]
    rfl

/-- Of a calm event that is no return there is nothing to see, and nothing is counted. -/
theorem Calm.still (agrees : (w.scheduler r).Agrees J) (sound : (w.scheduler r).Sound) {e : Event}
    (calm : w.Calm r outside verdicts e) (none : ∀ j v, e ≠ .returned r j v) :
    w.observe r J e = [] ∧
      ((w.step e).2.scheduler r).driver.tick? = (w.scheduler r).driver.tick? ∧
      ((w.step e).2.scheduler r).stats = (w.scheduler r).stats := by
  have quiet (apart : e.drives r = false) := (w.quiet_step apart).tick sound
  have unseen (apart : e.drives r = false) : w.observe r J e = [] :=
    observe_of_not_driven agrees fun driven => by rw [apart] at driven; cases driven
  cases calm with
  | returned j => exact absurd rfl (none j (verdicts j))
  | sweep held => exact ⟨unseen rfl, quiet rfl⟩
  | newJob name => exact ⟨unseen rfl, quiet rfl⟩
  | other apart => exact ⟨unseen apart, quiet apart⟩
  | poll still =>
    obtain ⟨quiet, unmoved⟩ | ⟨-, step, next⟩ | ⟨j, v, same, -⟩ := w.step_cases (.poll r) r
    · exact ⟨observe_of_not_driven agrees unmoved, quiet.tick sound⟩
    · rw [observe_poll step, step, next, still]
      obtain ⟨-, other⟩ | ⟨starts, -⟩ := w.looksUp r
      · generalize w.lookUp r = m at other
        cases other with
        | rests => exact ⟨rfl, rfl, rfl⟩
        | declines waiting =>
          rw [waiting]
          exact ⟨rfl, rfl, rfl⟩
        | ends waiting =>
          refine ⟨rfl, ?_, Scheduler.stats_finish _ _⟩
          rw [Scheduler.finish_driver, waiting]
          rfl
      · rw [still] at starts
        cases starts
    · cases same

/-! ## Underway -/

/-- **What a tick has done to the world in which it started**, as it is written down. -/
structure Along (w₀ : World) (r : SchedulerRef) (verdicts : JobRef → Verdict) (t : TickRecord)
    (w : World) : Prop where
  registered : t.registry = (w₀.scheduler r).registry
  follows : t.Follows w₀.forest verdicts
  pruned : w₀.forest.Pruned t.detached w.forest
  /-- Out of the registry are the jobs that had no parent to be taken from. -/
  registry : (w.scheduler r).registry = (w₀.scheduler r).registry.filter
    fun j => ¬ (j ∈ t.detached ∧ w₀.forest.parent j = none)
  /-- While the first wave runs all are there who were. -/
  whole : (w.scheduler r).driver.tick?.isSome = true → t.waves.length ≤ 1 →
    ∀ j, w₀.forest.has j = true → w.forest.has j = true

/-- **Where an undisturbed tick is**: it has done what it has done, and is counted once it
is over. -/
structure Underway (w₀ : World) (r : SchedulerRef) (verdicts : JobRef → Verdict)
    (t : TickRecord) (w : World) : Prop extends Along w₀ r verdicts t w where
  counted : (w.scheduler r).driver.tick? = none →
    (w.scheduler r).stats.jobsLastTick = t.launched.length ∧
      (w.scheduler r).stats.subCyclesLastTick = t.waves.length

theorem Along.launch (h : Along w₀ r verdicts t w) (wave : List JobRef) :
    Along w₀ r verdicts (t.launch wave) w where
  registered := h.registered
  follows := h.follows.launch wave
  pruned := by
    rw [TickRecord.detached_launch]
    exact h.pruned
  registry := by
    rw [TickRecord.detached_launch]
    exact h.registry
  whole running short := by
    rw [TickRecord.waves_launch, List.length_append, List.length_singleton] at short
    exact h.whole running (by omega)

/-- **A wave is handed out, or the tick is over and counted.** -/
theorem Along.handOut (h : Along w₀ r verdicts t w) (last : J.ticks = past ++ [t])
    {wave : List JobRef}
    (counted : (w.scheduler r).driver.tick? = none → wave = [] ∧
      (w.scheduler r).stats.jobsLastTick = t.launched.length ∧
        (w.scheduler r).stats.subCyclesLastTick = t.waves.length) :
    ∃ t', Journal.ticks (J ++ Journal.handOut wave) = past ++ [t'] ∧
      Underway w₀ r verdicts t' w := by
  obtain ⟨-, ticks⟩ | ⟨some, ticks⟩ := Journal.ticks_handOut last wave
  · exact ⟨t, ticks, h, fun still => (counted still).2⟩
  · exact ⟨t.launch wave, ticks, h.launch wave, fun still => absurd (counted still).1 some⟩

/-- **The tick starts.** -/
theorem underway_start (held : w₀.Held) (starts : w₀.startsTick r = true)
    (verdicts : JobRef → Verdict) :
    ∃ t, Journal.ticks (J ++ w₀.observe r J (.poll r)) = J.ticks ++ [t] ∧
      Underway w₀ r verdicts t (w₀.step (.poll r)).2 := by
  obtain ⟨stays, -⟩ | ⟨-, loop, at_, waiting, -, move⟩ := w₀.looksUp r
  · rw [stays] at starts
    cases starts
  have active : (w₀.scheduler r).driver.isActive = true := by rw [waiting]; rfl
  have step := step_poll active
  have scheduler : (w₀.poll r).2.scheduler r = (w₀.lookUp r).scheduler :=
    scheduler_poll (length_of_active active)
  have began : Journal.ticks (J ++ [.began (w₀.scheduler r).registry]) =
      J.ticks ++ [{ registry := (w₀.scheduler r).registry }] := Journal.ticks_concat J _
  have along : Along w₀ r verdicts { registry := (w₀.scheduler r).registry } (w₀.poll r).2 := by
    constructor
    case registered => rfl
    case follows => exact .began _ _ _
    case pruned =>
      rw [forest_poll]
      exact held.linked.pruned
    case registry =>
      rw [scheduler, registry_lookUp]
      refine (List.filter_eq_self.2 fun j _ => ?_).symm
      simp [TickRecord.detached, TickRecord.returns]
    case whole =>
      intro _ _ j here
      rwa [forest_poll]
  rw [observe_poll step, if_pos starts, ← List.append_assoc, step]
  refine along.handOut began fun still => ?_
  rw [scheduler, move] at still ⊢
  exact (Scheduler.proceeds _ _ _ _).counted still

/-- **A job that asks for it is taken from where it was when the tick started.** -/
theorem Along.registry_detach (h : Along w₀ r verdicts t w) (held₀ : w₀.Held) {loop : Loop}
    {k : Tick} (driver : (w.scheduler r).driver = .ticking loop k) (tracks : k.Tracks t)
    {j : JobRef} (pending : j ∈ k.pending) (before : w₀.forest.has j = true)
    (here : w.forest.has j = true) (stayed : j ∉ t.detached) :
    ((w.scheduler r).depart w.forest j (.outcome .detach)).1.registry =
      (w₀.scheduler r).registry.filter
        fun x => ¬ (x ∈ t.detached ++ [j] ∧ w₀.forest.parent x = none) := by
  have left := h.pruned.parent before here
  rw [if_neg stayed] at left
  rw [Scheduler.registry_depart_detach]
  cases place : w₀.forest.parent j with
  | none =>
    have top : w.forest.parent j = none := by
      rw [left, place]
      rfl
    rw [if_pos top, h.registry, List.Nodup.erase_eq_filter ((held₀.nodup r).filter _),
      List.filter_filter]
    refine List.filter_congr fun x _ => ?_
    by_cases same : x = j <;> simp [same, place]
  | some p =>
    -- The parent is there as long as the job is registered, so it is from there that it goes.
    have stays : j ∉ (w.scheduler r).registry ∨ w.forest.parent j ≠ none := by
      by_cases registered : j ∈ (w.scheduler r).registry
      · rw [h.registry, List.mem_filter] at registered
        obtain none | ⟨cs, c, last⟩ := t.waves_cases
        · exact absurd none (tracks.waves_ne_nil (List.ne_nil_of_mem pending))
        have running : j ∈ c.launched :=
          (tracks.pending_last last).subset (List.mem_append_right _ pending)
        have short := tracks.exact.length_of_registered last (h.registered ▸ registered.1) running
        have above : w₀.forest.has p = true :=
          Forest.has_of_mem_children ((held₀.linked.mem_children p j).2 place)
        have there := h.whole (by rw [driver]; rfl) short p above
        right
        rw [left, place]
        simp [there]
      · exact .inl registered
    have same : (if w.forest.parent j = none then (w.scheduler r).registry.erase j
        else (w.scheduler r).registry) = (w.scheduler r).registry := by
      split
      · next top => exact List.erase_of_not_mem (stays.resolve_right fun attached => attached top)
      · rfl
    rw [same, h.registry]
    refine List.filter_congr fun x _ => ?_
    by_cases same : x = j <;> simp [same, place]

/-- **A step that returns finds whom its job had below it when the tick started**, but for those
who have been detached since. -/
theorem Along.follows_returned (h : Along w₀ r verdicts t w) (held₀ : w₀.Held)
    {k : Tick} (tracks : k.Tracks t) (begun : t.waves ≠ []) {j : JobRef}
    (before : w₀.forest.has j = true) (here : w.forest.has j = true) :
    (t.settle (w.returnOf r j (verdicts j))).Follows w₀.forest verdicts := by
  have children (x : JobRef) :
      x ∈ w.forest.children j ↔ w₀.forest.parent x = some j ∧ x ∉ t.detached := by
    rw [h.pruned.children before here, List.mem_filter, held₀.linked.mem_children,
      decide_eq_true_iff]
  refine h.follows.settle begun rfl (h.pruned.name before here) ?_ ?_
  · intro x child
    exact ((children x).1 child).1
  · intro x parent
    by_cases gone : x ∈ t.detached
    · exact .inr (tracks.launched_of_detached gone)
    · exact .inl ((children x).2 ⟨parent, gone⟩)

/-- **A step of the tick returns.** -/
theorem Along.returned (h : Along w₀ r verdicts t w) (held₀ : w₀.Held) (held : w.Held)
    (agrees : (w.scheduler r).Agrees J) (last : J.ticks = past ++ [t]) {j : JobRef}
    (out : j ∈ J.out) :
    Along w₀ r verdicts (t.settle (w.returnOf r j (verdicts j)))
      (w.step (.returned r j (verdicts j))).2 := by
  obtain ⟨loop, k, past', u, driver, pending, tracks, last'⟩ := agrees.ticking_of_out out
  obtain ⟨-, rfl⟩ := List.append_singleton_inj.1 (last'.symm.trans last)
  have begun := tracks.waves_ne_nil (List.ne_nil_of_mem pending)
  have launched : j ∈ u.launched :=
    tracks.pending.subset (List.mem_append_right _ pending)
  have before : w₀.forest.has j = true := by
    refine h.follows.has_of_launched tracks.exact ?_ launched
    intro x hx
    exact held₀.there r x (List.mem_append_left _ (h.registered ▸ hx))
  have here := has_of_out held agrees out
  have detached : (u.settle (w.returnOf r j (verdicts j))).detached =
      if verdicts j = .outcome .detach then u.detached ++ [j] else u.detached :=
    TickRecord.detached_settle begun _
  obtain ⟨registry, forest⟩ := places_returned agrees out (verdicts j)
  constructor
  case registered => exact h.registered
  case follows => exact h.follows_returned held₀ tracks begun before here
  case pruned =>
    rw [forest, detached]
    by_cases leaves : verdicts j = .outcome .detach
    · rw [if_pos leaves, leaves]
      exact h.pruned.detach held.linked _ j
    · rw [if_neg leaves, Scheduler.depart_of_ne leaves]
      exact h.pruned
  case registry =>
    rw [registry, detached]
    by_cases leaves : verdicts j = .outcome .detach
    · rw [if_pos leaves, leaves]
      exact h.registry_detach held₀ driver tracks pending before here
        (tracks.not_mem_detached pending)
    · rw [if_neg leaves, Scheduler.depart_of_ne leaves]
      exact h.registry
  case whole =>
    intro _ short x was
    have running : (w.scheduler r).driver.tick?.isSome = true := by rw [driver]; rfl
    rw [TickRecord.length_settle] at short
    exact (w.forest_step (by intro held same; cases same)).has (h.whole running short x was)

/-! ## Every event of it -/

/-- **While the first wave runs nobody is let go**: the tick holds whoever it has taken from
his place. -/
theorem Along.sweep (h : Along w₀ r verdicts t w) (held₀ : w₀.Held) (held : w.Held)
    (agrees : (w.scheduler r).Agrees J) (last : J.ticks = past ++ [t])
    (rooted : ∀ j, w₀.forest.has j = true →
      ∃ x ∈ outside ++ (w₀.scheduler r).registry, w₀.forest.Within j x) {host : Holdings}
    (kept : outside ⊆ w.kept host)
    (registry : ((w.sweep host).scheduler r).registry = (w.scheduler r).registry)
    (tick : ((w.sweep host).scheduler r).driver.tick? = (w.scheduler r).driver.tick?) :
    Along w₀ r verdicts t (w.sweep host) where
  registered := h.registered
  follows := h.follows
  pruned := h.pruned.sweep (w.kept host)
  registry := registry.trans h.registry
  whole running short := by
    rw [tick] at running
    have all := h.whole running short
    cases agrees with
    | rests still => rw [still] at running; cases running
    | faulted ended => rw [ended] at running; cases running
    | @ticks loop k past' u driver last' _ tracks _ busy =>
      obtain ⟨-, rfl⟩ := List.append_singleton_inj.1 (last'.symm.trans last)
      obtain none | ⟨cs, c, waves⟩ := u.waves_cases
      · exact absurd none (tracks.waves_ne_nil busy)
      have only : u.waves = [c] := by
        rw [waves, List.length_append, List.length_singleton] at short
        rw [waves, List.length_eq_zero_iff.1 (by omega : cs.length = 0), List.nil_append]
      have launched : u.launched = c.launched := by simp [TickRecord.launched, only]
      have holds : c.launched ⊆ w.kept host := by
        intro j hj
        apply w.holds_subset_kept host r
        rw [Scheduler.holds_congr registry tick, Scheduler.holds_of_ticking driver, Tick.holds,
          tracks.waves, only]
        exact List.mem_append_right _ (List.mem_append_left _ hj)
      apply h.pruned.has_sweep held₀.linked held.linked all
      · intro j gone
        apply holds
        rw [← launched]
        exact tracks.launched_of_detached gone
      · intro j here
        obtain ⟨x, hx, within⟩ := rooted j here
        refine ⟨x, ?_, within⟩
        rcases List.mem_append.1 hx with foreign | first
        · exact kept foreign
        · apply holds
          rw [← launched, TickRecord.mem_launched]
          refine ⟨0, by simp [only], ?_⟩
          rw [tracks.exact.mem_launchedAt_zero (.inl (by simp [only])), h.registered]
          exact first

/-- Only the forest, the registry and whether a tick is in flight matter. -/
theorem Along.congr {w' : World} (h : Along w₀ r verdicts t w) (forest : w'.forest = w.forest)
    (registry : (w'.scheduler r).registry = (w.scheduler r).registry)
    (tick : (w'.scheduler r).driver.tick? = (w.scheduler r).driver.tick?) :
    Along w₀ r verdicts t w' where
  registered := h.registered
  follows := h.follows
  pruned := forest ▸ h.pruned
  registry := registry.trans h.registry
  whole := by
    rw [forest, tick]
    exact h.whole

/-- Of a step that is not out nothing is seen, and nothing comes of it. -/
theorem step_of_not_out (agrees : (w.scheduler r).Agrees J) {j : JobRef} (out : j ∉ J.out)
    (v : Verdict) :
    w.observe r J (.returned r j v) = [] ∧
      (w.step (.returned r j v)).2.scheduler r = w.scheduler r ∧
      (w.step (.returned r j v)).2.forest = w.forest := by
  have nothing := Scheduler.returned_of_not_pending (agrees.not_pending out) w.forest v w.clock
  obtain ⟨quiet, unmoved⟩ | ⟨same, -⟩ | ⟨i, u, same, step, next⟩ :=
    w.step_cases (.returned r j v) r
  · have still := (unmoved (by simp [Event.drives])).2
    rw [observe_of_not_driven agrees unmoved, still]
    exact ⟨rfl, rfl, rfl⟩
  · cases same
  · cases same
    rw [observe_returned step, if_neg out, step, next, forest_returned, settle, nothing]
    exact ⟨rfl, rfl, rfl⟩

/-- **A tick whose last step has returned is counted.** -/
theorem counted_returned (agrees : (w.scheduler r).Agrees J) (last : J.ticks = past ++ [t])
    {j : JobRef} (out : j ∈ J.out) (v : Verdict)
    (still : ((w.step (.returned r j v)).2.scheduler r).driver.tick? = none) :
    (w.settle r j v).launched = [] ∧
      ((w.step (.returned r j v)).2.scheduler r).stats.jobsLastTick =
        (t.settle (w.returnOf r j v)).launched.length ∧
      ((w.step (.returned r j v)).2.scheduler r).stats.subCyclesLastTick =
        (t.settle (w.returnOf r j v)).waves.length := by
  obtain ⟨loop, k, past', u, driver, pending, tracks, last'⟩ := agrees.ticking_of_out out
  obtain ⟨-, rfl⟩ := List.append_singleton_inj.1 (last'.symm.trans last)
  have active : (w.scheduler r).driver.isActive = true := by rw [driver]; rfl
  have now := tracks.settle (b := w.returnOf r j v) pending
  have waves : (k.settle j (w.forest.children j) (v.fault? (w.forest.name j))).waves.length =
      (u.settle (w.returnOf r j v)).waves.length := by
    have same := congrArg List.length now.waves
    rwa [List.length_map] at same
  rw [step_of_out agrees out, scheduler_returned j v (length_of_active active), settle,
    Scheduler.returned_of_pending driver pending] at still ⊢
  rw [← now.launched, ← waves]
  dsimp only at still ⊢
  split at still
  · next empty =>
    rw [if_pos empty]
    exact (Scheduler.proceeds _ _ _ _).counted still
  · cases still

/-- **A calm event keeps the tick where it is to be.** -/
theorem Underway.step (h : Underway w₀ r verdicts t w) (held₀ : w₀.Held) (held : w.Held)
    (sound : (w.scheduler r).Sound) (agrees : (w.scheduler r).Agrees J)
    (last : J.ticks = past ++ [t])
    (rooted : ∀ j, w₀.forest.has j = true →
      ∃ x ∈ outside ++ (w₀.scheduler r).registry, w₀.forest.Within j x) {e : Event}
    (calm : w.Calm r outside verdicts e) :
    ∃ t', Journal.ticks (J ++ w.observe r J e) = past ++ [t'] ∧
      Underway w₀ r verdicts t' (w.step e).2 := by
  by_cases returns : ∃ j v, e = .returned r j v
  · obtain ⟨j, v, rfl⟩ := returns
    obtain rfl : v = verdicts j := by
      cases calm with
      | returned => rfl
      | other apart => simp [Event.drives] at apart
    by_cases out : j ∈ J.out
    · have ticks := Journal.ticks_returned last (w.returnOf r j (verdicts j))
      rw [observe_returned (step_of_out agrees out (verdicts j)), if_pos out, ← List.append_assoc]
      exact (h.toAlong.returned held₀ held agrees last out).handOut ticks
        (counted_returned agrees last out (verdicts j))
    · obtain ⟨unseen, scheduler, forest⟩ := step_of_not_out agrees out (verdicts j)
      refine ⟨t, by rw [unseen, List.append_nil, last], ?_, ?_⟩
      · exact h.toAlong.congr forest (by rw [scheduler]) (by rw [scheduler])
      · rw [scheduler]
        exact h.counted
  · have none : ∀ j v, e ≠ .returned r j v := fun j v same => returns ⟨j, v, same⟩
    obtain ⟨unseen, tick, stats⟩ := calm.still agrees sound none
    refine ⟨t, by rw [unseen, List.append_nil, last], ?_, ?_⟩
    · cases calm with
      | returned j => exact absurd rfl (none j _)
      | poll still =>
        obtain ⟨registry, forest⟩ := w.places_poll r
        exact h.toAlong.congr forest registry tick
      | sweep host kept registry =>
        exact h.toAlong.sweep held₀ held agrees last rooted kept registry tick
      | newJob name =>
        exact
          { registered := h.registered
            follows := h.follows
            pruned := h.pruned.create held₀.linked name
            registry := h.registry
            whole := fun running short j was =>
              (w.forest_step (e := .newJob name) (by intro held same; cases same)).has
                (h.whole running short j was) }
      | other apart registry forest => exact h.toAlong.congr forest registry tick
    · rw [tick, stats]
      exact h.counted

/-- **Where a tick is that nobody disturbs.** -/
theorem underway_run {pre ds : List Event} (tick : Undisturbed r pre ds outside verdicts) :
    ∃ t, (journal r (pre ++ .poll r :: ds)).ticks = (journal r pre).ticks ++ [t] ∧
      Underway (run pre) r verdicts t (run (pre ++ .poll r :: ds)) := by
  have held₀ := held_run pre
  have rooted : ∀ j, (run pre).forest.has j = true →
      ∃ x ∈ outside ++ ((run pre).scheduler r).registry, (run pre).forest.Within j x := by
    intro j here
    obtain ⟨n, found⟩ := Option.isSome_iff_exists.1 here
    have kept := tick.held n (List.mem_of_find?_eq_some found)
    rwa [Forest.job_of_node? found, held₀.linked.mem_reachable_iff] at kept
  obtain ⟨starts, -, calm⟩ := tick
  induction ds using List.reverseRecOn with
  | nil =>
    rw [run_concat, journal_concat]
    exact underway_start held₀ starts verdicts
  | append_singleton ds e ih =>
    obtain ⟨before, here⟩ := calmFrom_concat.1 calm
    rw [← run_append, List.append_assoc, List.singleton_append] at here
    obtain ⟨t, last, underway⟩ := ih before
    rw [← List.cons_append, ← List.append_assoc, run_concat, journal_concat]
    exact underway.step held₀ (held_run _) (sound_run _ r) (agrees_run _ r) last rooted here

end World

end FrameLoop

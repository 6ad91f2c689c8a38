import FrameLoop.Demo
import FrameLoop.Proofs.Run.Names
import FrameLoop.Proofs.Tick.Termination
import FrameLoop.Proofs.Tick.Undisturbed
import FrameLoop.Proofs.Wakeups
import FrameLoop.Proofs.Wakeups.Ends

/-!
# The demonstration as a run

The demonstration is a cast of three jobs on one loop. Its runs are those in which the scene is
set (`Cast.Ready`) and every later event leaves it to itself (`Cast.Lets`): wake-ups come as they
like, the steps of a tick return in any order, and whatever else there is in the world goes on.

What one event keeps comes in two parts. As long as jobs of the cast are registered and no others,
the injector among them (`Cast.Called`), a tick has one wave, for want of children, and the count
of the injector's calls is the count of ticks (`Cast.Carries`). Where nobody but the driver changes
who is registered, the warm-up is until its step has returned, and every tick has found the jobs
registered that are due in it (`Cast.Stands`).
-/

namespace FrameLoop

namespace World

variable {r : SchedulerRef} {es : List Event} {e : Event}

/-- **What a journal may see of an event**: nothing, the beginning of a tick, or a return. -/
inductive Sees (r : SchedulerRef) (es : List Event) : Event → Prop where
  | nothing {e : Event} (same : journal r (es ++ [e]) = journal r es)
    (places : e.drives r = true →
      ((run (es ++ [e])).scheduler r).registry = ((run es).scheduler r).registry ∧
        (run (es ++ [e])).forest = (run es).forest) : Sees r es e
  | tick {t : TickRecord} (still : (journal r es).out = [])
    (ticks : (journal r (es ++ [.poll r])).ticks = (journal r es).ticks ++ [t])
    (registry : t.registry = ((run es).scheduler r).registry) (none : t.returns = [])
    (returned : (journal r (es ++ [.poll r])).returned = (journal r es).returned) :
    Sees r es (.poll r)
  | step {j : JobRef} {v : Verdict} {past : List TickRecord} {t t' : TickRecord}
    (out : j ∈ (journal r es).out) (before : (journal r es).ticks = past ++ [t])
    (after : (journal r (es ++ [.returned r j v])).ticks = past ++ [t'])
    (registry : t'.registry = t.registry)
    (returns : t'.returns = t.returns ++ [(run es).returnOf r j v]) :
    Sees r es (.returned r j v)

theorem sees_poll (r : SchedulerRef) (es : List Event) : Sees r es (.poll r) := by
  have agrees := agrees_run es r
  cases starts : (run es).startsTick r with
  | false =>
    have calm : (run es).Calm r [] (fun _ => .outcome .resume) (.poll r) := .poll starts
    have polls (j : JobRef) (v : Verdict) : Event.poll r ≠ .returned r j v := by
      intro same
      cases same
    refine .nothing ?_ fun _ => by rw [run_concat]; exact (run es).places_poll r
    rw [journal_concat, (calm.still agrees (sound_run es r) polls).1, List.append_nil]
  | true =>
    obtain ⟨t, last, registered, none⟩ := ticks_of_starts starts
    obtain ⟨loop, waiting⟩ : ∃ loop, ((run es).scheduler r).driver = .waiting loop := by
      obtain ⟨stays, -⟩ | ⟨-, loop, -, waiting, -⟩ := (run es).looksUp r
      · rw [stays] at starts
        cases starts
      · exact ⟨loop, waiting⟩
    exact .tick (agrees.out_of_still (by rw [waiting]; rfl)) last registered none
      (returned_poll (by rw [waiting]; rfl))

theorem sees_returned (r : SchedulerRef) (es : List Event) (j : JobRef) (v : Verdict) :
    Sees r es (.returned r j v) := by
  by_cases out : j ∈ (journal r es).out
  · obtain ⟨loop, k, past, t, -, -, -, last⟩ := (agrees_run es r).ticking_of_out out
    obtain ⟨t', last', registry, returns⟩ := last_returned out last v
    exact .step out last last' registry returns
  · obtain ⟨unseen, scheduler, forest⟩ := step_of_not_out (agrees_run es r) out v
    refine .nothing ?_ fun _ => ⟨?_, ?_⟩
    · rw [journal_concat, unseen, List.append_nil]
    · rw [run_concat, scheduler]
    · rw [run_concat, forest]

theorem sees (r : SchedulerRef) (es : List Event) (e : Event) : Sees r es e := by
  cases driven : e.drives r with
  | true =>
    cases e with
    | poll k =>
      obtain rfl : k = r := by simpa [Event.drives] using driven
      exact sees_poll k es
    | returned k j v =>
      obtain rfl : k = r := by simpa [Event.drives] using driven
      exact sees_returned k es j v
    | _ => simp [Event.drives] at driven
  | false =>
    refine .nothing ?_ fun drives => by rw [driven] at drives; cases drives
    rw [journal_concat, observe_of_not_driven (agrees_run es r)
      (fun drives => by rw [driven] at drives; cases drives), List.append_nil]

end World

namespace Demo

open World (Event run journal evaluations Sees)

/-- **The cast of the demonstration.** -/
structure Cast where
  heartbeat : JobRef
  warmup : JobRef
  injector : JobRef

namespace Cast

variable {c : Cast} {after k : Nat} {t : TickRecord} {r : SchedulerRef} {es : List Event}
  {e : Event} {j : JobRef}

/-- All jobs of the cast. -/
def jobs (c : Cast) : List JobRef := [c.heartbeat, c.warmup, c.injector]

/-- Those that stay. -/
def residents (c : Cast) : List JobRef := [c.heartbeat, c.injector]

/-- **The jobs that are due in a tick**, the ticks being counted from zero. -/
def due (c : Cast) (k : Nat) : List JobRef := if k = 0 then c.jobs else c.residents

/-- **How a step of a job ends**, if the injector's is its `call`-th, counted from one. -/
def verdict (c : Cast) (after call : Nat) (j : JobRef) : Verdict :=
  if j = c.warmup then .outcome .detach
  else if j = c.injector then .outcome (faultInjector after call)
  else .outcome .resume

/-! ## Runs of the demonstration -/

/-- **No job of the cast has a parent or children.** -/
def Unlinked (c : Cast) (f : Forest) : Prop :=
  ∀ j ∈ c.jobs, f.parent j = none ∧ f.children j = []

/-- **The scene is set**: the loop runs, the cast is registered and nobody else is, and no
wake-up has been taken to the pacer. -/
structure Ready (c : Cast) (r : SchedulerRef) (es : List Event) : Prop where
  distinct : c.jobs.Nodup
  registered : ((run es).scheduler r).registry.Perm c.jobs
  unlinked : c.Unlinked (run es).forest
  name : (run es).forest.name c.injector = faultInjectorName
  running : ((run es).scheduler r).state = .running
  untaken : evaluations r es = []

/-- **Jobs that are called**: each of them once, none but those of the cast, and the injector in
any case. -/
structure Called (c : Cast) (l : List JobRef) : Prop where
  nodup : l.Nodup
  cast : l ⊆ c.jobs
  injector : c.injector ∈ l

/-- **An event that spares the demonstration.** Nobody asks the loop to stop or links a job of the
cast, those who are registered are such as are called, and a step that is out returns as it is to
end. -/
structure Spares (c : Cast) (after : Nat) (r : SchedulerRef) (es : List Event) (e : Event) :
    Prop where
  unasked : ((run (es ++ [e])).scheduler r).state ≠ .stopping
  called : e.drives r = false → c.Called ((run (es ++ [e])).scheduler r).registry
  unlinked : e.drives r = false → c.Unlinked (run (es ++ [e])).forest
  verdict : ∀ j v, e = .returned r j v → j ∈ (journal r es).out →
    v = c.verdict after ((journal r es).launched.count c.injector) j

/-- **An event that leaves the demonstration to itself.** Nobody asks the loop to stop, nobody
but its driver changes who is registered or links a job of the cast, and a step that is out
returns as it is to end. -/
structure Lets (c : Cast) (after : Nat) (r : SchedulerRef) (es : List Event) (e : Event) :
    Prop where
  unasked : ((run (es ++ [e])).scheduler r).state ≠ .stopping
  registry : e.drives r = false →
    ((run (es ++ [e])).scheduler r).registry = ((run es).scheduler r).registry
  unlinked : e.drives r = false → c.Unlinked (run (es ++ [e])).forest
  verdict : ∀ j v, e = .returned r j v → j ∈ (journal r es).out →
    v = c.verdict after ((journal r es).launched.count c.injector) j

/-- There has been no tick yet. -/
theorem Ready.ticks (ready : c.Ready r es) : (journal r es).ticks = [] := by
  have ticks := (World.paced_run r es).ticks
  rw [ready.untaken] at ticks
  exact List.length_eq_zero_iff.1 ticks

/-- And no step has returned. -/
theorem Ready.returned (ready : c.Ready r es) : (journal r es).returned = [] := by
  have all := (World.ordered_run r es).perm
  rw [← (World.ordered_run r es).launched_ticks, ready.ticks, List.flatMap_nil, List.perm_nil,
    List.append_eq_nil_iff] at all
  exact all.1

/-- **A run of the demonstration.** -/
inductive Performs (c : Cast) (after : Nat) (r : SchedulerRef) : List Event → Prop where
  | ready {es : List Event} (ready : c.Ready r es) : Performs c after r es
  | next {es : List Event} {e : Event} (before : Performs c after r es)
    (lets : c.Lets after r es e) : Performs c after r (es ++ [e])

/-! ## One tick -/

/-- **A step has ended as it is to**, in the tick numbered `k`. -/
structure Ends (c : Cast) (after k : Nat) (b : Return) : Prop where
  childless : b.children = []
  verdict : b.verdict = c.verdict after (k + 1) b.job
  name : b.job = c.injector → b.name = faultInjectorName

/-- **The tick numbered `k` goes as it is to.** -/
structure Plays (c : Cast) (after k : Nat) (t : TickRecord) : Prop where
  registry : c.Called t.registry
  returns : ∀ b ∈ t.returns, c.Ends after k b

theorem Called.perm {l l' : List JobRef} (called : c.Called l) (same : l.Perm l') :
    c.Called l' where
  nodup := same.nodup_iff.1 called.nodup
  cast := List.Subset.trans same.symm.subset called.cast
  injector := same.mem_iff.1 called.injector

theorem residents_sublist (c : Cast) : c.residents.Sublist c.jobs := by
  simp [residents, jobs]

theorem resident_due (here : j ∈ c.residents) (k : Nat) : j ∈ c.due k := by
  unfold due
  split
  · exact c.residents_sublist.subset here
  · exact here

theorem called_jobs (distinct : c.jobs.Nodup) : c.Called c.jobs where
  nodup := distinct
  cast := List.Subset.refl _
  injector := by simp [jobs]

theorem warmup_ne_injector (distinct : c.jobs.Nodup) : c.warmup ≠ c.injector := by
  simp only [jobs, List.nodup_cons, List.mem_cons, not_or] at distinct
  exact distinct.2.1.1

/-- **No job leads to another wave**, for want of children. -/
theorem Plays.length_waves_le (plays : c.Plays after k t) (exact : t.Exact) :
    t.waves.length ≤ 1 := by
  by_contra more
  have second := List.getElem?_eq_getElem (Nat.lt_of_not_le more)
  obtain ⟨j, launched⟩ :=
    List.exists_mem_of_ne_nil _ (exact.nonempty _ (List.mem_of_getElem? second))
  obtain ⟨⟨first, wave, b, returned, -, child⟩, -⟩ := (exact.launches 1 _ second j).1 launched
  have ret : b ∈ t.returns := List.mem_flatMap.2 ⟨first, List.mem_of_getElem? wave, returned⟩
  rw [(plays.returns b ret).childless] at child
  cases child

/-- **A tick has one wave, and launches the jobs that it has found registered.** -/
theorem Plays.launched (plays : c.Plays after k t) (exact : t.Exact)
    (begun : t.waves ≠ [] ∨ t.Over) : t.waves.length = 1 ∧ t.launched.Perm t.registry := by
  have some : t.waves ≠ [] := by
    rcases begun with some | spent
    · exact some
    · intro none
      have here := plays.registry.injector
      rw [(exact.waves_eq_nil spent).1 none] at here
      cases here
  have one : t.waves.length = 1 :=
    Nat.le_antisymm (plays.length_waves_le exact) (List.length_pos_iff.2 some)
  refine ⟨one, (List.perm_ext_iff_of_nodup exact.nodup plays.registry.nodup).2 fun j => ?_⟩
  obtain ⟨wave, only⟩ := List.length_eq_one_iff.1 one
  have launched : t.launched = t.launchedAt 0 := by
    rw [TickRecord.launched, TickRecord.launchedAt, only]
    simp
  rw [launched, exact.mem_launchedAt_zero (.inl (by omega))]

/-! ## Where a run stands -/

/-- **What every event keeps that spares the demonstration.** -/
structure Carries (c : Cast) (after : Nat) (r : SchedulerRef) (es : List Event) : Prop where
  distinct : c.jobs.Nodup
  begun : ((run es).scheduler r).state ≠ .idle
  unasked : ((run es).scheduler r).state ≠ .stopping
  called : c.Called ((run es).scheduler r).registry
  unlinked : c.Unlinked (run es).forest
  name : (run es).forest.name c.injector = faultInjectorName
  plays : ∀ past t rest, (journal r es).ticks = past ++ t :: rest → c.Plays after past.length t

namespace Carries

variable (h : c.Carries after r es)
include h

/-- Every tick has one wave, and has launched the jobs that it has found registered. -/
theorem tick {past rest : List TickRecord} (split : (journal r es).ticks = past ++ t :: rest) :
    t.waves.length = 1 ∧ t.launched.Perm t.registry := by
  obtain ⟨exact, -, ⟨spent, -⟩ | ⟨-, loop, k, -, tracks, -, busy⟩⟩ := World.tick_cases r es split
  · exact (h.plays past t rest split).launched exact (.inr spent)
  · exact (h.plays past t rest split).launched exact (.inl (tracks.waves_ne_nil busy))

/-- **A job is launched once in every tick that has found it registered**, and if all have, as
often as there are ticks. -/
theorem count_of_registered (always : ∀ t ∈ (journal r es).ticks, j ∈ t.registry) :
    (journal r es).launched.count j = (journal r es).ticks.length := by
  have once : ∀ t ∈ (journal r es).ticks, (List.count j ∘ TickRecord.launched) t = 1 := by
    intro t ht
    obtain ⟨past, rest, split⟩ := List.append_of_mem ht
    rw [Function.comp_apply, (h.tick split).2.count_eq]
    exact List.count_eq_one_of_mem (h.plays past t rest split).registry.nodup (always t ht)
  rw [← (World.ordered_run r es).launched_ticks, List.count_flatMap, List.map_congr_left once]
  simp

/-- **The count of the injector's calls is the count of ticks.** -/
theorem count_injector :
    (journal r es).launched.count c.injector = (journal r es).ticks.length := by
  refine h.count_of_registered fun t ht => ?_
  obtain ⟨past, rest, split⟩ := List.append_of_mem ht
  exact (h.plays past t rest split).registry.injector

/-- Who is out has been found registered by the last tick. -/
theorem registered_of_out (out : j ∈ (journal r es).out) {past : List TickRecord}
    (last : (journal r es).ticks = past ++ [t]) : j ∈ t.registry := by
  obtain ⟨loop, k, past', u, -, pending, tracks, last'⟩ :=
    (World.agrees_run es r).ticking_of_out out
  obtain ⟨rfl, rfl⟩ := List.append_singleton_inj.1 (last.symm.trans last')
  rw [← (h.tick last).2.mem_iff]
  exact tracks.pending.subset (List.mem_append_right _ pending)

/-- Nobody is out but jobs of the cast. -/
theorem mem_jobs_of_out (out : j ∈ (journal r es).out) : j ∈ c.jobs := by
  obtain ⟨loop, k, past, t, -, -, -, last⟩ := (World.agrees_run es r).ticking_of_out out
  exact (h.plays past t [] last).registry.cast (h.registered_of_out out last)

/-! ### One event -/

/-- What an event has to keep, besides what it keeps of itself. -/
theorem goes_on (unasked : ((run (es ++ [e])).scheduler r).state ≠ .stopping)
    (called : c.Called ((run (es ++ [e])).scheduler r).registry)
    (unlinked : c.Unlinked (run (es ++ [e])).forest)
    (plays : ∀ past t rest, (journal r (es ++ [e])).ticks = past ++ t :: rest →
      c.Plays after past.length t) : c.Carries after r (es ++ [e]) where
  distinct := h.distinct
  begun idle := by
    rw [World.run_concat] at idle
    have sound := World.sound_run es r
    exact h.begun ((World.turn_step sound e).of_idle sound idle)
  unasked := unasked
  called := called
  unlinked := unlinked
  name := by
    have there {a : List Event} (called : c.Called ((run a).scheduler r).registry) :
        (run a).forest.has c.injector = true :=
      (World.held_run a).there r _ (List.mem_append_left _ called.injector)
    have kept := there called
    rw [World.run_concat] at kept ⊢
    rw [World.name_step (there h.called) kept, h.name]
  plays := plays

/-- Nobody but the warm-up leaves. -/
theorem registry_returned (out : j ∈ (journal r es).out) {v : Verdict}
    (verdict : v = c.verdict after ((journal r es).launched.count c.injector) j) :
    ((run (es ++ [.returned r j v])).scheduler r).registry =
      if j = c.warmup then ((run es).scheduler r).registry.erase c.warmup
      else ((run es).scheduler r).registry := by
  obtain ⟨orphan, -⟩ := h.unlinked j (h.mem_jobs_of_out out)
  rw [World.run_concat, (World.places_returned (World.agrees_run es r) out v).1]
  by_cases leaves : j = c.warmup
  · subst leaves
    rw [verdict, Cast.verdict, if_pos rfl, Scheduler.registry_depart_detach, if_pos orphan,
      if_pos rfl]
  · have stays : v ≠ .outcome .detach := by
      rw [verdict, Cast.verdict, if_neg leaves]
      unfold faultInjector
      split
      · split <;> simp
      · simp
    rw [Scheduler.depart_of_ne stays, if_neg leaves]

theorem called_returned (out : j ∈ (journal r es).out) {v : Verdict}
    (verdict : v = c.verdict after ((journal r es).launched.count c.injector) j) :
    c.Called ((run (es ++ [.returned r j v])).scheduler r).registry := by
  rw [h.registry_returned out verdict]
  split
  · exact
      { nodup := h.called.nodup.erase _
        cast := List.Subset.trans List.erase_subset h.called.cast
        injector := (List.mem_erase_of_ne (warmup_ne_injector h.distinct).symm).2
          h.called.injector }
  · exact h.called

theorem unlinked_returned (out : j ∈ (journal r es).out) (v : Verdict) :
    c.Unlinked (run (es ++ [.returned r j v])).forest := by
  obtain ⟨orphan, -⟩ := h.unlinked j (h.mem_jobs_of_out out)
  rw [World.run_concat, (World.places_returned (World.agrees_run es r) out v).2]
  unfold Scheduler.depart
  split
  · simp only [Scheduler.remove, orphan]
    exact h.unlinked
  all_goals exact h.unlinked

/-- A step has ended as it is to, in the last tick. -/
theorem ends_returned (out : j ∈ (journal r es).out) {v : Verdict}
    (verdict : v = c.verdict after ((journal r es).launched.count c.injector) j)
    {past : List TickRecord} (last : (journal r es).ticks = past ++ [t]) :
    c.Ends after past.length ((run es).returnOf r j v) where
  childless := (h.unlinked j (h.mem_jobs_of_out out)).2
  verdict := by
    rw [h.count_injector, last, List.length_append] at verdict
    exact verdict
  name := by
    rintro rfl
    exact h.name

/-- **Every event that spares the demonstration keeps this.** -/
theorem concat (spares : c.Spares after r es e) : c.Carries after r (es ++ [e]) := by
  cases World.sees r es e with
  | nothing same places =>
    have plays := same ▸ h.plays
    cases driven : e.drives r with
    | true =>
      obtain ⟨registry, forest⟩ := places driven
      exact h.goes_on spares.unasked (registry ▸ h.called) (forest ▸ h.unlinked) plays
    | false =>
      exact h.goes_on spares.unasked (spares.called driven) (spares.unlinked driven) plays
  | @tick t still ticks registry none =>
    obtain ⟨kept, forest⟩ := (run es).places_poll r
    rw [← World.run_concat] at kept forest
    refine h.goes_on spares.unasked (kept ▸ h.called) (forest ▸ h.unlinked) ?_
    intro past u rest split
    rw [ticks] at split
    obtain ⟨rfl, rfl, -⟩ | ⟨more, rfl, before⟩ := split_concat split.symm
    · exact ⟨registry ▸ h.called, by rw [none]; exact fun _ => nofun⟩
    · exact h.plays past u more before
  | @step j v past t t' out last ticks registry returns =>
    have verdict := spares.verdict j v rfl out
    refine h.goes_on spares.unasked (h.called_returned out verdict)
      (h.unlinked_returned out v) ?_
    intro before u rest split
    rw [ticks] at split
    obtain ⟨rfl, rfl, -⟩ | ⟨more, rfl, rfl⟩ := split_concat split.symm
    · have plays := h.plays before t [] last
      refine ⟨registry ▸ plays.registry, ?_⟩
      rw [returns]
      intro b hb
      rcases List.mem_append.1 hb with old | new
      · exact plays.returns b old
      · obtain rfl := List.mem_singleton.1 new
        exact h.ends_returned out verdict last
    · exact h.plays before u (more ++ [t]) (by rw [last]; simp)

/-! ### Events that spare it -/

/-- An event of somebody else, if it asks for no stop and registers none but jobs of the cast. -/
theorem spares_of_apart (apart : e.drives r = false)
    (state : ((run (es ++ [e])).scheduler r).state = ((run es).scheduler r).state)
    (called : c.Called ((run (es ++ [e])).scheduler r).registry)
    (unlinked : c.Unlinked (run (es ++ [e])).forest) : c.Spares after r es e where
  unasked := by rw [state]; exact h.unasked
  called _ := called
  unlinked _ := unlinked
  verdict := by
    rintro j v rfl
    simp [Event.drives] at apart

/-- An event that does nothing to the loop or the jobs. -/
theorem spares_of_same (apart : e.drives r = false)
    (scheduler : (run (es ++ [e])).scheduler r = (run es).scheduler r)
    (forest : (run (es ++ [e])).forest = (run es).forest) : c.Spares after r es e :=
  h.spares_of_apart apart (by rw [scheduler]) (by rw [scheduler]; exact h.called)
    (by rw [forest]; exact h.unlinked)

/-- A move of the driver, if a step that is out returns as it is to end. -/
theorem spares_of_driven (driven : e.drives r = true)
    (verdict : ∀ j v, e = .returned r j v → j ∈ (journal r es).out →
      v = c.verdict after ((journal r es).launched.count c.injector) j) :
    c.Spares after r es e where
  unasked := by
    rw [World.run_concat]
    exact World.not_stopping_of_driven driven h.unasked
  called apart := by rw [driven] at apart; cases apart
  unlinked apart := by rw [driven] at apart; cases apart
  verdict := verdict

theorem spares_of_poll : c.Spares after r es (.poll r) := by
  refine h.spares_of_driven (by simp [Event.drives]) ?_
  intro j v same
  cases same

theorem spares_of_returned {v : Verdict}
    (verdict : v = c.verdict after ((journal r es).launched.count c.injector) j) :
    c.Spares after r es (.returned r j v) := by
  refine h.spares_of_driven (by simp [Event.drives]) ?_
  rintro k u ⟨⟩ -
  exact verdict

end Carries

/-- **What every event keeps that leaves the demonstration to itself.** -/
structure Stands (c : Cast) (after : Nat) (r : SchedulerRef) (es : List Event) : Prop
    extends c.Carries after r es where
  registry : ((run es).scheduler r).registry.Perm
    (if c.warmup ∈ (journal r es).returned then c.residents else c.jobs)
  found : ∀ past t rest, (journal r es).ticks = past ++ t :: rest →
    t.registry.Perm (c.due past.length)

namespace Stands

variable (h : c.Stands after r es)
include h

/-- Every tick has one wave, and has launched the jobs that are due. -/
theorem tick {past rest : List TickRecord} (split : (journal r es).ticks = past ++ t :: rest) :
    t.waves.length = 1 ∧ t.launched.Perm (c.due past.length) :=
  (h.toCarries.tick split).imp_right (·.trans (h.found past t rest split))

/-- **A job that stays is launched once in every tick.** -/
theorem count_resident (stays : j ∈ c.residents) :
    (journal r es).launched.count j = (journal r es).ticks.length := by
  refine h.count_of_registered fun t ht => ?_
  obtain ⟨past, rest, split⟩ := List.append_of_mem ht
  exact (h.found past t rest split).mem_iff.2 (resident_due stays _)

theorem heartbeat_ne_warmup : c.heartbeat ≠ c.warmup := by
  have distinct := h.distinct
  simp only [jobs, List.nodup_cons, List.mem_cons, not_or] at distinct
  exact distinct.1.1

theorem warmup_not_resident : c.warmup ∉ c.residents := by
  simp only [residents, List.mem_cons, List.not_mem_nil, or_false, not_or]
  exact ⟨h.heartbeat_ne_warmup.symm, warmup_ne_injector h.distinct⟩

/-- **The warm-up is launched in the first tick**, and in no other. -/
theorem count_warmup :
    (journal r es).launched.count c.warmup = if (journal r es).ticks = [] then 0 else 1 := by
  rw [← (World.ordered_run r es).launched_ticks]
  cases ticks : (journal r es).ticks with
  | nil => rfl
  | cons t rest =>
    have first : t.launched.count c.warmup = 1 := by
      have split : (journal r es).ticks = [] ++ t :: rest := ticks
      rw [(h.tick split).2.count_eq]
      exact List.count_eq_one_of_mem h.distinct (by simp [due, jobs])
    have later : ∀ u ∈ rest, c.warmup ∉ u.launched := by
      intro u hu
      obtain ⟨past, more, split⟩ := List.append_of_mem hu
      have place : (journal r es).ticks = (t :: past) ++ u :: more := by rw [ticks, split]; rfl
      rw [(h.tick place).2.mem_iff]
      exact h.warmup_not_resident
    have none : (rest.flatMap (·.launched)).count c.warmup = 0 := by
      rw [List.count_eq_zero, List.mem_flatMap]
      rintro ⟨u, hu, launched⟩
      exact later u hu launched
    rw [List.flatMap_cons, List.count_append, first, none, if_neg (List.cons_ne_nil t rest)]

/-- **While the warm-up is out it has not returned.** -/
theorem warmup_not_returned (out : c.warmup ∈ (journal r es).out) :
    c.warmup ∉ (journal r es).returned := by
  have once := h.count_warmup
  have all := (World.ordered_run r es).perm.count_eq c.warmup
  have here := List.count_pos_iff.2 out
  rw [List.count_append] at all
  intro returned
  have there := List.count_pos_iff.2 returned
  split at once <;> omega

/-- **Between two ticks the warm-up has returned**, unless there has been no tick yet. -/
theorem warmup_returned (still : (journal r es).out = []) :
    c.warmup ∈ (journal r es).returned ↔ (journal r es).ticks ≠ [] := by
  have once := h.count_warmup
  have all := (World.ordered_run r es).perm.count_eq c.warmup
  rw [still, List.append_nil] at all
  rw [← List.count_pos_iff, all, once]
  split <;> simp [*]

/-! ### One event -/

theorem spares (lets : c.Lets after r es e) : c.Spares after r es e where
  unasked := lets.unasked
  called apart := lets.registry apart ▸ h.called
  unlinked := lets.unlinked
  verdict := lets.verdict

/-- **Nobody but the warm-up leaves**, and that when its step has returned. -/
theorem registry_concat (lets : c.Lets after r es e) :
    ((run (es ++ [e])).scheduler r).registry.Perm
      (if c.warmup ∈ (journal r (es ++ [e])).returned then c.residents else c.jobs) := by
  cases World.sees r es e with
  | nothing same places =>
    have kept : ((run (es ++ [e])).scheduler r).registry = ((run es).scheduler r).registry := by
      cases driven : e.drives r with
      | true => exact (places driven).1
      | false => exact lets.registry driven
    rw [kept, same]
    exact h.registry
  | tick _ _ _ _ returned =>
    obtain ⟨kept, -⟩ := (run es).places_poll r
    rw [World.run_concat, kept, returned]
    exact h.registry
  | @step j v _ _ _ out =>
    rw [h.registry_returned out (lets.verdict j v rfl out), World.returned_of_out out v]
    by_cases leaves : j = c.warmup
    · subst leaves
      have before := h.registry
      rw [if_neg (h.warmup_not_returned out)] at before
      rw [if_pos rfl, if_pos (by simp)]
      have erased : c.jobs.erase c.warmup = c.residents := by
        rw [jobs, List.erase_cons_tail (by simpa using h.heartbeat_ne_warmup),
          List.erase_cons_head, residents]
      exact erased ▸ before.erase c.warmup
    · have same : c.warmup ∈ (journal r es).returned ++ [j] ↔
          c.warmup ∈ (journal r es).returned := by
        simp [Ne.symm leaves]
      rw [if_neg leaves]
      simp only [same]
      exact h.registry

/-- **A tick finds the jobs registered that are due in it.** -/
theorem found_concat {past rest : List TickRecord}
    (split : (journal r (es ++ [e])).ticks = past ++ t :: rest) :
    t.registry.Perm (c.due past.length) := by
  cases World.sees r es e with
  | nothing same =>
    rw [same] at split
    exact h.found past t rest split
  | tick still ticks registry =>
    rw [ticks] at split
    obtain ⟨rfl, rfl, -⟩ | ⟨more, rfl, before⟩ := split_concat split.symm
    · have due : (if c.warmup ∈ (journal r es).returned then c.residents else c.jobs) =
          c.due (journal r es).ticks.length := by
        simp only [h.warmup_returned still, Cast.due, List.length_eq_zero_iff, ite_not]
      rw [registry, ← due]
      exact h.registry
    · exact h.found past t more before
  | @step _ _ before u _ _ last ticks registry =>
    rw [ticks] at split
    obtain ⟨rfl, rfl, -⟩ | ⟨more, rfl, rfl⟩ := split_concat split.symm
    · rw [registry]
      exact h.found past u [] last
    · exact h.found past t (more ++ [u]) (by rw [last]; simp)

/-- **Every event that leaves the demonstration to itself keeps it where it stands.** -/
theorem concat (lets : c.Lets after r es e) : c.Stands after r (es ++ [e]) where
  toCarries := h.toCarries.concat (h.spares lets)
  registry := h.registry_concat lets
  found _ _ _ := h.found_concat

/-! ### Events that leave it to itself -/

/-- An event that does nothing to the loop or the jobs. -/
theorem lets_of_same (apart : e.drives r = false)
    (scheduler : (run (es ++ [e])).scheduler r = (run es).scheduler r)
    (forest : (run (es ++ [e])).forest = (run es).forest) : c.Lets after r es e where
  unasked := by rw [scheduler]; exact h.unasked
  registry _ := by rw [scheduler]
  unlinked _ := by rw [forest]; exact h.unlinked
  verdict := by
    rintro j v rfl
    simp [Event.drives] at apart

/-- A move of the driver, if a step that is out returns as it is to end. -/
theorem lets_of_driven (driven : e.drives r = true)
    (verdict : ∀ j v, e = .returned r j v → j ∈ (journal r es).out →
      v = c.verdict after ((journal r es).launched.count c.injector) j) :
    c.Lets after r es e where
  unasked := by
    rw [World.run_concat]
    exact World.not_stopping_of_driven driven h.unasked
  registry apart := by rw [driven] at apart; cases apart
  unlinked apart := by rw [driven] at apart; cases apart
  verdict := verdict

theorem lets_of_poll : c.Lets after r es (.poll r) := by
  refine h.lets_of_driven (by simp [Event.drives]) ?_
  intro j v same
  cases same

theorem lets_of_returned {v : Verdict}
    (verdict : v = c.verdict after ((journal r es).launched.count c.injector) j) :
    c.Lets after r es (.returned r j v) := by
  refine h.lets_of_driven (by simp [Event.drives]) ?_
  rintro k u ⟨⟩ -
  exact verdict

end Stands

/-- **A scene that is set stands where it is to stand.** -/
theorem Ready.stands (ready : c.Ready r es) : c.Stands after r es := by
  have registry : ((run es).scheduler r).registry.Perm
      (if c.warmup ∈ (journal r es).returned then c.residents else c.jobs) := by
    rw [ready.returned, if_neg List.not_mem_nil]
    exact ready.registered
  have unseen {past rest : List TickRecord} {t : TickRecord} :
      (journal r es).ticks ≠ past ++ t :: rest := by
    rw [ready.ticks]
    simp
  constructor
  case toCarries =>
    constructor
    case distinct => exact ready.distinct
    case begun => rw [ready.running]; decide
    case unasked => rw [ready.running]; decide
    case called => exact (called_jobs ready.distinct).perm ready.registered.symm
    case unlinked => exact ready.unlinked
    case name => exact ready.name
    case plays => exact fun _ _ _ split => absurd split unseen
  case registry => exact registry
  case found => exact fun _ _ _ split => absurd split unseen

/-- **A run of the demonstration stands where it is to stand.** -/
theorem Performs.stands (h : c.Performs after r es) : c.Stands after r es := by
  induction h with
  | next _ lets ih => exact ih.concat lets
  | ready ready => exact ready.stands

/-- What the log is told does nothing to a run. -/
theorem Performs.tell (h : c.Performs after r es) (ns : List Notice) :
    c.Performs after r (es ++ [.tell ns]) :=
  h.next (h.stands.lets_of_same rfl (by rw [World.run_concat]; rfl)
    (by rw [World.run_concat]; rfl))

/-- Nor does time that passes. -/
theorem Performs.pass (h : c.Performs after r es) (nanos : Nat) :
    c.Performs after r (es ++ [.pass nanos]) :=
  h.next (h.stands.lets_of_same rfl (by rw [World.run_concat]; rfl)
    (by rw [World.run_concat]; rfl))

end Cast

end Demo

end FrameLoop

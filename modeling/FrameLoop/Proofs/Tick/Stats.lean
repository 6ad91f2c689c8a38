import FrameLoop.Proofs.Journal.Turns
import FrameLoop.Proofs.Tick.LaunchSet
import Mathlib.Algebra.Order.BigOperators.Group.List
import Mathlib.Data.List.Nodup

/-!
# The counters tell the history

The counters are published once for each tick, when it has drained, and a tick that drains
with a fault is counted like any other. So they are a reading of the journal, and
`TickStats.Tells` says which one: how many ticks have drained, what the last of them
launched and in how many waves, and whether there has been one at all. An event publishes
at most one tick (`Scheduler.TickTurn`), which keeps it.

The main law (`stats_tell_history`) reads the counters off the journal in every reachable
state. Together with what an exact tick launches it gives the count of a job that was
registered at the start of every tick: it has been launched once in each.

**What this does not say.** How long a tick took and how far two of them are apart is a
matter of the clock.
-/

namespace FrameLoop

open Scheduler (TickTurn)

/-! ## One tick -/

namespace TickRecord

variable {t : TickRecord}

/-- No wave is empty, so there are no more waves than steps. -/
theorem Exact.length_waves_le (exact : t.Exact) : t.waves.length ≤ t.launched.length := by
  have some : ∀ n ∈ t.waves.map (·.launched.length), 1 ≤ n := by
    rw [List.forall_mem_map]
    intro c hc
    exact List.length_pos_iff.2 (exact.nonempty c hc)
  have all := List.length_le_sum_of_one_le _ some
  rwa [List.length_map, ← List.length_flatMap] at all

/-- Where a step was launched, there was a wave. -/
theorem Exact.launched_eq_nil (exact : t.Exact) : t.launched = [] ↔ t.waves = [] := by
  constructor
  · intro none
    have few := exact.length_waves_le
    rw [none] at few
    exact List.length_eq_zero_iff.1 (Nat.le_zero.1 few)
  · intro none
    rw [launched, none]
    rfl

/-- **Who was registered at the start of a tick has been launched in it**, once it is
over. -/
theorem Exact.launched_of_registered (exact : t.Exact) (spent : t.Over) {j : JobRef}
    (registered : j ∈ t.registry) : j ∈ t.launched := by
  have first := (exact.mem_launchedAt_zero (.inr spent) j).2 registered
  by_cases some : 0 < t.waves.length
  · exact mem_launched.2 ⟨0, some, first⟩
  · rw [launchedAt_of_length_le (Nat.le_of_not_lt some)] at first
    cases first

/-- **A tick that is over launched nothing exactly if nothing was registered** when it
started. -/
theorem Exact.waves_eq_nil (exact : t.Exact) (spent : t.Over) : t.waves = [] ↔ t.registry = [] := by
  constructor
  · intro none
    apply List.eq_nil_iff_forall_not_mem.2
    intro j registered
    have launched := exact.launched_of_registered spent registered
    rw [exact.launched_eq_nil.2 none] at launched
    cases launched
  · intro none
    by_contra some
    have short := List.length_pos_iff.2 some
    obtain ⟨j, hj⟩ := List.exists_mem_of_ne_nil _ (exact.nonempty _ (List.getElem_mem short))
    have first : j ∈ t.launchedAt 0 := by
      rwa [launchedAt_eq (List.getElem?_eq_getElem short)]
    rw [exact.mem_launchedAt_zero (.inl short), none] at first
    cases first

end TickRecord

/-- **A job that was registered at the start of each of some ticks was launched once in
each.** -/
theorem count_launched {ticks : List TickRecord} {j : JobRef}
    (each : ∀ t ∈ ticks, t.Exact ∧ t.Over ∧ j ∈ t.registry) :
    (ticks.flatMap (·.launched)).count j = ticks.length := by
  induction ticks with
  | nil => rfl
  | cons t rest ih =>
    obtain ⟨exact, spent, registered⟩ := each t List.mem_cons_self
    have once : t.launched.count j = 1 :=
      List.count_eq_one_of_mem exact.nodup (exact.launched_of_registered spent registered)
    have more := ih fun u hu => each u (List.mem_cons_of_mem t hu)
    rw [List.flatMap_cons, List.count_append, once, more, List.length_cons]
    exact Nat.add_comm _ _

/-! ## The counters -/

/-- **Counters tell of some ticks**, the last of which was published last. -/
structure TickStats.Tells (s : TickStats) (drained : List TickRecord) : Prop where
  ticks : s.ticks = drained.length
  none : drained = [] → s = {}
  last : ∀ past t, drained = past ++ [t] →
    s.jobsLastTick = t.launched.length ∧ s.subCyclesLastTick = t.waves.length
  startedAt : s.startedAt.isSome = true ↔ 1 ≤ s.ticks

namespace TickStats

theorem tells_nil : Tells {} [] where
  ticks := rfl
  none _ := rfl
  last := by simp
  startedAt := by simp

/-- One more tick is published. -/
theorem Tells.add {s : TickStats} {drained : List TickRecord} (h : s.Tells drained) {entry : Entry}
    {t : TickRecord} (jobs : entry.jobs = t.launched.length)
    (subCycles : entry.subCycles = t.waves.length) : (s.add entry).Tells (drained ++ [t]) where
  ticks := by
    rw [List.length_append, ← h.ticks]
    rfl
  none empty := by simp at empty
  last past u split := by
    obtain ⟨-, rfl⟩ := List.append_singleton_inj.1 split
    exact ⟨jobs, subCycles⟩
  startedAt := by simp [TickStats.add]

end TickStats

namespace Scheduler

/-- **A turn publishes one tick at most**, behind those that have drained before. -/
theorem TickTurn.published {s s' : Scheduler} {J J' : Journal} (h : TickTurn s J s' J') :
    s'.stats = s.stats ∧ s'.drainedTicks J' = s.drainedTicks J ∨
      ∃ t entry, s'.stats = s.stats.add entry ∧ entry.jobs = t.launched.length ∧
        entry.subCycles = t.waves.length ∧ s'.drainedTicks J' = s.drainedTicks J ++ [t] := by
  cases h with
  | rests ticks tick stats =>
    refine .inl ⟨stats, ?_⟩
    rw [drainedTicks, drainedTicks, tick, ticks]
  | ends exit _ ticks still tick stats =>
    refine .inl ⟨stats, ?_⟩
    rw [drainedTicks_of_still still, drainedTicks_of_still tick, ticks]
  | runs ticks tick stats => exact .inl ⟨stats, drainedTicks_of_busy tick ticks⟩
  | @drains t ticks tick entry stats jobs subCycles =>
    refine .inr ⟨t, entry, stats, jobs, subCycles, ?_⟩
    rw [drainedTicks_of_still tick, ticks]

/-- What the counters tell is kept by a turn. -/
theorem TickTurn.tells {s s' : Scheduler} {J J' : Journal} (h : TickTurn s J s' J')
    (tells : s.stats.Tells (s.drainedTicks J)) : s'.stats.Tells (s'.drainedTicks J') := by
  obtain ⟨stats, same⟩ | ⟨t, entry, stats, jobs, subCycles, more⟩ := h.published
  · rwa [stats, same]
  · rw [stats, more]
    exact tells.add jobs subCycles

/-- **The time of the first tick stays.** -/
theorem TickTurn.startedAt {s s' : Scheduler} {J J' : Journal} (h : TickTurn s J s' J')
    {at_ : Timestamp} (set : s.stats.startedAt = some at_) : s'.stats.startedAt = some at_ := by
  obtain ⟨stats, -⟩ | ⟨t, entry, stats, -⟩ := h.published
  · rw [stats, set]
  · rw [stats, TickStats.add, set]
    rfl

end Scheduler

namespace World

variable (r : SchedulerRef) (es : List Event)

/-- **After every run the counters tell of the ticks that have drained.** -/
theorem tells_run :
    ((run es).scheduler r).stats.Tells (((run es).scheduler r).drainedTicks (journal r es)) := by
  induction es using List.reverseRecOn with
  | nil => exact TickStats.tells_nil
  | append_singleton es e ih => exact (tickTurn_concat r es e).tells ih

/-- The time of the first tick stays, whatever happens next. -/
theorem startedAt_append (more : List Event) {at_ : Timestamp}
    (set : ((run es).scheduler r).stats.startedAt = some at_) :
    ((run (es ++ more)).scheduler r).stats.startedAt = some at_ := by
  induction more using List.reverseRecOn with
  | nil => rwa [List.append_nil]
  | append_singleton more e ih =>
    rw [← List.append_assoc]
    exact (tickTurn_concat r (es ++ more) e).startedAt ih

/-- How many ticks have drained. -/
theorem length_drainedTicks :
    (((run es).scheduler r).drainedTicks (journal r es)).length +
      (if ((run es).scheduler r).driver.tick?.isSome then 1 else 0) =
        (journal r es).ticks.length := by
  by_cases busy : ((run es).scheduler r).driver.tick?.isSome = true
  · cases agrees_run es r with
    | rests still => rw [still] at busy; cases busy
    | faulted ended => rw [ended] at busy; cases busy
    | ticks _ last =>
      rw [Scheduler.drainedTicks_of_busy busy last, if_pos busy, last, List.length_append]
      rfl
  · rw [Scheduler.drainedTicks, if_neg busy, if_neg busy]
    rfl

/-- The ticks that have drained are those that are over. -/
theorem over_iff_lt {before after : List TickRecord} {t : TickRecord}
    (split : (journal r es).ticks = before ++ t :: after) :
    t.Over ↔ before.length < (((run es).scheduler r).drainedTicks (journal r es)).length := by
  have length := length_drainedTicks r es
  rw [over_iff r es split]
  rw [split, List.length_append, List.length_cons] at length
  cases tick : ((run es).scheduler r).driver.tick? with
  | none =>
    rw [tick] at length
    simp only [Option.isSome_none, Bool.false_eq_true, if_false] at length
    refine iff_of_true (.inr rfl) ?_
    omega
  | some k =>
    rw [tick, Option.isSome_some, if_pos rfl] at length
    rw [← List.length_pos_iff]
    simp only [reduceCtorEq, or_false]
    omega

/-- What the counters say of the tick that was counted last. -/
theorem counted_last {past : List TickRecord} {t : TickRecord}
    (last : ((run es).scheduler r).drainedTicks (journal r es) = past ++ [t]) :
    t.Exact ∧ t.Over ∧ ((run es).scheduler r).stats.jobsLastTick = t.launched.length ∧
      ((run es).scheduler r).stats.subCyclesLastTick = t.waves.length := by
  obtain ⟨rest, whole⟩ := ((run es).scheduler r).drainedTicks_isPrefix_ticks (journal r es)
  have split : (journal r es).ticks = past ++ t :: rest := by rw [← whole, last]; simp
  have spent := (over_iff_lt r es split).2 (by rw [last]; simp)
  exact ⟨(tick_cases r es split).1, spent, (tells_run r es).last past t last⟩

/-- **The counters tell the true history**, in every reachable state:

* the count of ticks is that of all ticks started, less the one in flight, and those
  counted are those that are over;
* the other two counts are those of the last tick counted, faulting or not: the steps it
  launched, and its waves, none of which was empty; either is zero exactly if nothing was
  registered when that tick started, and there are no more waves than steps;
* until a tick is counted all counters are as they were at first; the time of the first
  tick is set exactly if one has been counted, and stays what it is;
* in a final state a job that was registered at the start of every tick has been launched
  as often as ticks are counted. -/
theorem stats_tell_history (r : SchedulerRef) (es : List Event) :
    let s := (run es).scheduler r
    let J := journal r es
    s.stats.ticks + (if s.driver.tick?.isSome then 1 else 0) = J.ticks.length ∧
      (∀ before t after, J.ticks = before ++ t :: after →
        (t.Over ↔ before.length < s.stats.ticks)) ∧
      (∀ before t after, J.ticks = before ++ t :: after → before.length + 1 = s.stats.ticks →
        s.stats.jobsLastTick = t.launched.length ∧ s.stats.subCyclesLastTick = t.waves.length ∧
          (∀ c ∈ t.waves, c.launched ≠ []) ∧
          (s.stats.jobsLastTick = 0 ↔ t.registry = []) ∧
          (s.stats.subCyclesLastTick = 0 ↔ t.registry = [])) ∧
      s.stats.subCyclesLastTick ≤ s.stats.jobsLastTick ∧
      (s.stats.ticks = 0 → s.stats = {}) ∧
      (s.stats.startedAt.isSome = true ↔ 1 ≤ s.stats.ticks) ∧
      (∀ more at_, s.stats.startedAt = some at_ →
        ((run (es ++ more)).scheduler r).stats.startedAt = some at_) ∧
      (s.state.isTerminal = true → ∀ j, (∀ t ∈ J.ticks, j ∈ t.registry) →
        J.launched.count j = s.stats.ticks) := by
  intro s J
  have tells : s.stats.Tells (s.drainedTicks J) := tells_run r es
  refine ⟨?_, ?_, ?_, ?_, ?_, tells.startedAt, ?_, ?_⟩
  · rw [tells.ticks]
    exact length_drainedTicks r es
  · intro before t after split
    rw [tells.ticks]
    exact over_iff_lt r es split
  · intro before t after split last
    rw [tells.ticks] at last
    have here : s.drainedTicks J = before ++ [t] := by
      rw [List.prefix_iff_eq_take.1 (s.drainedTicks_isPrefix_ticks J), ← last, split]
      simp [List.take_append]
    obtain ⟨exact, spent, jobs, subCycles⟩ := counted_last r es here
    refine ⟨jobs, subCycles, exact.nonempty, ?_, ?_⟩
    · rw [jobs, List.length_eq_zero_iff, exact.launched_eq_nil, exact.waves_eq_nil spent]
    · rw [subCycles, List.length_eq_zero_iff, exact.waves_eq_nil spent]
  · obtain none | ⟨past, t, last⟩ := (s.drainedTicks J).eq_nil_or_concat
    · rw [tells.none none]
    · rw [List.concat_eq_append] at last
      obtain ⟨exact, -, jobs, subCycles⟩ := counted_last r es last
      rw [jobs, subCycles]
      exact exact.length_waves_le
  · intro none
    rw [tells.ticks, List.length_eq_zero_iff] at none
    exact tells.none none
  · intro more at_ set
    exact startedAt_append r es more set
  · intro terminal j registered
    have still : s.driver.tick? = none := by
      rw [(sound_run es r).ended_of_terminal terminal]
      rfl
    rw [← (ordered_run r es).launched_ticks, tells.ticks, Scheduler.drainedTicks_of_still still]
    apply count_launched
    intro t ht
    obtain ⟨before, after, split⟩ := List.append_of_mem ht
    exact ⟨(tick_cases r es split).1, (over_iff r es split).2 (.inr still), registered t ht⟩

/-- A run with two ticks, the second of which is in flight: it has launched the parent, and
the child is still to come. -/
def busyRun : List Event :=
  [.newJob "parent", .newJob "child", .attach 0 1, .newScheduler ⟨"loop"⟩ .zero .zero,
    .schedule 0 0, .start 0 (.script [.reading ⟨0⟩, .reading ⟨1⟩]), .poll 0, .pass 7,
    .returned 0 0 (.outcome .resume), .returned 0 1 (.outcome .detach), .attach 0 1, .poll 0]

/-- How it goes on: a stop is asked for, and then the step of the parent fails. -/
def brokenRun : List Event := busyRun ++ [.signalStop 0, .returned 0 0 (.failed ⟨"broken", []⟩)]

/-- In flight, the second tick does not count. When it has drained with its fault it does,
with one step and one wave, and the child, which it never launched, has been launched once
in all. -/
theorem stats_tell_history_of_brokenRun :
    ((run busyRun).scheduler 0).stats.ticks + 1 = 2 ∧
      ((run busyRun).scheduler 0).stats.startedAt = some (.ofNanos 0) ∧
      ((run brokenRun).scheduler 0).stats.ticks = 2 ∧
      ((run brokenRun).scheduler 0).stats.jobsLastTick = 1 ∧
      ((run brokenRun).scheduler 0).stats.subCyclesLastTick = 1 ∧
      ((run brokenRun).scheduler 0).stats.startedAt = some (.ofNanos 0) ∧
      (journal 0 brokenRun).launched = [0, 1, 0] ∧ (journal 0 brokenRun).launched.count 0 = 2 := by
  obtain ⟨running, -, -, -, -, -, stays, -⟩ := stats_tell_history 0 busyRun
  obtain ⟨ended, -, last, -, -, -, -, each⟩ := stats_tell_history 0 brokenRun
  have first : ((run busyRun).scheduler 0).stats.startedAt = some (.ofNanos 0) := by decide
  have busy : ((run busyRun).scheduler 0).driver.tick?.isSome = true := by decide
  have still : ((run brokenRun).scheduler 0).driver.tick?.isSome = false := by decide
  rw [busy, if_pos rfl] at running
  rw [still, if_neg Bool.false_ne_true, Nat.add_zero] at ended
  have two : ((run brokenRun).scheduler 0).stats.ticks = 2 := ended.trans (by decide)
  have split : (journal 0 brokenRun).ticks = (journal 0 brokenRun).ticks.take 1 ++
      (journal 0 brokenRun).ticks.getLastD { registry := [] } :: [] := by
    decide
  obtain ⟨jobs, subCycles, -⟩ := last _ _ _ split (by rw [two]; decide)
  exact ⟨running.trans (by decide), first, two, jobs.trans (by decide), subCycles.trans (by decide),
    stays _ _ first, by decide, (each (by decide) 0 (by decide)).trans two⟩

end World

end FrameLoop

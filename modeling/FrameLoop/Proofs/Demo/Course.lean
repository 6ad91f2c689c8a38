import FrameLoop.Proofs.Demo.Cast
import FrameLoop.Proofs.Errors
import FrameLoop.Proofs.Tick.Fault

/-!
# The course of the demonstration

The injector aborts on the tick that was asked for, and at the latest on the first one there is.
No tick before it has a fault, so it comes if there are wake-ups enough, and none comes after it
(`Carries.length_ticks_le`). Its other steps are waited for and counted, and then the loop has
ended with the injector's abort (`Carries.hasAborted`), and if the cast has been registered from
the beginning, with the counters of all its jobs (`Performs.hasFaulted`).

This is so however the steps of a tick return, whatever the source of the wake-ups, and whatever
the frame delay does. Whether the wake-ups are enough is for the pacer to say.
-/

namespace FrameLoop.Demo

open World (Event run journal evaluations)

namespace Cast

variable {c : Cast} {after k : Nat} {t : TickRecord} {b : Return} {r : SchedulerRef}
  {es : List Event}

/-! ## Faults -/

/-- **Only the injector makes a fault**, and only from the tick on that was asked for. -/
theorem Ends.error?_eq (ends : c.Ends after k b) (distinct : c.warmup ≠ c.injector) :
    b.error? = if b.job = c.injector ∧ after ≤ k + 1 then some (.jobAborted faultInjectorName)
      else none := by
  rw [Return.error?, ends.verdict, Cast.verdict]
  by_cases warm : b.job = c.warmup
  · have other : ¬ (b.job = c.injector ∧ after ≤ k + 1) := fun both => distinct (warm ▸ both.1)
    rw [if_pos warm, if_neg other]
    rfl
  · rw [if_neg warm]
    by_cases injects : b.job = c.injector
    · rw [if_pos injects, ends.name injects, faultInjector]
      by_cases now : after ≤ k + 1
      · rw [if_pos now, if_pos ⟨injects, now⟩]
        rfl
      · rw [if_neg now, if_neg fun both => now both.2]
        rfl
    · rw [if_neg injects, if_neg fun both => injects both.1]
      rfl

namespace Carries

variable (h : c.Carries after r es)
include h

/-- **A tick that is over is faulty from the one on that was asked for.** -/
theorem faulty_iff {past rest : List TickRecord}
    (split : (journal r es).ticks = past ++ t :: rest) (spent : t.Over) :
    t.faulty = true ↔ after ≤ past.length + 1 := by
  have plays := h.plays past t rest split
  have isFault (b : Return) (ret : b ∈ t.returns) :
      b.isFault = true ↔ b.job = c.injector ∧ after ≤ past.length + 1 := by
    rw [Return.isFault, (plays.returns b ret).error?_eq (warmup_ne_injector h.distinct)]
    split <;> simp [*]
  rw [TickRecord.faulty_eq_any, List.any_eq_true]
  constructor
  · rintro ⟨b, ret, fault⟩
    exact ((isFault b ret).1 fault).2
  · intro now
    have launched : c.injector ∈ t.launched := by
      rw [(h.tick split).2.mem_iff]
      exact plays.registry.injector
    obtain ⟨b, ret, job⟩ :=
      List.mem_map.1 ((TickRecord.returned_perm spent.1).mem_iff.2 launched)
    exact ⟨b, ret, (isFault b ret).2 ⟨job, now⟩⟩

/-- **The tick that makes a fault is the one that was asked for.** -/
theorem come_of_faulty {past : List TickRecord} (last : (journal r es).ticks = past ++ [t])
    (still : ((run es).scheduler r).driver.tick? = none) (faulty : t.faulty = true) :
    max after 1 ≤ (journal r es).ticks.length := by
  have asked := (h.faulty_iff last ((World.over_iff r es last).2 (.inr still))).1 faulty
  rw [last, List.length_append, List.length_singleton]
  omega

/-- **No tick comes after the one that was asked for.** -/
theorem length_ticks_le : (journal r es).ticks.length ≤ max after 1 := by
  by_contra more
  have here : max after 1 - 1 < (journal r es).ticks.length := by omega
  -- The tick that was asked for is there, and another after it.
  have split := (List.take_append_drop (max after 1 - 1) (journal r es).ticks).symm
  rw [List.drop_eq_getElem_cons here] at split
  have number : ((journal r es).ticks.take (max after 1 - 1)).length = max after 1 - 1 :=
    List.length_take_of_le (Nat.le_of_lt here)
  have next : (journal r es).ticks.drop (max after 1 - 1 + 1) ≠ [] := by
    rw [← List.length_pos_iff, List.length_drop]
    omega
  have spent := (World.over_iff r es split).2 (.inl next)
  have faulty := (h.faulty_iff split spent).2 (by omega)
  exact next (World.last_of_faulty split faulty)

/-- **When that tick is over the loop has ended with the injector's abort.** -/
theorem faulted (still : ((run es).scheduler r).driver.tick? = none)
    (enough : max after 1 ≤ (journal r es).ticks.length) :
    ((run es).scheduler r).state = .faulted ∧
      ((run es).scheduler r).outcome = some (.faulted (.jobAborted faultInjectorName)) := by
  obtain none | ⟨past, t, last⟩ := (journal r es).ticks.eq_nil_or_concat'
  · rw [none] at enough
    exact absurd enough (by simp)
  have number : past.length + 1 = max after 1 := by
    have few := h.length_ticks_le
    rw [last, List.length_append, List.length_singleton] at enough few
    omega
  have spent := (World.over_iff r es last).2 (.inr still)
  have faulty := (h.faulty_iff last spent).2 (by omega)
  obtain ⟨-, -, busy, -⟩ | ⟨-, -, state, a, e, first, error, outcome⟩ :=
    World.faulted_cases last faulty
  · rw [still] at busy
    cases busy
  · refine ⟨state, ?_⟩
    have ret : a ∈ t.returns := List.mem_of_find?_eq_some first
    rw [((h.plays past t [] last).returns a ret).error?_eq (warmup_ne_injector h.distinct)] at error
    split at error
    · cases error
      exact outcome
    · cases error

/-- **A job has aborted the loop only if that tick has come.** -/
theorem come_of_aborted {name : String}
    (aborted : ((run es).scheduler r).outcome = some (.faulted (.jobAborted name))) :
    max after 1 ≤ (journal r es).ticks.length ∧
      ((run es).scheduler r).driver.tick? = none := by
  have still : ((run es).scheduler r).driver.tick? = none :=
    (World.sound_run es r).still_of_settled (by rw [aborted]; rfl)
  refine ⟨?_, still⟩
  cases World.ends_run r es _ aborted with
  | alone internal => cases internal
  | step last first error =>
    exact h.come_of_faulty last still (by rw [TickRecord.faulty, first]; rfl)

/-- **No step leads to another wave**: what a step launches by returning is nothing. -/
theorem launched_returned {j : JobRef} {v : Verdict}
    (spares : c.Spares after r es (.returned r j v)) (out : j ∈ (journal r es).out) :
    ((run es).settle r j v).launched = [] := by
  obtain ⟨loop, k, past, t, -, -, -, last⟩ :=
    (World.agrees_run es r).ticking_of_out out
  have ticks := Journal.ticks_returned last ((run es).returnOf r j v)
  obtain ⟨none, -⟩ | ⟨-, after⟩ := Journal.ticks_handOut ticks ((run es).settle r j v).launched
  · exact none
  · rw [← World.journal_returned out] at after
    have one := ((h.concat spares).tick after).1
    rw [TickRecord.waves_launch, List.length_append, TickRecord.length_settle,
      (h.tick last).1] at one
    cases one

/-! ## The counters -/

/-- What has been counted between two ticks. -/
theorem stats_eq (still : ((run es).scheduler r).driver.tick? = none) :
    ((run es).scheduler r).stats.ticks = (journal r es).ticks.length ∧
      ∀ past t, (journal r es).ticks = past ++ [t] →
        ((run es).scheduler r).stats.subCyclesLastTick = 1 ∧
          ((run es).scheduler r).stats.jobsLastTick = t.registry.length := by
  have drained := ((run es).scheduler r).drainedTicks_of_still still (journal r es)
  have tells := World.tells_run r es
  rw [drained] at tells
  refine ⟨tells.ticks, fun past t last => ?_⟩
  obtain ⟨waves, launched⟩ := h.tick last
  obtain ⟨jobs, subCycles⟩ := tells.last past t last
  exact ⟨subCycles.trans waves, jobs.trans launched.length_eq⟩

end Carries

/-- **The warm-up has left the registry** when the first tick is over. -/
theorem Stands.warmup_unregistered (h : c.Stands after r es)
    (still : ((run es).scheduler r).driver.tick? = none) (some : (journal r es).ticks ≠ []) :
    c.warmup ∉ ((run es).scheduler r).registry := by
  have out := (World.agrees_run es r).out_of_still still
  rw [h.registry.mem_iff, if_pos ((h.warmup_returned out).2 some)]
  exact h.warmup_not_resident

/-! ## The end -/

/-- **The loop has been aborted** on the tick that was asked for: all ticks are counted, and the
last one's wave. -/
structure HasAborted (after : Nat) (r : SchedulerRef) (es : List Event) : Prop where
  state : ((run es).scheduler r).state = .faulted
  outcome : ((run es).scheduler r).outcome = some (.faulted (.jobAborted faultInjectorName))
  ticks : ((run es).scheduler r).stats.ticks = max after 1
  subCycles : ((run es).scheduler r).stats.subCyclesLastTick = 1

/-- **The demonstration has faulted** on the tick that was asked for. -/
structure HasFaulted (c : Cast) (after : Nat) (r : SchedulerRef) (es : List Event) : Prop
    extends HasAborted after r es where
  /-- The last tick's steps are counted. -/
  jobs : ((run es).scheduler r).stats.jobsLastTick = if after ≤ 1 then 3 else 2
  /-- The first tick has launched the three jobs, and a later one the two that stay. -/
  launched : ∀ k t, (journal r es).ticks[k]? = some t →
    t.waves.length = 1 ∧ t.launched.Perm (c.due k) ∧ t.launched.length = if k = 0 then 3 else 2
  warmup : (journal r es).launched.count c.warmup = 1 ∧
    c.warmup ∉ ((run es).scheduler r).registry
  injector : c.injector ∈ ((run es).scheduler r).registry
  heartbeat : (journal r es).returned.count c.heartbeat = max after 1

/-- **A loop that has come to the tick that was asked for has been aborted**, once nothing is
out. -/
theorem Carries.hasAborted (h : c.Carries after r es)
    (still : ((run es).scheduler r).driver.tick? = none)
    (enough : max after 1 ≤ (journal r es).ticks.length) : HasAborted after r es := by
  obtain ⟨state, outcome⟩ := h.faulted still enough
  obtain ⟨ticks, last⟩ := h.stats_eq still
  obtain none | ⟨past, t, split⟩ := (journal r es).ticks.eq_nil_or_concat'
  · rw [none] at enough
    exact absurd enough (by simp)
  · exact ⟨state, outcome, ticks.trans (Nat.le_antisymm h.length_ticks_le enough),
      (last past t split).1⟩

theorem length_due (c : Cast) (k : Nat) : (c.due k).length = if k = 0 then 3 else 2 := by
  unfold due
  split <;> rfl

/-- **A run of the demonstration that has come to the tick that was asked for has faulted**, once
nothing is out. -/
theorem Performs.hasFaulted (h : c.Performs after r es)
    (still : ((run es).scheduler r).driver.tick? = none)
    (enough : max after 1 ≤ (journal r es).ticks.length) : c.HasFaulted after r es := by
  have stands := h.stands
  have number := Nat.le_antisymm stands.length_ticks_le enough
  have some : (journal r es).ticks ≠ [] := by
    rw [← List.length_pos_iff, number]
    omega
  obtain ⟨past, t, last⟩ := (journal r es).ticks.eq_nil_or_concat'.resolve_left some
  constructor
  case toHasAborted => exact stands.hasAborted still enough
  case jobs =>
    have counted := ((stands.stats_eq still).2 past t last).2
    rw [last, List.length_append, List.length_singleton] at number
    rw [counted, (stands.found past t [] last).length_eq, length_due]
    congr 1
    exact propext ⟨fun _ => by omega, fun _ => by omega⟩
  case launched =>
    intro k t here
    obtain ⟨inside, same⟩ := List.getElem?_eq_some_iff.1 here
    have split := (List.take_append_drop k (journal r es).ticks).symm
    rw [List.drop_eq_getElem_cons inside, same] at split
    obtain ⟨waves, launched⟩ := stands.tick split
    rw [List.length_take_of_le (Nat.le_of_lt inside)] at launched
    exact ⟨waves, launched, launched.length_eq.trans (c.length_due k)⟩
  case warmup =>
    exact ⟨stands.count_warmup.trans (if_neg some), stands.warmup_unregistered still some⟩
  case injector => exact stands.called.injector
  case heartbeat =>
    have all := (World.ordered_run r es).perm
    rw [(World.agrees_run es r).out_of_still still, List.append_nil] at all
    rw [all.count_eq, stands.count_resident (by simp [residents]), number]

/-- **A run of the demonstration has been aborted** exactly if the pacer has turned wake-ups into
the tick that was asked for, and that tick is over. -/
theorem Carries.aborted_iff (h : c.Carries after r es) :
    ((run es).scheduler r).outcome = some (.faulted (.jobAborted faultInjectorName)) ↔
      max after 1 ≤ ({} : Pacer).dueCount (evaluations r es) ∧
        ((run es).scheduler r).driver.tick? = none := by
  rw [← (World.paced_run r es).ticks]
  exact ⟨h.come_of_aborted, fun both => (h.faulted both.2 both.1).2⟩

end Cast

end FrameLoop.Demo

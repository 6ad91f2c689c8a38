import FrameLoop.Proofs.Forest.Acyclic
import FrameLoop.Proofs.Tick.Order
import Mathlib.Data.Nat.Find

/-!
# Who belongs to a scheduler

A job belongs to a scheduler if it is registered there or below a job that is
(`World.Member`). Those are the jobs that a tick runs, if nobody disturbs it and no step
asks to leave or makes a fault (`launched_of_resuming`).

`Scheduler.contains` asks for less. It goes up to the job without a parent and looks for
that one in the registry, so it sees the trees of the registered jobs that have no parent
(`contains_exact`). A job may be registered and have a parent, too, and then it matters:
the job runs in every tick, and it is contained only if the top of its tree is registered,
as well (`launched_and_not_contained`).
-/

namespace FrameLoop

namespace Forest

variable {f : Forest} {roots : List JobRef} {j x : JobRef}

/-! ## Trees -/

/-- The ancestor so many links up is an ancestor. -/
theorem within_of_up {k : Nat} (h : f.up k j = some x) : f.Within j x := by
  induction k generalizing j with
  | zero =>
    obtain rfl := Option.some.inj h
    exact .refl
  | succ k ih =>
    obtain ⟨p, parent, above⟩ := Option.bind_eq_some_iff.1 h
    exact .head parent (ih above)

theorem exists_up_of_within (h : f.Within j x) : ∃ k, f.up k j = some x := by
  induction h using Relation.ReflTransGen.head_induction_on with
  | refl => exact ⟨0, rfl⟩
  | head parent _ ih =>
    obtain ⟨k, above⟩ := ih
    exact ⟨k + 1, Option.bind_eq_some_iff.2 ⟨_, parent, above⟩⟩

/-- **The jobs that have a level are those within the trees of the jobs given.** -/
theorem exists_level_iff : (∃ k, f.Level roots k j) ↔ ∃ x ∈ roots, f.Within j x := by
  classical
  constructor
  · rintro ⟨k, ⟨x, far, given⟩, -⟩
    exact ⟨x, given, within_of_up far⟩
  · rintro ⟨x, given, within⟩
    -- The nearest of the jobs given decides the level.
    have reached : ∃ k x, f.up k j = some x ∧ x ∈ roots := by
      obtain ⟨k, far⟩ := exists_up_of_within within
      exact ⟨k, x, far, given⟩
    refine ⟨Nat.find reached, Nat.find_spec reached, ?_⟩
    intro i near p far given
    exact Nat.find_min reached near ⟨p, far, given⟩

end Forest

namespace World

variable {w : World} {r : SchedulerRef} {j : JobRef}

/-- **A job belongs to a scheduler** if it is registered there or below a job that is. -/
def Member (w : World) (r : SchedulerRef) (j : JobRef) : Prop :=
  ∃ x ∈ (w.scheduler r).registry, w.forest.Within j x

/-- **What a scheduler contains are the trees of the registered jobs without a parent.** -/
theorem contains_iff (acyclic : w.forest.Acyclic) :
    w.contains r j = true ↔
      ∃ x ∈ (w.scheduler r).registry, w.forest.Within j x ∧ w.forest.parent x = none := by
  unfold contains Scheduler.contains
  rw [decide_eq_true_eq]
  constructor
  · intro registered
    exact ⟨_, registered, acyclic.root_eq_iff.1 rfl⟩
  · rintro ⟨x, registered, top⟩
    rwa [acyclic.root_eq_iff.2 top]

/-- What is contained belongs to the scheduler. -/
theorem Member.of_contains (acyclic : w.forest.Acyclic) (h : w.contains r j = true) :
    w.Member r j := by
  obtain ⟨x, registered, within, -⟩ := (contains_iff acyclic).1 h
  exact ⟨x, registered, within⟩

/-- **A tick that nobody disturbs and in which every step resumes launches members only,
and when it is over it has launched them all**, each once. -/
theorem launched_of_resuming {pre ds : List Event} {outside : List JobRef}
    (tick : Undisturbed r pre ds outside fun _ => .outcome .resume) :
    ∃ t, (journal r (pre ++ .poll r :: ds)).ticks = (journal r pre).ticks ++ [t] ∧
      (∀ x ∈ t.launched, (run pre).Member r x) ∧
      (((run (pre ++ .poll r :: ds)).scheduler r).driver.tick? = none →
        t.launched.Nodup ∧ (∀ x, x ∈ t.launched ↔ (run pre).Member r x) ∧
        ((run (pre ++ .poll r :: ds)).scheduler r).stats.jobsLastTick = t.launched.length) := by
  obtain ⟨t, last, underway⟩ := underway_run tick
  have exact := (tick_cases r _ last).1
  have levels {k : Nat} (h : k < t.waves.length ∨ t.Over) (x : JobRef) :
      x ∈ t.launchedAt k ↔
        (run pre).forest.Level ((run pre).scheduler r).registry k x := by
    rw [underway.follows.mem_launchedAt_iff_level exact h, underway.registered]
    exact and_iff_left fun i near y higher => rfl
  have only : ∀ x ∈ t.launched, (run pre).Member r x := by
    intro x launched
    obtain ⟨k, short, here⟩ := TickRecord.mem_launched.1 launched
    exact Forest.exists_level_iff.1 ⟨k, (levels (.inl short) x).1 here⟩
  refine ⟨t, last, only, fun still => ⟨exact.nodup, fun x => ⟨only x, ?_⟩, ?_⟩⟩
  · intro member
    obtain ⟨k, level⟩ := Forest.exists_level_iff.2 member
    have here := (levels (.inr (over_of_still last still)) x).2 level
    refine TickRecord.mem_launched.2 ⟨k, ?_, here⟩
    by_contra late
    rw [TickRecord.launchedAt_of_length_le (Nat.le_of_not_lt late)] at here
    cases here
  · exact (underway.counted still).1

/-- **What a scheduler contains, and what belongs to it.** It contains the jobs within the
tree of a registered job that has no parent, and all of them belong to it. A job belongs to
it that is not contained only if it is within the tree of a registered job that has a
parent; where there is none, the two are the same. A tick that nobody disturbs and in which
every step resumes launches the jobs that belong to the scheduler when it starts, and no
others. -/
theorem contains_exact (es : List Event) (r : SchedulerRef) (j : JobRef) :
    let w := run es
    (w.contains r j = true ↔
        ∃ x ∈ (w.scheduler r).registry, w.forest.Within j x ∧ w.forest.parent x = none) ∧
      (w.contains r j = true → w.Member r j) ∧
      ((∀ x ∈ (w.scheduler r).registry, w.forest.Within j x → w.forest.parent x = none) →
        (w.contains r j = true ↔ w.Member r j)) ∧
      ∀ ds outside, Undisturbed r es ds outside (fun _ => .outcome .resume) →
        ∃ t, (journal r (es ++ .poll r :: ds)).ticks = (journal r es).ticks ++ [t] ∧
          (j ∈ t.launched → w.Member r j) ∧
          (((run (es ++ .poll r :: ds)).scheduler r).driver.tick? = none →
            (j ∈ t.launched ↔ w.Member r j)) := by
  intro w
  have exact : w.contains r j = true ↔ _ := contains_iff (acyclic_run es)
  have belongs : w.contains r j = true → w.Member r j := Member.of_contains (acyclic_run es)
  refine ⟨exact, belongs, ?_, ?_⟩
  · intro tops
    refine ⟨belongs, ?_⟩
    rintro ⟨x, registered, within⟩
    exact exact.2 ⟨x, registered, within, tops x registered within⟩
  · intro ds outside tick
    obtain ⟨t, last, only, whenOver⟩ := launched_of_resuming tick
    exact ⟨t, last, only j, fun still => (whenOver still).2.1 j⟩

/-- All steps of a tick of `nestedRun` resume. -/
def evenReturns : List Event :=
  [.returned 0 0 (.outcome .resume), .returned 0 3 (.outcome .resume),
    .returned 0 1 (.outcome .resume), .returned 0 2 (.outcome .resume),
    .returned 0 4 (.outcome .resume), .returned 0 5 (.outcome .resume)]

theorem undisturbed_evenReturns :
    Undisturbed 0 nestedRun evenReturns [] fun _ => .outcome .resume where
  starts := by decide
  held := by decide
  calm := ⟨.returned 0, .returned 3, .returned 1, .returned 2, .returned 4, .returned 5, trivial⟩

/-- Of the two registered jobs only `root` is above `cut`, which is contained and launched. -/
theorem contains_exact_of_nestedRun :
    (run nestedRun).contains 0 5 = true ∧ (run nestedRun).Member 0 5 ∧
      ∃ t, (journal 0 (nestedRun ++ .poll 0 :: evenReturns)).ticks =
        (journal 0 nestedRun).ticks ++ [t] ∧ 5 ∈ t.launched := by
  obtain ⟨-, -, same, tick⟩ := contains_exact nestedRun 0 5
  have contained : (run nestedRun).contains 0 5 = true := by decide
  have tops : ∀ x ∈ ((run nestedRun).scheduler 0).registry,
      (run nestedRun).forest.Within 5 x → (run nestedRun).forest.parent x = none := by
    intro x registered within
    rw [← (acyclic_run nestedRun).mem_lineage] at within
    revert x
    decide
  obtain ⟨t, last, -, whole⟩ := tick evenReturns [] undisturbed_evenReturns
  have member := (same tops).1 contained
  exact ⟨contained, member, t, last, (whole (by decide)).2 member⟩

/-- A run after which a job is registered whose parent is not. -/
def adoptedRun : List Event :=
  [.newJob "parent", .newJob "child", .attach 0 1, .newScheduler ⟨"loop"⟩ .zero .zero,
    .schedule 0 1, .start 0 (.script [.reading ⟨0⟩])]

/-- **A registered job that has a parent is launched in every tick and is not contained.** -/
theorem launched_and_not_contained :
    1 ∈ ((run adoptedRun).scheduler 0).registry ∧ (run adoptedRun).forest.has 1 = true ∧
      (run adoptedRun).contains 0 1 = false ∧
      Undisturbed 0 adoptedRun [.returned 0 1 (.outcome .resume)] [0]
        (fun _ => .outcome .resume) ∧
      (journal 0 (adoptedRun ++ [.poll 0, .returned 0 1 (.outcome .resume)])).ticks.map
        (·.launched) = [[1]] :=
  ⟨by decide, by decide, by decide,
    { starts := by decide, held := by decide, calm := ⟨.returned 1, trivial⟩ }, by decide⟩

end World

end FrameLoop

import FrameLoop.Proofs.Members
import Mathlib.Data.List.Dedup

/-!
# How many jobs belong to a scheduler

`Scheduler.jobCount` adds up the trees of the registered jobs. So it counts a job once for
each registered job whose tree it is within (`Forest.Acyclic.exists_counted`), and it is
the number of jobs that belong to the scheduler exactly if no registered job is below
another (`jobCount_exact`). Otherwise it is greater. A tick launches each of the jobs once
at any rate, so the count of its steps is the number of jobs in either case.
-/

namespace FrameLoop

namespace Forest

variable {f : Forest} {roots : List JobRef} {j x : JobRef}

/-- **The jobs given whose trees a job is within.** -/
def covers (f : Forest) (roots : List JobRef) (j : JobRef) : List JobRef :=
  roots.filter (· ∈ f.lineage j)

theorem covers_cons (x : JobRef) :
    f.covers (x :: roots) j =
      if x ∈ f.lineage j then x :: f.covers roots j else f.covers roots j := by
  simp only [covers, List.filter_cons, decide_eq_true_eq]

namespace Acyclic

variable (acyclic : f.Acyclic)
include acyclic

theorem mem_covers : x ∈ f.covers roots j ↔ x ∈ roots ∧ f.Within j x := by
  rw [covers, List.mem_filter, decide_eq_true_eq, acyclic.mem_lineage]

/-- **Adding up trees counts a job once for each tree that it is within.** -/
theorem exists_counted (linked : f.Linked) (roots : List JobRef) :
    ∃ counted : List JobRef, (∀ j, counted.count j = (f.covers roots j).length) ∧
      roots.foldr (fun x n => 1 + f.descendantCount x + n) 0 = counted.length := by
  induction roots with
  | nil => exact ⟨[], fun j => rfl, rfl⟩
  | cons x roots ih =>
    obtain ⟨counted, counts, total⟩ := ih
    obtain ⟨tree, nodup, all, size⟩ := acyclic.exists_tree linked x
    refine ⟨tree ++ counted, ?_, ?_⟩
    · intro j
      have here : j ∈ tree ↔ x ∈ f.lineage j := (all j).trans acyclic.mem_lineage.symm
      rw [List.count_append, counts, nodup.count, covers_cons]
      simp only [here]
      split
      · exact Nat.add_comm _ _
      · exact Nat.zero_add _
    · rw [List.foldr_cons, total, List.length_append, size]

/-- **No job is within two of the trees exactly if none of them is below another.** -/
theorem length_covers_le_one (nodup : roots.Nodup) :
    (∀ j, (f.covers roots j).length ≤ 1) ↔ ∀ x ∈ roots, ∀ y ∈ roots, ¬ f.Below x y := by
  constructor
  · intro single x hx y hy below
    have both : [x, y] ⊆ f.covers roots x := by
      intro z hz
      rcases List.mem_pair.1 hz with rfl | rfl
      · exact acyclic.mem_covers.2 ⟨hx, .refl⟩
      · exact acyclic.mem_covers.2 ⟨hy, below.to_reflTransGen⟩
    have pair : [x, y].Nodup := by
      refine List.nodup_cons.2 ⟨?_, List.nodup_singleton y⟩
      intro same
      obtain rfl := List.mem_singleton.1 same
      exact acyclic x below
    exact Nat.not_succ_le_self 1 (Nat.le_trans (pair.subperm both).length_le (single x))
  · intro apart j
    have nodup : (f.covers roots j).Nodup := nodup.filter _
    have covering {x : JobRef} : x ∈ f.covers roots j → x ∈ roots ∧ f.Within j x :=
      acyclic.mem_covers.1
    cases list : f.covers roots j with
    | nil => exact Nat.zero_le 1
    | cons x rest =>
      cases rest with
      | nil => exact Nat.le_refl 1
      | cons y rest =>
        rw [list] at nodup covering
        have other : x ≠ y := fun same => (List.nodup_cons.1 nodup).1 (same ▸ List.mem_cons_self)
        obtain ⟨hx, up⟩ := covering (x := x) List.mem_cons_self
        obtain ⟨hy, up'⟩ := covering (x := y) (List.mem_cons_of_mem _ List.mem_cons_self)
        -- Two that are above one job are one above the other.
        rcases within_total up up' with lower | lower
        · exact absurd (below_of_within lower other) (apart x hx y hy)
        · exact absurd (below_of_within lower other.symm) (apart y hy x hx)

end Acyclic

end Forest

namespace World

variable {w : World} {r : SchedulerRef}

/-- **A roll of a scheduler** names each job that belongs to it once. -/
structure Roll (w : World) (r : SchedulerRef) (jobs : List JobRef) : Prop where
  nodup : jobs.Nodup
  mem_iff : ∀ j, j ∈ jobs ↔ w.Member r j

/-- All rolls are as long as another. -/
theorem Roll.length_eq {jobs jobs' : List JobRef} (h : w.Roll r jobs) (h' : w.Roll r jobs') :
    jobs.length = jobs'.length :=
  Forest.length_eq_of_nodup h.nodup h'.nodup fun j => (h.mem_iff j).trans (h'.mem_iff j).symm

/-- Who is counted belongs to the scheduler. -/
theorem roll_dedup (acyclic : w.forest.Acyclic) {counted : List JobRef}
    (counts : ∀ j, counted.count j = (w.forest.covers (w.scheduler r).registry j).length) :
    w.Roll r counted.dedup where
  nodup := counted.nodup_dedup
  mem_iff j := by
    rw [List.mem_dedup, ← List.count_pos_iff, counts, List.length_pos_iff_exists_mem]
    exact exists_congr fun x => acyclic.mem_covers

/-- **How often the jobs of a scheduler are counted.** Each is counted once for every
registered job whose tree it is within. So the count is never less than the number of the
jobs that belong to the scheduler, and is that number exactly if no registered job is below
another. The number of the jobs is how many steps are launched by a tick that nobody
disturbs and in which every step resumes. -/
theorem jobCount_exact (es : List Event) (r : SchedulerRef) :
    let w := run es
    let registry := (w.scheduler r).registry
    ∃ jobs counted : List JobRef, w.Roll r jobs ∧ w.jobCount r = counted.length ∧
      (∀ j, counted.count j = (w.forest.covers registry j).length) ∧
      jobs.length ≤ w.jobCount r ∧
      (w.jobCount r = jobs.length ↔ ∀ x ∈ registry, ∀ y ∈ registry, ¬ w.forest.Below x y) ∧
      ∀ ds outside, Undisturbed r es ds outside (fun _ => .outcome .resume) →
        let left := run (es ++ .poll r :: ds)
        (left.scheduler r).driver.tick? = none →
          (left.scheduler r).stats.jobsLastTick = jobs.length := by
  intro w registry
  have acyclic : w.forest.Acyclic := acyclic_run es
  have held : w.Held := held_run es
  obtain ⟨counted, counts, total⟩ := acyclic.exists_counted held.linked registry
  have count : w.jobCount r = counted.length := total
  have roll : w.Roll r counted.dedup := roll_dedup acyclic counts
  have distinct : counted.Nodup ↔ ∀ x ∈ registry, ∀ y ∈ registry, ¬ w.forest.Below x y := by
    rw [← acyclic.length_covers_le_one (held.nodup r), List.nodup_iff_count_le_one]
    exact forall_congr' fun j => by rw [counts]
  refine ⟨counted.dedup, counted, roll, count, counts, ?_, ?_, ?_⟩
  · rw [count]
    exact counted.dedup_sublist.length_le
  · rw [count, ← distinct, ← List.dedup_eq_self]
    constructor
    · intro same
      exact counted.dedup_sublist.eq_of_length same.symm
    · intro same
      rw [same]
  · intro ds outside tick left still
    obtain ⟨t, last, -, whole⟩ := launched_of_resuming tick
    obtain ⟨nodup, all, jobs⟩ := whole still
    rw [jobs]
    exact Roll.length_eq ⟨nodup, all⟩ roll

/-- Six jobs belong to the scheduler. The two within the tree of the registered job that is
below another are counted twice. -/
theorem jobCount_exact_of_nestedRun :
    ∃ jobs, (run nestedRun).Roll 0 jobs ∧ jobs.length = 6 ∧ (run nestedRun).jobCount 0 = 8 ∧
      (run nestedRun).forest.covers [0, 3] 4 = [0, 3] := by
  obtain ⟨jobs, -, roll, -, -, -, -, tick⟩ := jobCount_exact nestedRun 0
  have launched := tick evenReturns [] undisturbed_evenReturns (by decide)
  refine ⟨jobs, roll, ?_, by decide, by decide⟩
  rw [← launched]
  decide

/-- A run after which a job and its child are registered. -/
def sharedRun : List Event :=
  [.newJob "parent", .newJob "child", .attach 0 1, .newScheduler ⟨"loop"⟩ .zero .zero,
    .schedule 0 0, .schedule 0 1, .start 0 (.script [.reading ⟨0⟩])]

/-- **A registered child is counted twice**, though there are two jobs, and a tick launches
two steps. -/
theorem registered_child_counted_twice :
    (run sharedRun).jobCount 0 = 3 ∧ (∃ jobs, (run sharedRun).Roll 0 jobs ∧ jobs.length = 2) ∧
      ((run (sharedRun ++ [.poll 0, .returned 0 0 (.outcome .resume),
        .returned 0 1 (.outcome .resume)])).scheduler 0).stats.jobsLastTick = 2 := by
  have calm : Undisturbed 0 sharedRun
      [.returned 0 0 (.outcome .resume), .returned 0 1 (.outcome .resume)] []
      fun _ => .outcome .resume :=
    { starts := by decide, held := by decide, calm := ⟨.returned 0, .returned 1, trivial⟩ }
  obtain ⟨t, -, -, whole⟩ := launched_of_resuming calm
  obtain ⟨nodup, all, jobs⟩ := whole (by decide)
  have two : t.launched.length = 2 := by
    rw [← jobs]
    decide
  exact ⟨by decide, ⟨t.launched, ⟨nodup, all⟩, two⟩, by decide⟩

end World

end FrameLoop

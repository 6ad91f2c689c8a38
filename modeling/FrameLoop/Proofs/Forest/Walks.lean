import FrameLoop.Proofs.Forest.Acyclic
import FrameLoop.Proofs.Run.Held
import Mathlib.Data.Set.Card

/-!
# Down and up

A forest is walked in two ways: down from a job, by a list of jobs still to be looked at, to
count what is below it; and up from a job, one parent after the other, to find its root. The
two walks see the same trees (`walks_agree`): what is counted on the way down are the jobs that
come by on their own way up.

The walk down is given here once more, without fuel and with the list used from its end
(`Forest.Counts`). Which job is taken next makes no difference: the jobs seen and the jobs to
look at are those whose parent is the start or has been seen, in whatever order they come
(`Forest.Descent`). Every round sees one job more, and there are no more jobs than nodes. Hence
the walk ends, and by then it has seen all that is below its start (`Forest.Descent.counts`).

**What this does not say.** A walk is made in a forest that stays as it is. Nothing is said of a
walk during which jobs are moved.
-/

namespace FrameLoop

namespace Forest

variable {f : Forest} {j x r : JobRef}

/-! ## Walking down without fuel -/

/-- **The walk down, to its end.** The last of the jobs to look at is taken and counted, and its
children are put after the others, until there is none. From `n` jobs counted and the list
`todo`, the walk ends with `m` jobs counted. -/
inductive Counts (f : Forest) : Nat → List JobRef → Nat → Prop where
  | done (n : Nat) : f.Counts n [] n
  | look {n m : Nat} {todo : List JobRef} {k : JobRef} (last : todo.getLast? = some k)
    (rest : f.Counts (n + 1) (todo.dropLast ++ f.children k) m) : f.Counts n todo m

/-- A walk ends in one way only. -/
theorem Counts.unique {n m m' : Nat} {todo : List JobRef} (h : f.Counts n todo m)
    (h' : f.Counts n todo m') : m = m' := by
  induction h with
  | done =>
    cases h' with
    | done => rfl
    | look last => cases last
  | look last _ ih =>
    cases h' with
    | done => cases last
    | look last' rest =>
      obtain rfl := Option.some.inj (last.symm.trans last')
      exact ih rest

/-- **The walk ends, and has counted all jobs below its start.** -/
theorem Descent.counts {seen todo : List JobRef} (linked : f.Linked) (acyclic : f.Acyclic)
    (h : f.Descent j seen todo) :
    ∃ below : List JobRef, below.Nodup ∧ (∀ x, x ∈ below ↔ f.Below x j) ∧
      f.Counts seen.length todo below.length := by
  rcases todo.eq_nil_or_concat' with rfl | ⟨rest, k, rfl⟩
  · obtain ⟨below, nodup, all, total⟩ := h.spent
    exact ⟨below, nodup, all, total ▸ .done _⟩
  · have first : f.Descent j seen (k :: rest) := h.perm List.perm_append_comm
    have after : f.Descent j (k :: seen) (rest ++ f.children k) :=
      (first.next linked acyclic).perm List.perm_append_comm
    have short := after.length_le
    obtain ⟨below, nodup, all, counted⟩ := after.counts linked acyclic
    refine ⟨below, nodup, all, .look List.getLast?_concat ?_⟩
    rwa [List.dropLast_concat]
termination_by f.nodes.length - seen.length
decreasing_by
  rw [List.length_cons] at short ⊢
  omega

namespace Acyclic

variable (acyclic : f.Acyclic) (linked : f.Linked)
include acyclic linked

/-- **The number of descendants is what the walk ends with**, and no bound on the walk shows in
it. -/
theorem counts_iff (j : JobRef) (n : Nat) :
    f.Counts 0 (f.children j) n ↔ n = f.descendantCount j := by
  obtain ⟨below, nodup, all, counted⟩ := (Descent.start linked j).counts linked acyclic
  obtain ⟨below', nodup', all', count, -⟩ := acyclic.descendantCount linked j
  have same : below.length = f.descendantCount j :=
    (length_eq_of_nodup nodup nodup' fun x => (all x).trans (all' x).symm).trans count.symm
  rw [← same]
  constructor
  · intro ended
    exact ended.unique counted
  · rintro rfl
    exact counted

end Acyclic

/-! ## How many jobs there are -/

/-- A list that names each of some jobs once is as long as there are such jobs. -/
theorem encard_of_nodup {jobs : List JobRef} {P : JobRef → Prop} (nodup : jobs.Nodup)
    (all : ∀ x, x ∈ jobs ↔ P x) : {x | P x}.encard = jobs.length := by
  have same : {x | P x} = (jobs.toFinset : Set JobRef) := by
    ext x
    exact (all x).symm.trans (Finset.mem_coe.trans List.mem_toFinset).symm
  rw [same, Set.encard_coe_eq_coe_finsetCard, List.toFinset_card_of_nodup nodup]

namespace Acyclic

variable (acyclic : f.Acyclic)
include acyclic

/-- Below a job are the others that have it on their way up, all of them there. -/
theorem below_iff : f.Below x j ↔ f.has x = true ∧ x ≠ j ∧ f.Within x j := by
  constructor
  · intro below
    obtain ⟨p, parent, -⟩ := Relation.TransGen.head'_iff.1 below
    refine ⟨has_of_parent parent, ?_, below.to_reflTransGen⟩
    rintro rfl
    exact acyclic x below
  · rintro ⟨-, other, within⟩
    exact below_of_within within other

/-- The tree of a job without a parent holds the jobs that have it for their root. -/
theorem within_iff_root (here : f.has r = true) (top : f.parent r = none) :
    f.Within x r ↔ f.has x = true ∧ f.root x = r := by
  rw [acyclic.root_eq_iff]
  constructor
  · intro within
    refine ⟨?_, within, top⟩
    rcases within.cases_head with rfl | ⟨p, parent, -⟩
    · exact here
    · exact has_of_parent parent
  · rintro ⟨-, within, -⟩
    exact within

end Acyclic

end Forest

namespace World

/-- **Walking down and walking up agree.** After every run:

* the walk down from a job ends, and what it has counted then is the number of descendants;
* so many are the other jobs that have the job on their way up;
* the lineage of a job names just those to which following parents leads from it;
* its root is the one of them that has no parent, where a parent that is reported is there;
* so a job without a parent is the root of one job more than it has descendants. -/
theorem walks_agree (es : List Event) :
    let f := (run es).forest
    (∀ j n, f.Counts 0 (f.children j) n ↔ n = f.descendantCount j) ∧
      (∀ j, {c | f.has c = true ∧ c ≠ j ∧ f.Within c j}.encard = f.descendantCount j) ∧
      (∀ c j, j ∈ f.lineage c ↔ f.Within c j) ∧
      (∀ c r, f.root c = r ↔ f.Within c r ∧ f.parent r = none) ∧
      (∀ c p, f.parent c = some p → f.has c = true ∧ f.has p = true) ∧
      ∀ r, f.has r = true → f.parent r = none →
        {c | f.has c = true ∧ f.root c = r}.encard = (f.descendantCount r + 1 : Nat) := by
  intro f
  have linked : f.Linked := (held_run es).linked
  have acyclic : f.Acyclic := acyclic_run es
  refine ⟨acyclic.counts_iff linked, ?_, fun c j => acyclic.mem_lineage,
    fun c r => acyclic.root_eq_iff, ?_, ?_⟩
  · intro j
    obtain ⟨below, nodup, all, count, -⟩ := acyclic.descendantCount linked j
    rw [count]
    exact Forest.encard_of_nodup nodup fun x => (all x).trans acyclic.below_iff
  · intro c p parent
    exact ⟨Forest.has_of_parent parent,
      Forest.has_of_mem_children ((linked.mem_children p c).2 parent)⟩
  · intro r here top
    obtain ⟨tree, nodup, all, size⟩ := acyclic.exists_tree linked r
    rw [Nat.add_comm, ← size]
    exact Forest.encard_of_nodup nodup fun x => (all x).trans (acyclic.within_iff_root here top)

/-- Two branches of a tree are held when its trunk is let go of, one of them with twigs. -/
def felledRun : List Event :=
  [.newJob "trunk", .newJob "bough", .newJob "twig", .newJob "leaf", .newJob "bud",
    .newJob "shoot", .attach 0 1, .attach 1 2, .attach 2 3, .attach 1 4, .attach 0 5,
    .sweep { jobs := [1, 5] }]

/-- The branch is a tree of its own then, of four jobs. -/
theorem walks_agree_of_felledRun :
    let f := (run felledRun).forest
    f.has 0 = false ∧ f.has 1 = true ∧ f.parent 1 = none ∧ f.children 1 = [2, 4] ∧
      f.Counts 0 [2, 4] 3 ∧ f.root 3 = 1 ∧
      {c | f.has c = true ∧ f.root c = 1}.encard = (4 : Nat) := by
  intro f
  obtain ⟨down, -, -, -, -, trees⟩ := walks_agree felledRun
  have here : f.has 1 = true := by decide
  have top : f.parent 1 = none := by decide
  have children : f.children 1 = [2, 4] := by decide
  have three : f.descendantCount 1 = 3 := by decide
  refine ⟨by decide, here, top, children, ?_, by decide, ?_⟩
  · rw [← children]
    exact (down 1 3).2 three.symm
  · rw [trees 1 here top, three]

end World

end FrameLoop

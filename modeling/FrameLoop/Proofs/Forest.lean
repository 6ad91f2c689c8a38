import FrameLoop.Proofs.Forest.Acyclic
import FrameLoop.Proofs.Run.Held

/-!
# The job forest after every run

A link is kept twice, and each of the operations that write it writes the two
ends one after the other; a job may be moved with all that is below it; and a
parent may be let go of while its children are held. This module collects what
holds after every run nonetheless (`job_forest`): the two ends agree, a job is
a child once at most, no job is below itself, and every walk over the links
ends where it should. A job whose parent is gone is like one that never had a
parent.

**What this does not say.** Jobs are let go of only where a run says so
(`Event.sweep`). Whether the host does so as soon as the last handle is dropped
is not in question here: the law holds either way.
-/

namespace FrameLoop

namespace Forest

variable {f : Forest} {q c : JobRef}

/-- A job without a parent is its own root. -/
theorem root_of_top (top : f.parent c = none) : f.root c = c := by
  have alone : f.lineage c = [c] := by
    unfold lineage
    cases f.nodes.length with
    | zero => rfl
    | succ fuel => simp only [lineageUpTo, top]
  rw [root, alone]
  rfl

/-- **A job without a parent can be attached** anywhere but beneath itself. -/
theorem Acyclic.attach_top (acyclic : f.Acyclic) (hq : f.has q = true) (hc : f.has c = true)
    (top : f.parent c = none) (apart : ¬ f.Within q c) :
    ∃ f', f.attach q c = .ok (true, f') ∧ f'.parent c = some q ∧ c ∈ f'.children q := by
  rw [← acyclic.mem_lineage] at apart
  refine ⟨f.link q c, ?_, ?_, ?_⟩
  · rw [Forest.attach, if_neg apart, top]
  · rw [parent_link hc, if_pos rfl]
  · rw [children_link hq, if_pos rfl]
    exact List.mem_append_right _ (List.mem_singleton_self c)

end Forest

namespace World

/-- **The forest is a forest after every run.** Both ends of every link agree. No
child list names a job twice, and no job is in two of them. No job is below
itself; so walking up from a job ends at its root, whatever fuel is added,
having met just the job and all that it is below; an attachment is refused
exactly if it would close a cycle; and walking down counts each job below once.
A parent that is reported is there. When letting go takes the parent of a job
that is held, the job is left without a parent, is its own root, and can be
attached again to any job that is there and not within its own tree. -/
theorem job_forest (es : List Event) :
    let f := (run es).forest
    (∀ p c, c ∈ f.children p ↔ f.parent c = some p) ∧
      (∀ p, (f.children p).Nodup) ∧
      (∀ p q c, c ∈ f.children p → c ∈ f.children q → p = q) ∧
      (∀ j, ¬ f.Below j j) ∧
      (∀ j, f.Within j (f.root j) ∧ f.parent (f.root j) = none) ∧
      (∀ j x, x ∈ f.lineage j ↔ f.Within j x) ∧
      (∀ j more, f.lineageUpTo (f.nodes.length + more) j = f.lineage j) ∧
      (∀ p c, f.attach p c = .error (.cyclicDependency (f.name c)) ↔ f.Within p c) ∧
      (∀ j, ∃ below : List JobRef, below.Nodup ∧ (∀ x, x ∈ below ↔ f.Below x j) ∧
        f.descendantCount j = below.length ∧
        ∀ more, f.countFrom (f.nodes.length + more) (f.children j) = f.descendantCount j) ∧
      (∀ c p, f.parent c = some p → f.has p = true) ∧
      ∀ held c p, f.parent c = some p →
        let left := run (es ++ [.sweep held])
        left.forest.has c = true → left.forest.has p = false →
          left.forest.parent c = none ∧ left.forest.root c = c ∧
            ∀ q, left.forest.has q = true → ¬ left.forest.Within q c →
              (left.attach q c).1 = .ok true ∧ (left.attach q c).2.forest.parent c = some q ∧
                c ∈ (left.attach q c).2.forest.children q := by
  intro f
  have linked : f.Linked := (held_run es).linked
  have acyclic : f.Acyclic := acyclic_run es
  refine ⟨linked.mem_children, linked.nodup_children, ?_, acyclic, ?_,
    fun j x => acyclic.mem_lineage, acyclic.lineageUpTo_add, acyclic.attach_refused,
    acyclic.descendantCount linked, ?_, ?_⟩
  · intro p q c first second
    rw [linked.mem_children] at first second
    exact Option.some.inj (first.symm.trans second)
  · intro j
    obtain ⟨before, walk, top⟩ := acyclic.lineage_ends j
    refine ⟨acyclic.mem_lineage.1 ?_, top⟩
    rw [walk]
    exact List.mem_append_right _ (List.mem_singleton_self _)
  · intro c p parent
    exact Forest.has_of_mem_children ((linked.mem_children p c).2 parent)
  · intro held c p parent left here gone
    have top : left.forest.parent c = none := by
      cases after : left.forest.parent c with
      | none => rfl
      | some q =>
        -- What is left of the link leads to the parent that is gone.
        have child := ((held_run (es ++ [.sweep held])).linked.mem_children q c).2 after
        have before : f.Under c q := by
          have after : ((run es).sweep held).forest.Under c q := by
            rw [show left = (run es).sweep held from run_concat es _] at after
            exact after
          exact Forest.under_of_sweep after
        obtain rfl : q = p := Option.some.inj (before.symm.trans parent)
        rw [Forest.has_of_mem_children child] at gone
        cases gone
    refine ⟨top, Forest.root_of_top top, ?_⟩
    intro q hq apart
    obtain ⟨f', done, attached, child⟩ :=
      (acyclic_run (es ++ [.sweep held])).attach_top hq here top apart
    rw [World.attach, done]
    exact ⟨rfl, attached, child⟩

/-- A run in which a job detaches while its child and grandchild still run in
the tick, so that only the tick keeps it. -/
def orphaningRun : List Event :=
  [.newJob "parent", .newJob "child", .newJob "leaf", .newJob "other", .attach 0 1, .attach 1 2,
    .newScheduler ⟨"loop"⟩ .zero .zero, .schedule 0 0, .start 0 (.script [.reading ⟨0⟩]), .poll 0,
    .returned 0 0 (.outcome .detach), .returned 0 1 (.outcome .resume),
    .returned 0 2 (.outcome .resume)]

/-- After the tick nobody holds the job, and its child can be attached elsewhere. -/
theorem job_forest_of_orphaningRun :
    (run orphaningRun).forest.parent 1 = some 0 ∧
      (run (orphaningRun ++ [.sweep { jobs := [1, 3] }])).forest.has 0 = false ∧
      (run (orphaningRun ++ [.sweep { jobs := [1, 3] }])).forest.parent 1 = none ∧
      ((run (orphaningRun ++ [.sweep { jobs := [1, 3] }])).attach 3 1).1 = .ok true := by
  obtain ⟨-, -, -, -, -, -, -, -, -, -, orphan⟩ := job_forest orphaningRun
  obtain ⟨-, -, -, -, -, lineage, -⟩ := job_forest (orphaningRun ++ [.sweep { jobs := [1, 3] }])
  have parent : (run orphaningRun).forest.parent 1 = some 0 := by decide
  have gone : (run (orphaningRun ++ [.sweep { jobs := [1, 3] }])).forest.has 0 = false := by decide
  obtain ⟨top, -, again⟩ := orphan { jobs := [1, 3] } 1 0 parent (by decide) gone
  refine ⟨parent, gone, top, (again 3 (by decide) ?_).1⟩
  rw [← lineage]
  decide

end World

end FrameLoop

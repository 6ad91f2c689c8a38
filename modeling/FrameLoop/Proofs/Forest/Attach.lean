import FrameLoop.Proofs.Forest.Acyclic
import FrameLoop.Proofs.Run.Held

/-!
# Attaching

An attachment asks one question of the forest, whether the new parent is within the tree of
the child, and writes one link. This module says what follows from that for everything else
(`attach_exact`): which of the three answers is given, and that a job is moved with its
whole tree, which is not touched (`Forest.Moves`).

The link of the child is the only one that changes. So a way up is the same in both forests
as long as it does not lead through the child (`Within.congr`): the way from a job of its
tree to the child itself, and the way from any job outside that tree to the root.
-/

namespace FrameLoop

namespace Forest

variable {f g : Forest} {p c j x : JobRef}

/-! ## Ways up -/

/-- **A way up is there in another forest, too**, if the jobs that it leaves have the same
parents there. -/
theorem Within.congr (h : f.Within j x)
    (same : ∀ k, f.Within j k → f.Below k x → g.parent k = f.parent k) : g.Within j x := by
  induction h using Relation.ReflTransGen.head_induction_on with
  | refl => exact .refl
  | head parent above ih =>
    have here := same _ .refl (.head' parent above)
    refine .head (here.trans parent) (ih fun k up below => ?_)
    exact same k (.head parent up) below

/-- A job's tree without a cycle is the same in a forest that has the job elsewhere. -/
theorem Acyclic.within_of_moved (acyclic : f.Acyclic) (same : ∀ k ≠ c, g.parent k = f.parent k)
    (h : f.Within j c) : g.Within j c := by
  refine Within.congr h fun k _ below => same k ?_
  rintro rfl
  exact acyclic k below

/-- **A job outside the tree that is moved keeps its root.** -/
theorem Acyclic.root_of_apart (acyclic : f.Acyclic) (acyclic' : g.Acyclic)
    (same : ∀ k ≠ c, g.parent k = f.parent k) (apart : ¬ f.Within j c) : g.root j = f.root j := by
  obtain ⟨within, top⟩ : f.Within j (f.root j) ∧ f.parent (f.root j) = none :=
    acyclic.root_eq_iff.1 rfl
  have other {k : JobRef} (up : f.Within j k) : k ≠ c := by
    rintro rfl
    exact apart up
  rw [acyclic'.root_eq_iff, same _ (other within)]
  exact ⟨Within.congr within fun k up _ => same k (other up), top⟩

/-! ## Moving -/

/-- **A job is moved beneath another**, with all that is below it. -/
structure Moves (f : Forest) (p c : JobRef) (g : Forest) : Prop where
  has : ∀ k, g.has k = f.has k
  /-- The one link upwards that changes is that of the job. -/
  parent : ∀ k, g.parent k = if k = c then some p else f.parent k
  /-- The job is the last of its parent's children. -/
  last : g.children p = f.children p ++ [c]
  /-- It has left its former parent, whose other children have kept their order. -/
  left : ∀ q, f.parent c = some q →
    ∃ before after, f.children q = before ++ c :: after ∧ g.children q = before ++ after
  /-- No other child list has changed. -/
  others : ∀ q, q ≠ p → f.parent c ≠ some q → g.children q = f.children q
  /-- Its tree is untouched. -/
  tree : ∀ j, (g.Within j c ↔ f.Within j c) ∧ (f.Within j c → g.children j = f.children j)
  /-- The jobs of its tree have the root of the new parent. -/
  root : ∀ j, f.Within j c → g.root j = f.root p
  /-- All others have the root that they had. -/
  roots : ∀ j, ¬ f.Within j c → g.root j = f.root j

/-- **An attachment that succeeds moves the job.** -/
theorem Linked.moves (linked : f.Linked) (acyclic : f.Acyclic) (hp : f.has p = true)
    (hc : f.has c = true) (done : f.attach p c = .ok (true, g)) : f.Moves p c g := by
  have acyclic' : g.Acyclic := acyclic.attach hc done
  obtain _ | _ | ⟨apart, new⟩ := done ▸ f.attaches p c
  rw [acyclic.mem_lineage] at apart
  have has (k : JobRef) : ((f.taken c).link p c).has k = f.has k := by
    rw [has_link, has_taken]
  have parent := linked.parent_moved hc p
  have children := linked.children_moved hp new
  generalize (f.taken c).link p c = g at acyclic' has parent children
  have others {k : JobRef} (other : k ≠ p) (free : f.parent c ≠ some k) :
      g.children k = f.children k := by
    rw [children, if_neg other, filter_of_not_mem]
    exact fun child => free ((linked.mem_children k c).1 child)
  have same : ∀ k ≠ c, g.parent k = f.parent k := fun k other => (parent k).trans (if_neg other)
  have within (j : JobRef) : g.Within j c ↔ f.Within j c :=
    ⟨acyclic'.within_of_moved fun k other => (same k other).symm, acyclic.within_of_moved same⟩
  have roots (j : JobRef) (outside : ¬ f.Within j c) : g.root j = f.root j :=
    acyclic.root_of_apart acyclic' same outside
  constructor
  case has => exact has
  case parent => exact parent
  case last => rw [children, if_pos rfl]
  case left =>
    intro q former
    have child := (linked.mem_children q c).2 former
    obtain ⟨before, after, -, split, erased⟩ := List.exists_erase_eq child
    rw [(linked.nodup_children q).erase_eq_filter] at erased
    refine ⟨before, after, split, ?_⟩
    rw [children, if_neg, erased]
    rintro rfl
    exact new former
  case others => exact fun q other free => others other free
  case tree =>
    refine fun j => ⟨within j, fun below => others ?_ fun former => ?_⟩
    · rintro rfl
      exact apart below
    · exact acyclic c (.head' former below)
  case root =>
    intro j below
    obtain ⟨up, top⟩ := acyclic'.root_eq_iff.1 (roots p apart)
    exact acyclic'.root_eq_iff.2
      ⟨((within j).2 below).trans (.head ((parent c).trans (if_pos rfl)) up), top⟩
  case roots => exact roots

end Forest

namespace World

/-- **An attachment decides cycles exactly, and moves whole trees.** After every run, for any
two jobs that are there:

* it is refused exactly if the new parent is the child or below it; that is the one error
  there is, it names the child, and nothing changes;
* it answers `false` exactly if the job is there already, and nothing changes;
* otherwise it answers `true`, and the job is moved with its tree, and nothing else
  changes. -/
theorem attach_exact (es : List Event) {p c : JobRef} (hp : (run es).forest.has p = true)
    (hc : (run es).forest.has c = true) :
    let w := run es
    let f := w.forest
    let answer := (w.attach p c).1
    let after := (w.attach p c).2
    (answer = .error (.cyclicDependency (f.name c)) ↔ f.Within p c) ∧
      (∀ err, answer = .error err → err = .cyclicDependency (f.name c) ∧ after = w) ∧
      (answer = .ok false ↔ c ∈ f.children p) ∧
      (answer = .ok false → after = w) ∧
      (answer = .ok true ↔ ¬ f.Within p c ∧ c ∉ f.children p) ∧
      (answer = .ok true → after = { w with forest := after.forest } ∧
        f.Moves p c after.forest) := by
  intro w f answer after
  have linked : f.Linked := (held_run es).linked
  have acyclic : f.Acyclic := acyclic_run es
  have child : c ∈ f.children p ↔ f.parent c = some p := linked.mem_children p c
  have within : c ∈ f.lineage p ↔ f.Within p c := acyclic.mem_lineage
  have result : w.attach p c = (answer, after) := rfl
  generalize answer = answer, after = after at result
  unfold attach at result
  generalize done : w.forest.attach p c = outcome at result
  cases done ▸ f.attaches p c with
  | refused beneath =>
    cases result
    have up := within.1 beneath
    have absent : c ∉ f.children p := fun here => acyclic c (.head' (child.1 here) up)
    refine ⟨iff_of_true rfl up, ?_, iff_of_false nofun absent, nofun,
      iff_of_false nofun fun h => h.1 up, nofun⟩
    rintro err ⟨⟩
    exact ⟨rfl, rfl⟩
  | there apart parent =>
    cases result
    have here := child.2 parent
    exact ⟨iff_of_false nofun (mt within.2 apart), nofun, iff_of_true rfl here, fun _ => rfl,
      iff_of_false nofun fun h => h.2 here, nofun⟩
  | moved apart new =>
    cases result
    have absent := mt child.1 new
    exact ⟨iff_of_false nofun (mt within.2 apart), nofun, iff_of_false nofun absent, nofun,
      iff_of_true rfl ⟨mt within.2 apart, absent⟩,
      fun _ => ⟨rfl, linked.moves acyclic hp hc done⟩⟩

/-- Two trees. The first has three branches, of which the middle one has a leaf; the second
has one. -/
def twoTrees : List Event :=
  [.newJob "left", .newJob "first", .newJob "middle", .newJob "last", .newJob "leaf",
    .newJob "right", .newJob "branch", .attach 0 1, .attach 0 2, .attach 0 3, .attach 2 4,
    .attach 5 6]

/-- The first tree cannot come below its own leaf, and the middle branch is below it already.
It can be moved to the second tree, and its leaf with it. -/
theorem attach_exact_of_twoTrees :
    ((run twoTrees).attach 4 0).1 = .error (.cyclicDependency "left") ∧
      ((run twoTrees).attach 0 2).1 = .ok false ∧
      ((run twoTrees).attach 5 2).1 = .ok true ∧
      let moved := ((run twoTrees).attach 5 2).2.forest
      moved.children 5 = [6, 2] ∧ moved.children 0 = [1, 3] ∧ moved.children 2 = [4] ∧
        moved.root 4 = 5 ∧ moved.root 3 = 0 := by
  have lineage {p c : JobRef} : c ∈ (run twoTrees).forest.lineage p ↔
      (run twoTrees).forest.Within p c := (acyclic_run twoTrees).mem_lineage
  obtain ⟨refused, -⟩ := attach_exact twoTrees (p := 4) (c := 0) (by decide) (by decide)
  obtain ⟨-, -, there, -⟩ := attach_exact twoTrees (p := 0) (c := 2) (by decide) (by decide)
  obtain ⟨-, -, -, -, moves, goes⟩ :=
    attach_exact twoTrees (p := 5) (c := 2) (by decide) (by decide)
  have done := moves.2 ⟨mt lineage.2 (by decide), by decide⟩
  obtain ⟨-, moved⟩ := goes done
  refine ⟨refused.2 (lineage.1 (by decide)), there.2 (by decide), done, moved.last, by decide,
    ?_, ?_, ?_⟩
  · exact (moved.tree 2).2 .refl
  · exact (moved.root 4 (lineage.1 (by decide))).trans (by decide)
  · exact (moved.roots 3 (mt lineage.2 (by decide))).trans (by decide)

end World

end FrameLoop

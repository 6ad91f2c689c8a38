import FrameLoop.Proofs.Driver
import FrameLoop.Proofs.Forest.Acyclic

/-!
# What is cut and what is let go

Some jobs of a forest are detached from their parents, one after the other, and meanwhile
jobs that nobody holds are let go, at times of which nothing is known. What is left of the
forest then is said without these times (`Forest.Pruned`): of the jobs that are still
there the lists of children are what they were, less the jobs detached, and so is each
parent, if it is still there.

So the times make no difference in the end: once everything has been let go that nobody
holds, what is left depends on who was detached and who is held, and on nothing else
(`Pruned.sweep_congr`).
-/

namespace FrameLoop.Forest

variable {f f' : Forest} {gone roots : List JobRef} {j c p : JobRef}

/-! ## Who is kept -/

/-- The walk meets nothing but what was given and what is below it. -/
theorem within_of_mem_reach (linked : f.Linked) {fuel : Nat} {seen todo : List JobRef}
    (h : j ∈ f.reach fuel seen todo) : j ∈ seen ∨ ∃ x ∈ todo, f.Within j x := by
  induction fuel generalizing seen todo with
  | zero => exact .inl h
  | succ fuel ih =>
    cases todo with
    | nil => exact .inl h
    | cons k rest =>
      unfold reach at h
      split at h
      · rcases ih h with old | ⟨x, hx, within⟩
        · exact .inl old
        · exact .inr ⟨x, List.mem_cons_of_mem k hx, within⟩
      · rcases ih h with old | ⟨x, hx, within⟩
        · rcases List.mem_cons.1 old with rfl | old
          · exact .inr ⟨j, List.mem_cons_self, .refl⟩
          · exact .inl old
        · rcases List.mem_append.1 hx with child | hx
          · exact .inr ⟨k, List.mem_cons_self, within.tail ((linked.mem_children k x).1 child)⟩
          · exact .inr ⟨x, List.mem_cons_of_mem k hx, within⟩

/-- **Kept is what is given and what is below it.** -/
theorem Linked.mem_reachable_iff (linked : f.Linked) :
    j ∈ f.reachable roots ↔ ∃ x ∈ roots, f.Within j x := by
  constructor
  · intro kept
    exact (within_of_mem_reach linked kept).resolve_left List.not_mem_nil
  · rintro ⟨x, hx, within⟩
    induction within using Relation.ReflTransGen.head_induction_on with
    | refl => exact mem_reachable hx
    | head parent _ ih => exact child_mem_reachable ih ((linked.mem_children _ _).2 parent)

/-! ## What is left -/

/-- What is left of the data of a job: it has lost the children that are gone, and its
parent if it is gone itself or the parent is not there. -/
def Node.cut (gone : List JobRef) (there : JobRef → Bool) (n : Node) : Node :=
  { n with
    parent := if n.job ∈ gone then none else n.parent.filter there
    children := n.children.filter (· ∉ gone) }

/-- **The second forest is what is left of the first** after the jobs of the list have
been detached and others have been let go. -/
structure Pruned (f : Forest) (gone : List JobRef) (f' : Forest) : Prop where
  next : f.next ≤ f'.next
  old : ∀ j n, f.node? j = some n → f'.has j = true → f'.node? j = some (n.cut gone f'.has)
  /-- A job that is new has no links. -/
  new : ∀ j, f.has j = false → f'.parent j = none

/-- Where nothing has happened everything is left. -/
theorem Linked.pruned (linked : f.Linked) : f.Pruned [] f where
  next := Nat.le_refl _
  old j n found _ := by
    have parent : n.parent.filter f.has = n.parent := by
      cases above : n.parent with
      | none => rfl
      | some p =>
        have isParent : f.parent j = some p := by rw [Forest.parent, found, ← above]; rfl
        have here := has_of_mem_children ((linked.mem_children p j).2 isParent)
        simp [here]
    rw [found, Node.cut]
    simp [parent]
  new j absent := parent_of_not_has absent

namespace Pruned

/-- The children that are left, in their order. -/
theorem children (h : f.Pruned gone f') (before : f.has j = true) (here : f'.has j = true) :
    f'.children j = (f.children j).filter (· ∉ gone) := by
  obtain ⟨n, found⟩ := Option.isSome_iff_exists.1 before
  rw [Forest.children, h.old j n found here, Forest.children, found]
  rfl

/-- The parent that is left. -/
theorem parent (h : f.Pruned gone f') (before : f.has j = true) (here : f'.has j = true) :
    f'.parent j = if j ∈ gone then none else (f.parent j).filter f'.has := by
  obtain ⟨n, found⟩ := Option.isSome_iff_exists.1 before
  have job : n.job = j := job_of_node? found
  rw [Forest.parent, h.old j n found here, Forest.parent, found, Node.cut, job]
  rfl

/-- A job keeps its name. -/
theorem name (h : f.Pruned gone f') (before : f.has j = true) (here : f'.has j = true) :
    f'.name j = f.name j := by
  obtain ⟨n, found⟩ := Option.isSome_iff_exists.1 before
  rw [Forest.name, h.old j n found here, Forest.name, found]
  rfl

/-- **A link that is left was there before**, and nobody has detached the child. -/
theorem of_under (h : f.Pruned gone f') (link : f'.Under c p) : f.Under c p ∧ c ∉ gone := by
  have here := has_of_parent link
  have before : f.has c = true := by
    by_contra new
    cases (h.new c (Bool.not_eq_true _ ▸ new)).symm.trans link
  rw [Under, h.parent before here] at link
  split at link
  · cases link
  · next stays => exact ⟨(Option.filter_eq_some_iff.1 link).1, stays⟩

/-- **Below a job that is there all is there** but what has been detached. -/
theorem under (h : f.Pruned gone f') (linked : f.Linked) (linked' : f'.Linked)
    (link : f.Under c p) (stays : c ∉ gone) (here : f'.has p = true) : f'.Under c p := by
  have child := (linked.mem_children p c).2 link
  refine (linked'.mem_children p c).1 ?_
  rw [h.children (has_of_mem_children child) here, List.mem_filter]
  exact ⟨child, decide_eq_true stays⟩

/-! ### More is cut, or let go -/

theorem create (h : f.Pruned gone f') (linked : f.Linked) (name : String) :
    f.Pruned gone (f'.create name).2 where
  next := Nat.le_succ_of_le h.next
  old j n found here := by
    have early : j < f.next := linked.below j (by rw [has, found]; rfl)
    have other : j ≠ f'.next := Nat.ne_of_lt (Nat.lt_of_lt_of_le early h.next)
    rw [has_create, decide_eq_false other, Bool.or_false] at here
    rw [node?_create, if_neg other, Option.or_none, h.old j n found here]
    -- The parents of old jobs are old, so the new job is not among them.
    have same : n.parent.filter (f'.create name).2.has = n.parent.filter f'.has := by
      cases above : n.parent with
      | none => rfl
      | some p =>
        have isParent : f.parent j = some p := by rw [Forest.parent, found, ← above]; rfl
        have there := has_of_mem_children ((linked.mem_children p j).2 isParent)
        have apart : p ≠ f'.next := Nat.ne_of_lt (Nat.lt_of_lt_of_le (linked.below p there) h.next)
        simp only [Option.filter, has_create, decide_eq_false apart, Bool.or_false]
    rw [Node.cut, Node.cut, same]
  new j absent := by
    rw [parent_create]
    exact h.new j absent

theorem sweep (h : f.Pruned gone f') (roots : List JobRef) : f.Pruned gone (f'.sweep roots) where
  next := h.next
  old j n found here := by
    rw [has_sweep, Bool.and_eq_true, decide_eq_true_eq] at here
    rw [node?_sweep, if_pos here.1, h.old j n found here.2, Option.map_some, Option.some.injEq,
      Node.cut, Node.cut, Node.mk.injEq]
    refine ⟨rfl, rfl, ?_, rfl⟩
    dsimp only
    split
    · rfl
    · rw [Option.filter_filter]
      congr 1
      funext p
      rw [has_sweep, Bool.and_comm]
  new j absent := by
    rw [parent_sweep, h.new j absent]
    exact ite_self _

end Pruned

/-- Only a parent has a job among its children, so that nobody else loses anything by it. -/
theorem Linked.children_filter_ne (linked : f.Linked) {j k : JobRef} (apart : f.parent j ≠ some k)
    {n : Node} (found : f.node? k = some n) : n.children.filter (· ≠ j) = n.children := by
  refine List.filter_eq_self.2 fun x hx => decide_eq_true ?_
  rintro rfl
  exact apart ((linked.mem_children k x).1 (by rw [Forest.children, found]; exact hx))

/-- **What an edge that is erased leaves** of each job: the parent has one child less, and the
child no parent. -/
theorem Linked.node?_erase (linked : f.Linked) {p j : JobRef} (parent : f.parent j = some p)
    (k : JobRef) :
    (f.erase p j).2.node? k = (f.node? k).map fun n =>
      { n with
        parent := if k = j then none else n.parent
        children := n.children.filter (· ≠ j) } := by
  have child : j ∈ f.children p := (linked.mem_children p j).2 parent
  have filtered : (fun x : JobRef => x != j) = fun x => decide (x ≠ j) := by
    funext x
    by_cases same : x = j <;> simp [same]
  rw [Forest.erase, if_pos child]
  dsimp only
  rw [node?_update j (by intro n; rfl), node?_update p (by intro n; rfl)]
  cases found : f.node? k with
  | none => simp
  | some n =>
    by_cases isParent : k = p
    · simp only [if_pos isParent, Option.map_some, filtered]
      by_cases here : k = j
      · simp only [if_pos here]
      · simp only [if_neg here]
    · have apart : f.parent j ≠ some k := by
        rw [parent]
        exact fun same => isParent (Option.some.inj same).symm
      simp only [if_neg isParent, Option.map_some, linked.children_filter_ne apart found]
      by_cases here : k = j
      · simp only [if_pos here]
      · simp only [if_neg here]

/-- **What is left when a job is taken from its parent**, if it has one. -/
theorem Linked.node?_remove (linked : f.Linked) (s : Scheduler) (j k : JobRef) :
    (s.remove f j).2.2.node? k = (f.node? k).map fun n =>
      { n with
        parent := if k = j then none else n.parent
        children := n.children.filter (· ≠ j) } := by
  unfold Scheduler.remove
  cases parent : f.parent j with
  | some p => exact linked.node?_erase parent k
  | none =>
    dsimp only
    cases found : f.node? k with
    | none => rfl
    | some n =>
      rw [Option.map_some, linked.children_filter_ne (by simp [parent]) found]
      split
      · next same =>
        have top : n.parent = none := by
          rw [← same, Forest.parent, found] at parent
          exact parent
        rw [← top]
      · rfl

namespace Pruned

/-- **One more job is detached.** -/
theorem detach (h : f.Pruned gone f') (linked' : f'.Linked) (s : Scheduler) (j : JobRef) :
    f.Pruned (gone ++ [j]) (s.depart f' j (.outcome .detach)).2 := by
  have node (k : JobRef) := linked'.node?_remove s j k
  have there : (s.remove f' j).2.2.has = f'.has := by
    funext k
    rw [has, node, has, Option.isSome_map]
  show f.Pruned (gone ++ [j]) (s.remove f' j).2.2
  constructor
  case next =>
    have same : (s.remove f' j).2.2.next = f'.next := by
      unfold Scheduler.remove
      split
      · exact next_erase _ j
      · rfl
    exact same ▸ h.next
  case old =>
    intro k n found here
    have job : n.job = k := job_of_node? found
    rw [there] at here ⊢
    rw [node, h.old k n found here, Option.map_some, Option.some.injEq, Node.cut, Node.cut, job,
      Node.mk.injEq]
    refine ⟨rfl, rfl, ?_, ?_⟩
    · dsimp only
      by_cases same : k = j <;> simp [same]
    · dsimp only
      rw [List.filter_filter]
      refine List.filter_congr fun x _ => ?_
      by_cases same : x = j <;> simp [same]
  case new =>
    intro k absent
    rw [Forest.parent, node]
    have top := h.new k absent
    rw [Forest.parent] at top
    cases found : f'.node? k with
    | none => rfl
    | some n =>
      rw [found] at top
      have top : n.parent = none := top
      simp [top]

/-! ### What letting go comes to -/

/-- **Nothing is let go while all that has been detached is held**, and all that
everything else was below. -/
theorem has_sweep (h : f.Pruned gone f') (linked : f.Linked) (linked' : f'.Linked)
    (all : ∀ x, f.has x = true → f'.has x = true) (cut : gone ⊆ roots)
    (rooted : ∀ x, f.has x = true → ∃ y ∈ roots, f.Within x y) (x : JobRef)
    (before : f.has x = true) : (f'.sweep roots).has x = true := by
  obtain ⟨y, hy, within⟩ := rooted x before
  have kept : x ∈ f'.reachable roots := by
    induction within using Relation.ReflTransGen.head_induction_on with
    | refl => exact mem_reachable hy
    | @head x p link _ ih =>
      have above : f.has p = true := has_of_mem_children ((linked.mem_children p x).2 link)
      by_cases detached : x ∈ gone
      · exact mem_reachable (cut detached)
      · have left := h.under linked linked' link detached (all p above)
        exact child_mem_reachable (ih above) ((linked'.mem_children p x).2 left)
  rw [Forest.has_sweep, all x before, decide_eq_true kept]
  rfl

variable {gone' : List JobRef} {f'' : Forest}

/-- A job that is kept in one of two forests that are left is kept in the other. -/
theorem within_of_within (h : f.Pruned gone f') (h' : f.Pruned gone' f'') (linked : f.Linked)
    (linked' : f''.Linked) (cut : ∀ x, x ∈ gone ↔ x ∈ gone') {x y : JobRef}
    (here : f''.has y = true) (within : f'.Within x y) : f''.Within x y ∧ f''.has x = true := by
  induction within using Relation.ReflTransGen.head_induction_on with
  | refl => exact ⟨.refl, here⟩
  | head link _ ih =>
    obtain ⟨before, stays⟩ := h.of_under link
    have left := h'.under linked linked' before (fun hx => stays ((cut _).2 hx)) ih.2
    exact ⟨.head left ih.1, has_of_parent left⟩

/-- **What is left in the end depends on who was detached and who is held**, and not on
when that happened or what was let go meanwhile. -/
theorem sweep_congr (h : f.Pruned gone f') (h' : f.Pruned gone' f'') (linked : f.Linked)
    (linked' : f'.Linked) (linked'' : f''.Linked) (cut : ∀ x, x ∈ gone ↔ x ∈ gone')
    {roots roots' : List JobRef} (same : ∀ x, x ∈ roots ↔ x ∈ roots')
    (there : ∀ x ∈ roots, f'.has x = true ∧ f''.has x = true) (j : JobRef)
    (before : f.has j = true) : (f''.sweep roots').node? j = (f'.sweep roots).node? j := by
  have forth {x : JobRef} (kept : x ∈ f'.reachable roots) :
      x ∈ f''.reachable roots' ∧ f''.has x = true := by
    obtain ⟨y, hy, within⟩ := linked'.mem_reachable_iff.1 kept
    obtain ⟨within', here⟩ := h.within_of_within h' linked linked'' cut (there y hy).2 within
    exact ⟨linked''.mem_reachable_iff.2 ⟨y, (same y).1 hy, within'⟩, here⟩
  have back {x : JobRef} (kept : x ∈ f''.reachable roots') :
      x ∈ f'.reachable roots ∧ f'.has x = true := by
    obtain ⟨y, hy, within⟩ := linked''.mem_reachable_iff.1 kept
    have hy := (same y).2 hy
    obtain ⟨within', here⟩ :=
      h'.within_of_within h linked linked' (fun x => (cut x).symm) (there y hy).1 within
    exact ⟨linked'.mem_reachable_iff.2 ⟨y, hy, within'⟩, here⟩
  obtain ⟨n, found⟩ := Option.isSome_iff_exists.1 before
  rw [node?_sweep, node?_sweep]
  by_cases kept : j ∈ f'.reachable roots
  · obtain ⟨kept', here'⟩ := forth kept
    rw [if_pos kept, if_pos kept', h.old j n found (back kept').2, h'.old j n found here',
      Option.map_some, Option.map_some, Option.some.injEq, Node.mk.injEq]
    refine ⟨rfl, rfl, ?_, ?_⟩
    · dsimp only [Node.cut]
      rw [if_congr (cut n.job).symm rfl rfl]
      split
      · rfl
      · rw [Option.filter_filter, Option.filter_filter]
        congr 1
        funext p
        rw [Bool.eq_iff_iff, Bool.and_eq_true, Bool.and_eq_true, decide_eq_true_eq,
          decide_eq_true_eq]
        exact ⟨fun both => (back both.2).symm, fun both => (forth both.2).symm⟩
    · exact List.filter_congr fun x _ => decide_eq_decide.2 (not_congr (cut x).symm)
  · rw [if_neg kept, if_neg fun kept' => kept (back kept').1]

end Pruned

end FrameLoop.Forest

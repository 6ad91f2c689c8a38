import FrameLoop.Proofs.Forest.Links

/-!
# Letting go

`Forest.sweep` keeps the jobs that are given and all that are below them. The
walk that finds them has a fuel, and this module shows that it never runs out:
the jobs still to be looked at and the child lists of those not yet seen are
its measure (`Forest.work`), and each step uses one of them up. So what is kept
is closed under children, and the links that are left agree both ways.
-/

namespace FrameLoop.Forest

variable {f : Forest}

/-! ## The walk -/

/-- How many jobs there are in the child lists of those that have not been
seen. -/
def work : List Node → List JobRef → Nat
  | [], _ => 0
  | n :: nodes, seen => (if n.job ∈ seen then 0 else n.children.length) + work nodes seen

/-- At first there are all child lists to look at. -/
theorem work_nil (nodes : List Node) : work nodes [] = (nodes.flatMap (·.children)).length := by
  induction nodes with
  | nil => rfl
  | cons n nodes ih => rw [work, ih]; simp

/-- A job that has been seen takes its child list off the work left. -/
theorem work_cons (nodes : List Node) {seen : List JobRef} {j : JobRef} (new : j ∉ seen) :
    (((nodes.find? (·.job == j)).map (·.children)).getD []).length + work nodes (j :: seen) ≤
      work nodes seen := by
  induction nodes with
  | nil => simp [work]
  | cons n nodes ih =>
    simp only [work, List.find?_cons, List.mem_cons]
    by_cases here : n.job = j
    · simp only [here, new, beq_self_eq_true, true_or, if_true, if_false, Option.map_some,
        Option.getD_some]
      omega
    · have other : (n.job == j) = false := by simpa using here
      simp only [other, here, false_or]
      omega

/-- **With fuel for the work left the walk meets all that was given, and the
children of all that it meets.** -/
theorem reach_spec (f : Forest) {fuel : Nat} {seen todo : List JobRef}
    (enough : todo.length + work f.nodes seen ≤ fuel) :
    (∀ x ∈ seen, x ∈ f.reach fuel seen todo) ∧ (∀ x ∈ todo, x ∈ f.reach fuel seen todo) ∧
      ∀ x ∈ f.reach fuel seen todo, x ∉ seen → ∀ c ∈ f.children x, c ∈ f.reach fuel seen todo := by
  induction fuel generalizing seen todo with
  | zero =>
    obtain rfl : todo = [] := List.length_eq_zero_iff.1 (by omega)
    exact ⟨fun x hx => hx, by simp, fun x hx new => absurd hx new⟩
  | succ fuel ih =>
    cases todo with
    | nil => exact ⟨fun x hx => hx, by simp, fun x hx new => absurd hx new⟩
    | cons j rest =>
      rw [List.length_cons] at enough
      unfold reach
      split
      · next old =>
        have enough' : rest.length + work f.nodes seen ≤ fuel := by omega
        obtain ⟨kept, met, closed⟩ := ih enough'
        refine ⟨kept, ?_, closed⟩
        intro x hx
        obtain rfl | hx := List.mem_cons.1 hx
        · exact kept x old
        · exact met x hx
      · next new =>
        have less := work_cons f.nodes new
        have enough' : (f.children j ++ rest).length + work f.nodes (j :: seen) ≤ fuel := by
          rw [List.length_append]
          simp only [children, node?]
          omega
        obtain ⟨kept, met, closed⟩ := ih enough'
        refine ⟨?_, ?_, ?_⟩
        · intro x hx
          exact kept x (List.mem_cons_of_mem j hx)
        · intro x hx
          obtain rfl | hx := List.mem_cons.1 hx
          · exact kept x List.mem_cons_self
          · exact met x (List.mem_append_right _ hx)
        · intro x hx old c child
          by_cases here : x = j
          · exact met c (List.mem_append_left _ (here ▸ child))
          · exact closed x hx (by simp [here, old]) c child

theorem reachable_spec (f : Forest) (roots : List JobRef) :
    (∀ x ∈ roots, x ∈ f.reachable roots) ∧
      ∀ x ∈ f.reachable roots, ∀ c ∈ f.children x, c ∈ f.reachable roots := by
  have enough : roots.length + work f.nodes [] ≤
      roots.length + (f.nodes.flatMap (·.children)).length := Nat.le_of_eq (by rw [work_nil])
  obtain ⟨-, met, closed⟩ := f.reach_spec enough
  exact ⟨met, fun x hx => closed x hx List.not_mem_nil⟩

/-- What is given is kept. -/
theorem mem_reachable {roots : List JobRef} {j : JobRef} (h : j ∈ roots) :
    j ∈ f.reachable roots :=
  (f.reachable_spec roots).1 j h

/-- What is kept keeps its children. -/
theorem child_mem_reachable {roots : List JobRef} {p c : JobRef} (h : p ∈ f.reachable roots)
    (child : c ∈ f.children p) : c ∈ f.reachable roots :=
  (f.reachable_spec roots).2 p h c child

/-! ## What is left -/

theorem node?_sweep (f : Forest) (roots : List JobRef) (k : JobRef) :
    (f.sweep roots).node? k =
      if k ∈ f.reachable roots then
        (f.node? k).map fun n => { n with parent := n.parent.filter (· ∈ f.reachable roots) }
      else none := by
  simp only [node?, sweep, List.find?_map, List.find?_filter, Function.comp_def]
  split
  · next kept =>
    congr 2
    funext n
    by_cases here : n.job = k <;> simp [here, kept]
  · next gone =>
    rw [Option.map_eq_none_iff, List.find?_eq_none]
    intro n _
    by_cases here : n.job = k <;> simp [here, gone]

theorem has_sweep (f : Forest) (roots : List JobRef) (k : JobRef) :
    (f.sweep roots).has k = (decide (k ∈ f.reachable roots) && f.has k) := by
  rw [has, node?_sweep]
  by_cases kept : k ∈ f.reachable roots <;> simp [kept, has]

theorem children_sweep (f : Forest) (roots : List JobRef) (k : JobRef) :
    (f.sweep roots).children k = if k ∈ f.reachable roots then f.children k else [] := by
  rw [children, node?_sweep, children]
  split
  · rw [Option.map_map]
    rfl
  · rfl

theorem parent_sweep (f : Forest) (roots : List JobRef) (k : JobRef) :
    (f.sweep roots).parent k =
      if k ∈ f.reachable roots then (f.parent k).filter (· ∈ f.reachable roots) else none := by
  rw [parent, node?_sweep, parent]
  split
  · cases f.node? k <;> rfl
  · rfl

/-- **Letting go keeps the links agreeing**: a child of a job that is kept is
kept. -/
theorem Linked.sweep (h : f.Linked) (roots : List JobRef) : (f.sweep roots).Linked where
  below j here := by
    rw [has_sweep, Bool.and_eq_true] at here
    exact h.below j here.2
  mem_children p c := by
    rw [children_sweep, parent_sweep]
    by_cases hp : p ∈ f.reachable roots
    · rw [if_pos hp, h.mem_children]
      constructor
      · intro parent
        have kept := child_mem_reachable hp ((h.mem_children p c).2 parent)
        simp [kept, parent, hp]
      · intro parent
        split at parent
        · exact (Option.filter_eq_some_iff.1 parent).1
        · cases parent
    · rw [if_neg hp]
      refine iff_of_false List.not_mem_nil fun parent => hp ?_
      split at parent
      · simpa using (Option.filter_eq_some_iff.1 parent).2
      · cases parent
  nodup_children p := by
    rw [children_sweep]
    split
    · exact h.nodup_children p
    · exact List.nodup_nil

end FrameLoop.Forest

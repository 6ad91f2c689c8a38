import FrameLoop.Proofs.Run.Frame
import FrameLoop.Proofs.Forest.Sweep
import Mathlib.Data.List.Perm.Subperm
import Mathlib.Logic.Relation

/-!
# No way back

Following parents from a job never leads back to it (`Forest.Acyclic`). The
law is stated as the absence of a cycle of the closure of the parent link, and
not by the walks, so it says something about them.

Two things are drawn from it. Upwards, the walk of `Forest.lineage` meets no
job twice, hence ends before its fuel does, at the one ancestor without a parent
(`root_eq_iff`); so what it meets is all there is to meet (`mem_lineage`), and
the test by which `Forest.attach` refuses a cycle is right. Downwards, the walk of
`Forest.descendantCount` meets every job below its start, each once
(`Descent`), so its fuel, too, is enough.

The law is kept because links are only ever taken away, except by an
attachment. There a new cycle would have to run through the new link, hence
upwards from the new parent to the new child, which is what the test excludes
(`below_link`).
-/

namespace FrameLoop.Forest

variable {f f' : Forest} {p c j x y : JobRef}

/-- The link upwards: one step of following parents. -/
def Under (f : Forest) (c p : JobRef) : Prop := f.parent c = some p

/-- **A job is below another** if following parents leads from it there, in one
step or more. -/
def Below (f : Forest) : JobRef → JobRef → Prop := Relation.TransGen f.Under

/-- A job is within the tree of another if it is that job or below it. -/
def Within (f : Forest) : JobRef → JobRef → Prop := Relation.ReflTransGen f.Under

/-- **No job is below itself.** -/
def Acyclic (f : Forest) : Prop := ∀ j, ¬ f.Below j j

/-- There are no more jobs than nodes. -/
theorem length_le_of_nodup {jobs : List JobRef} (nodup : jobs.Nodup)
    (here : ∀ j ∈ jobs, f.has j = true) : jobs.length ≤ f.nodes.length := by
  have numbered : jobs ⊆ f.nodes.map (·.job) := by
    intro j hj
    obtain ⟨n, found⟩ := Option.isSome_iff_exists.1 (here j hj)
    exact List.mem_map.2 ⟨n, List.mem_of_find?_eq_some found, job_of_node? found⟩
  have short := (nodup.subperm numbered).length_le
  rwa [List.length_map] at short

/-- Lists that name the same jobs, each once, are equally long. -/
theorem length_eq_of_nodup {jobs jobs' : List JobRef} (nodup : jobs.Nodup) (nodup' : jobs'.Nodup)
    (same : ∀ j, j ∈ jobs ↔ j ∈ jobs') : jobs.length = jobs'.length :=
  ((List.perm_ext_iff_of_nodup nodup nodup').2 same).length_eq

/-! ## Walking up -/

theorem mem_lineageUpTo_self (f : Forest) (fuel : Nat) (j : JobRef) :
    j ∈ f.lineageUpTo fuel j := by
  cases fuel with
  | zero => exact List.mem_singleton_self j
  | succ fuel =>
    unfold lineageUpTo
    split
    · exact List.mem_cons_self
    · exact List.mem_singleton_self j

theorem within_of_mem_lineageUpTo {fuel : Nat} (h : x ∈ f.lineageUpTo fuel j) : f.Within j x := by
  induction fuel generalizing j with
  | zero =>
    obtain rfl := List.mem_singleton.1 h
    exact .refl
  | succ fuel ih =>
    unfold lineageUpTo at h
    split at h
    · next p parent =>
      rcases List.mem_cons.1 h with rfl | above
      · exact .refl
      · exact .head parent (ih above)
    · obtain rfl := List.mem_singleton.1 h
      exact .refl

theorem nodup_lineageUpTo (acyclic : f.Acyclic) (fuel : Nat) (j : JobRef) :
    (f.lineageUpTo fuel j).Nodup := by
  induction fuel generalizing j with
  | zero => exact List.pairwise_singleton _ j
  | succ fuel ih =>
    unfold lineageUpTo
    split
    · next p parent =>
      refine List.nodup_cons.2 ⟨?_, ih p⟩
      intro back
      exact acyclic j (.head' parent (within_of_mem_lineageUpTo back))
    · exact List.pairwise_singleton _ j

/-- A walk ends at a job without a parent, or its fuel does and all that it has
met are there. -/
theorem lineageUpTo_cases (f : Forest) (fuel : Nat) (j : JobRef) :
    ∃ before last, f.lineageUpTo fuel j = before ++ [last] ∧
      (f.parent last = none ∨
        before.length = fuel ∧ ∀ x ∈ before ++ [last], f.has x = true) := by
  induction fuel generalizing j with
  | zero =>
    refine ⟨[], j, rfl, ?_⟩
    cases parent : f.parent j with
    | none => exact .inl rfl
    | some p => exact .inr ⟨rfl, by simpa using has_of_parent parent⟩
  | succ fuel ih =>
    unfold lineageUpTo
    split
    · next p parent =>
      obtain ⟨before, last, walk, ended⟩ := ih p
      refine ⟨j :: before, last, by rw [walk]; rfl, ?_⟩
      rcases ended with top | ⟨length, here⟩
      · exact .inl top
      · refine .inr ⟨by rw [List.length_cons, length], ?_⟩
        intro x hx
        rcases List.mem_cons.1 hx with rfl | above
        · exact has_of_parent parent
        · exact here x above
    · next top => exact ⟨[], j, rfl, .inl top⟩

/-- A walk that has ended goes no further with more fuel. -/
theorem lineageUpTo_succ_of_top {fuel : Nat} {before : List JobRef} {last : JobRef}
    (walk : f.lineageUpTo fuel j = before ++ [last]) (top : f.parent last = none) :
    f.lineageUpTo (fuel + 1) j = f.lineageUpTo fuel j := by
  induction fuel generalizing j before with
  | zero =>
    have single : [j] = before ++ [last] := walk
    obtain ⟨-, rfl⟩ := List.append_singleton_inj.1 ((List.nil_append [j]).trans single)
    simp only [lineageUpTo, top]
  | succ fuel ih =>
    rw [lineageUpTo]
    rw [lineageUpTo] at walk ⊢
    split
    · next p parent =>
      rw [parent] at walk
      cases before with
      | nil =>
        -- The walk from the parent is not empty, so the job is not the last.
        have none : f.lineageUpTo fuel p = [] := by simpa using (List.cons.inj walk).2
        have first := f.mem_lineageUpTo_self fuel p
        rw [none] at first
        cases first
      | cons k before => rw [ih (List.cons.inj walk).2]
    · rfl

namespace Acyclic

variable (acyclic : f.Acyclic)
include acyclic

/-- **Walking up ends at a job without a parent.** -/
theorem lineage_ends (j : JobRef) :
    ∃ before, f.lineage j = before ++ [f.root j] ∧ f.parent (f.root j) = none := by
  obtain ⟨before, last, walk, ended⟩ := f.lineageUpTo_cases f.nodes.length j
  have isRoot : f.root j = last := by rw [root, lineage, walk, List.getLastD_concat]
  rw [isRoot]
  refine ⟨before, walk, ?_⟩
  rcases ended with top | ⟨length, here⟩
  · exact top
  · have nodup := nodup_lineageUpTo acyclic f.nodes.length j
    rw [walk] at nodup
    have short := length_le_of_nodup nodup here
    rw [List.length_append, length, List.length_singleton] at short
    omega

/-- **More fuel makes no difference** to walking up. -/
theorem lineageUpTo_add (j : JobRef) (more : Nat) :
    f.lineageUpTo (f.nodes.length + more) j = f.lineage j := by
  obtain ⟨before, walk, top⟩ := acyclic.lineage_ends j
  induction more with
  | zero => rfl
  | succ more ih => rw [← Nat.add_assoc, lineageUpTo_succ_of_top (ih.trans walk) top, ih]

end Acyclic

/-- The parent of a job that is met is met with one more step. -/
theorem parent_mem_lineageUpTo {fuel : Nat} (h : x ∈ f.lineageUpTo fuel j) (parent : f.Under x p) :
    p ∈ f.lineageUpTo (fuel + 1) j := by
  induction fuel generalizing j with
  | zero =>
    obtain rfl := List.mem_singleton.1 h
    rw [lineageUpTo, show f.parent x = some p from parent]
    exact List.mem_cons_of_mem _ (f.mem_lineageUpTo_self 0 p)
  | succ fuel ih =>
    rw [lineageUpTo] at h ⊢
    split at h
    · next q up =>
      rcases List.mem_cons.1 h with rfl | above
      · obtain rfl : q = p := Option.some.inj (up.symm.trans parent)
        exact List.mem_cons_of_mem _ (f.mem_lineageUpTo_self _ q)
      · exact List.mem_cons_of_mem _ (ih above)
    · next top =>
      obtain rfl := List.mem_singleton.1 h
      cases top.symm.trans parent

/-- **Walking up meets the job and all that it is below**, and nothing else. -/
theorem Acyclic.mem_lineage (acyclic : f.Acyclic) : x ∈ f.lineage j ↔ f.Within j x := by
  constructor
  · exact within_of_mem_lineageUpTo
  · intro within
    induction within with
    | refl => exact f.mem_lineageUpTo_self _ j
    | tail _ parent ih =>
      rw [← acyclic.lineageUpTo_add j 1]
      exact parent_mem_lineageUpTo ih parent

/-- A job without a parent is within its own tree only. -/
theorem eq_of_within_of_top (top : f.parent j = none) (h : f.Within j x) : x = j := by
  cases h.cases_head with
  | inl same => exact same.symm
  | inr up =>
    obtain ⟨p, parent, -⟩ := up
    cases top.symm.trans parent

/-- A job within the tree of another is below it. -/
theorem below_of_within (h : f.Within x y) (other : x ≠ y) : f.Below x y :=
  (Relation.reflTransGen_iff_eq_or_transGen.1 h).resolve_left fun same => other same.symm

/-- **Of two trees that a job is within one is within the other.** -/
theorem within_total (hx : f.Within j x) (hy : f.Within j y) : f.Within x y ∨ f.Within y x := by
  refine Relation.ReflTransGen.total_of_right_unique ?_ hx hy
  intro c p q first second
  exact Option.some.inj (first.symm.trans second)

/-- The tree of its root is the one that a job is within and that is below nothing. -/
theorem Acyclic.root_eq_iff (acyclic : f.Acyclic) :
    f.root j = x ↔ f.Within j x ∧ f.parent x = none := by
  obtain ⟨before, walk, top⟩ := acyclic.lineage_ends j
  have within : f.Within j (f.root j) :=
    acyclic.mem_lineage.1 (by rw [walk]; exact List.mem_append_right _ List.mem_cons_self)
  constructor
  · rintro rfl
    exact ⟨within, top⟩
  · rintro ⟨up, last⟩
    rcases within_total within up with higher | lower
    · exact (eq_of_within_of_top top higher).symm
    · exact eq_of_within_of_top last lower

/-- **An attachment is refused exactly if the job would come beneath itself.** -/
theorem Acyclic.attach_refused (acyclic : f.Acyclic) (p c : JobRef) :
    f.attach p c = .error (.cyclicDependency (f.name c)) ↔ f.Within p c := by
  rw [← acyclic.mem_lineage]
  generalize done : f.attach p c = answer
  cases done ▸ f.attaches p c with
  | refused beneath => exact iff_of_true rfl beneath
  | there apart | moved apart => exact iff_of_false nofun apart

/-! ## Walking down -/

/-- **Where the walk down from a job is**: what it has seen and what it has still
to look at are different jobs, all of them below the start, and a job is among
them exactly if its parent is the start or has been seen. -/
structure Descent (f : Forest) (j : JobRef) (seen todo : List JobRef) : Prop where
  nodup : (seen ++ todo).Nodup
  below : ∀ x ∈ seen ++ todo, f.Below x j
  met : ∀ x, x ∈ seen ++ todo ↔ ∃ p ∈ j :: seen, f.Under x p

namespace Descent

variable {seen todo : List JobRef} {k : JobRef}

theorem start (linked : f.Linked) (j : JobRef) : f.Descent j [] (f.children j) where
  nodup := linked.nodup_children j
  below x child := .single ((linked.mem_children j x).1 child)
  met x := by
    rw [List.nil_append, linked.mem_children, List.exists_mem_cons_iff]
    simp [Under]

/-- In which order they are looked at makes no difference. -/
theorem perm (h : f.Descent j seen todo) {todo' : List JobRef} (order : todo.Perm todo') :
    f.Descent j seen todo' where
  nodup := (order.append_left seen).nodup_iff.1 h.nodup
  below x hx := h.below x ((order.append_left seen).mem_iff.2 hx)
  met x := (order.append_left seen).mem_iff.symm.trans (h.met x)

/-- There are nodes for all that has been seen and is to be looked at. -/
theorem length_le (h : f.Descent j seen todo) : seen.length + todo.length ≤ f.nodes.length := by
  rw [← List.length_append]
  refine length_le_of_nodup h.nodup fun x hx => ?_
  obtain ⟨p, -, parent⟩ := (h.met x).1 hx
  exact has_of_parent parent

/-- **The next job is looked at**, and its children are to be looked at after it. -/
theorem next (linked : f.Linked) (acyclic : f.Acyclic) (h : f.Descent j seen (k :: todo)) :
    f.Descent j (k :: seen) (f.children k ++ todo) := by
  have shuffle : (k :: seen ++ (f.children k ++ todo)).Perm
      (f.children k ++ (seen ++ k :: todo)) := by
    refine .trans ?_ (List.perm_append_comm_assoc _ _ _)
    rw [List.cons_append]
    refine .trans ?_ (List.Perm.append_left seen List.perm_middle.symm)
    exact List.perm_middle.symm
  have here : k ∈ seen ++ k :: todo := List.mem_append_right _ List.mem_cons_self
  have below := h.below k here
  have unseen : k ∉ j :: seen := by
    intro old
    rcases List.mem_cons.1 old with rfl | old
    · exact acyclic k below
    · exact (List.nodup_append.1 h.nodup).2.2 k old k List.mem_cons_self rfl
  constructor
  case nodup =>
    refine shuffle.nodup_iff.2 (List.nodup_append.2 ⟨linked.nodup_children k, h.nodup, ?_⟩)
    rintro x child y old rfl
    -- A child of the job that was met already would have another parent.
    obtain ⟨p, seen, parent⟩ := (h.met x).1 old
    obtain rfl : k = p :=
      Option.some.inj (((linked.mem_children k x).1 child).symm.trans parent)
    exact unseen seen
  case below =>
    intro x hx
    rcases List.mem_append.1 (shuffle.mem_iff.1 hx) with child | old
    · exact .head ((linked.mem_children k x).1 child) below
    · exact h.below x old
  case met =>
    intro x
    rw [shuffle.mem_iff, List.mem_append, h.met, linked.mem_children]
    simp only [List.exists_mem_cons_iff]
    exact or_left_comm

/-- Nothing to look at is left only when all jobs below the start have been seen. -/
theorem mem_seen (h : f.Descent j seen []) : x ∈ seen ↔ f.Below x j := by
  rw [← List.append_nil seen]
  constructor
  · exact h.below x
  · intro below
    induction below using Relation.TransGen.head_induction_on with
    | single parent => exact (h.met _).2 ⟨j, List.mem_cons_self, parent⟩
    | head parent _ ih =>
      rw [List.append_nil] at ih
      exact (h.met _).2 ⟨_, List.mem_cons_of_mem _ ih, parent⟩

/-- A walk that has nothing left to look at has counted what is below its start. -/
theorem spent (h : f.Descent j seen []) :
    ∃ below : List JobRef, below.Nodup ∧ (∀ x, x ∈ below ↔ f.Below x j) ∧
      seen.length + 0 = below.length :=
  ⟨seen, List.append_nil seen ▸ h.nodup, fun _ => h.mem_seen, rfl⟩

/-- **With fuel for the jobs not yet seen the walk counts all jobs below its
start.** -/
theorem count (linked : f.Linked) (acyclic : f.Acyclic) {fuel : Nat} (h : f.Descent j seen todo)
    (enough : f.nodes.length ≤ seen.length + fuel) :
    ∃ below : List JobRef, below.Nodup ∧ (∀ x, x ∈ below ↔ f.Below x j) ∧
      seen.length + f.countFrom fuel todo = below.length := by
  induction fuel generalizing seen todo with
  | zero =>
    have short := h.length_le
    obtain rfl : todo = [] := List.length_eq_zero_iff.1 (by omega)
    exact h.spent
  | succ fuel ih =>
    cases todo with
    | nil => exact h.spent
    | cons k rest =>
      have enough' : f.nodes.length ≤ (k :: seen).length + fuel := by
        rw [List.length_cons]
        omega
      obtain ⟨below, nodup, all, total⟩ := ih (h.next linked acyclic) enough'
      refine ⟨below, nodup, all, ?_⟩
      rw [← total, countFrom, List.length_cons]
      omega

end Descent

/-- **The number of descendants is the number of jobs below**, and more fuel makes
no difference to it. -/
theorem Acyclic.descendantCount (acyclic : f.Acyclic) (linked : f.Linked) (j : JobRef) :
    ∃ below : List JobRef, below.Nodup ∧ (∀ x, x ∈ below ↔ f.Below x j) ∧
      f.descendantCount j = below.length ∧
      ∀ more, f.countFrom (f.nodes.length + more) (f.children j) = f.descendantCount j := by
  have counts (more : Nat) := (Descent.start linked j).count linked acyclic
    (show f.nodes.length ≤ ([] : List JobRef).length + (f.nodes.length + more) by simp)
  obtain ⟨below, nodup, all, total⟩ := counts 0
  rw [List.length_nil, Nat.zero_add] at total
  refine ⟨below, nodup, all, total, ?_⟩
  intro more
  obtain ⟨below', nodup', all', total'⟩ := counts more
  rw [List.length_nil, Nat.zero_add] at total'
  have same := length_eq_of_nodup nodup' nodup fun x => (all' x).trans (all x).symm
  exact total'.trans (same.trans total.symm)

/-- The tree of a job is the job and what is below it. -/
theorem Acyclic.exists_tree (acyclic : f.Acyclic) (linked : f.Linked) (x : JobRef) :
    ∃ tree : List JobRef, tree.Nodup ∧ (∀ j, j ∈ tree ↔ f.Within j x) ∧
      tree.length = 1 + f.descendantCount x := by
  obtain ⟨below, nodup, all, count, -⟩ := acyclic.descendantCount linked x
  refine ⟨x :: below, List.nodup_cons.2 ⟨?_, nodup⟩, ?_, ?_⟩
  · rw [all]
    exact acyclic x
  · intro j
    rw [List.mem_cons, all, Within, Relation.reflTransGen_iff_eq_or_transGen, eq_comm]
    rfl
  · rw [List.length_cons, count, Nat.add_comm]

/-! ## Every change -/

/-- Links that are taken away close no cycle. -/
theorem Acyclic.mono (acyclic : f.Acyclic) (fewer : ∀ c p, f'.Under c p → f.Under c p) :
    f'.Acyclic := by
  intro j cycle
  exact acyclic j (Relation.TransGen.mono fewer j j cycle)

/-- **A way up that is new leads through the new link.** -/
theorem below_link (here : f.has c = true) {a b : JobRef} (h : (f.link p c).Below a b) :
    f.Below a b ∨ f.Within a c ∧ f.Within p b := by
  have link {a b : JobRef} (h : (f.link p c).Under a b) : f.Under a b ∨ a = c ∧ b = p := by
    rw [Under, parent_link here] at h
    split at h
    · next same => exact .inr ⟨same, (Option.some.inj h).symm⟩
    · exact .inl h
  induction h with
  | single last =>
    rcases link last with old | ⟨rfl, rfl⟩
    · exact .inl (.single old)
    · exact .inr ⟨.refl, .refl⟩
  | tail _ last ih =>
    rcases link last with old | ⟨rfl, rfl⟩
    · rcases ih with before | ⟨low, high⟩
      · exact .inl (before.tail old)
      · exact .inr ⟨low, high.tail old⟩
    · rcases ih with before | ⟨low, -⟩
      · exact .inr ⟨before.to_reflTransGen, .refl⟩
      · exact .inr ⟨low, .refl⟩

theorem Acyclic.link (acyclic : f.Acyclic) (here : f.has c = true) (apart : ¬ f.Within p c) :
    (f.link p c).Acyclic := by
  intro j cycle
  rcases below_link here cycle with old | ⟨low, high⟩
  · exact acyclic j old
  · exact apart (high.trans low)

theorem under_of_sweep {roots : List JobRef} {a b : JobRef} (h : (f.sweep roots).Under a b) :
    f.Under a b := by
  rw [Under, parent_sweep] at h
  split at h
  · exact (Option.filter_eq_some_iff.1 h).1
  · cases h

theorem Acyclic.attach (acyclic : f.Acyclic) {added : Bool} (here : f.has c = true)
    (done : f.attach p c = .ok (added, f')) : f'.Acyclic := by
  cases done ▸ f.attaches p c with
  | there => exact acyclic
  | moved apart =>
    rw [acyclic.mem_lineage] at apart
    have left : (f.taken c).Acyclic := acyclic.mono fun a b => parent_of_parent_taken
    apply left.link
    · rwa [has_taken]
    · intro within
      exact apart (Relation.ReflTransGen.mono (fun a b => parent_of_parent_taken) p c within)

theorem Change.acyclic {may : JobRef → JobRef → Prop} (h : Forest.Change may f f')
    (acyclic : f.Acyclic) : f'.Acyclic := by
  cases h with
  | same => exact acyclic
  | created name =>
    apply acyclic.mono
    intro c p parent
    rwa [Under, parent_create] at parent
  | attached _ _ hc done => exact acyclic.attach hc done
  | erased p c => exact acyclic.mono fun a b => parent_of_parent_erase

end FrameLoop.Forest

namespace FrameLoop.World

theorem acyclic_step {w : World} (acyclic : w.forest.Acyclic) (e : Event) :
    (w.step e).2.forest.Acyclic := by
  by_cases sweeps : ∃ held, e = .sweep held
  · obtain ⟨held, rfl⟩ := sweeps
    exact acyclic.mono fun a b => Forest.under_of_sweep
  · exact (w.forest_step fun held same => sweeps ⟨held, same⟩).acyclic acyclic

/-- **After every run no job is below itself.** -/
theorem acyclic_run (es : List Event) : (run es).forest.Acyclic := by
  apply run_keeps (P := fun w => w.forest.Acyclic)
  · intro j cycle
    obtain ⟨p, parent, -⟩ := Relation.TransGen.head'_iff.1 cycle
    cases parent
  · intro w e acyclic
    exact acyclic_step acyclic e

end FrameLoop.World

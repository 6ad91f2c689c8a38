import FrameLoop.Forest
import Mathlib.Data.List.Basic

/-!
# Links both ways

A forest keeps each link twice, with the parent and with the child. This module
says how every operation reads afterwards (`children_erase`, `parent_link` and
so on, one equation each; `attaches` for the one that can be refused) and draws
the first law from it: the two directions always agree, no child list names a
job twice, and numbers are not given out again (`Forest.Linked`).
-/

namespace FrameLoop.Forest

variable {f : Forest}

/-! ## Looking after a change -/

theorem job_of_node? {j : JobRef} {n : Node} (h : f.node? j = some n) : n.job = j := by
  simpa using List.find?_some h

/-- A job that is gone has no parent. -/
theorem parent_of_not_has {j : JobRef} (h : f.has j = false) : f.parent j = none := by
  have gone : f.node? j = none := by simpa [has] using h
  rw [parent, gone]
  rfl

/-- A job that is gone has no children. -/
theorem children_of_not_has {j : JobRef} (h : f.has j = false) : f.children j = [] := by
  have gone : f.node? j = none := by simpa [has] using h
  rw [children, gone]
  rfl

/-- A change of one job is seen at that job only. -/
theorem node?_update (j : JobRef) {g : Node → Node} (same : ∀ n, (g n).job = n.job) (k : JobRef) :
    (f.update j g).node? k = if k = j then (f.node? k).map g else f.node? k := by
  have keeps : ((fun n : Node => n.job == k) ∘ fun n => if n.job = j then g n else n) =
      fun n => n.job == k := by
    funext n
    by_cases h : n.job = j <;> simp [h, same]
  simp only [node?, update, List.find?_map, keeps]
  cases found : f.nodes.find? (·.job == k) with
  | none => simp
  | some n =>
    have job : n.job = k := job_of_node? found
    by_cases h : k = j <;> simp [job, h]

theorem has_update (j : JobRef) {g : Node → Node} (same : ∀ n, (g n).job = n.job) (k : JobRef) :
    (f.update j g).has k = f.has k := by
  rw [has, node?_update j same]
  split <;> simp [has]

/-- The children after the child list of one job has changed. -/
theorem children_update_children (j : JobRef) (g : List JobRef → List JobRef) (k : JobRef) :
    (f.update j fun n => { n with children := g n.children }).children k =
      if k = j ∧ f.has j = true then g (f.children j) else f.children k := by
  rw [children, node?_update j (by intro n; rfl)]
  by_cases here : k = j
  · subst here
    rw [if_pos rfl]
    cases found : f.node? k <;> simp [children, has, found]
  · simp [here, children]

/-- The children do not depend on the parents kept. -/
@[simp] theorem children_update_parent (j : JobRef) (p : Option JobRef) (k : JobRef) :
    (f.update j fun n => { n with parent := p }).children k = f.children k := by
  rw [children, node?_update j (by intro n; rfl)]
  split
  · cases found : f.node? k <;> simp [children, found]
  · rfl

/-- The parents after the parent kept of one job has changed. -/
theorem parent_update_parent (j : JobRef) (p : Option JobRef) (k : JobRef) :
    (f.update j fun n => { n with parent := p }).parent k =
      if k = j ∧ f.has j = true then p else f.parent k := by
  rw [parent, node?_update j (by intro n; rfl)]
  by_cases here : k = j
  · subst here
    rw [if_pos rfl]
    cases found : f.node? k <;> simp [parent, has, found]
  · simp [here, parent]

/-- The parents do not depend on the child lists. -/
@[simp] theorem parent_update_children (j : JobRef) (g : List JobRef → List JobRef) (k : JobRef) :
    (f.update j fun n => { n with children := g n.children }).parent k = f.parent k := by
  rw [parent, node?_update j (by intro n; rfl)]
  split
  · cases found : f.node? k <;> simp [parent, found]
  · rfl

/-- A job that has a child is there. -/
theorem has_of_mem_children {p c : JobRef} (h : c ∈ f.children p) : f.has p = true := by
  by_contra gone
  rw [children_of_not_has (Bool.not_eq_true _ ▸ gone)] at h
  cases h

/-- A job that has a parent is there. -/
theorem has_of_parent {p c : JobRef} (h : f.parent c = some p) : f.has c = true := by
  by_contra gone
  rw [parent_of_not_has (Bool.not_eq_true _ ▸ gone)] at h
  cases h

/-! ### Detaching -/

/-- A list that does not name a job is not changed by leaving it out. -/
theorem filter_of_not_mem {c : JobRef} {jobs : List JobRef} (absent : c ∉ jobs) :
    jobs.filter (· != c) = jobs := by
  rw [List.filter_eq_self]
  rintro x hx
  rw [bne_iff_ne]
  rintro rfl
  exact absent hx

/-- A child that is erased is in the list of its parent no more. -/
theorem children_erase (p c q : JobRef) :
    (f.erase p c).2.children q =
      if q = p then (f.children p).filter (· != c) else f.children q := by
  unfold erase
  split
  · next child =>
    dsimp only
    rw [children_update_parent, children_update_children p (·.filter (· != c))]
    simp only [has_of_mem_children child, and_true]
  · next absent =>
    split
    · next same => rw [same, filter_of_not_mem absent]
    · rfl

/-- A child that is erased has no parent. -/
theorem parent_erase {p c : JobRef} (here : f.has c = true) (k : JobRef) :
    (f.erase p c).2.parent k = if k = c ∧ c ∈ f.children p then none else f.parent k := by
  unfold erase
  split
  · next child =>
    dsimp only
    rw [parent_update_parent, has_update p (by intro n; rfl),
      parent_update_children p (·.filter (· != c))]
    simp only [here, child, and_true]
  · next absent => simp [absent]

@[simp] theorem has_erase (p c k : JobRef) : (f.erase p c).2.has k = f.has k := by
  unfold erase
  split
  · dsimp only
    rw [has_update c (by intro n; rfl), has_update p (by intro n; rfl)]
  · rfl

@[simp] theorem next_erase (p c : JobRef) : (f.erase p c).2.next = f.next := by
  unfold erase
  split <;> rfl

/-- Erasing gives no job a parent. -/
theorem parent_of_parent_erase {p c k q : JobRef} (h : (f.erase p c).2.parent k = some q) :
    f.parent k = some q := by
  unfold erase at h
  split at h
  · rw [parent_update_parent, parent_update_children p (·.filter (· != c))] at h
    split at h
    · cases h
    · exact h
  · exact h

/-! ### Linking -/

/-- A new child is the last of its parent's. -/
theorem children_link {p : JobRef} (here : f.has p = true) (c q : JobRef) :
    (f.link p c).children q = if q = p then f.children p ++ [c] else f.children q := by
  unfold link
  rw [children_update_children p (· ++ [c]), has_update c (by intro n; rfl),
    children_update_parent, children_update_parent]
  simp only [here, and_true]

/-- A new child has a new parent. -/
theorem parent_link {c : JobRef} (here : f.has c = true) (p k : JobRef) :
    (f.link p c).parent k = if k = c then some p else f.parent k := by
  unfold link
  rw [parent_update_children p (· ++ [c]), parent_update_parent]
  simp only [here, and_true]

@[simp] theorem has_link (p c k : JobRef) : (f.link p c).has k = f.has k := by
  unfold link
  rw [has_update p (by intro n; rfl), has_update c (by intro n; rfl)]

/-! ### Creating -/

theorem node?_create (name : String) (k : JobRef) :
    (f.create name).2.node? k =
      (f.node? k).or (if k = f.next then some { job := f.next, name } else none) := by
  by_cases same : k = f.next
  · simp [node?, create, List.find?_append, same]
  · have other : (f.next == k) = false := by simpa using fun h : f.next = k => same h.symm
    simp [node?, create, List.find?_append, same, other]

@[simp] theorem children_create (name : String) (k : JobRef) :
    (f.create name).2.children k = f.children k := by
  rw [children, node?_create, children]
  cases f.node? k <;> by_cases same : k = f.next <;> simp [same]

@[simp] theorem parent_create (name : String) (k : JobRef) :
    (f.create name).2.parent k = f.parent k := by
  rw [parent, node?_create, parent]
  cases f.node? k <;> by_cases same : k = f.next <;> simp [same]

theorem has_create (name : String) (k : JobRef) :
    (f.create name).2.has k = (f.has k || decide (k = f.next)) := by
  rw [has, node?_create, has]
  cases f.node? k <;> by_cases same : k = f.next <;> simp [same]

/-! ## Both ways -/

/-- **The two directions of the links agree.** -/
structure Linked (f : Forest) : Prop where
  /-- A number that has been given out is not the next. -/
  below : ∀ j, f.has j = true → j < f.next
  mem_children : ∀ p c, c ∈ f.children p ↔ f.parent c = some p
  nodup_children : ∀ p, (f.children p).Nodup

/-- A child is there. -/
theorem Linked.has_child (h : f.Linked) {p c : JobRef} (child : c ∈ f.children p) :
    f.has c = true :=
  has_of_parent ((h.mem_children p c).1 child)

theorem linked_empty : Linked {} where
  below := by simp [has, node?]
  mem_children := by simp [children, parent, node?]
  nodup_children := by simp [children, node?]

theorem Linked.create (h : f.Linked) (name : String) : (f.create name).2.Linked where
  below j here := by
    show j < f.next + 1
    rw [has_create, Bool.or_eq_true, decide_eq_true_eq] at here
    obtain old | rfl := here
    · exact Nat.lt_succ_of_lt (h.below j old)
    · exact Nat.lt_succ_self _
  mem_children p c := by simpa using h.mem_children p c
  nodup_children p := by simpa using h.nodup_children p

theorem Linked.erase (h : f.Linked) (p c : JobRef) : (f.erase p c).2.Linked := by
  by_cases child : c ∈ f.children p
  · have parent := (h.mem_children p c).1 child
    have here := has_of_parent parent
    constructor
    · intro j
      rw [has_erase, next_erase]
      exact h.below j
    · intro q x
      rw [children_erase, parent_erase here]
      by_cases hq : q = p <;> by_cases hx : x = c <;> simp [hq, hx, child, h.mem_children, parent]
      exact fun same => hq same.symm
    · intro q
      rw [children_erase]
      split
      · exact (h.nodup_children p).filter _
      · exact h.nodup_children q
  · have same : (f.erase p c).2 = f := by rw [Forest.erase, if_neg child]
    rwa [same]

/-- A job without a parent may be linked. -/
theorem Linked.link (h : f.Linked) {p c : JobRef} (hp : f.has p = true) (hc : f.has c = true)
    (free : f.parent c = none) : (f.link p c).Linked where
  below j := by
    rw [has_link]
    exact h.below j
  mem_children q x := by
    rw [children_link hp, parent_link hc]
    by_cases hq : q = p <;> by_cases hx : x = c <;> simp [hq, hx, h.mem_children, free]
    exact fun same => hq same.symm
  nodup_children q := by
    rw [children_link hp]
    split
    · refine List.nodup_append.2 ⟨h.nodup_children p, by simp, ?_⟩
      rintro x old y new rfl
      obtain rfl := List.mem_singleton.1 new
      rw [h.mem_children, free] at old
      cases old
    · exact h.nodup_children q

/-! ### Attaching -/

/-- The forest with a job taken from its parent, if it has one. -/
def taken (f : Forest) (c : JobRef) : Forest :=
  match f.parent c with
  | some q => (f.erase q c).2
  | none => f

@[simp] theorem has_taken (c k : JobRef) : (f.taken c).has k = f.has k := by
  unfold taken
  split
  · exact has_erase _ c k
  · rfl

@[simp] theorem next_taken (c : JobRef) : (f.taken c).next = f.next := by
  unfold taken
  split
  · exact next_erase _ c
  · rfl

/-- Taking a job from its parent gives no job a parent. -/
theorem parent_of_parent_taken {c k q : JobRef} (h : (f.taken c).parent k = some q) :
    f.parent k = some q := by
  unfold taken at h
  split at h
  · exact parent_of_parent_erase h
  · exact h

/-- **What an attachment comes to**: it is refused, the job is there already, or it is taken
from where it was and linked. -/
inductive Attaches (f : Forest) (p c : JobRef) : Except SchedulerError (Bool × Forest) → Prop where
  | refused (beneath : c ∈ f.lineage p) : Attaches f p c (.error (.cyclicDependency (f.name c)))
  | there (apart : c ∉ f.lineage p) (child : f.parent c = some p) : Attaches f p c (.ok (false, f))
  | moved (apart : c ∉ f.lineage p) (new : f.parent c ≠ some p) :
    Attaches f p c (.ok (true, (f.taken c).link p c))

theorem attaches (f : Forest) (p c : JobRef) : f.Attaches p c (f.attach p c) := by
  unfold attach
  split
  · next beneath => exact .refused beneath
  · next apart =>
    split
    · next q parent =>
      have left : f.taken c = (f.erase q c).2 := by simp only [taken, parent]
      split
      · next here => exact .there apart (here ▸ parent)
      · next other =>
        exact left ▸ .moved apart fun here => other (Option.some.inj (parent.symm.trans here))
    · next free =>
      have moved : f.Attaches p c _ := .moved apart (free ▸ nofun)
      rwa [show f.taken c = f by simp only [taken, free]] at moved

namespace Linked

variable (h : f.Linked) {c : JobRef}
include h

theorem taken : (f.taken c).Linked := by
  unfold Forest.taken
  split
  · exact h.erase _ c
  · exact h

/-- A job that has been taken from its parent has none, and no other job has lost its own. -/
theorem parent_taken (k : JobRef) :
    (f.taken c).parent k = if k = c then none else f.parent k := by
  unfold Forest.taken
  split
  · next q parent =>
    rw [parent_erase (has_of_parent parent)]
    simp only [(h.mem_children q c).2 parent, and_true]
  · next free =>
    split
    · next same => rwa [same]
    · rfl

/-- And it is missing from every child list, which is otherwise as it was. -/
theorem children_taken (k : JobRef) :
    (f.taken c).children k = (f.children k).filter (· != c) := by
  unfold Forest.taken
  split
  · next q parent =>
    rw [children_erase]
    split
    · next same => rw [same]
    · next other =>
      refine (filter_of_not_mem fun child => other ?_).symm
      exact Option.some.inj (((h.mem_children k c).1 child).symm.trans parent)
  · next free =>
    refine (filter_of_not_mem fun child => ?_).symm
    cases free.symm.trans ((h.mem_children k c).1 child)

/-- The one link upwards that a move changes is that of the job. -/
theorem parent_moved (hc : f.has c = true) (p k : JobRef) :
    ((f.taken c).link p c).parent k = if k = c then some p else f.parent k := by
  rw [parent_link (by rwa [has_taken]), h.parent_taken]
  split <;> rfl

/-- A job that is moved is the last of its new parent's children, and no other's. -/
theorem children_moved {p : JobRef} (hp : f.has p = true) (new : f.parent c ≠ some p)
    (k : JobRef) : ((f.taken c).link p c).children k =
      if k = p then f.children p ++ [c] else (f.children k).filter (· != c) := by
  have absent : c ∉ f.children p := fun child => new ((h.mem_children p c).1 child)
  rw [children_link (by rwa [has_taken]), h.children_taken, h.children_taken,
    filter_of_not_mem absent]

theorem attach {f' : Forest} {p : JobRef} {added : Bool} (hp : f.has p = true)
    (hc : f.has c = true) (done : f.attach p c = .ok (added, f')) : f'.Linked := by
  cases done ▸ f.attaches p c with
  | there => exact h
  | moved =>
    refine h.taken.link (by simpa using hp) (by simpa using hc) ?_
    rw [h.parent_taken, if_pos rfl]

end Linked

end FrameLoop.Forest

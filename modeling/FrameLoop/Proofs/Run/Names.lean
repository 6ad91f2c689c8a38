import FrameLoop.Proofs.Run.Held

/-!
# A job keeps its name

A job has the name it was made with. Links are changed and jobs are let go, and whoever is
there before and after has the same name (`World.name_step`).
-/

namespace FrameLoop

namespace Forest

variable {f f' : Forest} {j : JobRef}

/-- A change that keeps number and name of a job keeps all names. -/
theorem name_update (k : JobRef) {g : Node → Node} (job : ∀ n, (g n).job = n.job)
    (name : ∀ n, (g n).name = n.name) (j : JobRef) : (f.update k g).name j = f.name j := by
  rw [Forest.name, node?_update k job, Forest.name]
  split
  · rw [Option.map_map]
    congr 2
    funext n
    exact name n
  · rfl

@[simp] theorem name_erase (p c j : JobRef) : (f.erase p c).2.name j = f.name j := by
  unfold erase
  split
  · rw [name_update c (by intro n; rfl) (by intro n; rfl),
      name_update p (by intro n; rfl) (by intro n; rfl)]
  · rfl

@[simp] theorem name_taken (c j : JobRef) : (f.taken c).name j = f.name j := by
  unfold taken
  split
  · exact name_erase _ c j
  · rfl

@[simp] theorem name_link (p c j : JobRef) : (f.link p c).name j = f.name j := by
  rw [link, name_update p (by intro n; rfl) (by intro n; rfl),
    name_update c (by intro n; rfl) (by intro n; rfl)]

theorem name_create (here : f.has j = true) (name : String) :
    (f.create name).2.name j = f.name j := by
  obtain ⟨n, found⟩ := Option.isSome_iff_exists.1 here
  rw [Forest.name, node?_create, found, Option.some_or, Forest.name, found]

theorem name_sweep {roots : List JobRef} (kept : (f.sweep roots).has j = true) :
    (f.sweep roots).name j = f.name j := by
  rw [has_sweep, Bool.and_eq_true, decide_eq_true_eq] at kept
  rw [Forest.name, node?_sweep, if_pos kept.1, Option.map_map, Forest.name]
  rfl

/-- **No change of the links changes a name.** -/
theorem Change.name {may : JobRef → JobRef → Prop} (h : Forest.Change may f f')
    (here : f.has j = true) : f'.name j = f.name j := by
  cases h with
  | same => rfl
  | created name => exact name_create here name
  | erased p c => exact name_erase p c j
  | @attached _ p c _ _ _ _ done =>
    cases done ▸ f.attaches p c with
    | there => rfl
    | moved => rw [name_link, name_taken]

end Forest

/-- **Whoever is there before and after an event has the same name.** -/
theorem World.name_step {w : World} {e : Event} {j : JobRef} (before : w.forest.has j = true)
    (after : (w.step e).2.forest.has j = true) :
    (w.step e).2.forest.name j = w.forest.name j := by
  by_cases sweeps : ∃ held, e = .sweep held
  · obtain ⟨held, rfl⟩ := sweeps
    exact Forest.name_sweep after
  · exact (w.forest_step fun held same => sweeps ⟨held, same⟩).name before

end FrameLoop

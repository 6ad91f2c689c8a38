import FrameLoop.Proofs.Journal.Order

/-!
# What a tick does to the places of jobs

A job has its place beneath its parent or in a registry. Anybody may change
that at any time; a driver does it in one case only, when a step asks to leave.
This module says what it does then (`detach_leaves`), and that it takes the
place of no other job (`keeps_place`).
-/

namespace FrameLoop

namespace Scheduler

/-- **Only a job that detaches leaves the registry.** -/
theorem mem_registry_depart {s : Scheduler} (f : Forest) {j x : JobRef} (v : Verdict)
    (h : x ∈ s.registry) :
    x ∈ (s.depart f j v).1.registry ∨ x = j ∧ v = .outcome .detach := by
  unfold depart
  split
  · by_cases same : x = j
    · exact .inr ⟨same, rfl⟩
    · unfold remove
      split
      · exact .inl h
      · unfold unregister
        split
        · exact .inl ((List.mem_erase_of_ne same).2 h)
        · exact .inl h
  · exact .inl h
  · exact .inl h
  · exact .inl h
  · exact .inl h

/-- **What is left in the registry** when a job is taken from where it is. -/
theorem registry_remove (s : Scheduler) (f : Forest) (j : JobRef) :
    (s.remove f j).2.1.registry =
      if f.parent j = none then s.registry.erase j else s.registry := by
  unfold remove
  cases parent : f.parent j with
  | some p => rw [if_neg (Option.some_ne_none p)]
  | none =>
    rw [if_pos rfl]
    dsimp only
    unfold unregister
    split
    · rfl
    · next absent => exact (List.erase_of_not_mem absent).symm

/-- What is left in the registry when a job leaves. -/
theorem registry_depart_detach (s : Scheduler) (f : Forest) (j : JobRef) :
    (s.depart f j (.outcome .detach)).1.registry =
      if f.parent j = none then s.registry.erase j else s.registry :=
  s.registry_remove f j

/-- **Only a job that detaches leaves its parent.** -/
theorem mem_children_depart (s : Scheduler) {f : Forest} {j x p : JobRef} (v : Verdict)
    (h : x ∈ f.children p) :
    x ∈ (s.depart f j v).2.children p ∨ x = j ∧ v = .outcome .detach := by
  unfold depart
  split
  · by_cases same : x = j
    · exact .inr ⟨same, rfl⟩
    · unfold remove
      split
      · refine .inl ?_
        rw [Forest.children_erase]
        split
        · next here => exact List.mem_filter.2 ⟨here ▸ h, by simpa using same⟩
        · exact h
      · exact .inl h
  · exact .inl h
  · exact .inl h
  · exact .inl h
  · exact .inl h

/-- **A job that detaches leaves its parent, or the registry if it has none.** -/
theorem depart_detach {s : Scheduler} {f : Forest} (linked : f.Linked) (nodup : s.registry.Nodup)
    (j : JobRef) :
    (s.depart f j (.outcome .detach)).2.parent j = none ∧
      (∀ q, j ∉ (s.depart f j (.outcome .detach)).2.children q) ∧
      (f.parent j = none → j ∉ (s.depart f j (.outcome .detach)).1.registry) := by
  cases place : f.parent j with
  | some p =>
    have left : s.depart f j (.outcome .detach) = (s, (f.erase p j).2) := by
      simp only [depart, remove, place]
    have child : j ∈ f.children p := (linked.mem_children p j).2 place
    have gone : (f.erase p j).2.parent j = none := by
      rw [Forest.parent_erase (Forest.has_of_parent place), if_pos ⟨rfl, child⟩]
    rw [left]
    refine ⟨gone, ?_, ?_⟩
    · intro q still
      rw [((linked.erase p j).mem_children q j).1 still] at gone
      cases gone
    · intro none
      cases none
  | none =>
    have left : s.depart f j (.outcome .detach) = ((s.unregister j).2, f) := by
      simp only [depart, remove, place]
    rw [left]
    refine ⟨place, ?_, ?_⟩
    · intro q still
      rw [(linked.mem_children q j).1 still] at place
      cases place
    · intro _
      unfold unregister
      split
      · intro still
        exact (nodup.mem_erase_iff.1 still).1 rfl
      · next absent => exact absent

end Scheduler

namespace World

variable {w : World} {r : SchedulerRef} {J : Journal}

/-! ## One event -/

/-- A driver that looks up takes no job from its place. -/
theorem places_poll (w : World) (r : SchedulerRef) :
    ((w.step (.poll r)).2.scheduler r).registry = (w.scheduler r).registry ∧
      (w.step (.poll r)).2.forest = w.forest := by
  obtain ⟨-, unmoved⟩ | ⟨-, step, next⟩ | ⟨j, v, same, -⟩ := w.step_cases (.poll r) r
  · rw [(unmoved (by simp [Event.drives])).2]
    exact ⟨rfl, rfl⟩
  · rw [step, next, registry_lookUp, forest_poll]
    exact ⟨rfl, rfl⟩
  · cases same

/-- A step that is out returns, and its job leaves if it is to. -/
theorem places_returned (agrees : (w.scheduler r).Agrees J) {j : JobRef} (out : j ∈ J.out)
    (v : Verdict) :
    ((w.step (.returned r j v)).2.scheduler r).registry =
        ((w.scheduler r).depart w.forest j v).1.registry ∧
      (w.step (.returned r j v)).2.forest = ((w.scheduler r).depart w.forest j v).2 := by
  obtain ⟨loop, k, -, -, driver, pending, -, -⟩ := agrees.ticking_of_out out
  have active : (w.scheduler r).driver.isActive = true := by rw [driver]; rfl
  rw [step_of_out agrees out, scheduler_returned j v (length_of_active active), forest_returned,
    settle]
  refine ⟨Scheduler.registry_returned_of_pending driver pending w.forest v w.clock, ?_⟩
  rw [Scheduler.returned_of_pending driver pending]

/-- **A job that asks to leave has left**, whatever else has happened in its
tick. -/
theorem detach_leaves (r : SchedulerRef) (pre : List Event) {j : JobRef}
    (out : j ∈ (journal r pre).out) :
    (run (pre ++ [.returned r j (.outcome .detach)])).forest.parent j = none ∧
      (∀ q, j ∉ (run (pre ++ [.returned r j (.outcome .detach)])).forest.children q) ∧
      ((run pre).forest.parent j = none →
        j ∉ ((run (pre ++ [.returned r j (.outcome .detach)])).scheduler r).registry) := by
  have held := held_run pre
  obtain ⟨registry, forest⟩ := places_returned (agrees_run pre r) out (.outcome .detach)
  rw [run_concat, registry, forest]
  exact Scheduler.depart_detach held.linked (held.nodup r) j

/-- **A driver takes no job from its place** but one whose step asks to leave. -/
theorem keeps_place (agrees : (w.scheduler r).Agrees J) {e : Event} (driven : e.drives r = true)
    {j : JobRef} (stays : ¬ (e = .returned r j (.outcome .detach) ∧ j ∈ J.out)) :
    (j ∈ (w.scheduler r).registry → j ∈ ((w.step e).2.scheduler r).registry) ∧
      ∀ p, j ∈ w.forest.children p → j ∈ (w.step e).2.forest.children p := by
  obtain ⟨quiet, unmoved⟩ | ⟨rfl, step, next⟩ | ⟨k, v, rfl, step, next⟩ := w.step_cases e r
  · rw [(unmoved driven).2]
    exact ⟨id, fun p => id⟩
  · rw [step, next, registry_lookUp, forest_poll]
    exact ⟨id, fun p => id⟩
  · by_cases out : k ∈ J.out
    · obtain ⟨registry, forest⟩ := places_returned agrees out v
      rw [registry, forest]
      have other : ¬ (j = k ∧ v = .outcome .detach) := by
        rintro ⟨rfl, rfl⟩
        exact stays ⟨rfl, out⟩
      exact ⟨fun h => (Scheduler.mem_registry_depart w.forest v h).resolve_right other,
        fun p h => ((w.scheduler r).mem_children_depart v h).resolve_right other⟩
    · rw [step, next, forest_returned, settle,
        Scheduler.returned_of_not_pending (agrees.not_pending out)]
      exact ⟨id, fun p => id⟩

end World

end FrameLoop

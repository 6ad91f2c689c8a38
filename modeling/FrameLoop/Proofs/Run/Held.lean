import FrameLoop.Proofs.Driver
import FrameLoop.Proofs.Forest.Sweep

/-!
# Who is held is there

A scheduler keeps the jobs alive that are registered with it, and its tick those
that it is running and those that it has found. So a name in a registry or in a
tick is never the name of a job that is gone (`World.Held.there`). Along with it
go two laws that every job's place depends on: the links of the forest agree both
ways, and no registry names a job twice.
-/

namespace FrameLoop

theorem Forest.Change.linked {may : JobRef → JobRef → Prop} {f f' : Forest}
    (h : Forest.Change may f f') (linked : f.Linked) : f'.Linked := by
  cases h with
  | same => exact linked
  | created name => exact linked.create name
  | attached _ hp hc done => exact linked.attach hp hc done
  | erased p c => exact linked.erase p c

/-- No job is lost when links change. -/
theorem Forest.Change.has {may : JobRef → JobRef → Prop} {f f' : Forest}
    (h : Forest.Change may f f') {j : JobRef} (here : f.has j = true) : f'.has j = true := by
  cases h with
  | same => exact here
  | created name => rw [Forest.has_create, here]; rfl
  | erased p c => rwa [Forest.has_erase]
  | @attached _ p c _ _ _ _ done =>
    cases done ▸ f.attaches p c with
    | there => exact here
    | moved => rwa [Forest.has_link, Forest.has_taken]

namespace Scheduler

/-! ## What a scheduler holds -/

/-- Without a tick a scheduler holds its registry. -/
theorem holds_of_still {s : Scheduler} (still : s.driver.tick? = none) : s.holds = s.registry := by
  rw [holds, still]
  exact List.append_nil _

/-- In a tick it holds the last wave and what has been found, too. -/
theorem holds_of_ticking {s : Scheduler} {loop : Loop} {t : Tick} (h : s.driver = .ticking loop t) :
    s.holds = s.registry ++ t.holds := by
  rw [holds, h]
  rfl

/-- The next wave is among what has been found. -/
theorem found_of_mem_nextWave {t : Tick} {j : JobRef} (h : j ∈ t.nextWave) : j ∈ t.found := by
  unfold Tick.nextWave at h
  split at h
  · cases h
  · exact (Tick.mem_unseen.1 h).1

theorem Proceeds.holds {s : Scheduler} {loop : Loop} {t : Tick} {now : Nat} {m : Move}
    (h : Proceeds s loop t now m) {j : JobRef} (held : j ∈ m.scheduler.holds) :
    j ∈ s.registry ∨ j ∈ t.found := by
  cases h with
  | wave more =>
    rw [holds_of_ticking rfl, List.mem_append] at held
    obtain registered | running := held
    · exact .inl registered
    · exact .inr (found_of_mem_nextWave (by simpa [Tick.holds, Tick.launch] using running))
  | drained spent sound =>
    rw [holds_of_still rfl] at held
    exact .inl held
  | faulted fault =>
    rw [holds_of_still (by rw [finish_driver]; rfl), registry_finish] at held
    exact .inl held

/-- **A quiet change adds nobody who is not there.** -/
theorem Quiet.holds {may : Intake} {s s' : Scheduler} (h : Quiet may s s') {j : JobRef}
    (held : j ∈ s'.holds) : j ∈ s.holds ∨ may.jobs j := by
  cases h with
  | same | paced | asked => exact .inl held
  | made => cases held
  | scheduled _ k brought =>
    simp only [Scheduler.holds, List.mem_append, List.mem_singleton] at held ⊢
    obtain (old | rfl) | running := held
    · exact .inl (.inl old)
    · exact .inr brought
    · exact .inl (.inr running)
  | unregistered _ k =>
    simp only [Scheduler.holds, List.mem_append] at held ⊢
    exact .inl (held.imp_left List.mem_of_mem_erase)
  | started _ source brought idle =>
    rw [holds_of_still rfl] at held
    exact .inl (List.mem_append_left _ held)
  | roused _ waiting =>
    rw [holds_of_still rfl] at held
    exact .inl (List.mem_append_left _ held)
  | released _ inactive =>
    have still : s.release.driver.tick? = none := by
      show s.driver.tick? = none
      cases driver : s.driver with
      | ticking loop t => rw [driver] at inactive; cases inactive
      | absent | waiting _ | ended => rfl
    rw [holds_of_still still] at held
    cases held

/-- A step that returns adds the job's children at most. -/
theorem holds_returned (s : Scheduler) (f : Forest) (j : JobRef) (v : Verdict) (now : Nat)
    {x : JobRef} (held : x ∈ (s.returned f j v now).1.scheduler.holds) :
    x ∈ s.holds ∨ x ∈ f.children j := by
  have found {loop : Loop} {t : Tick} (driver : s.driver = .ticking loop t)
      (h : x ∈ (t.settle j (f.children j) (v.fault? (f.name j))).found) :
      x ∈ s.holds ∨ x ∈ f.children j := by
    rw [holds_of_ticking driver]
    exact (Tick.mem_found_settle h).imp_left fun old =>
      List.mem_append_right _ (List.mem_append_right _ old)
  have returns := s.returns f j v now
  generalize (s.returned f j v now).1 = m at held returns
  cases returns with
  | nothing => exact .inl held
  | proceeds driver _ sub goesOn =>
    rcases goesOn.holds held with old | new
    · exact .inl (List.mem_append_left _ (sub.subset old))
    · exact found driver new
  | waits driver _ sub =>
    rw [holds_of_ticking rfl, List.mem_append] at held
    obtain old | running := held
    · exact .inl (List.mem_append_left _ (sub.subset old))
    · obtain wave | new := List.mem_append.1 running
      · rw [Tick.waves_settle] at wave
        rw [holds_of_ticking driver]
        exact .inl (List.mem_append_right _ (List.mem_append_left _ wave))
      · exact found driver new

/-! ## The registry -/

theorem Quiet.nodup {may : Intake} {s s' : Scheduler} (h : Quiet may s s')
    (nodup : s.registry.Nodup) : s'.registry.Nodup := by
  cases h with
  | same | paced | asked | started | roused => exact nodup
  | made | released => exact List.nodup_nil
  | scheduled _ j brought live new =>
    refine List.nodup_append.2 ⟨nodup, by simp, ?_⟩
    rintro x old y same rfl
    exact new (List.mem_singleton.1 same ▸ old)
  | unregistered _ j => exact nodup.erase j

end Scheduler

namespace World

/-- **Who is held is there**, the links of the forest agree, and no registry
names a job twice. -/
structure Held (w : World) : Prop where
  linked : w.forest.Linked
  there : ∀ r, ∀ j ∈ (w.scheduler r).holds, w.forest.has j = true
  nodup : ∀ r, (w.scheduler r).registry.Nodup

/-- What a scheduler holds after a move of its driver it held before, or found
at the job whose step returned. -/
theorem holds_lookUp {w : World} {r : SchedulerRef} {j : JobRef}
    (held : j ∈ (w.lookUp r).scheduler.holds) : j ∈ (w.scheduler r).holds := by
  obtain ⟨-, other⟩ | ⟨-, loop, t, waiting, -, starts⟩ := w.looksUp r
  · generalize w.lookUp r = m at other held
    cases other with
    | rests => exact held
    | declines waiting =>
      rw [Scheduler.holds_of_still rfl] at held
      exact List.mem_append_left _ held
    | ends waiting gives =>
      rw [Scheduler.holds_of_still (by rw [Scheduler.finish_driver]; rfl),
        Scheduler.registry_finish] at held
      exact List.mem_append_left _ held
  · rw [starts] at held
    obtain registered | found := (Scheduler.proceeds _ _ _ _).holds held
    · exact List.mem_append_left _ registered
    · exact List.mem_append_left _ found

/-- The jobs from which letting go starts: with all that is below them they are kept. -/
def kept (w : World) (held : Holdings) : List JobRef :=
  ((w.releaseEngines held).releaseSchedulers held).heldJobs held

theorem forest_sweep (w : World) (held : Holdings) :
    (w.sweep held).forest = w.forest.sweep (w.kept held) := rfl

/-- What a scheduler holds is kept. -/
theorem holds_subset_kept (w : World) (held : Holdings) (r : SchedulerRef) :
    ((w.sweep held).scheduler r).holds ⊆ w.kept held := by
  intro j hj
  refine List.mem_append_right _ (List.mem_flatMap.2 ⟨(w.sweep held).scheduler r, ?_, hj⟩)
  have inside : r < (w.sweep held).schedulers.length := by
    by_contra out
    rw [scheduler_of_length_le (Nat.le_of_not_lt out)] at hj
    cases hj
  show (w.sweep held).schedulers.getD r default ∈ (w.sweep held).schedulers
  rw [List.getD_eq_getElem?_getD, List.getElem?_eq_getElem inside]
  exact List.getElem_mem inside

/-- **Letting go keeps what is held.** -/
theorem Held.sweep {w : World} (h : w.Held) (held : Holdings) : (w.sweep held).Held := by
  have quiet (r : SchedulerRef) : Scheduler.Quiet (w.intake r (.sweep held)) (w.scheduler r)
      ((w.sweep held).scheduler r) := w.quiet_sweep held r
  refine ⟨h.linked.sweep _, ?_, fun r => (quiet r).nodup (h.nodup r)⟩
  intro r j hj
  have kept := Forest.mem_reachable (f := w.forest) (w.holds_subset_kept held r hj)
  have here : w.forest.has j = true := by
    obtain old | new := (quiet r).holds hj
    · exact h.there r j old
    · exact new.2
  rw [forest_sweep, Forest.has_sweep, here, decide_eq_true kept]
  rfl

/-- **Every event keeps who is held.** -/
theorem Held.step {w : World} (h : w.Held) (e : Event) : (w.step e).2.Held := by
  by_cases sweeps : ∃ held, e = .sweep held
  · obtain ⟨held, rfl⟩ := sweeps
    exact h.sweep held
  · have change := w.forest_step fun held same => sweeps ⟨held, same⟩
    refine ⟨change.linked h.linked, ?_, ?_⟩
    · intro r j hj
      apply change.has
      obtain ⟨quiet, -⟩ | ⟨rfl, step, next⟩ | ⟨k, v, rfl, step, next⟩ := w.step_cases e r
      · exact (quiet.holds hj).elim (h.there r j) And.right
      · rw [step, next] at hj
        exact h.there r j (holds_lookUp hj)
      · rw [step, next] at hj
        exact (Scheduler.holds_returned _ w.forest k v w.clock hj).elim (h.there r j)
          h.linked.has_child
    · intro r
      obtain ⟨quiet, -⟩ | ⟨rfl, step, next⟩ | ⟨k, v, rfl, step, next⟩ := w.step_cases e r
      · exact quiet.nodup (h.nodup r)
      · rw [step, next, registry_lookUp]
        exact h.nodup r
      · rw [step, next]
        exact (Scheduler.returns _ w.forest k v w.clock).registry.nodup (h.nodup r)

/-- **After every run, who is held is there.** -/
theorem held_run (es : List Event) : (run es).Held :=
  run_keeps ⟨Forest.linked_empty, fun _ _ held => absurd held List.not_mem_nil,
    fun _ => List.nodup_nil⟩ (fun _ e h => h.step e) es

end World

end FrameLoop

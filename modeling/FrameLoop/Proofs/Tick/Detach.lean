import FrameLoop.Proofs.Tick.Places

/-!
# A job that has left does not come back

A step may ask that its job leave. The driver then takes the job from its
parent, or from the registry if it has no parent. This module says when that is
the end of the matter (`detach_final`): a job that was in one place only is in
none afterwards, and no later tick launches it unless somebody gives it a place
again.

A job may be registered and have a parent, too. It is then taken from its parent
only, stays registered, and runs again in the next tick (`detach_of_registered_child`).

What carries the argument is `Gone`. It says of the tick in flight, too, that
the job is not about to be launched: a job may have been found below one parent
before its own step returned, and is then passed over because it has run.
-/

namespace FrameLoop

/-! ## The tick in flight -/

/-- The tick in flight, if there is one, has launched the job if it has found it. -/
def Driver.DoneWith (j : JobRef) (d : Driver) : Prop :=
  ∀ t, d.tick? = some t → j ∈ t.found → j ∈ t.launched

/-- The next wave has nobody in it who has been launched. -/
theorem Tick.new_of_mem_nextWave {t : Tick} {j : JobRef} (h : j ∈ t.nextWave) :
    j ∈ t.found ∧ j ∉ t.launched := by
  unfold nextWave at h
  split at h
  · cases h
  · exact mem_unseen.1 h

namespace Scheduler

variable {s s' : Scheduler} {f f' : Forest} {j : JobRef}

theorem doneWith_of_still (still : s.driver.tick? = none) : s.driver.DoneWith j := by
  intro t here
  rw [still] at here
  cases here

/-- **A tick does not launch again what it is done with.** -/
theorem Proceeds.done {loop : Loop} {t : Tick} {now : Nat} {m : Move}
    (h : Proceeds s loop t now m) (done : j ∈ t.found → j ∈ t.launched) :
    j ∉ m.launched ∧ m.scheduler.driver.DoneWith j := by
  cases h with
  | wave more =>
    constructor
    · intro next
      obtain ⟨found, new⟩ := Tick.new_of_mem_nextWave next
      exact new (done found)
    · rintro u here found
      cases here
      cases found
  | drained spent sound => exact ⟨List.not_mem_nil, doneWith_of_still rfl⟩
  | faulted fault =>
    refine ⟨List.not_mem_nil, doneWith_of_still ?_⟩
    rw [finish_driver]
    rfl

theorem done_returned {k : JobRef}
    (done : ∀ t, s.driver.tick? = some t → j ∈ t.found ∨ j ∈ f.children k → j ∈ t.launched)
    (v : Verdict) (now : Nat) :
    j ∉ (s.returned f k v now).1.launched ∧
      (s.returned f k v now).1.scheduler.driver.DoneWith j := by
  have settled {loop : Loop} {t : Tick} (driver : s.driver = .ticking loop t)
      (found : j ∈ (t.settle k (f.children k) (v.fault? (f.name k))).found) :
      j ∈ (t.settle k (f.children k) (v.fault? (f.name k))).launched := by
    rw [Tick.launched, Tick.waves_settle]
    exact done t (by rw [driver]; rfl) (Tick.mem_found_settle found)
  have returns := s.returns f k v now
  generalize (s.returned f k v now).1 = m at returns
  cases returns with
  | nothing => exact ⟨List.not_mem_nil, fun t here found => done t here (.inl found)⟩
  | proceeds driver _ _ goesOn => exact goesOn.done (settled driver)
  | waits driver =>
    refine ⟨List.not_mem_nil, ?_⟩
    rintro u here
    cases here
    exact settled driver

/-! ## Quiet changes -/

theorem Quiet.done {may : Intake} (h : Quiet may s s') (done : s.driver.DoneWith j) :
    s'.driver.DoneWith j := by
  cases h with
  | same | scheduled | unregistered | paced | asked | released => exact done
  | made | started | roused => exact doneWith_of_still rfl

/-- **A job that is not brought is not registered.** -/
theorem Quiet.not_mem_registry {may : Intake} (h : Quiet may s s') (absent : j ∉ s.registry)
    (unbrought : ¬ may.jobs j) : j ∉ s'.registry := by
  cases h with
  | same | paced | asked | started | roused => exact absent
  | made | released => exact List.not_mem_nil
  | scheduled _ k brought =>
    intro registered
    rcases List.mem_append.1 registered with old | new
    · exact absent old
    · exact unbrought (List.mem_singleton.1 new ▸ brought)
  | unregistered _ k => exact fun registered => absent (List.mem_of_mem_erase registered)

end Scheduler

/-- **A job that is not attached has no parent.** -/
theorem Forest.Change.parent_eq_none {may : JobRef → JobRef → Prop} {f f' : Forest} {j : JobRef}
    (h : Forest.Change may f f') (top : f.parent j = none) (unasked : ∀ p, ¬ may p j) :
    f'.parent j = none := by
  cases h with
  | same => exact top
  | created name => rwa [Forest.parent_create]
  | erased p c =>
    rw [Option.eq_none_iff_forall_ne_some] at top ⊢
    exact fun q parent => top q (Forest.parent_of_parent_erase parent)
  | @attached _ p c added asked hp hc done =>
    cases done ▸ f.attaches p c with
    | there => exact top
    | moved =>
      have other : j ≠ c := by
        rintro rfl
        exact unasked p asked
      rw [Forest.parent_link (by rwa [Forest.has_taken]), if_neg other]
      rw [Option.eq_none_iff_forall_ne_some] at top ⊢
      exact fun q parent => top q (Forest.parent_of_parent_taken parent)

namespace World

variable {w : World} {r : SchedulerRef} {j : JobRef}

/-! ## Giving a place -/

/-- **The job that an event gives a place**, in the registry of a scheduler or
beneath a parent. -/
def places (w : World) (r : SchedulerRef) : Event → Option JobRef
  | .attach _ c => some c
  | e => w.registers r e

/-- Whether nobody gives a job a place in the rest of a run. -/
def unplaced (r : SchedulerRef) (j : JobRef) (w : World) : List Event → Bool
  | [] => true
  | e :: rest => w.places r e != some j && unplaced r j (w.step e).2 rest

theorem unplaced_concat (w : World) (es : List Event) (e : Event) :
    unplaced r j w (es ++ [e]) =
      (unplaced r j w es && (runFrom w es).places r e != some j) := by
  induction es generalizing w with
  | nil => exact Bool.and_true _
  | cons d es ih =>
    simp only [List.cons_append, unplaced, ih, Bool.and_assoc]
    rfl

theorem places_of_registers {e : Event} (h : w.registers r e = some j) :
    w.places r e = some j := by
  cases e with
  | attach p c => cases h
  | _ => exact h

/-- **A job has no place** with a scheduler: it is not registered, and it has no parent. -/
structure Placeless (w : World) (r : SchedulerRef) (j : JobRef) : Prop where
  unregistered : j ∉ (w.scheduler r).registry
  top : w.forest.parent j = none

/-- **Who has no place gets none**, unless an event gives it one. -/
theorem Placeless.step (h : w.Placeless r j) {e : Event} (unplaced : w.places r e ≠ some j) :
    (w.step e).2.Placeless r j := by
  constructor
  case top =>
    by_cases sweeps : ∃ held, e = .sweep held
    · obtain ⟨kept, rfl⟩ := sweeps
      show (w.forest.sweep _).parent j = none
      rw [Forest.parent_sweep, h.top]
      split <;> rfl
    · refine (w.forest_step fun held same => sweeps ⟨held, same⟩).parent_eq_none h.top ?_
      rintro p rfl
      exact unplaced rfl
  case unregistered =>
    obtain ⟨quiet, -⟩ | ⟨rfl, step, next⟩ | ⟨k, v, rfl, step, next⟩ := w.step_cases e r
    · exact quiet.not_mem_registry h.unregistered
        fun brought => unplaced (places_of_registers brought.1)
    · rw [step, next, registry_lookUp]
      exact h.unregistered
    · rw [step, next]
      intro registered
      exact h.unregistered
        ((Scheduler.returns _ w.forest k v w.clock).registry.subset registered)

/-! ## Being gone -/

/-- **A job is gone from a scheduler**: it is in no place, and the tick in flight
is done with it. -/
structure Gone (w : World) (r : SchedulerRef) (j : JobRef) : Prop where
  unregistered : j ∉ (w.scheduler r).registry
  top : w.forest.parent j = none
  done : (w.scheduler r).driver.DoneWith j

theorem done_lookUp (gone : w.Gone r j) :
    j ∉ (w.lookUp r).launched ∧ (w.lookUp r).scheduler.driver.DoneWith j := by
  obtain ⟨-, other⟩ | ⟨-, loop, t, -, -, starts⟩ := w.looksUp r
  · generalize w.lookUp r = m at other
    cases other with
    | rests => exact ⟨List.not_mem_nil, gone.done⟩
    | declines => exact ⟨List.not_mem_nil, Scheduler.doneWith_of_still rfl⟩
    | ends =>
      refine ⟨List.not_mem_nil, Scheduler.doneWith_of_still ?_⟩
      rw [Scheduler.finish_driver]
      rfl
  · rw [starts]
    apply (Scheduler.proceeds _ _ _ _).done
    intro registered
    exact absurd registered gone.unregistered

/-- **Who is gone stays gone** and is not launched, unless an event gives it a
place. -/
theorem Gone.step (gone : w.Gone r j) (held : w.Held) {e : Event}
    (unplaced : w.places r e ≠ some j) :
    (w.step e).2.Gone r j ∧ (e.drives r = true → j ∉ (w.step e).1) := by
  obtain ⟨absent, top⟩ := Placeless.step ⟨gone.unregistered, gone.top⟩ unplaced
  obtain ⟨quiet, unmoved⟩ | ⟨rfl, step, next⟩ | ⟨k, v, rfl, step, next⟩ := w.step_cases e r
  · refine ⟨⟨absent, top, quiet.done gone.done⟩, ?_⟩
    intro driven
    rw [(unmoved driven).2]
    exact List.not_mem_nil
  · obtain ⟨unlaunched, done⟩ := done_lookUp gone
    rw [step] at absent top ⊢
    exact ⟨⟨absent, top, next ▸ done⟩, fun _ => launched_poll w r ▸ unlaunched⟩
  · have done : ∀ t, (w.scheduler r).driver.tick? = some t →
        j ∈ t.found ∨ j ∈ w.forest.children k → j ∈ t.launched := by
      intro t here found
      rcases found with found | child
      · exact gone.done t here found
      · rw [held.linked.mem_children, gone.top] at child
        cases child
    obtain ⟨unlaunched, settled⟩ := Scheduler.done_returned done v w.clock
    rw [step] at absent top ⊢
    exact ⟨⟨absent, top, next ▸ settled⟩, fun _ => unlaunched⟩

/-! ## What is launched -/

/-- **Nobody launches who is gone**, as long as nobody gives the job a place. -/
theorem Gone.run {es : List Event} (gone : (run es).Gone r j) {more : List Event}
    (unplaced : unplaced r j (run es) more = true) :
    (World.run (es ++ more)).Gone r j ∧
      ∃ added, journal r (es ++ more) = journal r es ++ added ∧ j ∉ Journal.launched added := by
  induction more using List.reverseRecOn with
  | nil => exact ⟨by rwa [List.append_nil], [], by simp, List.not_mem_nil⟩
  | append_singleton more e ih =>
    rw [unplaced_concat, Bool.and_eq_true, bne_iff_ne, ← run_append] at unplaced
    obtain ⟨gone, added, before, unlaunched⟩ := ih unplaced.1
    obtain ⟨still, now⟩ := gone.step (held_run (es ++ more)) unplaced.2
    rw [← List.append_assoc, run_concat, journal_concat, before, List.append_assoc]
    refine ⟨still, _, rfl, ?_⟩
    rw [Journal.launched_append, List.mem_append]
    rintro (old | new)
    · exact unlaunched old
    · rw [← before, launched_observe] at new
      split at new
      · next driven => exact now driven new
      · cases new

/-- **Who has asked to leave is gone**, unless it is still registered: the tick in flight has
launched it before, and is done with it. -/
theorem gone_of_detached {es : List Event} (out : j ∈ (journal r es).out)
    (unregistered :
      j ∉ ((run (es ++ [.returned r j (.outcome .detach)])).scheduler r).registry) :
    (run (es ++ [.returned r j (.outcome .detach)])).Gone r j ∧
      ∃ now, journal r (es ++ [.returned r j (.outcome .detach)]) = journal r es ++ now ∧
        j ∉ Journal.launched now := by
  have agrees := agrees_run es r
  obtain ⟨loop, k, past, t, driver, pending, tracks, -⟩ := agrees.ticking_of_out out
  have launched : j ∈ k.launched := by
    rw [tracks.launched]
    exact tracks.pending.subset (List.mem_append_right _ pending)
  have done : ∀ u, ((run es).scheduler r).driver.tick? = some u →
      j ∈ u.found ∨ j ∈ (run es).forest.children j → j ∈ u.launched := by
    intro u here _
    rw [driver] at here
    cases here
    exact launched
  obtain ⟨unlaunched, settled⟩ :=
    Scheduler.done_returned done (.outcome .detach) (run es).clock
  have step := step_of_out agrees out (.outcome .detach)
  have active : ((run es).scheduler r).driver.isActive = true := by rw [driver]; rfl
  refine ⟨⟨unregistered, (detach_leaves r es out).1, ?_⟩, _, journal_concat r es _, ?_⟩
  · rw [run_concat, step, scheduler_returned j _ (length_of_active active)]
    exact settled
  · rw [launched_observe, step]
    split
    · exact unlaunched
    · exact List.not_mem_nil

/-- **A job whose step asks to leave has no parent afterwards, and stays registered
exactly if it was registered and had a parent, too.** If it is not registered any
more, it stays so, stays without a parent, and is launched no more, be it in the
tick in flight or in a later one, as long as nobody registers it with this
scheduler or attaches it. -/
theorem detach_final {es : List Event} (out : j ∈ (journal r es).out) :
    let left := es ++ [.returned r j (.outcome .detach)]
    (run left).forest.parent j = none ∧ (∀ p, j ∉ (run left).forest.children p) ∧
      (j ∈ ((run left).scheduler r).registry ↔
        j ∈ ((run es).scheduler r).registry ∧ (run es).forest.parent j ≠ none) ∧
      (j ∉ ((run left).scheduler r).registry →
        ∀ more, unplaced r j (run left) more = true →
          j ∉ ((run (left ++ more)).scheduler r).registry ∧
          (run (left ++ more)).forest.parent j = none ∧
          ∃ added, journal r (left ++ more) = journal r es ++ added ∧
            j ∉ Journal.launched added) := by
  intro left
  have agrees := agrees_run es r
  obtain ⟨top, childless, -⟩ := detach_leaves r es out
  refine ⟨top, childless, ?_, ?_⟩
  · rw [run_concat, (places_returned agrees out _).1, Scheduler.registry_depart_detach]
    split
    · next none =>
      rw [((held_run es).nodup r).mem_erase_iff]
      simp [none]
    · next some => simp [some]
  · intro unregistered more unplaced
    obtain ⟨gone, now, first, unlaunched⟩ := gone_of_detached out unregistered
    obtain ⟨still, added, grown, later⟩ := gone.run unplaced
    rw [first, List.append_assoc (journal r es)] at grown
    refine ⟨still.unregistered, still.top, _, grown, ?_⟩
    rw [Journal.launched_append, List.mem_append]
    rintro (old | new)
    · exact unlaunched old
    · exact later new

/-- A run up to where a registered job and its child are to return, in this order. -/
def familyRun : List Event :=
  [.newJob "parent", .newJob "child", .attach 0 1, .newScheduler ⟨"loop"⟩ .zero .zero,
    .schedule 0 0, .start 0 (.script [.reading ⟨0⟩, .reading ⟨1⟩]), .poll 0,
    .returned 0 0 (.outcome .resume)]

/-- A child that leaves is not in the second tick. -/
theorem detach_final_of_familyRun :
    1 ∈ (journal 0 familyRun).out ∧
      ((run (familyRun ++ [.returned 0 1 (.outcome .detach)])).scheduler 0).registry = [0] ∧
      (run (familyRun ++ [.returned 0 1 (.outcome .detach)])).forest.parent 1 = none ∧
      ∃ added, journal 0 (familyRun ++ [.returned 0 1 (.outcome .detach)] ++ [.poll 0]) =
        journal 0 familyRun ++ added ∧ 1 ∉ Journal.launched added := by
  have out : 1 ∈ (journal 0 familyRun).out := by decide
  obtain ⟨top, -, -, final⟩ := detach_final out
  obtain ⟨-, -, later⟩ := final (by decide) [.poll 0] (by decide)
  exact ⟨out, by decide, top, later⟩

/-- A run up to where a job that is registered and has a parent, too, is to
return. -/
def twicePlacedRun : List Event :=
  [.newJob "parent", .newJob "child", .attach 0 1, .newScheduler ⟨"loop"⟩ .zero .zero,
    .schedule 0 1, .start 0 (.script [.reading ⟨0⟩, .reading ⟨1⟩]), .poll 0]

/-- **A registered child that leaves is still registered and runs again**, although
nobody has given it a place since. -/
theorem detach_of_registered_child :
    1 ∈ (journal 0 twicePlacedRun).out ∧
      1 ∈ ((run (twicePlacedRun ++ [.returned 0 1 (.outcome .detach)])).scheduler 0).registry ∧
      unplaced 0 1 (run (twicePlacedRun ++ [.returned 0 1 (.outcome .detach)])) [.poll 0] = true ∧
      (journal 0 (twicePlacedRun ++ [.returned 0 1 (.outcome .detach), .poll 0])).ticks.map
        (·.launched) = [[1], [1]] := by
  decide

end World

end FrameLoop

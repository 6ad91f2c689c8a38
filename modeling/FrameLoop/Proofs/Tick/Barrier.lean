import FrameLoop.Proofs.Journal.Order

/-!
# The barrier

A scheduler hands out a wave only after everything that it has handed out
before has returned, in whatever tick that was. So waves never overlap, one
tick is in flight at a time, and no job has two steps out at once: it does not
help that a job is moved, registered again or found twice while its step is
out.
-/

namespace FrameLoop

namespace World

/-- **The barrier.** At every entry of a journal: each step launched so far has
returned or is out, once; no job has two steps out; and every tick but the last
is over. If the entry is a launch or the start of a tick, every step launched
before it has returned. -/
theorem strict_barrier (r : SchedulerRef) (es : List Event) {pre post : Journal}
    (split : journal r es = pre ++ post) :
    (pre.returned ++ pre.out).Perm pre.launched ∧ pre.out.Nodup ∧
      (∀ t ∈ pre.ticks.dropLast, t.Over) ∧
      (∀ wave rest, post = .launched wave :: rest → pre.returned.Perm pre.launched ∧ wave.Nodup) ∧
      (∀ registry rest, post = .began registry :: rest →
        pre.returned.Perm pre.launched ∧ ∀ t ∈ pre.ticks, t.Over) := by
  have ordered := ordered_run r es
  rw [split] at ordered
  have all := ordered.left.perm
  refine ⟨all, ordered.left.nodup_out, ?_, ?_, ?_⟩
  · intro t ht
    exact (ordered.left.clean_init t ht).spent
  · rintro wave rest rfl
    have allowed : Entry.Allowed pre (.launched wave) := ordered pre _ rest rfl
    rw [allowed.1, List.append_nil] at all
    exact ⟨all, allowed.2.1⟩
  · rintro registry rest rfl
    have allowed : Entry.Allowed pre (.began registry) := ordered pre _ rest rfl
    rw [allowed.1, List.append_nil] at all
    exact ⟨all, fun t ht => (allowed.2 t ht).spent⟩

/-- A run in which a child loses its parent, is registered and has a wake-up
waiting for it while its step is out. -/
def crossedRun : List Event :=
  [.newJob "parent", .newJob "child", .attach 0 1, .newScheduler ⟨"loop"⟩ .zero .zero,
    .schedule 0 0, .start 0 (.script [.reading ⟨0⟩, .reading ⟨1⟩]), .poll 0,
    .returned 0 0 (.outcome .resume), .eraseChild 0 1, .schedule 0 1, .poll 0,
    .returned 0 1 (.outcome .resume), .poll 0]

/-- The child has returned when it is launched again. -/
theorem strict_barrier_of_crossedRun :
    journal 0 crossedRun = (journal 0 crossedRun).take 6 ++ [.launched [0, 1]] ∧
      Journal.launched ((journal 0 crossedRun).take 6) = [0, 1] ∧
      (Journal.returned ((journal 0 crossedRun).take 6)).Perm [0, 1] := by
  have split : journal 0 crossedRun = (journal 0 crossedRun).take 6 ++ [.launched [0, 1]] := by
    decide
  obtain ⟨-, -, -, launch, -⟩ := strict_barrier 0 crossedRun split
  have before : Journal.launched ((journal 0 crossedRun).take 6) = [0, 1] := by decide
  exact ⟨split, before, before ▸ (launch [0, 1] [] rfl).1⟩

end World

end FrameLoop

import FrameLoop.Proofs.Forest.Links

/-!
# Levels

Given some jobs of a forest, the level of a job is how far it is below the nearest of
them. The jobs that are given may lie beneath one another: then each of them is a level
zero of its own, and what is below counts from the nearest one upwards. A job that is
below none of them has no level.
-/

namespace FrameLoop.Forest

variable {f : Forest} {roots : List JobRef} {k l : Nat} {j : JobRef}

/-- **The ancestor so many links up**, if there is one. -/
def up (f : Forest) : Nat → JobRef → Option JobRef
  | 0, j => some j
  | n + 1, j => (f.parent j).bind (f.up n)

/-- **The level of a job** is the least number of links from it up to one of the jobs
given. -/
def Level (f : Forest) (roots : List JobRef) (k : Nat) (j : JobRef) : Prop :=
  (∃ p, f.up k j = some p ∧ p ∈ roots) ∧ ∀ i < k, ∀ p, f.up i j = some p → p ∉ roots

/-- Of level zero are the jobs given. -/
theorem level_zero : f.Level roots 0 j ↔ j ∈ roots := by
  simp [Level, up]

/-- **One level down are the children**, but for those that are given themselves. -/
theorem level_succ :
    f.Level roots (k + 1) j ↔ j ∉ roots ∧ ∃ p, f.parent j = some p ∧ f.Level roots k p := by
  constructor
  · rintro ⟨⟨q, far, given⟩, least⟩
    obtain ⟨p, parent, above⟩ := Option.bind_eq_some_iff.1 far
    refine ⟨least 0 (Nat.succ_pos k) j rfl, p, parent, ⟨q, above, given⟩, ?_⟩
    intro i near x here
    refine least (i + 1) (Nat.succ_lt_succ near) x ?_
    rw [up, parent, Option.bind_some, here]
  · rintro ⟨new, p, parent, ⟨q, above, given⟩, least⟩
    refine ⟨⟨q, by rw [up, parent, Option.bind_some, above], given⟩, ?_⟩
    intro i near x here
    cases i with
    | zero =>
      obtain rfl := Option.some.inj here
      exact new
    | succ i =>
      rw [up, parent, Option.bind_some] at here
      exact least i (Nat.lt_of_succ_lt_succ near) x here

/-- **A job has one level at most.** -/
theorem Level.unique (h : f.Level roots k j) (h' : f.Level roots l j) : k = l := by
  obtain ⟨⟨p, far, given⟩, least⟩ := h
  obtain ⟨⟨p', far', given'⟩, least'⟩ := h'
  rcases Nat.lt_trichotomy k l with near | same | near
  · exact absurd given (least' k near p far)
  · exact same
  · exact absurd given' (least l near p' far')

end FrameLoop.Forest

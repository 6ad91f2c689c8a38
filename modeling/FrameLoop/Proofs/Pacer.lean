import FrameLoop.Pacer
import Mathlib.Data.List.Count
import Mathlib.Data.List.Induction

/-!
# One pacer folded over wake-ups

A pacer that is asked about some wake-ups, one after another, is a fold. This module has
its two readings, the pacer that it comes to (`Pacer.after`) and the number of wake-ups
that become ticks (`Pacer.dueCount`), each with the equation for one wake-up more, and
says where in `Pacer.run` the answer to a wake-up stands.

The reference is never later than the readings that were taken to the pacer (`reference_le`).
So wake-ups that are a delay or more apart all become ticks (`dueCount_of_apart`). Of wake-ups that
are closer together a tick takes no more than fit into a delay, and one (`length_le_of_apart`).
-/

namespace FrameLoop.Pacer

/-- The pacer after some wake-ups. -/
def after (p : Pacer) (ws : List (Instant × Duration)) : Pacer :=
  ws.foldl (fun p w => (p.evaluate w.1 w.2).2) p

/-- How many of some wake-ups become ticks. -/
def dueCount (p : Pacer) (ws : List (Instant × Duration)) : Nat := (p.run ws).countP (·.1)

theorem run_concat (p : Pacer) (ws : List (Instant × Duration)) (w : Instant × Duration) :
    p.run (ws ++ [w]) = p.run ws ++ [(p.after ws).evaluate w.1 w.2] := by
  induction ws generalizing p with
  | nil => rfl
  | cons v ws ih =>
    rw [List.cons_append, run, run, ih]
    rfl

theorem after_concat (p : Pacer) (ws : List (Instant × Duration)) (w : Instant × Duration) :
    p.after (ws ++ [w]) = ((p.after ws).evaluate w.1 w.2).2 := by
  simp [after]

theorem dueCount_concat (p : Pacer) (ws : List (Instant × Duration)) (w : Instant × Duration) :
    p.dueCount (ws ++ [w]) =
      p.dueCount ws + if ((p.after ws).evaluate w.1 w.2).1 then 1 else 0 := by
  rw [dueCount, run_concat, List.countP_append, List.countP_singleton]
  rfl

/-- More wake-ups do not make fewer ticks. -/
theorem dueCount_mono {p : Pacer} {xs ys : List (Instant × Duration)} (early : xs <+: ys) :
    p.dueCount xs ≤ p.dueCount ys := by
  obtain ⟨more, rfl⟩ := early
  induction more using List.reverseRecOn with
  | nil => exact (List.append_nil xs).symm ▸ Nat.le_refl _
  | append_singleton more x ih =>
    rw [← List.append_assoc, dueCount_concat]
    exact Nat.le_add_right_of_le ih

/-- There is one answer to each wake-up. -/
@[simp] theorem length_run (p : Pacer) (ws : List (Instant × Duration)) :
    (p.run ws).length = ws.length := by
  induction ws generalizing p with
  | nil => rfl
  | cons w ws ih => rw [run, List.length_cons, ih, List.length_cons]

/-- **The answer to a wake-up** is that of the pacer after those before it. -/
theorem getElem?_run (p : Pacer) (ws : List (Instant × Duration)) (w : Instant × Duration)
    (later : List (Instant × Duration)) :
    (p.run (ws ++ w :: later))[ws.length]? = some ((p.after ws).evaluate w.1 w.2) := by
  induction ws generalizing p with
  | nil => rfl
  | cons v ws ih => exact ih (p.evaluate v.1 v.2).2

/-! ## Wake-ups far apart -/

variable {ws : List (Instant × Duration)} {ts : List Instant} {t ref : Instant} {d : Duration}
  {gap : Nat}

/-- **The reference is not later than the latest reading.** -/
theorem reference_le (known : (({} : Pacer).after ws).reference = some ref) :
    ∃ w ∈ ws, ref.nanos ≤ w.1.nanos := by
  induction ws using List.reverseRecOn generalizing ref with
  | nil => cases known
  | append_singleton ws w ih =>
    have here : w ∈ ws ++ [w] := List.mem_append_right ws (List.mem_singleton_self w)
    rw [after_concat, evaluate] at known
    split at known
    · cases known
      exact ⟨w, here, Int.le_refl _⟩
    · next last before =>
      dsimp only at known
      split at known
      · obtain ⟨v, old, later⟩ := ih known
        exact ⟨v, List.mem_append_left _ old, later⟩
      · cases known
        exact ⟨w, here, Int.sub_le_self _ (Int.natCast_nonneg _)⟩

/-- **A wake-up becomes a tick if it is a delay or more after all before it.** -/
theorem due_of_apart (apart : ∀ w ∈ ws, w.1.nanos + d.nanos ≤ t.nanos) :
    ((({} : Pacer).after ws).evaluate t d).1 = true := by
  unfold evaluate
  split
  · rfl
  · next last known =>
    obtain ⟨w, hw, later⟩ := reference_le known
    have far := apart w hw
    have late : ¬ t.since last < d.nanos := by
      rw [Instant.since]
      omega
    dsimp only
    rw [if_neg late]

/-- **Wake-ups that are a delay or more apart all become ticks.** -/
theorem dueCount_of_apart
    (apart : ws.Pairwise fun (v w : Instant × Duration) => v.1.nanos + w.2.nanos ≤ w.1.nanos) :
    ({} : Pacer).dueCount ws = ws.length := by
  induction ws using List.reverseRecOn with
  | nil => rfl
  | append_singleton ws w ih =>
    obtain ⟨before, -, across⟩ := List.pairwise_append.1 apart
    have due := due_of_apart fun v hv => across v hv w (List.mem_singleton_self w)
    rw [dueCount_concat, if_pos due, ih before, List.length_append, List.length_singleton]

/-- **Between two ticks there are no more wake-ups than fit into a delay.** Of wake-ups at least a
gap apart, so many have come since the last tick that the latest is as many gaps after the
reference, and all before them are one tick's worth for each tick. -/
theorem exists_since_reference (pos : 0 < gap)
    (apart : (ts ++ [t]).Pairwise fun (u v : Instant) => u.nanos + (gap : Int) ≤ v.nanos) :
    ∃ ref n, (({} : Pacer).after ((ts ++ [t]).map (·, d))).reference = some ref ∧
      ref.nanos + ((n * gap : Nat) : Int) ≤ t.nanos ∧ n ≤ d.nanos / gap ∧
      (ts ++ [t]).length + d.nanos / gap ≤
        ({} : Pacer).dueCount ((ts ++ [t]).map (·, d)) * (d.nanos / gap + 1) + n := by
  induction ts using List.reverseRecOn generalizing t with
  | nil =>
    have one : ({} : Pacer).dueCount (([] ++ [t]).map (·, d)) = 1 := rfl
    refine ⟨t, 0, rfl, by simp, Nat.zero_le _, ?_⟩
    rw [one, List.nil_append, List.length_singleton]
    omega
  | append_singleton ts u ih =>
    obtain ⟨before, -, across⟩ := List.pairwise_append.1 apart
    obtain ⟨ref, n, known, since, few, most⟩ := ih before
    have later := across u (List.mem_append_right _ (List.mem_singleton_self u)) t
      (List.mem_singleton_self t)
    have next : ((n + 1) * gap : Nat) ≤ t.since ref := by
      rw [Instant.since, Nat.succ_mul]
      omega
    have one : (ts ++ [u] ++ [t]).length = (ts ++ [u]).length + 1 := List.length_append
    rw [List.map_append, List.map_singleton, after_concat, dueCount_concat, evaluate, known, one]
    dsimp only
    split
    · next early =>
      refine ⟨ref, n + 1, known, ?_, ?_, ?_⟩
      · rw [Instant.since] at next
        omega
      · exact (Nat.le_div_iff_mul_le pos).2 (Nat.le_of_lt (Nat.lt_of_le_of_lt next early))
      · simp only [Bool.false_eq_true, if_false, Nat.add_zero]
        omega
    · refine ⟨_, 0, rfl, ?_, Nat.zero_le _, ?_⟩
      · rw [Instant.back, Nat.zero_mul]
        dsimp only
        omega
      · rw [if_pos rfl, Nat.succ_mul]
        omega

/-- **Wake-ups at least a gap apart are at most as many for each tick** as fit into a delay, and
one. -/
theorem length_le_of_apart (pos : 0 < gap)
    (apart : ts.Pairwise fun (u v : Instant) => u.nanos + (gap : Int) ≤ v.nanos) :
    ts.length ≤ ({} : Pacer).dueCount (ts.map (·, d)) * (d.nanos / gap + 1) := by
  cases ts using List.reverseRecOn with
  | nil => exact Nat.zero_le _
  | append_singleton ts t =>
    obtain ⟨ref, n, -, -, few, most⟩ := exists_since_reference (d := d) pos apart
    omega

end FrameLoop.Pacer

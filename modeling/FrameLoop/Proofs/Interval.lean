import FrameLoop.Interval
import Mathlib.Data.List.Range

/-!
# What a fixed rate delivers

A source at a fixed rate delivers multiples of its period, counted from its creation, and each
multiple at most once (`Delivers.onGrid`). How late a wake-up is noticed decides which multiples
are passed over and nothing else: what is delivered is the deadline, not the time at which it
was noticed.

If no wake-up is noticed later than the tolerance, no multiple is passed over
(`OnGrid.punctual`).
-/

namespace FrameLoop.Interval

variable {i j k : Interval} {t : Instant} {now : Nat} {ds : List (Instant × Nat)}

theorem effectivePeriod_nanos (requested : Duration) :
    (effectivePeriod requested).nanos = max requested.nanos nanosPerMilli := by
  have milli : (Duration.ofMillis 1).nanos = nanosPerMilli := by decide
  unfold effectivePeriod Duration.max
  split <;> omega

/-! ## One wake-up -/

/-- **A wake-up delivers the deadline**, once that is reached. -/
theorem next_eq_reading (h : j.next now = (.reading t, k)) :
    t = ⟨j.deadline⟩ ∧ j.deadline ≤ now ∧ k = j.advance now := by
  unfold next at h
  split at h
  · next due =>
    cases h
    exact ⟨rfl, of_decide_eq_true due, rfl⟩
  · cases h

@[simp] theorem period_advance (i : Interval) (now : Nat) : (i.advance now).period = i.period := by
  unfold advance
  split <;> rfl

/-- **The deadline goes on by whole periods**: by one, unless the wake-up was noticed later than
the tolerance. -/
theorem deadline_advance (due : i.deadline ≤ now) :
    ∃ missed, (i.advance now).deadline = i.deadline + (missed + 1) * i.period ∧
      (now ≤ i.deadline + tolerance → missed = 0) := by
  unfold advance
  split
  · next late =>
    refine ⟨(now - i.deadline) / i.period, ?_, fun early => absurd late (Nat.not_lt.2 early)⟩
    have parts := Nat.mod_add_div' (now - i.deadline) i.period
    rw [Nat.add_mul, Nat.one_mul]
    dsimp only
    omega
  · exact ⟨0, by rw [Nat.zero_add, Nat.one_mul], fun _ => rfl⟩

/-! ## Any number of wake-ups -/

/-- **What a source delivers**: readings, each with the time at which it was noticed, and the
source after them. -/
inductive Delivers (i : Interval) : List (Instant × Nat) → Interval → Prop where
  | nothing : Delivers i [] i
  | another {ds : List (Instant × Nat)} {j k : Interval} {t : Instant} {now : Nat}
    (before : Delivers i ds j) (next : j.next now = (.reading t, k)) :
    Delivers i (ds ++ [(t, now)]) k

/-- The reading at a multiple of the period. -/
def multiple (i : Interval) (k : Nat) : Instant := ⟨(i.deadline + k * i.period : Nat)⟩

/-- **Deliveries on the grid of the period**: the multiples that were delivered are `ks`, the
source waits for the multiple `n`, and all of them together go up from zero. -/
structure OnGrid (i : Interval) (ds : List (Instant × Nat)) (j : Interval) (ks : List Nat)
    (n : Nat) : Prop where
  period : j.period = i.period
  deadline : j.deadline = i.deadline + n * i.period
  readings : ds.map (·.1) = ks.map i.multiple
  first : (ks ++ [n]).head? = some 0
  increasing : (ks ++ [n]).Pairwise (· < ·)
  noticed : ∀ x ∈ ds, x.1.nanos ≤ x.2
  punctual : (∀ x ∈ ds, x.2 ≤ x.1.nanos + tolerance) → ks = List.range n

/-- One delivery more is that of the multiple that the source waits for. -/
theorem OnGrid.another {ks : List Nat} {n : Nat} (h : OnGrid i ds j ks n)
    (next : j.next now = (.reading t, k)) :
    ∃ m, OnGrid i (ds ++ [(t, now)]) k (ks ++ [n]) m := by
  obtain ⟨rfl, due, rfl⟩ := next_eq_reading next
  obtain ⟨missed, deadline, early⟩ := deadline_advance due
  refine ⟨n + (missed + 1), ?_⟩
  constructor
  case period => rw [period_advance, h.period]
  case deadline => rw [deadline, h.deadline, h.period, Nat.add_assoc, ← Nat.add_mul]
  case readings =>
    rw [List.map_append, List.map_append, h.readings, List.map_singleton, List.map_singleton,
      multiple, h.deadline]
  case first => rw [List.head?_append, h.first, Option.some_or]
  case increasing =>
    refine List.pairwise_append.2 ⟨h.increasing, List.pairwise_singleton _ _, ?_⟩
    intro a ha b hb
    obtain rfl := List.mem_singleton.1 hb
    rcases List.mem_append.1 ha with old | last
    · have below := (List.pairwise_append.1 h.increasing).2.2 a old n (List.mem_singleton_self n)
      omega
    · obtain rfl := List.mem_singleton.1 last
      omega
  case noticed =>
    intro x hx
    rcases List.mem_append.1 hx with old | last
    · exact h.noticed x old
    · obtain rfl := List.mem_singleton.1 last
      exact Int.ofNat_le.2 due
  case punctual =>
    intro timely
    have before := h.punctual fun x hx => timely x (List.mem_append_left _ hx)
    have here : (now : Int) ≤ (j.deadline : Int) + tolerance :=
      timely (⟨j.deadline⟩, now) (List.mem_append_right _ (List.mem_singleton_self _))
    obtain rfl := early (by omega)
    rw [before]
    exact List.range_succ.symm

/-- **A source delivers on the grid of its period.** -/
theorem Delivers.onGrid (h : i.Delivers ds j) : ∃ ks n, OnGrid i ds j ks n := by
  induction h with
  | nothing =>
    refine ⟨[], 0, rfl, ?_, rfl, rfl, List.pairwise_singleton _ _, ?_, fun _ => rfl⟩
    · rw [Nat.zero_mul, Nat.add_zero]
    · intro x hx
      cases hx
  | another before next ih =>
    obtain ⟨ks, n, grid⟩ := ih
    obtain ⟨m, grid⟩ := grid.another next
    exact ⟨_, m, grid⟩

/-! ## How far apart -/

variable {ks : List Nat} {n : Nat}

theorem multiple_succ (i : Interval) (k : Nat) :
    (i.multiple (k + 1)).nanos = (i.multiple k).nanos + i.period := by
  have whole : (k + 1) * i.period = k * i.period + i.period := Nat.succ_mul k i.period
  rw [multiple, multiple, whole]
  dsimp only
  omega

theorem multiple_apart (i : Interval) {k m : Nat} (h : k < m) :
    (i.multiple k).nanos + (i.period : Int) ≤ (i.multiple m).nanos := by
  have whole : (k + 1) * i.period ≤ m * i.period := Nat.mul_le_mul_right _ h
  rw [← i.multiple_succ, multiple, multiple]
  dsimp only
  omega

/-- **Deliveries are a period or more apart.** -/
theorem OnGrid.apart (grid : OnGrid i ds j ks n) :
    (ds.map (·.1)).Pairwise fun (t u : Instant) => t.nanos + (i.period : Int) ≤ u.nanos := by
  rw [grid.readings, List.pairwise_map]
  exact (List.pairwise_append.1 grid.increasing).1.imp i.multiple_apart

/-- And so is the next one. -/
theorem OnGrid.next_apart (grid : OnGrid i ds j ks n) :
    ∀ t ∈ ds.map (·.1), t.nanos + (i.period : Int) ≤ j.deadline := by
  rw [grid.readings, grid.deadline, List.forall_mem_map]
  intro k hk
  have below := (List.pairwise_append.1 grid.increasing).2.2 k hk n (List.mem_singleton_self n)
  exact i.multiple_apart below

/-- **The first delivery is at the creation.** -/
theorem OnGrid.first_eq (grid : OnGrid i ds j ks n) {t : Instant} {rest : List Instant}
    (readings : ds.map (·.1) = t :: rest) : t = ⟨i.deadline⟩ := by
  rw [grid.readings] at readings
  obtain ⟨k, ks, rfl, rfl, -⟩ := List.map_eq_cons_iff.1 readings
  obtain rfl : k = 0 := Option.some.inj grid.first
  rw [multiple, Nat.zero_mul, Nat.add_zero]

/-- **Deliveries in time pass no multiple over.** -/
theorem OnGrid.reading_eq (grid : OnGrid i ds j ks n)
    (timely : ∀ x ∈ ds, x.2 ≤ x.1.nanos + tolerance) {pre post : List Instant} {t : Instant}
    (split : ds.map (·.1) = pre ++ t :: post) : t = i.multiple pre.length := by
  have place : ((List.range n).map i.multiple)[pre.length]? = some t := by
    rw [← grid.punctual timely, ← grid.readings, split]
    simp
  rw [List.getElem?_map, Option.map_eq_some_iff] at place
  obtain ⟨m, here, rfl⟩ := place
  obtain ⟨inside, same⟩ := List.getElem?_eq_some_iff.1 here
  rw [← same, List.getElem_range]

end FrameLoop.Interval

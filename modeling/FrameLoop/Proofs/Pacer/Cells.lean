import FrameLoop.Proofs.Pacer
import Mathlib.Data.List.Induction

/-!
# One tick for each cell

Under a constant frame delay the first reading lays out a grid: the time line is cut into
cells, each one delay long, and the first reading begins the cell number zero. The pacer
then ticks once for each cell that it is shown to have been reached, and not again for a
cell at or before one that it has seen (`ticks_once_per_cell`). Readings may be repeated
or go back.

One fact carries it. The reference is always the beginning of the highest cell seen so far
(`evaluate_on_grid`), although it is computed from the reading and from a remainder that is
kept in 64 bits.
-/

namespace FrameLoop

/-- **The cell of a reading**: how many whole delays it is after the origin, rounded down,
so that a reading before the origin has a negative one. -/
def Instant.cell (origin : Instant) (d : Duration) (t : Instant) : Int :=
  (t.nanos - origin.nanos) / d.nanos

namespace Pacer

variable {origin : Instant} {d : Duration}

/-- A reading is in a cell above `top` exactly if it is a delay or more after the beginning
of `top`. -/
theorem lt_cell_iff (pos : 0 < d.nanos) (origin t : Instant) (top : Int) :
    top < origin.cell d t ↔ origin.nanos + d.nanos * top + d.nanos ≤ t.nanos := by
  have positive : (0 : Int) < d.nanos := Int.natCast_pos.2 pos
  rw [← Int.add_one_le_iff, Instant.cell, Int.le_ediv_iff_mul_le positive, Int.add_mul,
    Int.one_mul, Int.mul_comm top]
  omega

/-- **A pacer whose reference begins the cell `top`** ticks for a reading in a cell above,
and then its reference begins that cell. -/
theorem evaluate_on_grid (pos : 0 < d.nanos) (short : d.nanos ≤ UInt64.size) {p : Pacer} {top : Int}
    (grid : p.reference = some ⟨origin.nanos + d.nanos * top⟩) (t : Instant) :
    ((p.evaluate t d).1 = true ↔ top < origin.cell d t) ∧
      (p.evaluate t d).2.reference =
        some ⟨origin.nanos + d.nanos * max top (origin.cell d t)⟩ := by
  have above := lt_cell_iff pos origin t top
  unfold evaluate
  rw [grid]
  dsimp only
  split
  · next early =>
    have below : ¬ top < origin.cell d t := by
      simp only [Instant.since] at early
      omega
    refine ⟨iff_of_false Bool.false_ne_true below, ?_⟩
    rw [grid, Int.max_eq_left (Int.not_lt.1 below)]
  · next late =>
    have due : top < origin.cell d t := by
      simp only [Instant.since] at late
      omega
    refine ⟨iff_of_true rfl due, ?_⟩
    -- What is carried is the reading's distance from the beginning of its cell.
    have carries : ((t.since ⟨origin.nanos + d.nanos * top⟩ % d.nanos : Nat) : Int) =
        (t.nanos - origin.nanos) % d.nanos := by
      have whole : ((t.since ⟨origin.nanos + d.nanos * top⟩ : Nat) : Int) =
          t.nanos - origin.nanos - d.nanos * top := by
        simp only [Instant.since]
        omega
      rw [Int.natCast_emod, whole, Int.sub_mul_emod_self_left]
    have parts := Int.emod_add_mul_ediv (t.nanos - origin.nanos) d.nanos
    have begins : t.nanos - (t.nanos - origin.nanos) % d.nanos =
        origin.nanos + d.nanos * ((t.nanos - origin.nanos) / d.nanos) := by omega
    rw [carried_of_le pos short, Int.max_eq_right (Int.le_of_lt due), Instant.back, carries, begins,
      Instant.cell]

/-! ## Any number of readings -/

/-- The highest cell after one more reading. -/
theorem highest_concat {readings : List Instant} {top : Int}
    (highest : ((origin :: readings).map (origin.cell d)).max? = some top) (t : Instant) :
    ((origin :: (readings ++ [t])).map (origin.cell d)).max? =
      some (max top (origin.cell d t)) := by
  rw [List.map_cons, List.max?_cons'] at highest ⊢
  rw [List.map_append, List.foldl_append, Option.some.inj highest]
  rfl

/-- **The reference begins the highest cell seen.** -/
theorem reference_after (pos : 0 < d.nanos) (short : d.nanos ≤ UInt64.size) (origin : Instant)
    (readings : List Instant) :
    ∃ top, ((origin :: readings).map (origin.cell d)).max? = some top ∧
      (({} : Pacer).after ((origin :: readings).map (·, d))).reference =
        some ⟨origin.nanos + d.nanos * top⟩ := by
  induction readings using List.reverseRecOn with
  | nil =>
    refine ⟨0, ?_, ?_⟩
    · simp [Instant.cell]
    · simp [after, evaluate]
  | append_singleton readings t ih =>
    obtain ⟨top, highest, grid⟩ := ih
    refine ⟨_, highest_concat highest t, ?_⟩
    rw [← List.cons_append, List.map_append, List.map_singleton, after_concat]
    exact (evaluate_on_grid pos short grid t).2

/-- The latest of some readings. -/
def Latest (readings : List Instant) (t : Instant) : Prop :=
  t ∈ readings ∧ ∀ u ∈ readings, u.nanos ≤ t.nanos

/-- **No reading is more than a delay later than the latest before it.** -/
def Gapless (d : Duration) (readings : List Instant) : Prop :=
  ∀ pre t post, readings = pre ++ t :: post →
    ∀ latest, Latest pre latest → t.nanos ≤ latest.nanos + d.nanos

theorem Gapless.init {readings : List Instant} {t : Instant} (h : Gapless d (readings ++ [t])) :
    Gapless d readings := by
  intro pre u post split
  exact h pre u (post ++ [t]) (by rw [split, List.append_assoc]; rfl)

/-- The latest reading is in the highest cell. -/
theorem highest_of_latest (pos : 0 < d.nanos) (origin : Instant) {readings : List Instant}
    {latest : Instant} (h : Latest readings latest) :
    (readings.map (origin.cell d)).max? = some (origin.cell d latest) := by
  rw [List.max?_eq_some_iff, List.forall_mem_map]
  refine ⟨List.mem_map_of_mem h.1, ?_⟩
  intro u hu
  have later := h.2 u hu
  exact Int.ediv_le_ediv (Int.natCast_pos.2 pos) (by omega)

/-- One of some readings is the latest. -/
theorem exists_latest (t : Instant) (readings : List Instant) :
    ∃ latest, Latest (t :: readings) latest := by
  obtain ⟨top, highest⟩ : ∃ top, ((t :: readings).map (·.nanos)).max? = some top :=
    ⟨_, List.max?_cons'⟩
  rw [List.max?_eq_some_iff, List.forall_mem_map] at highest
  obtain ⟨latest, here, rfl⟩ := List.mem_map.1 highest.1
  exact ⟨latest, here, highest.2⟩

/-- **There are no more ticks than cells up to the highest one seen**, and as many if the
readings leave no gap. -/
theorem dueCount_cells (pos : 0 < d.nanos) (short : d.nanos ≤ UInt64.size) (origin : Instant)
    (readings : List Instant) {top : Int}
    (highest : ((origin :: readings).map (origin.cell d)).max? = some top) :
    (({} : Pacer).dueCount ((origin :: readings).map (·, d)) : Int) ≤ 1 + top ∧
      (Gapless d (origin :: readings) →
        (({} : Pacer).dueCount ((origin :: readings).map (·, d)) : Int) = 1 + top) := by
  induction readings using List.reverseRecOn generalizing top with
  | nil =>
    obtain rfl : 0 = top := by simpa [Instant.cell] using highest
    simp [dueCount, run, evaluate]
  | append_singleton readings t ih =>
    obtain ⟨before, seen, grid⟩ := reference_after pos short origin readings
    obtain ⟨few, all⟩ := ih seen
    obtain rfl : max before (origin.cell d t) = top :=
      Option.some.inj ((highest_concat seen t).symm.trans highest)
    have ticks := (evaluate_on_grid pos short grid t).1
    rw [← List.cons_append, List.map_append, List.map_singleton, dueCount_concat]
    constructor
    · split
      · next due =>
        have new := ticks.1 due
        push_cast
        omega
      · push_cast
        omega
    · intro gapless
      have exactly := all gapless.init
      -- The reading is at most one cell above all before it.
      have near : origin.cell d t ≤ before + 1 := by
        obtain ⟨latest, isLatest⟩ := exists_latest origin readings
        have close := gapless _ t [] rfl latest isLatest
        obtain rfl : origin.cell d latest = before :=
          Option.some.inj ((highest_of_latest pos origin isLatest).symm.trans seen)
        have within := (lt_cell_iff pos origin latest (origin.cell d latest)).not.1
          (Int.lt_irrefl _)
        rw [← Int.not_lt, lt_cell_iff pos, Int.mul_add, Int.mul_one]
        omega
      split
      · next due =>
        have new := ticks.1 due
        push_cast
        omega
      · next declined =>
        have old := ticks.not.1 declined
        push_cast
        omega

/-- **The pacer ticks once for each cell that is reached.** Of readings taken to a new
pacer under a frame delay that a scheduler can hold, which is any that is not zero, cut off
at 64 bits: the pacer ticks for a reading exactly if it is the first or is in a cell above
those of all readings before it, and then its reference begins the highest cell so far.
There are at most as many ticks as cells from the first reading's to the latest's, and
just as many if no reading comes more than a delay after the latest before it. -/
theorem ticks_once_per_cell (delay : Duration) (pos : 0 < delay.nanos) (first : Instant)
    (rest : List Instant) :
    let d := delay.saturated
    let readings := first :: rest
    let answers := ({} : Pacer).run (readings.map (·, d))
    answers.length = readings.length ∧
      (∀ pre t post, readings = pre ++ t :: post →
        ∃ ticked p top, answers[pre.length]? = some (ticked, p) ∧
          (ticked = true ↔ pre = [] ∨ ∀ u ∈ pre, first.cell d u < first.cell d t) ∧
          ((pre ++ [t]).map (first.cell d)).max? = some top ∧
          p.reference = some ⟨first.nanos + d.nanos * top⟩) ∧
      ∀ latest, Latest readings latest →
        (answers.countP (·.1) : Int) ≤ 1 + first.cell d latest ∧
          (Gapless d readings → (answers.countP (·.1) : Int) = 1 + first.cell d latest) := by
  intro d readings answers
  have held : 0 < d.nanos ∧ d.nanos ≤ UInt64.size := by
    have size : UInt64.size = 18446744073709551616 := rfl
    simp only [d, Duration.saturated_nanos]
    omega
  obtain ⟨positive, short⟩ := held
  refine ⟨?_, ?_, ?_⟩
  · rw [length_run, List.length_map]
  · intro pre t post split
    have answer : answers[pre.length]? =
        some ((({} : Pacer).after (pre.map (·, d))).evaluate t d) := by
      have here := ({} : Pacer).getElem?_run (pre.map (·, d)) (t, d) (post.map (·, d))
      rw [List.length_map] at here
      simpa only [answers, split, List.map_append, List.map_cons] using here
    cases pre with
    | nil =>
      obtain ⟨rfl, -⟩ := List.cons.inj split
      refine ⟨_, _, 0, answer, iff_of_true rfl (.inl rfl), ?_, ?_⟩
      · simp [Instant.cell]
      · simp
    | cons u pre =>
      obtain ⟨rfl, -⟩ := List.cons.inj split
      obtain ⟨top, highest, grid⟩ := reference_after positive short first pre
      obtain ⟨ticks, begins⟩ := evaluate_on_grid positive short grid t
      refine ⟨_, _, _, answer, ?_, highest_concat highest t, begins⟩
      rw [List.max?_eq_some_iff, List.forall_mem_map] at highest
      refine ticks.trans ⟨?_, ?_⟩
      · intro above
        exact .inr fun v hv => Int.lt_of_le_of_lt (highest.2 v hv) above
      · rintro (none | above)
        · cases none
        · obtain ⟨v, hv, same⟩ := List.mem_map.1 highest.1
          exact same ▸ above v hv
  · intro latest isLatest
    exact dueCount_cells positive short first rest (highest_of_latest positive first isLatest)

/-- Six readings under a delay of 16 nanoseconds: one is early, one goes back, one is
repeated, and the last comes late. -/
def unevenReadings : List Instant := [⟨100⟩, ⟨110⟩, ⟨90⟩, ⟨131⟩, ⟨131⟩, ⟨150⟩]

/-- Cells 0, 1 and 3 are reached, so there are three ticks, and the last reference is the
beginning of cell 3. The last reading comes 19 nanoseconds after the latest before it, and
cell 2 is passed over. -/
theorem ticks_once_per_cell_of_unevenReadings :
    0 < (Duration.ofNanos 16).nanos ∧
      (({} : Pacer).run (unevenReadings.map (·, (Duration.ofNanos 16).saturated))).map (·.1) =
        [true, false, false, true, false, true] ∧
      (∃ p, (({} : Pacer).run
          (unevenReadings.map (·, (Duration.ofNanos 16).saturated)))[5]? = some (true, p) ∧
        p.reference = some ⟨100 + 16 * 3⟩) ∧
      ((({} : Pacer).run
        (unevenReadings.map (·, (Duration.ofNanos 16).saturated))).countP (·.1) : Int) ≤
          1 + 3 := by
  have pos : 0 < (Duration.ofNanos 16).nanos := by decide
  obtain ⟨-, each, bound⟩ :=
    ticks_once_per_cell (Duration.ofNanos 16) pos ⟨100⟩ [⟨110⟩, ⟨90⟩, ⟨131⟩, ⟨131⟩, ⟨150⟩]
  have values : (({} : Pacer).run
      (unevenReadings.map (·, (Duration.ofNanos 16).saturated))).map (·.1) =
        [true, false, false, true, false, true] := by
    decide
  refine ⟨pos, values, ?_, ?_⟩
  · obtain ⟨ticked, p, top, answer, ticks, highest, begins⟩ :=
      each [⟨100⟩, ⟨110⟩, ⟨90⟩, ⟨131⟩, ⟨131⟩] ⟨150⟩ [] rfl
    obtain rfl : ticked = true := ticks.2 (.inr (by decide))
    obtain rfl : 3 = top := Option.some.inj ((by decide : _ = some (3 : Int)).symm.trans highest)
    exact ⟨p, answer, begins⟩
  · exact (bound ⟨150⟩ ⟨by decide, by decide⟩).1

end Pacer

end FrameLoop

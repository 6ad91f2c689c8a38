import FrameLoop.Proofs.Interval
import FrameLoop.Proofs.Pacer.Cells
import FrameLoop.Proofs.Wakeups
import FrameLoop.Proofs.Wakeups.Roused

/-!
# The rate of a loop

A loop on a source at a fixed rate has two grids on one time line, the period of the source
and the frame delay of the pacer, and both begin where the source was created. What the source
delivers is on the first grid (`Interval.OnGrid`), and a tick starts for a delivery in a new
cell of the second (`Pacer.dueCount_cells`). Between the two stands the driver, which may look
up as late as it likes.

`interval_rate` puts them together. However late the driver looks up, the ticks are never more
than the delays that have passed, and one. If it is in time, and the period is not longer than
the delay, they are just as many.

**What this does not say.** If wake-ups are noticed late, or the period is longer than the
delay, there may be fewer ticks, and nothing is said of how many. Nor is a driver made to look
up: that is for the host to see to.
-/

namespace FrameLoop

namespace Interval

variable {i j : Interval} {ds : List (Instant × Nat)} {ks : List Nat} {n T : Nat} {d : Duration}

/-! ## The pacer on the grid -/

/-- The last reading is the latest. -/
theorem OnGrid.latest (grid : OnGrid i ds j ks n) {pre : List Instant} {t : Instant}
    (split : ds.map (·.1) = pre ++ [t]) : Pacer.Latest (ds.map (·.1)) t := by
  have apart := grid.apart
  rw [split] at apart ⊢
  have before := (List.pairwise_append.1 apart).2.2
  refine ⟨List.mem_append_right _ (List.mem_singleton_self t), ?_⟩
  intro u hu
  rcases List.mem_append.1 hu with old | last
  · have far := before u old t (List.mem_singleton_self t)
    omega
  · obtain rfl := List.mem_singleton.1 last
    exact Int.le_refl _

/-- **Deliveries in time leave no gap** for a delay of a period or more. -/
theorem OnGrid.gapless (grid : OnGrid i ds j ks n) (long : i.period ≤ d.nanos)
    (timely : ∀ x ∈ ds, x.2 ≤ x.1.nanos + tolerance) : Pacer.Gapless d (ds.map (·.1)) := by
  intro pre t post split latest isLatest
  obtain rfl | ⟨earlier, u, rfl⟩ := pre.eq_nil_or_concat'
  · cases isLatest.1
  · have now := grid.reading_eq timely split
    have before : ds.map (·.1) = earlier ++ u :: t :: post := by
      rw [split, List.append_assoc]
      rfl
    have last := grid.reading_eq timely before
    have below := isLatest.2 u (List.mem_append_right _ (List.mem_singleton_self u))
    rw [List.length_append, List.length_singleton] at now
    rw [now, multiple_succ, ← last]
    omega

/-- **Under a delay the ticks are no more than the delays that have passed**, and one. -/
theorem OnGrid.dueCount_le (grid : OnGrid i ds j ks n) (pos : 0 < d.nanos)
    (short : d.nanos ≤ UInt64.size) (seen : ∀ x ∈ ds, x.2 ≤ i.deadline + T) :
    ({} : Pacer).dueCount ((ds.map (·.1)).map (·, d)) ≤ T / d.nanos + 1 := by
  cases readings : ds.map (·.1) with
  | nil => exact Nat.zero_le _
  | cons t rest =>
    obtain rfl := grid.first_eq readings
    obtain ⟨latest, isLatest⟩ := Pacer.exists_latest ⟨i.deadline⟩ rest
    have highest := Pacer.highest_of_latest pos ⟨i.deadline⟩ isLatest
    have few := (Pacer.dueCount_cells pos short ⟨i.deadline⟩ rest highest).1
    have within : Instant.cell ⟨i.deadline⟩ d latest ≤ (T / d.nanos : Nat) := by
      obtain ⟨x, hx, rfl⟩ := List.mem_map.1 (readings ▸ isLatest.1)
      have noticed := grid.noticed x hx
      have soon := seen x hx
      rw [Int.natCast_ediv]
      apply Int.ediv_le_ediv (Int.natCast_pos.2 pos)
      show x.1.nanos - i.deadline ≤ T
      omega
    omega

/-- **Every delivery is due**, if the delay is not longer than the period. -/
theorem OnGrid.dueCount_length (grid : OnGrid i ds j ks n) (often : d.nanos ≤ i.period) :
    ({} : Pacer).dueCount ((ds.map (·.1)).map (·, d)) = ds.length := by
  rw [Pacer.dueCount_of_apart, List.length_map, List.length_map]
  rw [List.pairwise_map]
  refine grid.apart.imp ?_
  intro t u far
  dsimp only
  omega

/-- And so is the next one. -/
theorem OnGrid.due_next (grid : OnGrid i ds j ks n) (often : d.nanos ≤ i.period) :
    ((({} : Pacer).after ((ds.map (·.1)).map (·, d))).evaluate ⟨j.deadline⟩ d).1 = true := by
  apply Pacer.due_of_apart
  rw [List.forall_mem_map]
  intro t ht
  have far := grid.next_apart t ht
  dsimp only
  omega

/-- **Just as many, if the wake-ups are in time** and as frequent as the delay. -/
theorem OnGrid.dueCount_eq (grid : OnGrid i ds j ks n) (pos : 0 < d.nanos)
    (short : d.nanos ≤ UInt64.size) (long : i.period ≤ d.nanos)
    (timely : ∀ x ∈ ds, x.2 ≤ x.1.nanos + tolerance) {pre : List Instant}
    (split : ds.map (·.1) = pre ++ [⟨i.deadline + T⟩]) :
    ({} : Pacer).dueCount ((ds.map (·.1)).map (·, d)) = T / d.nanos + 1 := by
  have isLatest := grid.latest split
  have gapless := grid.gapless long timely
  cases readings : ds.map (·.1) with
  | nil =>
    rw [readings] at split
    simp at split
  | cons t rest =>
    obtain rfl := grid.first_eq readings
    rw [readings] at isLatest gapless
    have highest := Pacer.highest_of_latest pos ⟨i.deadline⟩ isLatest
    have exactly := (Pacer.dueCount_cells pos short ⟨i.deadline⟩ rest highest).2 gapless
    have offset : Instant.cell ⟨i.deadline⟩ d ⟨i.deadline + T⟩ = (T / d.nanos : Nat) := by
      have whole : (i.deadline + T : Int) - i.deadline = T := by omega
      rw [Int.natCast_ediv, Instant.cell, whole]
    omega

end Interval

namespace World

variable {w : World} {r : SchedulerRef} {e : Event} {es : List Event}

/-! ## What is delivered -/

/-- When the source of a loop gives what its driver goes by if it looks up now. -/
def givenAt (w : World) (r : SchedulerRef) : Nat :=
  ((w.scheduler r).driver.loop?.map (·.askedAt w.clock)).getD w.clock

/-- **What is delivered to a loop at an event**: a reading that is evaluated, with the time at
which the source gave it. -/
def delivery (w : World) (r : SchedulerRef) (e : Event) : Option (Instant × Nat) :=
  (w.evaluation r e).map fun x => (x.1, w.givenAt r)

theorem givenAt_of_waiting {loop : Loop} (waiting : (w.scheduler r).driver = .waiting loop) :
    w.givenAt r = loop.askedAt w.clock := by
  rw [givenAt, waiting]
  rfl

/-- **What has been delivered to a loop**, in order. -/
def deliveries (r : SchedulerRef) (es : List Event) : List (Instant × Nat) :=
  record (delivery · r) es

theorem deliveries_concat (r : SchedulerRef) (es : List Event) (e : Event) :
    deliveries r (es ++ [e]) = deliveries r es ++ ((run es).delivery r e).toList :=
  record_concat _ es e

theorem deliveries_of_untaken (untaken : (run es).evaluation r e = none) :
    deliveries r (es ++ [e]) = deliveries r es := by
  apply record_of_none
  rw [delivery, untaken]
  rfl

/-- Delivered is what is evaluated. -/
theorem readings_deliveries (r : SchedulerRef) (es : List Event) :
    (deliveries r es).map (·.1) = (evaluations r es).map (·.1) := by
  induction es using List.reverseRecOn with
  | nil => rfl
  | append_singleton es e ih =>
    rw [deliveries_concat, evaluations_concat, List.map_append, List.map_append, ih, delivery]
    cases (run es).evaluation r e <;> rfl

/-- What has been delivered was delivered by now. -/
theorem clock_of_delivered (r : SchedulerRef) (es : List Event) :
    ∀ x ∈ deliveries r es, x.2 ≤ (run es).clock := by
  induction es using List.reverseRecOn with
  | nil =>
    intro x hx
    cases hx
  | append_singleton es e ih =>
    intro x hx
    have later := clock_le_concat es e
    rw [deliveries_concat, List.mem_append, Option.mem_toList] at hx
    rcases hx with old | new
    · exact Nat.le_trans (ih x old) later
    · obtain ⟨y, evaluated, rfl⟩ := Option.map_eq_some_iff.1 new
      obtain ⟨-, -, -, loop, waiting⟩ := evaluation_cases evaluated
      dsimp only
      rw [givenAt_of_waiting waiting]
      exact Nat.le_trans (askedAt_le waiting) later

/-! ## A loop on a source at a fixed rate -/

/-- **A loop has been started on a source at a fixed rate**, and what has been delivered to it
is what that delivers. As long as there is a driver it has the source as it is then. -/
structure Metered (i : Interval) (s : Scheduler) (ds : List (Instant × Nat)) : Prop where
  begun : s.state ≠ .idle
  delivers : ∃ j, i.Delivers ds j ∧
    ∀ source pacer, s.driver.gear? = some (source, pacer) → source = .interval j

/-- A reading that is taken is the next one of the source. -/
theorem next_of_taken {j : Interval} {loop : Loop} {t : Instant} (mine : loop.source = .interval j)
    (waiting : (w.scheduler r).driver = .waiting loop) (taken : w.taken r = some t) :
    j.next (loop.askedAt w.clock) = (.reading t, (j.next (loop.askedAt w.clock)).2) := by
  have offered := (offer_of_taken waiting taken).2
  rw [offer, mine] at offered
  exact Prod.ext offered rfl

/-- **Every event keeps a loop to its source.** -/
theorem Metered.concat {i : Interval}
    (h : Metered i ((run es).scheduler r) (deliveries r es)) (e : Event) :
    Metered i ((run (es ++ [e])).scheduler r) (deliveries r (es ++ [e])) := by
  have sound := sound_run es r
  obtain ⟨j, delivers, source⟩ := h.delivers
  refine ⟨?_, ?_⟩
  · intro idle
    rw [run_concat] at idle
    exact h.begun ((turn_step sound e).of_idle sound idle)
  · have turn := loopTurn_step sound e
    rw [← run_concat] at turn
    cases turn with
    | keeps untaken gear =>
      rw [deliveries_of_untaken untaken, gear]
      exact ⟨j, delivers, source⟩
    | starts _ idle => exact absurd idle h.begun
    | @takes loop t poll waiting taken gear =>
      subst poll
      have mine : loop.source = .interval j :=
        source loop.source loop.pacer (by rw [waiting]; rfl)
      rw [deliveries_concat, delivery, evaluation_poll, taken, givenAt_of_waiting waiting]
      refine ⟨_, delivers.another (next_of_taken mine waiting taken), ?_⟩
      intro a b here
      obtain ⟨rfl, -⟩ : _ = a ∧ _ = b := by simpa using gear.symm.trans here
      rw [paced, mine]
      rfl
    | ends untaken _ ended =>
      rw [deliveries_of_untaken untaken, ended]
      refine ⟨j, delivers, ?_⟩
      intro a b here
      cases here

/-- **After every run.** -/
theorem metered_run {i : Interval} {pre : List Event} (can : e.canHappen (run pre) = true)
    (idle : ((run pre).scheduler r).state = .idle)
    (given : (run pre).starts r e = some (.interval i)) (later : pre ++ [e] <+: es) :
    Metered i ((run es).scheduler r) (deliveries r es) := by
  obtain ⟨more, rfl⟩ := later
  induction more using List.reverseRecOn with
  | nil =>
    have driver := driver_of_starts can idle given
    have untaken : (run pre).evaluation r e = none := by
      cases evaluated : (run pre).evaluation r e with
      | none => rfl
      | some x =>
        obtain ⟨-, -, -, loop, waiting⟩ := evaluation_cases evaluated
        rw [((sound_run pre r).of_idle idle).1] at waiting
        cases waiting
    have nothing : deliveries r (pre ++ [e]) = [] := by
      have unread := readings_deliveries r pre
      rw [(paced_run r pre).idle idle] at unread
      rw [deliveries_of_untaken untaken]
      exact List.map_eq_nil_iff.1 unread
    rw [List.append_nil, nothing]
    refine ⟨?_, i, .nothing, ?_⟩
    · intro still
      rw [((sound_run _ r).of_idle still).1] at driver
      cases driver
    · intro a b here
      rw [driver] at here
      cases here
      rfl
  | append_singleton more d ih =>
    rw [← List.append_assoc]
    exact ih.concat d

/-! ## The frame delay -/

/-- **A frame delay is kept in 64 bits.** -/
theorem frameDelay_lt (r : SchedulerRef) (es : List Event) :
    ((run es).scheduler r).frameDelay.nanos < UInt64.size := by
  have held (d : Duration) : d.saturated.nanos < UInt64.size := by
    have size : UInt64.size = 18446744073709551616 := rfl
    rw [Duration.saturated_nanos]
    omega
  refine run_keeps (P := fun w => (w.scheduler r).frameDelay.nanos < UInt64.size) ?_ ?_ es
  · exact held .zero
  · intro w e short
    obtain ⟨quiet, -⟩ | ⟨rfl, step, next⟩ | ⟨j, v, rfl, step, next⟩ := w.step_cases e r
    · generalize w.scheduler r = s at short quiet
      generalize (w.step e).2.scheduler r = s' at quiet
      cases quiet with
      | made loopId frameDelay wakeup => exact held frameDelay
      | paced _ d => exact held d
      | same | scheduled | unregistered | started | asked | roused | released => exact short
    · rw [step, next, frameDelay_lookUp]
      exact short
    · rw [step, next, settle, (Scheduler.returns _ _ j v _).frameDelay]
      exact short

/-! ## The whole -/

/-- **The rate of a loop on a source at a fixed rate**, under one frame delay. The time is that
since the creation of the source. The built-in source of a scheduler (`Scheduler.builtIn`) is
created when the loop is started, so for that it is the time since the start:

* the readings that are delivered are multiples of the period, which is a millisecond at
  least, each at most once, the first of them at the creation, and none before the clock
  has come to it;
* if there is a delay, there are no more ticks than delays that have passed, and one;
* if the delay is not longer than the period, every delivery starts a tick;
* if it is not shorter, and no wake-up was delivered later than the tolerance, there are just
  as many ticks as delays up to the last reading, and one. -/
theorem interval_rate {pre : List Event} {created : Nat} {period d : Duration}
    (can : e.canHappen (run pre) = true) (idle : ((run pre).scheduler r).state = .idle)
    (given : (run pre).starts r e = some (.interval (.start period created)))
    (later : pre ++ [e] <+: es)
    (constant : ∀ a, a <+: es → ((run a).scheduler r).driver.isActive = true →
      ((run a).scheduler r).frameDelay = d) :
    let p := max period.nanos nanosPerMilli
    (∃ ks : List Nat, ks.Pairwise (· < ·) ∧ (∀ k ∈ ks.head?, k = 0) ∧
        (deliveries r es).map (·.1) = ks.map fun k => ⟨(created + k * p : Nat)⟩) ∧
      (∀ x ∈ deliveries r es, x.1.nanos ≤ x.2) ∧
      (0 < d.nanos → ∀ T, (run es).clock ≤ created + T →
        (journal r es).ticks.length ≤ T / d.nanos + 1) ∧
      (d.nanos ≤ p →
        (journal r es).ticks.length = (deliveries r es).length ∧
          ∀ next, (run es).evaluation r next ≠ none → (run es).startsTick r = true) ∧
      (p ≤ d.nanos → (∀ x ∈ deliveries r es, x.2 ≤ x.1.nanos + Interval.tolerance) →
        ∀ T before, (deliveries r es).map (·.1) = before ++ [⟨created + T⟩] →
          (journal r es).ticks.length = T / d.nanos + 1) := by
  intro p
  have metered := metered_run can idle given later
  obtain ⟨j, delivers, source⟩ := metered.delivers
  obtain ⟨ks, n, grid⟩ := delivers.onGrid
  have whole : (Interval.start period created).period = p := Interval.effectivePeriod_nanos period
  have fold := evaluations_of_delay constant
  rw [← readings_deliveries] at fold
  have ticks := (paced_run r es).ticks
  rw [fold] at ticks
  -- The delay is one that the scheduler has held.
  have short : d.nanos ≤ UInt64.size := by
    have started : ((run (pre ++ [e])).scheduler r).driver.isActive = true := by
      rw [driver_of_starts can idle given]
      rfl
    rw [← constant _ later started]
    exact Nat.le_of_lt (frameDelay_lt r _)
  refine ⟨⟨ks, (List.pairwise_append.1 grid.increasing).1, ?_, ?_⟩, grid.noticed, ?_, ?_, ?_⟩
  · intro k hk
    have first := grid.first
    rw [List.head?_append, Option.mem_def.1 hk, Option.some_or] at first
    exact Option.some.inj first
  · rw [grid.readings, ← whole]
    rfl
  · intro pos T now
    rw [ticks]
    apply grid.dueCount_le pos short
    intro x hx
    exact Nat.le_trans (clock_of_delivered r es x hx) now
  · intro often
    have frequent : d.nanos ≤ (Interval.start period created).period := whole ▸ often
    refine ⟨ticks.trans (grid.dueCount_length frequent), ?_⟩
    intro next evaluated
    obtain ⟨x, evaluation⟩ := Option.ne_none_iff_exists'.1 evaluated
    obtain ⟨-, taken, -, loop, waiting⟩ := evaluation_cases evaluation
    have gear : ((run es).scheduler r).driver.gear? = some (loop.source, loop.pacer) := by
      rw [waiting]
      rfl
    have reading := next_of_taken (source _ _ gear) waiting taken
    have delay := constant es (List.prefix_refl es) (by rw [waiting]; rfl)
    rw [startsTick_of_taken waiting taken, delay, (paced_run r es).pacer _ _ gear, fold,
      (Interval.next_eq_reading reading).1]
    exact grid.due_next frequent
  · intro long timely T before last
    have pos : 0 < p := Nat.lt_of_lt_of_le (by decide) (Nat.le_max_right _ _)
    rw [ticks]
    exact grid.dueCount_eq (Nat.lt_of_lt_of_le pos long) short (whole ▸ long) timely last

/-- The beginning of a run: a scheduler with one job, and wake-ups every two milliseconds. -/
def steadyStart (delay : Duration) : List Event :=
  [.newJob "worker", .newScheduler ⟨"loop"⟩ delay (.ofMillis 2), .schedule 0 0, .pass 1000]

/-- The driver looks up, and a tick that starts then drains. -/
def beat : List Event := [.poll 0, .returned 0 0 (.outcome .resume)]

/-- The loop is started on the built-in source. The first three wake-ups are in time. -/
def steadyRun (delay : Duration) : List Event :=
  steadyStart delay ++ [.start 0 (.interval (.start (.ofMillis 2) 1000))] ++
    (beat ++ [.pass 2000000] ++ beat ++ [.pass 2000000] ++ beat)

/-- The fourth is noticed seven milliseconds late, and three others are passed over. -/
def stalledRun (delay : Duration) : List Event :=
  steadyRun delay ++ ([.pass 9000000] ++ beat ++ [.pass 1000000] ++ beat)

/-- With a delay of four milliseconds there are two ticks in the first four milliseconds, and
four at most in fourteen, for all the stall. With a delay of two, all five deliveries start a
tick. -/
theorem interval_rate_of_stalledRun :
    ((run (steadyStart (.ofMillis 4))).scheduler 0).builtIn
        (run (steadyStart (.ofMillis 4))).clock = .interval (.start (.ofMillis 2) 1000) ∧
      (deliveries 0 (stalledRun (.ofMillis 4))).map (·.1) =
        [⟨1000⟩, ⟨2001000⟩, ⟨4001000⟩, ⟨6001000⟩, ⟨14001000⟩] ∧
      (journal 0 (steadyRun (.ofMillis 4))).ticks.length = 2 ∧
      (journal 0 (stalledRun (.ofMillis 4))).ticks.length ≤ 4 ∧
      (journal 0 (stalledRun (.ofMillis 2))).ticks.length = 5 := by
  have steady (delay : Duration) :
      steadyStart delay ++ [.start 0 (.interval (.start (.ofMillis 2) 1000))] <+:
        steadyRun delay := List.prefix_append _ _
  have stalled (delay : Duration) :
      steadyStart delay ++ [.start 0 (.interval (.start (.ofMillis 2) 1000))] <+:
        stalledRun delay := (steady delay).trans (List.prefix_append _ _)
  obtain ⟨-, -, -, -, exactly⟩ := interval_rate (r := 0) (d := .ofMillis 4) rfl rfl rfl
    (steady (.ofMillis 4)) (forall_of_inits (by decide))
  obtain ⟨-, -, bound, -, -⟩ := interval_rate (r := 0) (d := .ofMillis 4) rfl rfl rfl
    (stalled (.ofMillis 4)) (forall_of_inits (by decide))
  obtain ⟨-, -, -, every, -⟩ := interval_rate (r := 0) (d := .ofMillis 2) rfl rfl rfl
    (stalled (.ofMillis 2)) (forall_of_inits (by decide))
  refine ⟨rfl, by decide, ?_, ?_, ?_⟩
  · exact exactly (by decide) (by decide) 4000000 [⟨1000⟩, ⟨2001000⟩] (by decide)
  · exact bound (by decide) 14000000 (by decide)
  · exact (every (by decide)).1.trans (by decide)

end World

end FrameLoop

import FrameLoop.Proofs.Pacer.Cells

/-!
# Where the reference goes

The frame delay may be another at every wake-up, so there is no grid to stand on. What is
left is said of one evaluation, and it holds for every delay that is not zero, up to the
longest span there is.

A pacer that has a reference ticks exactly if the reading is a delay or more later
(`evaluate_of_early`, `evaluate_of_due`). The new reference lies a delay or more after the
old one, not after the reading, and less than a delay before it (`reference_advances`). That
needs only that what is carried is not more than the remainder. So the delays in force at
the ticks add up to no more than the time that has gone by (`delays_within_span`).

That what is carried *is* the remainder is another matter. It is kept in 64 bits of
nanoseconds, and with a delay of more than 2^64 nanoseconds the remainder need not fit.
`reference_on_grid_iff` says when the reference goes on by a whole number of delays and when
it does not; `long_delay_off_grid` is an evaluation after which it does not.
-/

namespace FrameLoop.Pacer

variable {p : Pacer} {r t : Instant} {d : Duration}

/-! ## One evaluation -/

/-- What is carried is not more than the remainder. -/
theorem carried_le (elapsed delay : Nat) : carried elapsed delay ≤ elapsed % delay := by
  unfold carried
  split
  · exact Nat.zero_le _
  · exact Nat.mod_le _ _

/-- A reading less than a delay after the reference is no tick. -/
theorem evaluate_of_early (pos : 0 < d.nanos) (known : p.reference = some r)
    (early : t.nanos < r.nanos + d.nanos) : p.evaluate t d = (false, p) := by
  have short : t.since r < d.nanos := by
    rw [Instant.since]
    omega
  rw [evaluate, known]
  exact if_pos short

/-- A reading a delay or more after the reference is one. -/
theorem evaluate_of_due (known : p.reference = some r) (due : r.nanos + d.nanos ≤ t.nanos) :
    p.evaluate t d = (true, ⟨some (t.back (carried (t.since r) d.nanos))⟩) := by
  have long : ¬ t.since r < d.nanos := by
    rw [Instant.since]
    omega
  rw [evaluate, known]
  exact if_neg long

/-- **The reference moves on by a delay or more**, not beyond the reading, and comes to
less than a delay before it. -/
theorem reference_advances (pos : 0 < d.nanos) (known : p.reference = some r)
    (due : r.nanos + d.nanos ≤ t.nanos) :
    ∃ r', (p.evaluate t d).2.reference = some r' ∧ r.nanos + d.nanos ≤ r'.nanos ∧
      r'.nanos ≤ t.nanos ∧ t.nanos - r'.nanos < d.nanos := by
  have few := carried_le (t.since r) d.nanos
  have less := Nat.mod_lt (t.since r) pos
  -- A whole delay has gone by, so what is carried is what lies beyond it, at most.
  have beyond : t.since r % d.nanos + d.nanos ≤ t.since r := by
    have elapsed : d.nanos ≤ t.since r := by
      rw [Instant.since]
      omega
    have whole : d.nanos * 1 ≤ d.nanos * (t.since r / d.nanos) :=
      Nat.mul_le_mul_left _ (Nat.div_pos elapsed pos)
    have parts := Nat.mod_add_div (t.since r) d.nanos
    omega
  rw [evaluate_of_due known due]
  refine ⟨_, rfl, ?_⟩
  rw [Instant.since] at few less beyond
  simp only [Instant.back, Instant.since]
  omega

/-! ## Delays that add up -/

/-- **The delays in force at the wake-ups that become ticks.** -/
def tickDelays (p : Pacer) (ws : List (Instant × Duration)) : List Duration :=
  ((ws.zip (p.run ws)).filter (·.2.1)).map (·.1.2)

/-- Some spans, one after another. -/
def total (ds : List Duration) : Nat := ds.foldr (fun d n => d.nanos + n) 0

theorem total_concat (ds : List Duration) (d : Duration) :
    total (ds ++ [d]) = total ds + d.nanos := by
  induction ds with
  | nil => exact (Nat.zero_add _).symm
  | cons e ds ih =>
    show e.nanos + total (ds ++ [d]) = e.nanos + total ds + d.nanos
    rw [ih, Nat.add_assoc]

theorem tickDelays_concat (p : Pacer) (ws : List (Instant × Duration)) (w : Instant × Duration) :
    p.tickDelays (ws ++ [w]) =
      p.tickDelays ws ++ if ((p.after ws).evaluate w.1 w.2).1 then [w.2] else [] := by
  rw [tickDelays, run_concat, List.zip_append (p.length_run ws).symm, List.filter_append,
    List.map_append]
  congr 1
  cases due : ((p.after ws).evaluate w.1 w.2).1 <;> simp [due]

/-- The first wake-up of all is a tick, and the pacer goes on from its reading. -/
theorem tickDelays_first (w : Instant × Duration) (ws : List (Instant × Duration)) :
    ({} : Pacer).tickDelays (w :: ws) = w.2 :: (⟨some w.1⟩ : Pacer).tickDelays ws := rfl

/-- **A pacer that has a reference keeps one, and it moves on by no less than the delays in
force at the ticks.** -/
theorem total_le_reference {ws : List (Instant × Duration)} (pos : ∀ w ∈ ws, 0 < w.2.nanos)
    (r : Instant) :
    ∃ r', ((⟨some r⟩ : Pacer).after ws).reference = some r' ∧
      r.nanos + total ((⟨some r⟩ : Pacer).tickDelays ws) ≤ r'.nanos := by
  induction ws using List.reverseRecOn with
  | nil => exact ⟨r, rfl, Int.le_of_eq (Int.add_zero _)⟩
  | append_singleton ws w ih =>
    obtain ⟨r₁, known, moved⟩ := ih fun v hv => pos v (List.mem_append_left _ hv)
    have positive := pos w (List.mem_append_right _ List.mem_cons_self)
    rw [after_concat, tickDelays_concat]
    by_cases due : r₁.nanos + w.2.nanos ≤ w.1.nanos
    · obtain ⟨r₂, next, further, -⟩ := reference_advances positive known due
      have ticks : (((⟨some r⟩ : Pacer).after ws).evaluate w.1 w.2).1 = true := by
        rw [evaluate_of_due known due]
      refine ⟨r₂, next, ?_⟩
      rw [ticks, if_pos rfl, total_concat]
      push_cast
      omega
    · rw [evaluate_of_early positive known (Int.not_le.1 due), if_neg Bool.false_ne_true,
        List.append_nil]
      exact ⟨r₁, known, moved⟩

/-- Once a wake-up has been taken to it, a pacer has a reference. -/
theorem exists_reference {ws : List (Instant × Duration)} (pos : ∀ w ∈ ws, 0 < w.2.nanos)
    (some : ws ≠ []) : ∃ r, (({} : Pacer).after ws).reference = Option.some r := by
  obtain ⟨w, rest, rfl⟩ := List.exists_cons_of_ne_nil some
  obtain ⟨r, known, -⟩ :=
    total_le_reference (fun v hv => pos v (List.mem_cons_of_mem w hv)) w.1
  exact ⟨r, known⟩

/-- **Ticks are no closer together than the delays in force**, whatever the readings and
whatever the delays, which may change at every wake-up. The first wake-up is a tick, and its
reading the first reference. After it a wake-up that is declined leaves the pacer as it is,
and one that becomes a tick moves the reference on by its delay or more, not beyond the
reading, to less than a delay before it. So the delays in force at all ticks after the first
add up to no more than the time from the first reading to the latest. -/
theorem delays_within_span (ws : List (Instant × Duration)) (pos : ∀ w ∈ ws, 0 < w.2.nanos) :
    (∀ pre t d post, ws = pre ++ (t, d) :: post →
      let before := ({} : Pacer).after pre
      let answer := before.evaluate t d
      (({} : Pacer).run ws)[pre.length]? = some answer ∧
        (pre = [] → answer = (true, ⟨some t⟩)) ∧
        (pre ≠ [] → ∃ r, before.reference = some r ∧
          (answer.1 = false → answer.2 = before) ∧
          (answer.1 = true → ∃ r', answer.2.reference = some r' ∧
            r.nanos + d.nanos ≤ r'.nanos ∧ r'.nanos ≤ t.nanos ∧
            t.nanos - r'.nanos < d.nanos))) ∧
      ∀ first latest, (ws.map (·.1)).head? = some first → Latest (ws.map (·.1)) latest →
        (total (({} : Pacer).tickDelays ws).tail : Int) ≤ latest.nanos - first.nanos := by
  refine ⟨?_, ?_⟩
  · rintro pre t d post rfl
    refine ⟨getElem?_run _ pre (t, d) post, ?_, ?_⟩
    · rintro rfl
      rfl
    · intro later
      have positive : 0 < d.nanos := pos (t, d) (List.mem_append_right _ List.mem_cons_self)
      obtain ⟨r, known⟩ := exists_reference (fun w hw => pos w (List.mem_append_left _ hw)) later
      refine ⟨r, known, evaluate_declined, ?_⟩
      intro ticked
      by_cases due : r.nanos + d.nanos ≤ t.nanos
      · exact reference_advances positive known due
      · rw [evaluate_of_early positive known (Int.not_le.1 due)] at ticked
        cases ticked
  · intro first latest isFirst isLatest
    cases ws with
    | nil => cases isFirst
    | cons w rest =>
      obtain rfl : w.1 = first := Option.some.inj isFirst
      obtain ⟨r, known, moved⟩ :=
        total_le_reference (fun v hv => pos v (List.mem_cons_of_mem w hv)) w.1
      obtain ⟨v, hv, late⟩ := @reference_le (w :: rest) r known
      have latest := isLatest.2 v.1 (List.mem_map_of_mem hv)
      rw [tickDelays_first, List.tail_cons]
      omega

/-- Five wake-ups, each with a delay of its own. The second has one of 2^64 + 1 nanoseconds
and comes 2^65 + 1 nanoseconds after the first; the third goes back; the fourth is early. -/
def changingDelays : List (Instant × Duration) :=
  [(⟨0⟩, .ofNanos 16), (⟨36893488147419103233⟩, .ofNanos 18446744073709551617),
    (⟨5⟩, .ofNanos 3), (⟨36893488147419103240⟩, .ofNanos 8), (⟨36893488147419103260⟩, .ofNanos 20)]

/-- The second, whose remainder of 2^64 nanoseconds is cut off to nothing, and the last
become ticks; together their delays are shorter than the span by 2^64 + 6 nanoseconds. -/
theorem delays_within_span_of_changingDelays :
    (∀ w ∈ changingDelays, 0 < w.2.nanos) ∧
      (({} : Pacer).run changingDelays).map (·.1) = [true, true, false, false, true] ∧
      (∃ r', ((({} : Pacer).after (changingDelays.take 1)).evaluate ⟨36893488147419103233⟩
          (.ofNanos 18446744073709551617)).2.reference = some r' ∧
        0 + 18446744073709551617 ≤ r'.nanos ∧ r'.nanos ≤ 36893488147419103233) ∧
      (total [.ofNanos 18446744073709551617, .ofNanos 20] : Int) ≤ 36893488147419103260 - 0 := by
  have pos : ∀ w ∈ changingDelays, 0 < w.2.nanos := by decide
  obtain ⟨each, bound⟩ := delays_within_span changingDelays pos
  refine ⟨pos, by decide, ?_, ?_⟩
  · obtain ⟨-, -, later⟩ := each (changingDelays.take 1) ⟨36893488147419103233⟩
      (.ofNanos 18446744073709551617) (changingDelays.drop 2) rfl
    obtain ⟨r, known, -, ticks⟩ := later (by decide)
    obtain rfl : ⟨0⟩ = r := Option.some.inj known
    obtain ⟨r', next, further, within, -⟩ := ticks (by decide)
    exact ⟨r', next, further, within⟩
  · exact bound ⟨0⟩ ⟨36893488147419103260⟩ rfl ⟨by decide, by decide⟩

/-! ## A whole number of delays -/

/-- What is carried is the remainder, but for the multiple of 2^64 that is cut off. -/
theorem carried_add (elapsed : Nat) {delay : Nat} (pos : 0 < delay) :
    carried elapsed delay + UInt64.size * (elapsed % delay / UInt64.size) = elapsed % delay := by
  rw [carried, if_neg (Nat.ne_of_gt pos)]
  exact Nat.mod_add_div _ _

/-- Nothing is cut off of what fits into 64 bits. -/
theorem cut_eq_zero_iff {n : Nat} : UInt64.size * (n / UInt64.size) = 0 ↔ n < UInt64.size := by
  have size : UInt64.size ≠ 0 := by decide
  rw [Nat.mul_eq_zero, Nat.div_eq_zero_iff, or_iff_right size, or_iff_right size]

/-- What is less than a delay and beyond a whole number of them is a multiple only if it is
nothing. -/
theorem dvd_mul_add_iff {delay whole rest : Nat} (less : rest < delay) :
    delay ∣ delay * whole + rest ↔ rest = 0 := by
  rw [Nat.dvd_add_right (Nat.dvd_mul_right delay whole)]
  exact ⟨fun multiple => Nat.eq_zero_of_dvd_of_lt multiple less, fun none => none ▸ Nat.dvd_zero _⟩

/-- **The reference goes on by a whole number of delays exactly if the remainder fits** into
64 bits of nanoseconds. Otherwise it is later, by as many times 2^64 nanoseconds as the
remainder holds. A delay of 2^64 nanoseconds or less leaves no such remainder; in
particular none does that a scheduler holds, which is cut off at 64 bits. -/
theorem reference_on_grid_iff (pos : 0 < d.nanos) (known : p.reference = some r)
    (due : r.nanos + d.nanos ≤ t.nanos) :
    let rest := t.since r % d.nanos
    (p.evaluate t d).1 = true ∧
      (∃ r', (p.evaluate t d).2.reference = some r' ∧
        r'.nanos = t.nanos - rest + (UInt64.size * (rest / UInt64.size) : Nat) ∧
        (r' = t.back rest ↔ rest < UInt64.size) ∧
        ((d.nanos : Int) ∣ r'.nanos - r.nanos ↔ rest < UInt64.size)) ∧
      (d.nanos ≤ UInt64.size → rest < UInt64.size) ∧
      (∀ held : Duration, d = held.saturated → rest < UInt64.size) := by
  intro rest
  have less : rest < d.nanos := Nat.mod_lt _ pos
  have kept : carried (t.since r) d.nanos + UInt64.size * (rest / UInt64.size) = rest :=
    carried_add _ pos
  have elapsed : rest + d.nanos * (t.since r / d.nanos) = t.since r := Nat.mod_add_div _ _
  have since : (t.since r : Int) = t.nanos - r.nanos := by
    rw [Instant.since]
    omega
  rw [evaluate_of_due known due]
  refine ⟨rfl, ⟨_, rfl, ?_, ?_, ?_⟩, fun short => Nat.lt_of_lt_of_le less short, ?_⟩
  · simp only [Instant.back]
    omega
  · rw [Instant.back, Instant.back, Instant.mk.injEq, ← cut_eq_zero_iff]
    omega
  · -- What is cut off is less than a delay, so it cannot make up another one.
    have apart : (t.back (carried (t.since r) d.nanos)).nanos - r.nanos =
        (d.nanos * (t.since r / d.nanos) + UInt64.size * (rest / UInt64.size) : Nat) := by
      simp only [Instant.back]
      omega
    rw [apart, Int.natCast_dvd_natCast, dvd_mul_add_iff (by omega), cut_eq_zero_iff]
  · rintro held rfl
    rw [Duration.saturated_nanos] at less
    omega

/-- A delay of 2^64 + 1 nanoseconds, and a reading that is 5 nanoseconds beyond it: the
remainder fits, and the reference goes on by the delay. -/
theorem reference_on_grid_iff_of_long :
    let p : Pacer := ⟨some ⟨-7⟩⟩
    let d := Duration.ofNanos 18446744073709551617
    let t : Instant := ⟨18446744073709551615⟩
    0 < d.nanos ∧ p.reference = some ⟨-7⟩ ∧ -7 + (d.nanos : Int) ≤ t.nanos ∧
      (p.evaluate t d).1 = true ∧
      ∃ r', (p.evaluate t d).2.reference = some r' ∧ r' = t.back 5 ∧
        (d.nanos : Int) ∣ r'.nanos - -7 := by
  intro p d t
  have pos : 0 < d.nanos := by decide
  have due : -7 + (d.nanos : Int) ≤ t.nanos := by decide
  obtain ⟨ticks, ⟨r', next, -, remainder, whole⟩, -⟩ :=
    reference_on_grid_iff (p := p) (r := ⟨-7⟩) (t := t) pos rfl due
  have five : t.since ⟨-7⟩ % d.nanos = 5 := by decide
  have fits : t.since ⟨-7⟩ % d.nanos < UInt64.size := by decide
  exact ⟨pos, rfl, due, ticks, r', next, five ▸ remainder.2 fits, whole.2 fits⟩

/-- The same delay, and a reading 2^65 + 1 nanoseconds after the reference. The remainder
is 2^64 nanoseconds, all of which are cut off: the reference is the reading itself, and not
a delay after the one before it. -/
theorem long_delay_off_grid :
    let p : Pacer := ⟨some ⟨0⟩⟩
    let d := Duration.ofNanos 18446744073709551617
    let t : Instant := ⟨36893488147419103233⟩
    0 < d.nanos ∧ p.reference = some ⟨0⟩ ∧ 0 + (d.nanos : Int) ≤ t.nanos ∧
      t.back (t.since ⟨0⟩ % d.nanos) = ⟨d.nanos⟩ ∧ p.evaluate t d = (true, ⟨some t⟩) ∧
      (p.evaluate t d).2.reference ≠ some (t.back (t.since ⟨0⟩ % d.nanos)) ∧
      ¬ (d.nanos : Int) ∣ t.nanos - 0 := by
  decide

end FrameLoop.Pacer

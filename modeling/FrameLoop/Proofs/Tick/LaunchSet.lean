import FrameLoop.Proofs.Journal.Order

/-!
# The launch set of a tick

Which steps does a tick launch? The first wave is the registry at the instant
at which the tick starts. Each later wave is what is new among the children of
the jobs of the wave before, each taken at the instant at which its step
returned without a fault. The tick ends at the first wave that would be empty,
or with the wave in which a step makes a fault.

All of it is said of the journal (`launch_set`), so it holds whatever is
attached, moved, erased, registered and taken out meanwhile, and in whatever
order the steps return.
-/

namespace FrameLoop

namespace TickRecord

variable {t : TickRecord}

/-- **What a wave launches**, be it one of the waves of the tick or the one
after the last that would be empty. -/
theorem Exact.mem_launchedAt (exact : t.Exact) {k : Nat}
    (h : k < t.waves.length ∨ k = t.waves.length ∧ t.Over ∧ t.faulty = false) (j : JobRef) :
    j ∈ t.launchedAt k ↔ t.Due k j ∧ ∀ i < k, j ∉ t.launchedAt i := by
  obtain short | ⟨rfl, spent, sound⟩ := h
  · have here := List.getElem?_eq_getElem short
    rw [launchedAt_eq here]
    exact exact.launches k _ here j
  · have nothingDue : t.Due t.waves.length j → j ∈ t.launched := by
      obtain faulty | all := spent.2
      · rw [sound] at faulty; cases faulty
      · exact all j
    rw [launchedAt_of_length_le (Nat.le_refl _)]
    refine iff_of_false List.not_mem_nil ?_
    rintro ⟨due, new⟩
    obtain ⟨i, hi, old⟩ := mem_launched.1 (nothingDue due)
    exact new i hi old

/-- The first wave of a tick is what was registered, launched or left out for want of a
job. -/
theorem Exact.mem_launchedAt_zero (exact : t.Exact) (h : 0 < t.waves.length ∨ t.Over)
    (j : JobRef) : j ∈ t.launchedAt 0 ↔ j ∈ t.registry := by
  have first : 0 < t.waves.length ∨ 0 = t.waves.length ∧ t.Over ∧ t.faulty = false := by
    by_cases some : 0 < t.waves.length
    · exact .inl some
    · have none : t.waves = [] := List.length_eq_zero_iff.1 (Nat.eq_zero_of_not_pos some)
      exact .inr ⟨by rw [none]; rfl, h.resolve_left some, faulty_eq_false.2 (by simp [none])⟩
  rw [exact.mem_launchedAt first]
  simp [Due]

/-- A job that is launched was registered, or some wave led to it. -/
theorem Exact.origin (exact : t.Exact) {j : JobRef} (h : j ∈ t.launched) :
    j ∈ t.registry ∨ ∃ c ∈ t.waves, c.Leads j := by
  obtain ⟨k, short, hj⟩ := mem_launched.1 h
  have due := ((exact.mem_launchedAt (.inl short) j).1 hj).1
  cases k with
  | zero => exact .inl due
  | succ k =>
    obtain ⟨c, hc, leads⟩ := due
    exact .inr ⟨c, List.mem_of_getElem? hc, leads⟩

/-- The waves of an exact tick before its last have drained, without a fault. -/
theorem Exact.past_or_last (exact : t.Exact) {k : Nat} {c d : Wave} (here : t.waves[k]? = some c)
    (last : t.waves.length ≤ k + 1) (hd : d ∈ t.waves) : d.Drained ∧ d.faulty = false ∨ d = c := by
  obtain ⟨i, hi⟩ := List.getElem?_of_mem hd
  by_cases early : i + 1 < t.waves.length
  · exact .inl (exact.barrier i d hi early)
  · have short := (List.getElem?_eq_some_iff.1 hi).1
    have within := (List.getElem?_eq_some_iff.1 here).1
    obtain rfl : i = k := by omega
    exact .inr (Option.some.inj (hi.symm.trans here))

/-- The last wave of an exact tick decides whether the tick has made a fault. -/
theorem Exact.sound_of_last (exact : t.Exact) {k : Nat} {c : Wave} (here : t.waves[k]? = some c)
    (last : k + 1 = t.waves.length) (sound : c.faulty = false) : t.faulty = false := by
  rw [faulty_eq_false]
  intro d hd
  rcases exact.past_or_last here (Nat.le_of_eq last.symm) hd with past | rfl
  · exact past.2
  · exact sound

/-- **What the wave after one that has drained without a fault launches.** -/
theorem Exact.mem_launchedAt_succ (exact : t.Exact) {k : Nat} {c : Wave}
    (here : t.waves[k]? = some c) (h : k + 1 < t.waves.length ∨ t.Over) (sound : c.faulty = false)
    (j : JobRef) : j ∈ t.launchedAt (k + 1) ↔ c.Leads j ∧ ∀ i ≤ k, j ∉ t.launchedAt i := by
  have short := (List.getElem?_eq_some_iff.1 here).1
  have reach : k + 1 < t.waves.length ∨ k + 1 = t.waves.length ∧ t.Over ∧ t.faulty = false := by
    by_cases early : k + 1 < t.waves.length
    · exact .inl early
    · have last : k + 1 = t.waves.length := by omega
      exact .inr ⟨last, h.resolve_left early, exact.sound_of_last here last sound⟩
  rw [exact.mem_launchedAt reach]
  simp only [Due, here, Option.some.injEq, exists_eq_left', Nat.lt_succ_iff]

end TickRecord

namespace World

/-- While a step of a tick is out its last wave has not drained, so it is followed
by none; and a wave that has drained is followed by another, or the tick is
over. -/
theorem next_or_over (r : SchedulerRef) (es : List Event) {before after : List TickRecord}
    {t : TickRecord} (split : (journal r es).ticks = before ++ t :: after) {k : Nat} {c : Wave}
    (here : t.waves[k]? = some c) (drained : c.Drained) : k + 1 < t.waves.length ∨ t.Over := by
  obtain ⟨exact, -, ⟨spent, -⟩ | ⟨-, loop, tick, -, tracks, -, busy⟩⟩ := tick_cases r es split
  · exact .inr spent
  · left
    by_contra late
    refine busy (tracks.pending_eq_nil ?_)
    intro d hd
    rcases exact.past_or_last here (Nat.le_of_not_lt late) hd with past | rfl
    · exact past.1
    · exact drained

/-- **A tick is over unless it is the last and in flight.** -/
theorem over_iff (r : SchedulerRef) (es : List Event) {before after : List TickRecord}
    {t : TickRecord} (split : (journal r es).ticks = before ++ t :: after) :
    t.Over ↔ after ≠ [] ∨ ((run es).scheduler r).driver.tick? = none := by
  obtain ⟨-, -, ⟨spent, still⟩ | ⟨rfl, loop, tick, driver, tracks, -, busy⟩⟩ :=
    tick_cases r es split
  · refine iff_of_true spent ?_
    by_cases last : after = []
    · exact .inr (still last)
    · exact .inl last
  · refine iff_of_false ?_ ?_
    · intro spent
      exact busy (tracks.pending_eq_nil spent.1)
    rintro (more | still)
    · exact more rfl
    · rw [driver] at still
      cases still

/-- **The launch set of a tick is exact.** Every launch belongs to a tick. The
first wave of a tick launches what is registered when the tick starts. A wave
that has drained without a fault is followed by what it leads to and what is
new; if that is nothing, by no wave. No other wave is followed by one. No wave
is empty, no job is launched twice, and none is launched that was neither
registered at the start nor led to. The tick ends when all this has been done,
and not before. -/
theorem launch_set (r : SchedulerRef) (es : List Event) {before after : List TickRecord}
    {t : TickRecord} (split : (journal r es).ticks = before ++ t :: after) :
    (journal r es).launched = (journal r es).ticks.flatMap (·.launched) ∧
      (∀ j, j ∈ t.launchedAt 0 ↔ j ∈ t.registry) ∧
      (∀ k c, t.waves[k]? = some c → c.Drained → c.faulty = false →
        ∀ j, j ∈ t.launchedAt (k + 1) ↔ c.Leads j ∧ ∀ i ≤ k, j ∉ t.launchedAt i) ∧
      (∀ k c, t.waves[k]? = some c → k + 1 < t.waves.length → c.Drained ∧ c.faulty = false) ∧
      (∀ c ∈ t.waves, c.launched ≠ []) ∧ t.launched.Nodup ∧
      (∀ j ∈ t.launched, j ∈ t.registry ∨ ∃ c ∈ t.waves, c.Leads j) ∧
      (t.Over ↔ after ≠ [] ∨ ((run es).scheduler r).driver.tick? = none) := by
  obtain ⟨exact, -, stands⟩ := tick_cases r es split
  refine ⟨?_, ?_, ?_, exact.barrier, exact.nonempty, exact.nodup, ?_, ?_⟩
  · exact (ordered_run r es).launched_ticks.symm
  · intro j
    refine exact.mem_launchedAt_zero ?_ j
    obtain ⟨spent, -⟩ | ⟨-, loop, k, -, tracks, -, busy⟩ := stands
    · exact .inr spent
    · exact .inl (List.length_pos_iff.2 (tracks.waves_ne_nil busy))
  · intro k c here drained sound
    exact exact.mem_launchedAt_succ here (next_or_over r es split here drained) sound
  · intro j launched
    exact exact.origin launched
  · exact over_iff r es split

/-- A run whose first tick is rewired while it is in flight: a job that is
registered and attached returns first, a new job is registered, and another is
attached to one job and moved to the other before that one returns. -/
def rewiredRun : List Event :=
  [.newJob "parent", .newJob "child", .attach 0 1, .newScheduler ⟨"loop"⟩ .zero .zero,
    .schedule 0 0, .schedule 0 1, .start 0 (.script [.reading ⟨0⟩, .reading ⟨1⟩]), .poll 0,
    .newJob "late", .schedule 0 2, .newJob "found", .attach 1 3, .returned 0 1 (.outcome .resume),
    .attach 0 3, .returned 0 0 (.outcome .resume), .returned 0 3 (.outcome .resume), .poll 0]

/-- What is written down of its first tick. -/
def rewiredTick : TickRecord where
  registry := [0, 1]
  waves :=
    [{ launched := [0, 1]
       returns :=
        [{ job := 1, name? := some "child", verdict := .outcome .resume, children := [3],
            told := [] },
          { job := 0, name? := some "parent", verdict := .outcome .resume, children := [1, 3],
            told := [] }] },
      { launched := [3]
        returns :=
          [{ job := 3, name? := some "found", verdict := .outcome .resume, children := [],
             told := [.tickDrained 3 2] }] }]

/-- The job that is found twice is launched once, and the one that is registered
late waits for the second tick. -/
theorem launch_set_of_rewiredRun :
    (journal 0 rewiredRun).ticks =
        [] ++ rewiredTick :: [{ registry := [0, 1, 2], waves := [{ launched := [0, 1, 2] }] }] ∧
      (∀ j, j ∈ rewiredTick.launchedAt 0 ↔ j ∈ [0, 1]) ∧
      (∀ c, rewiredTick.waves[0]? = some c →
        ∀ j, j ∈ rewiredTick.launchedAt 1 ↔ c.Leads j ∧ ∀ i ≤ 0, j ∉ rewiredTick.launchedAt i) ∧
      rewiredTick.launched.Nodup ∧ rewiredTick.Over := by
  have split : (journal 0 rewiredRun).ticks =
      [] ++ rewiredTick :: [{ registry := [0, 1, 2], waves := [{ launched := [0, 1, 2] }] }] := by
    decide
  obtain ⟨-, first, next, -, -, nodup, -, spent⟩ := launch_set 0 rewiredRun split
  refine ⟨split, first, fun c here => next 0 c here ?_ ?_, nodup, spent.2 (.inl (by simp))⟩
  · cases here
    show List.Perm _ _
    decide
  · cases here
    rfl

end World

end FrameLoop

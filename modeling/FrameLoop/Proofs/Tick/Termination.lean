import FrameLoop.Proofs.Tick.Stats
import Mathlib.Data.Finset.Card
import Mathlib.Data.Nat.Find
import Mathlib.Order.Interval.Finset.Nat
import Mathlib.Tactic.IntervalCases

/-!
# A tick comes to its end

How deep the trees are is no bound on how long a tick takes: while it walks down they may be
made deeper, and a job that has run may be put below one that is still to run. What bounds
it is that no job is launched twice. A tick launches no more steps than there are jobs while
it is in flight, and it has no more waves, since none is empty.

Whether it ends is a question about a run that goes on for ever, an `Event` for each number.
Nothing but a return is waited for: as long as a tick is in flight one of its steps is out.
So if every step that is out returns at some time, and no more than so many jobs ever exist
while the tick is in flight, then there is an event at which it drains, and with which its
counters are published (`tick_terminates`).

**What this does not say.** A tick in which new jobs are made and attached without end need
not drain, and one of which a step never returns does not.
-/

namespace FrameLoop

namespace World

/-! ## One event -/

variable {r : SchedulerRef} {es : List Event} {e : Event} {j : JobRef}

/-- **What an event launches is out after it.** -/
theorem launched_out (r : SchedulerRef) (es : List Event) (e : Event) :
    ∃ wave, (journal r (es ++ [e])).launched = (journal r es).launched ++ wave ∧
      ∀ j ∈ wave, j ∈ (journal r (es ++ [e])).out := by
  obtain ⟨wave, seen⟩ := (run es).exists_wave r (journal r es) e
  rw [journal_concat, seen]
  refine ⟨wave, ?_, ?_⟩
  · rw [Journal.launched_append, Journal.launched_append, launched_notice, Journal.launched_handOut,
      List.nil_append]
  · intro j launched
    rw [← List.append_assoc, Journal.out_handOut]
    exact List.mem_append_right _ launched

/-- **A step that is out stays out** until it returns. -/
theorem out_stays (out : j ∈ (journal r es).out) (other : ∀ v, e ≠ .returned r j v) :
    j ∈ (journal r (es ++ [e])).out := by
  obtain ⟨wave, seen⟩ := (run es).exists_wave r (journal r es) e
  rw [journal_concat, seen, ← List.append_assoc, Journal.out_handOut]
  apply List.mem_append_left
  obtain none | ⟨-, -, began⟩ | ⟨b, v, isReturn, -, returned⟩ :=
    (run es).notice_cases r (journal r es) e
  · rwa [none, List.append_nil]
  · rwa [began, Journal.out_concat]
  · have apart : j ≠ b.job := by
      rintro rfl
      exact other v isReturn
    rw [returned, Journal.out_concat]
    exact (List.mem_erase_of_ne apart).2 out

/-- **When it returns it has returned.** -/
theorem returned_of_out (out : j ∈ (journal r es).out) (v : Verdict) :
    (journal r (es ++ [.returned r j v])).returned = (journal r es).returned ++ [j] := by
  rw [journal_returned out, Journal.returned_append, Journal.returned_concat,
    Journal.returned_handOut, List.append_nil]
  rfl

/-- **While a tick is in flight one of its steps is out.** -/
theorem out_ne_nil (busy : ((run es).scheduler r).driver.tick?.isSome = true) :
    (journal r es).out ≠ [] := by
  cases agrees_run es r with
  | rests still => rw [still] at busy; cases busy
  | ticks _ _ _ _ out some => exact out ▸ some
  | faulted ended => rw [ended] at busy; cases busy

/-- **Where a tick starts it is written down**, behind those before it; none of its steps has
returned. -/
theorem ticks_of_starts (starts : (run es).startsTick r = true) :
    ∃ t, (journal r (es ++ [.poll r])).ticks = (journal r es).ticks ++ [t] ∧
      t.registry = ((run es).scheduler r).registry ∧ t.returns = [] := by
  obtain ⟨wave, seen⟩ := (run es).exists_wave r (journal r es) (.poll r)
  have began : (run es).notice r (journal r es) (.poll r) =
      [.began ((run es).scheduler r).registry] := if_pos ⟨rfl, starts⟩
  have first := (journal r es).ticks_concat (.began ((run es).scheduler r).registry)
  rw [journal_concat, seen, began, ← List.append_assoc]
  obtain ⟨-, ticks⟩ | ⟨-, ticks⟩ := Journal.ticks_handOut first wave
  · exact ⟨_, ticks, rfl, rfl⟩
  · exact ⟨_, ticks, rfl, rfl⟩

/-- **While a tick is in flight no other begins.** -/
theorem ticks_of_busy (busy : ((run es).scheduler r).driver.tick?.isSome = true)
    {past : List TickRecord} {t : TickRecord} (last : (journal r es).ticks = past ++ [t])
    (e : Event) :
    ∃ t', (journal r (es ++ [e])).ticks = past ++ [t'] ∧ t'.registry = t.registry := by
  have none : ∀ registry, Entry.began registry ∉ (run es).observe r (journal r es) e := by
    intro registry began
    obtain ⟨-, starts⟩ := began_mem_observe began
    obtain ⟨stays, -⟩ | ⟨-, loop, t, waiting, -⟩ := (run es).looksUp r
    · rw [stays] at starts
      cases starts
    · rw [waiting] at busy
      cases busy
  obtain ⟨t', after, goesOn⟩ := (journal r es).ticks_append_last none last
  exact ⟨t', by rw [journal_concat, after], goesOn.registry⟩

/-! ## A run without end -/

/-- The first events of a run without end. -/
def firstEvents (σ : Nat → Event) (n : Nat) : List Event := (List.range n).map σ

@[simp] theorem firstEvents_succ (σ : Nat → Event) (n : Nat) :
    firstEvents σ (n + 1) = firstEvents σ n ++ [σ n] := by
  rw [firstEvents, firstEvents, List.range_succ, List.map_append, List.map_singleton]

theorem firstEvents_grows (σ : Nat → Event) {m n : Nat} (early : m ≤ n) :
    firstEvents σ m <+: firstEvents σ n := by
  induction n, early using Nat.le_induction with
  | base => exact List.prefix_refl _
  | succ n _ ih =>
    rw [firstEvents_succ]
    exact ih.trans (List.prefix_append _ _)

/-- The events that come first in a run without end are its first events. -/
theorem eq_firstEvents {σ : Nat → Event} {n : Nat} {es : List Event}
    (early : es <+: firstEvents σ n) : ∃ m ≤ n, es = firstEvents σ m := by
  have short := early.length_le
  rw [firstEvents, List.length_map, List.length_range] at short
  refine ⟨es.length, short, ?_⟩
  rw [List.prefix_iff_eq_take, firstEvents, ← List.map_take, List.take_range,
    Nat.min_eq_left short] at early
  exact early

variable {σ : Nat → Event} {a : Nat} {jobs : Finset JobRef}

/-- Whether a tick is in flight after so many events. -/
def Ticking (r : SchedulerRef) (σ : Nat → Event) (n : Nat) : Prop :=
  ((run (firstEvents σ n)).scheduler r).driver.tick?.isSome = true

/-- **The tick that began with an event is still in flight** so many events later: one has
been ever since. -/
def InFlight (r : SchedulerRef) (σ : Nat → Event) (a n : Nat) : Prop :=
  a < n ∧ ∀ k, a < k → k ≤ n → Ticking r σ k

/-- **What a tick relies on** while it is in flight. -/
structure Attended (r : SchedulerRef) (σ : Nat → Event) (a : Nat) (jobs : Finset JobRef) :
    Prop where
  /-- No other jobs exist. -/
  exist : ∀ n, InFlight r σ a n →
    ∀ j, (run (firstEvents σ n)).forest.has j = true → j ∈ jobs
  /-- Every step that is out returns. -/
  returns : ∀ n, InFlight r σ a n →
    ∀ j ∈ (journal r (firstEvents σ n)).out, ∃ k ≥ n, ∃ v, σ k = .returned r j v

/-- A journal is only added to. -/
theorem returned_mono {m n : Nat} (h : m ≤ n) :
    (journal r (firstEvents σ m)).returned.length ≤
      (journal r (firstEvents σ n)).returned.length := by
  induction n, h using Nat.le_induction with
  | base => exact Nat.le_refl _
  | succ n _ ih =>
    obtain ⟨added, journal⟩ := journal_append r (firstEvents σ n) [σ n]
    rw [firstEvents_succ, journal, Journal.returned_append, List.length_append]
    exact Nat.le_add_right_of_le ih

/-- **A step that is out and returns at some time** has returned then, if not before. -/
theorem returned_since {n k : Nat} (out : j ∈ (journal r (firstEvents σ n)).out) (later : n ≤ k)
    {v : Verdict} (isReturn : σ k = .returned r j v) :
    (journal r (firstEvents σ n)).returned.length <
      (journal r (firstEvents σ (k + 1))).returned.length := by
  -- Up to that event the step is out, or it has returned before.
  have waits : ∀ m, n ≤ m → m ≤ k → j ∈ (journal r (firstEvents σ m)).out ∨
      (journal r (firstEvents σ n)).returned.length <
        (journal r (firstEvents σ m)).returned.length := by
    intro m low
    induction m, low using Nat.le_induction with
    | base => exact fun _ => .inl out
    | succ m low ih =>
      intro high
      obtain still | earlier := ih (Nat.le_of_succ_le high)
      · by_cases returns : ∃ u, σ m = .returned r j u
        · obtain ⟨u, event⟩ := returns
          right
          rw [firstEvents_succ, event, returned_of_out still u, List.length_append]
          exact Nat.lt_succ_of_le (returned_mono low)
        · left
          rw [firstEvents_succ]
          exact out_stays still fun u event => returns ⟨u, event⟩
      · exact .inr (Nat.lt_of_lt_of_le earlier (returned_mono (Nat.le_succ m)))
  obtain still | earlier := waits k later (Nat.le_refl k)
  · rw [firstEvents_succ, isReturn, returned_of_out still v, List.length_append]
    exact Nat.lt_succ_of_le (returned_mono later)
  · exact Nat.lt_of_lt_of_le earlier (returned_mono (Nat.le_succ k))

namespace Attended

variable (attended : Attended r σ a jobs)
include attended

/-- **One more step of a tick in flight returns** at some time. -/
theorem another_returns {n : Nat} (flight : InFlight r σ a n) :
    ∃ k > n, (journal r (firstEvents σ n)).returned.length <
      (journal r (firstEvents σ k)).returned.length := by
  obtain ⟨j, out⟩ := List.exists_mem_of_ne_nil _
    (out_ne_nil (flight.2 n flight.1 (Nat.le_refl n)))
  obtain ⟨k, later, v, isReturn⟩ := attended.returns n flight j out
  exact ⟨k + 1, Nat.lt_succ_of_le later, returned_since out later isReturn⟩

/-- **A tick launches jobs that exist while it is in flight.** -/
theorem launched_since {n : Nat} (later : a ≤ n)
    (flight : ∀ k, a < k → k < n → Ticking r σ k) :
    ∃ wave, (journal r (firstEvents σ n)).launched =
        (journal r (firstEvents σ a)).launched ++ wave ∧ ∀ j ∈ wave, j ∈ jobs := by
  induction n, later using Nat.le_induction with
  | base => exact ⟨[], (List.append_nil _).symm, by simp⟩
  | succ n later ih =>
    obtain ⟨before, launched, known⟩ := ih fun k low high => flight k low (Nat.lt_succ_of_lt high)
    obtain ⟨wave, more, isOut⟩ := launched_out r (firstEvents σ n) (σ n)
    rw [← firstEvents_succ] at more isOut
    refine ⟨before ++ wave, by rw [more, launched, List.append_assoc], ?_⟩
    intro j hj
    obtain old | new := List.mem_append.1 hj
    · exact known j old
    · have out := isOut j new
      obtain ⟨loop, k, -, -, driver, -⟩ := (agrees_run _ r).ticking_of_out out
      have busy : Ticking r σ (n + 1) := by
        rw [Ticking, driver]
        rfl
      refine attended.exist (n + 1) ⟨Nat.lt_succ_of_le later, ?_⟩ j
        (has_of_out (held_run _) (agrees_run _ r) out)
      intro k low high
      obtain rfl | short := Nat.eq_or_lt_of_le high
      · exact busy
      · exact flight k low short

end Attended

/-- **The tick that begins with an event** is the last in the journal as long as it is in
flight, and when it has drained. -/
theorem ticks_since (begins : σ a = .poll r ∧ (run (firstEvents σ a)).startsTick r = true)
    {n : Nat} (later : a < n) (flight : ∀ k, a < k → k < n → Ticking r σ k) :
    ∃ t, (journal r (firstEvents σ n)).ticks = (journal r (firstEvents σ a)).ticks ++ [t] ∧
      t.registry = ((run (firstEvents σ a)).scheduler r).registry := by
  induction n, later using Nat.le_induction with
  | base =>
    obtain ⟨t, last, registry, -⟩ := ticks_of_starts begins.2
    exact ⟨t, by rw [firstEvents_succ, begins.1, last], registry⟩
  | succ n later ih =>
    obtain ⟨t, last, registry⟩ := ih fun k low high => flight k low (Nat.lt_succ_of_lt high)
    obtain ⟨t', after, same⟩ :=
      ticks_of_busy (flight n later (Nat.lt_succ_self n)) last (σ n)
    exact ⟨t', by rw [firstEvents_succ, after], same.trans registry⟩

/-- **A tick launches each job once at most, so it has no more steps and no more waves than
there are jobs.** -/
theorem Attended.launched_le (attended : Attended r σ a jobs) {n : Nat} (later : a ≤ n)
    (flight : ∀ k, a < k → k < n → Ticking r σ k) {t : TickRecord}
    (last : (journal r (firstEvents σ n)).ticks = (journal r (firstEvents σ a)).ticks ++ [t]) :
    (journal r (firstEvents σ n)).launched =
        (journal r (firstEvents σ a)).launched ++ t.launched ∧
      t.launched.length ≤ jobs.card ∧ t.waves.length ≤ jobs.card := by
  have exact : t.Exact := (tick_cases r (firstEvents σ n) last).1
  have launched : (journal r (firstEvents σ n)).launched =
      (journal r (firstEvents σ a)).launched ++ t.launched := by
    rw [← (ordered_run r _).launched_ticks, ← (ordered_run r _).launched_ticks, last,
      List.flatMap_append, List.flatMap_singleton]
  obtain ⟨wave, same, known⟩ := attended.launched_since later flight
  obtain rfl : t.launched = wave := List.append_cancel_left (launched.symm.trans same)
  have few : t.launched.length ≤ jobs.card := by
    rw [← List.toFinset_card_of_nodup exact.nodup]
    exact Finset.card_le_card fun j hj => known j (List.mem_toFinset.1 hj)
  exact ⟨launched, few, Nat.le_trans exact.length_waves_le few⟩

/-- **It drains.** Otherwise there would be more returns than launches. -/
theorem Attended.drains (attended : Attended r σ a jobs)
    (begins : σ a = .poll r ∧ (run (firstEvents σ a)).startsTick r = true) :
    ∃ n > a, ¬ Ticking r σ n := by
  by_contra never
  have busy : ∀ n, a < n → Ticking r σ n := fun n later =>
    by_contra fun still => never ⟨n, later, still⟩
  have many : ∀ m, ∃ n > a, m ≤ (journal r (firstEvents σ n)).returned.length := by
    intro m
    induction m with
    | zero => exact ⟨a + 1, Nat.lt_succ_self a, Nat.zero_le _⟩
    | succ m ih =>
      obtain ⟨n, later, enough⟩ := ih
      obtain ⟨k, further, more⟩ := attended.another_returns ⟨later, fun k low _ => busy k low⟩
      exact ⟨k, Nat.lt_trans later further, Nat.lt_of_le_of_lt enough more⟩
  obtain ⟨n, later, enough⟩ :=
    many ((journal r (firstEvents σ a)).launched.length + jobs.card + 1)
  have flight : ∀ k, a < k → k < n → Ticking r σ k := fun k low _ => busy k low
  obtain ⟨t, last, -⟩ := ticks_since begins later flight
  obtain ⟨launched, few, -⟩ := attended.launched_le (Nat.le_of_lt later) flight last
  have all := (ordered_run r (firstEvents σ n)).perm.length_eq
  rw [List.length_append, launched, List.length_append] at all
  omega

/-- **A tick comes to its end, however the trees are rearranged.** In a run without end a
tick begins with the event numbered `a`, and as long as it is in flight every step that is
out returns at some time and no jobs exist but the given ones. Then at some event the tick
drains. It is the one tick that has been in flight since it began; it is over, having
launched no more steps, in no more waves, than there are jobs; and its counters are
published. -/
theorem tick_terminates (attended : Attended r σ a jobs)
    (begins : σ a = .poll r ∧ (run (firstEvents σ a)).startsTick r = true) :
    ∃ n > a, (∀ k, a < k → k < n → InFlight r σ a k) ∧
      ∃ t, (journal r (firstEvents σ n)).ticks = (journal r (firstEvents σ a)).ticks ++ [t] ∧
        t.registry = ((run (firstEvents σ a)).scheduler r).registry ∧ t.Over ∧
        t.waves.length ≤ jobs.card ∧ t.launched.length ≤ jobs.card ∧
        let s := (run (firstEvents σ n)).scheduler r
        s.driver.tick? = none ∧ s.stats.ticks = (journal r (firstEvents σ a)).ticks.length + 1 ∧
          s.stats.jobsLastTick = t.launched.length ∧
          s.stats.subCyclesLastTick = t.waves.length := by
  classical
  have ends := attended.drains begins
  obtain ⟨later, still⟩ := Nat.find_spec ends
  have flight : ∀ k, a < k → k < Nat.find ends → Ticking r σ k := by
    intro k low high
    by_contra early
    exact Nat.find_min ends high ⟨low, early⟩
  generalize Nat.find ends = n at later still flight
  obtain ⟨t, last, registry⟩ := ticks_since begins later flight
  obtain ⟨-, steps, waves⟩ := attended.launched_le (Nat.le_of_lt later) flight last
  have none : ((run (firstEvents σ n)).scheduler r).driver.tick? = none := by
    simpa [Ticking] using still
  have counts := tells_run r (firstEvents σ n)
  rw [Scheduler.drainedTicks_of_still none, last] at counts
  obtain ⟨jobsLast, subCyclesLast⟩ := counts.last _ t rfl
  refine ⟨n, later, ?_, t, last, registry, ?_, waves, steps, none, ?_, jobsLast, subCyclesLast⟩
  · intro k low high
    exact ⟨low, fun i first past => flight i first (Nat.lt_of_le_of_lt past high)⟩
  · exact (over_iff r _ last).2 (.inr none)
  · rw [counts.ticks, List.length_append]
    rfl

/-- A tree that is rearranged while a tick is in flight. The parent has run when the child is
taken from it and it is put below the last job, which is still to run; then a new job is put
below it, and moved from there to the last job, whose step is out. After that nothing
happens any more. -/
def rearranged (i : Nat) : Event :=
  [.newJob "parent", .newJob "child", .newJob "last", .attach 0 1, .attach 1 2,
    .newScheduler ⟨"loop"⟩ .zero .zero, .schedule 0 0, .start 0 (.script [.reading ⟨0⟩]),
    .poll 0, .returned 0 0 (.outcome .resume),
    .eraseChild 0 1, .attach 2 0, .returned 0 1 (.outcome .resume),
    .newJob "new", .attach 0 3, .attach 2 3, .returned 0 2 (.outcome .resume),
    .returned 0 3 (.outcome .detach)].getD i (.pass 0)

/-- The event with which the step of a job returns. -/
def returnsAt (j : JobRef) : Nat := [9, 12, 16, 17].getD j 0

theorem attended_rearranged : Attended 0 rearranged 8 (Finset.range 4) := by
  have still : ¬ Ticking 0 rearranged 18 := by unfold Ticking; decide
  have early : ∀ n, InFlight 0 rearranged 8 n → n < 18 := by
    intro n flight
    by_contra late
    exact still (flight.2 18 (by decide) (Nat.le_of_not_lt late))
  have jobs : ∀ n < 18, ∀ node ∈ (run (firstEvents rearranged n)).forest.nodes,
      node.job < 4 := by
    decide
  have outs : ∀ n < 18, ∀ j ∈ (journal 0 (firstEvents rearranged n)).out,
      n ≤ returnsAt j ∧ j < 4 := by
    decide
  constructor
  · intro n flight j there
    obtain ⟨node, hnode, same⟩ := List.find?_isSome.1 there
    rw [Finset.mem_range, ← eq_of_beq same]
    exact jobs n (early n flight) node hnode
  · intro n flight j out
    obtain ⟨later, known⟩ := outs n (early n flight) j out
    refine ⟨returnsAt j, later, ?_⟩
    interval_cases j <;> exact ⟨_, rfl⟩

/-- The tick drains, in no more waves than there are jobs. It has launched each of the four
once, though the tree it began with had three. -/
theorem tick_terminates_of_rearranged :
    Attended 0 rearranged 8 (Finset.range 4) ∧
      (∃ n > 8, (journal 0 (firstEvents rearranged n)).ticks.length = 1 ∧
        ¬ Ticking 0 rearranged n ∧
        ((run (firstEvents rearranged n)).scheduler 0).stats.ticks = 1 ∧
        ((run (firstEvents rearranged n)).scheduler 0).stats.subCyclesLastTick ≤ 4) ∧
      (journal 0 (firstEvents rearranged 18)).ticks.map (·.waves.map (·.launched)) =
        [[[0], [1], [2], [3]]] := by
  refine ⟨attended_rearranged, ?_, by decide⟩
  obtain ⟨n, later, -, t, last, -, -, waves, -, still, ticks, -, subCycles⟩ :=
    tick_terminates attended_rearranged ⟨rfl, by decide⟩
  refine ⟨n, later, ?_, ?_, ticks.trans (by decide), subCycles.trans_le waves⟩
  · rw [last, List.length_append]
    rfl
  · rw [Ticking, still]
    decide

end World

end FrameLoop

import FrameLoop.Proofs.Demo.Course
import FrameLoop.Proofs.Stop
import FrameLoop.Proofs.Wakeups.Ends
import FrameLoop.Proofs.Wakeups.Lifetime
import Mathlib.Algebra.Group.Action.Defs

/-!
# Wake-ups enough

A demonstration comes to its end if the wake-ups are enough (`Attended.faults`). What is enough the
pacer says, folded over the readings that it is shown; how they are spread over the run is of no
account. The host has its part in it: every step that is out returns at some time, and so the
loop is between two ticks again and again.

If the loop listens to a feed the readings that are fired into the feed are enough
(`Listens.faults`), and what is fired after them does no harm. The driver looks up again and
again, and each time a reading is queued the next look-up between two ticks takes it. The loop
cannot end before, for a feed is not exhausted while a reading is queued, and breaks at no time.
-/

namespace FrameLoop

namespace Demo

open World (Event run journal evaluations fired firstEvents)

namespace Cast

variable {c : Cast} {after n : Nat} {r : SchedulerRef} {q : FeedRef} {d : Duration}
  {es : List Event} {σ : Nat → Event} {a : Nat}

/-- **No tick launches more than the three jobs.** -/
theorem Stands.length_launched_le (h : c.Stands after r es) :
    (journal r es).launched.length ≤ 3 * (journal r es).ticks.length := by
  have few : ∀ x ∈ (journal r es).ticks.map fun t => t.launched.length, x ≤ 3 := by
    rw [List.forall_mem_map]
    intro t ht
    obtain ⟨past, rest, split⟩ := List.append_of_mem ht
    rw [(h.tick split).2.length_eq, length_due]
    split <;> decide
  have most := List.sum_le_card_nsmul _ 3 few
  rw [List.length_map, smul_eq_mul, Nat.mul_comm] at most
  rw [← (World.ordered_run r es).launched_ticks, List.length_flatMap]
  exact most

/-! ## A demonstration that is attended to -/

/-- **What a demonstration relies on** in a run without end. The scene is set when it begins,
every event after that leaves it to itself, and every step that is out returns at some time. -/
structure Attended (c : Cast) (after : Nat) (r : SchedulerRef) (σ : Nat → Event) (a : Nat) :
    Prop where
  ready : c.Ready r (firstEvents σ a)
  lets : ∀ n ≥ a, c.Lets after r (firstEvents σ n) (σ n)
  returns : ∀ n ≥ a, ∀ j ∈ (journal r (firstEvents σ n)).out, ∃ k ≥ n, ∃ v, σ k = .returned r j v

/-- **What it relies on besides** that listens to a feed: its driver looks up again and again. -/
structure Listens (c : Cast) (after : Nat) (r : SchedulerRef) (q : FeedRef) (d : Duration)
    (σ : Nat → Event) (a : Nat) : Prop extends c.Attended after r σ a where
  heard : (run (firstEvents σ a)).hears r q
  looksUp : ∀ n ≥ a, ∃ k ≥ n, σ k = .poll r
  delay : ∀ n ≥ a, ((run (firstEvents σ n)).scheduler r).frameDelay = d

/-- A scene that is set, and events that leave it to itself. -/
theorem performs_of_lets (ready : c.Ready r (firstEvents σ a))
    (lets : ∀ n ≥ a, c.Stands after r (firstEvents σ n) → c.Lets after r (firstEvents σ n) (σ n))
    (later : a ≤ n) : c.Performs after r (firstEvents σ n) := by
  induction n, later using Nat.le_induction with
  | base => exact .ready ready
  | succ n later ih =>
    rw [World.firstEvents_succ]
    exact ih.next (lets n later ih.stands)

namespace Attended

variable (h : c.Attended after r σ a)
include h

theorem performs (later : a ≤ n) : c.Performs after r (firstEvents σ n) :=
  performs_of_lets h.ready (fun k further _ => h.lets k further) later

/-- No tick is in flight for ever, for no more steps return than have been launched. -/
theorem still_again (later : a ≤ n) :
    ∃ k ≥ n, ((run (firstEvents σ k)).scheduler r).driver.tick? = none := by
  by_contra never
  have busy : ∀ k, n ≤ k → ((run (firstEvents σ k)).scheduler r).driver.tick?.isSome = true := by
    intro k further
    rw [Option.isSome_iff_ne_none]
    exact fun still => never ⟨k, further, still⟩
  have many : ∀ m, ∃ k ≥ n, m ≤ (journal r (firstEvents σ k)).returned.length := by
    intro m
    induction m with
    | zero => exact ⟨n, Nat.le_refl n, Nat.zero_le _⟩
    | succ m ih =>
      obtain ⟨k, further, enough⟩ := ih
      obtain ⟨j, out⟩ := List.exists_mem_of_ne_nil _ (World.out_ne_nil (busy k further))
      obtain ⟨i, last, v, isReturn⟩ := h.returns k (Nat.le_trans later further) j out
      exact ⟨i + 1, Nat.le_succ_of_le (Nat.le_trans further last),
        Nat.lt_of_le_of_lt enough (World.returned_since out last isReturn)⟩
  obtain ⟨k, further, enough⟩ := many (3 * max after 1 + 1)
  have stands := (h.performs (Nat.le_trans later further)).stands
  have all := (World.ordered_run r (firstEvents σ k)).perm.length_eq
  rw [List.length_append] at all
  have launched := stands.length_launched_le
  have ticks := stands.length_ticks_le
  omega

/-- Nobody has asked for a stop at any time. -/
theorem unasked (n : Nat) : World.Unasked r (firstEvents σ n) := by
  intro es early stopping
  obtain ⟨m, -, rfl⟩ := World.eq_firstEvents early
  rcases Nat.le_total a m with since | before
  · exact (h.performs since).stands.unasked stopping
  · obtain ⟨more, begins⟩ := World.firstEvents_grows σ before
    have winds : ((run (firstEvents σ m)).scheduler r).state.windsDown = true := by
      rw [stopping]
      rfl
    have winds := World.windsDown_run winds more
    rw [begins, h.ready.running] at winds
    cases winds

/-- **A demonstration that has come to the tick that was asked for faults**, and stays so. -/
theorem faults_of_come (come : ∃ n ≥ a, max after 1 ≤ (journal r (firstEvents σ n)).ticks.length) :
    ∃ n ≥ a, ∀ k ≥ n, c.HasFaulted after r (firstEvents σ k) := by
  obtain ⟨n, later, come⟩ := come
  obtain ⟨m, afterwards, still⟩ := h.still_again later
  have come' := Nat.le_trans come (World.length_ticks_mono (World.firstEvents_grows σ afterwards))
  have faulted := (h.performs (Nat.le_trans later afterwards)).hasFaulted still come'
  refine ⟨m, Nat.le_trans later afterwards, fun k further => ?_⟩
  refine (h.performs (Nat.le_trans (Nat.le_trans later afterwards) further)).hasFaulted ?_
    (Nat.le_trans come' (World.length_ticks_mono (World.firstEvents_grows σ further)))
  obtain ⟨more, goesOn⟩ := World.firstEvents_grows σ further
  have sound := World.sound_run (firstEvents σ k) r
  have terminal : ((run (firstEvents σ k)).scheduler r).state.isTerminal = true := by
    rw [← goesOn, (World.terminal_run r _ more (by rw [faulted.state]; rfl)).1, faulted.state]
    rfl
  rw [sound.ended_of_terminal terminal]
  rfl

/-- **It faults on the tick that was asked for**, if the wake-ups that the pacer is shown are
enough. -/
theorem faults (enough : ∃ n, max after 1 ≤
      ({} : Pacer).dueCount (evaluations r (firstEvents σ n))) :
    ∃ n ≥ a, ∀ k ≥ n, c.HasFaulted after r (firstEvents σ k) := by
  obtain ⟨n, enough⟩ := enough
  rw [← (World.paced_run r _).ticks] at enough
  refine h.faults_of_come ⟨max a n, Nat.le_max_left a n, Nat.le_trans enough ?_⟩
  exact World.length_ticks_mono (World.firstEvents_grows σ (Nat.le_max_right a n))

end Attended

namespace Listens

variable (h : c.Listens after r q d σ a)
include h

/-- The readings alone say what has been evaluated. -/
theorem evaluations_eq (later : a ≤ n) :
    evaluations r (firstEvents σ n) =
      ((evaluations r (firstEvents σ n)).map (·.1)).map (·, d) := by
  induction n, later using Nat.le_induction with
  | base => rw [h.ready.untaken]; rfl
  | succ n later ih =>
    rw [World.firstEvents_succ, World.evaluations_concat, List.map_append, List.map_append, ← ih]
    cases evaluated : (run (firstEvents σ n)).evaluation r (σ n) with
    | none => rfl
    | some x =>
      obtain ⟨-, -, delay, -⟩ := World.evaluation_cases evaluated
      rw [h.delay n later] at delay
      simp [← delay]

/-- **The loop goes on listening**, unless there is nothing more to come, or the tick has come
that was asked for. -/
theorem goes_on (later : a ≤ n) :
    (run (firstEvents σ n)).hears r q ∨
      ((run (firstEvents σ n)).scheduler r).state = .stopped ∨
        max after 1 ≤ (journal r (firstEvents σ n)).ticks.length := by
  induction n, later using Nat.le_induction with
  | base => exact .inl h.heard
  | succ n later ih =>
    have sound := World.sound_run (firstEvents σ n) r
    rcases ih with heard | stopped | come
    · obtain goesOn | ⟨-, ended⟩ := World.hears_step sound (σ n) heard
      · rw [World.firstEvents_succ, World.run_concat]
        exact .inl goesOn
      · rw [← World.run_concat] at ended
        right
        obtain ⟨loop, exit, -, waiting, gives, state⟩ | ⟨past, t, last, faulty⟩ :=
          World.ends_cases (World.active_of_hears heard) ended
        · left
          rw [World.firstEvents_succ, state]
          exact World.exit_of_hears heard waiting gives
        · right
          have stands := (h.performs (Nat.le_succ_of_le later)).stands
          rw [← World.firstEvents_succ] at ended last
          exact stands.come_of_faulty last (by rw [ended]; rfl) faulty
    · right; left
      have terminal : ((run (firstEvents σ n)).scheduler r).state.isTerminal = true := by
        rw [stopped]; rfl
      rw [World.firstEvents_succ, (World.terminal_run r _ [σ n] terminal).1, stopped]
    · right; right
      exact Nat.le_trans come (World.length_ticks_mono (World.firstEvents_grows σ (Nat.le_succ n)))

/-- A look-up between two ticks takes a reading if one is queued. -/
theorem taken_of_poll (listens : (run (firstEvents σ n)).hears r q) (later : a ≤ n)
    (still : ((run (firstEvents σ n)).scheduler r).driver.tick? = none) (poll : σ n = .poll r)
    (queued : (evaluations r (firstEvents σ n)).length < (fired q (firstEvents σ n)).length) :
    (run (firstEvents σ n)).evaluation r (σ n) ≠ none := by
  have sound := World.sound_run (firstEvents σ n) r
  have running := (sound.of_active (World.active_of_hears listens)).1.resolve_right
    (h.performs later).stands.unasked
  have line := congrArg List.length ((World.fed_run q (firstEvents σ n)).heard r listens)
  rw [List.length_append, List.length_map] at line
  cases left : ((run (firstEvents σ n)).feed q).queued with
  | nil =>
    rw [left, List.length_nil] at line
    omega
  | cons t rest =>
    rw [poll, (World.poll_of_hears sound listens running still).1 t rest left]
    exact Option.some_ne_none _

/-- **One more reading is evaluated** at some time, if one is queued and the tick has not come
that was asked for. -/
theorem evaluates_again (listens : ∀ k ≥ a, (run (firstEvents σ k)).hears r q) (later : a ≤ n)
    (queued : (evaluations r (firstEvents σ n)).length < (fired q (firstEvents σ n)).length) :
    ∃ k ≥ n, (evaluations r (firstEvents σ n)).length <
      (evaluations r (firstEvents σ k)).length := by
  obtain ⟨m, afterwards, still⟩ := h.still_again later
  obtain ⟨k, further, poll⟩ := h.looksUp m (Nat.le_trans later afterwards)
  have grows {i j : Nat} (early : i ≤ j) : (evaluations r (firstEvents σ i)).length ≤
      (evaluations r (firstEvents σ j)).length :=
    (World.record_grows _ (World.firstEvents_grows σ early)).length_le
  by_contra never
  have same : ∀ i ≥ n, (evaluations r (firstEvents σ i)).length =
      (evaluations r (firstEvents σ n)).length := by
    intro i since
    refine Nat.le_antisymm (Nat.le_of_not_lt fun more => never ⟨i, since, more⟩) (grows since)
  have untaken : ∀ i ≥ n, (run (firstEvents σ i)).evaluation r (σ i) = none := by
    intro i since
    have next := same (i + 1) (Nat.le_succ_of_le since)
    rw [World.firstEvents_succ, World.evaluations_concat, List.length_append, same i since] at next
    rw [← Option.toList_eq_nil_iff, ← List.length_eq_zero_iff]
    omega
  -- So no tick begins, and the driver looks up between two ticks.
  have waits : ∀ i ≥ m, ((run (firstEvents σ i)).scheduler r).driver.tick? = none := by
    intro i since
    induction i, since using Nat.le_induction with
    | base => exact still
    | succ i since ih =>
      rw [World.firstEvents_succ]
      exact World.still_of_untaken ih (untaken i (Nat.le_trans afterwards since))
  have since := Nat.le_trans afterwards further
  have fires : (fired q (firstEvents σ n)).length ≤ (fired q (firstEvents σ k)).length :=
    (World.record_grows _ (World.firstEvents_grows σ since)).length_le
  have left : (evaluations r (firstEvents σ k)).length < (fired q (firstEvents σ k)).length := by
    rw [same k since]
    exact Nat.lt_of_lt_of_le queued fires
  have later' := Nat.le_trans later since
  exact h.taken_of_poll (listens k later') later' (waits k further) poll left (untaken k since)

/-- **A loop that stops has evaluated all**: nobody has asked it to stop, so that nothing can have
been left. -/
theorem evaluated_of_stopped (later : a ≤ n)
    (stopped : ((run (firstEvents σ n)).scheduler r).state = .stopped) (m : Nat) :
    ∃ k ≥ a, fired q (firstEvents σ m) <+: (evaluations r (firstEvents σ k)).map (·.1) := by
  have since : n ≤ max n m := Nat.le_max_left n m
  refine ⟨max n m, Nat.le_trans later since, ?_⟩
  obtain ⟨more, goesOn⟩ := World.firstEvents_grows σ since
  have stopped' : ((run (firstEvents σ (max n m))).scheduler r).state = .stopped := by
    rw [← goesOn, (World.terminal_run r _ more (by rw [stopped]; rfl)).1, stopped]
  cases World.served_run (World.firstEvents_grows σ (Nat.le_trans later since)) h.heard with
  | hears heard =>
    have active := World.active_of_hears heard
    rw [(World.sound_run _ r).ended_of_terminal (by rw [stopped']; rfl)] at active
    cases active
  | ended _ _ all =>
    rw [(all (h.unasked _) stopped').2]
    exact World.record_grows _ (World.firstEvents_grows σ (Nat.le_max_right n m))

/-- **A loop that never stops listening evaluates all** that is fired, one reading after the
other. -/
theorem evaluated_of_hears (listens : ∀ k ≥ a, (run (firstEvents σ k)).hears r q) (m : Nat) :
    ∃ n ≥ a, fired q (firstEvents σ m) <+: (evaluations r (firstEvents σ n)).map (·.1) := by
  have fires {i j : Nat} (early : i ≤ j) :
      fired q (firstEvents σ i) <+: fired q (firstEvents σ j) :=
    World.record_grows _ (World.firstEvents_grows σ early)
  have many : ∀ l ≤ (fired q (firstEvents σ m)).length,
      ∃ n ≥ max a m, l ≤ (evaluations r (firstEvents σ n)).length := by
    intro l
    induction l with
    | zero => exact fun _ => ⟨_, Nat.le_refl _, Nat.zero_le _⟩
    | succ l ih =>
      intro short
      obtain ⟨n, later, some⟩ := ih (Nat.le_of_succ_le short)
      have since : a ≤ n := Nat.le_trans (Nat.le_max_left a m) later
      by_cases more : l < (evaluations r (firstEvents σ n)).length
      · exact ⟨n, later, more⟩
      · have whole := (fires (Nat.le_trans (Nat.le_max_right a m) later)).length_le
        obtain ⟨k, further, next⟩ := h.evaluates_again listens since (by omega)
        exact ⟨k, Nat.le_trans later further, Nat.lt_of_le_of_lt some next⟩
  obtain ⟨n, later, all⟩ := many _ (Nat.le_refl _)
  have since : a ≤ n := Nat.le_trans (Nat.le_max_left a m) later
  refine ⟨n, since, List.prefix_of_prefix_length_le
    (fires (Nat.le_trans (Nat.le_max_right a m) later)) ?_ (by rwa [List.length_map])⟩
  rw [(World.fed_run q (firstEvents σ n)).heard r (listens n since)]
  exact List.prefix_append _ _

/-- **The tick comes that was asked for**, if the wake-ups are enough. -/
theorem comes (enough : ∃ n, max after 1 ≤
      ({} : Pacer).dueCount ((fired q (firstEvents σ n)).map (·, d))) :
    ∃ n ≥ a, max after 1 ≤ (journal r (firstEvents σ n)).ticks.length := by
  by_contra never
  obtain ⟨m, enough⟩ := enough
  obtain ⟨n, later, all⟩ :
      ∃ n ≥ a, fired q (firstEvents σ m) <+: (evaluations r (firstEvents σ n)).map (·.1) := by
    by_cases stops : ∃ n ≥ a, ((run (firstEvents σ n)).scheduler r).state = .stopped
    · obtain ⟨n, later, stopped⟩ := stops
      exact h.evaluated_of_stopped later stopped m
    · refine h.evaluated_of_hears (fun k later => ?_) m
      obtain heard | stopped | come := h.goes_on later
      · exact heard
      · exact absurd ⟨k, later, stopped⟩ stops
      · exact absurd ⟨k, later, come⟩ never
  refine never ⟨n, later, ?_⟩
  rw [(World.paced_run r _).ticks, h.evaluations_eq later]
  exact Nat.le_trans enough (Pacer.dueCount_mono (all.map _))

/-- **It faults on the tick that was asked for**, if the wake-ups that are fired are enough. -/
theorem faults (enough : ∃ n, max after 1 ≤
      ({} : Pacer).dueCount ((fired q (firstEvents σ n)).map (·, d))) :
    ∃ n ≥ a, ∀ k ≥ n, c.HasFaulted after r (firstEvents σ k) :=
  h.toAttended.faults_of_come (h.comes enough)

end Listens

end Cast

end Demo

end FrameLoop

import FrameLoop.Proofs.Demo.Host

/-!
# The demonstration played

A `Play` goes from wake-up to wake-up by itself. Here it is shown to be a run of the demonstration
on a host that notices each wake-up when it is due and runs the steps one after the other: a play
`Follows` a list of events if it has come to where they lead. Each of its functions is then a few
events more. A step is what it tells the log and its return (`Follows.returned`), a wake-up is a
`pass` of the clock, a `poll` and the steps of the tick (`Rests.wake`).

So a play that has gone on for wake-ups enough has faulted on the tick that was asked for
(`Rests.hasFaulted`). It begins with the opening (`rests_opening`), which is the same for all
settings but for two durations and what the log has been told.
-/

namespace FrameLoop.Demo

open World (Event journal deliveries)

namespace Play

variable {p : Play} {after : Nat} {frameDelay wakeup : Duration} {ns : List Notice}
  {es : List Event} {j : JobRef}

/-- **A play is where a run of the demonstration is.** -/
structure Follows (p : Play) (after : Nat) (frameDelay wakeup : Duration) (ns : List Notice)
    (es : List Event) : Prop where
  performs : players.Performs after 0 es
  hosted : Hosted after frameDelay wakeup ns [] es
  /-- A driver that is woken looks up at once. -/
  prompt : .rouse 0 ∉ es
  play : p = asOf after es

theorem Follows.world (h : p.Follows after frameDelay wakeup ns es) : p.world = World.run es := by
  rw [h.play]
  rfl

theorem Follows.scheduler (h : p.Follows after frameDelay wakeup ns es) : p.scheduler = 0 := by
  rw [h.play]
  rfl

/-- **What a step of a play does**: it ends as it is to, it is counted, and it may tell the
log. -/
theorem step_asOf (after : Nat) (es : List Event) (here : j ∈ players.jobs) :
    ∃ ns, (asOf after es).step j =
      (players.verdict after ((journal 0 es).returned.count players.injector + 1) j,
        { asOf after es with
          world := (World.run es).tell ns
          calls := ((journal 0 es).returned ++ [j]).count players.injector
          beats := ((journal 0 es).returned ++ [j]).count players.heartbeat }) := by
  simp only [List.count_append]
  simp only [Cast.jobs, List.mem_cons, List.not_mem_nil, or_false] at here
  rcases here with rfl | rfl | rfl
  · exact ⟨beatNotices ((journal 0 es).returned.count players.heartbeat + 1), rfl⟩
  · exact ⟨[.warmupComplete], rfl⟩
  · have silent : (World.run es).tell [] = World.run es := by rw [World.tell, List.append_nil]
    refine ⟨[], ?_⟩
    rw [silent]
    rfl

/-- The calls that a play has counted are those that have returned. -/
theorem verdict_eq (out : j ∈ (journal 0 es).out) :
    players.verdict after ((journal 0 es).returned.count players.injector + 1) j =
      players.verdict after ((journal 0 es).launched.count players.injector) j := by
  by_cases injects : j = players.injector
  · subst injects
    have ordered := World.ordered_run 0 es
    rw [← ordered.perm.count_eq, List.count_append,
      List.count_eq_one_of_mem ordered.nodup_out out]
  · simp only [Cast.verdict, if_neg injects]

/-- **A step that is out is run and returns**, and launches nothing. -/
theorem Follows.returned (h : p.Follows after frameDelay wakeup ns es)
    (out : j ∈ (journal 0 es).out) :
    ∃ es', (((p.step j).2.world.returned (p.step j).2.scheduler j (p.step j).1).1 = []) ∧
      ((p.step j).2.withWorld ((p.step j).2.world.returned (p.step j).2.scheduler j
        (p.step j).1).2).Follows after frameDelay wakeup ns es' ∧
      (journal 0 es').out = (journal 0 es).out.erase j ∧
      deliveries 0 es' = deliveries 0 es ∧ (World.run es').clock = (World.run es).clock := by
  obtain rfl := h.play
  obtain ⟨ns', step⟩ := step_asOf after es (h.performs.stands.mem_jobs_of_out out)
  rw [step, verdict_eq out]
  dsimp only
  -- What the log is told is an event of its own, which leaves the journal as it is.
  have told := h.performs.tell ns'
  have world : (World.run es).tell ns' = World.run (es ++ [.tell ns']) := by
    rw [World.run_concat]
    rfl
  have same : journal 0 (es ++ [.tell ns']) = journal 0 es := by
    rw [World.journal_concat]
    exact List.append_nil _
  rw [← same] at out ⊢
  generalize verdict : players.verdict after
    ((journal 0 (es ++ [.tell ns'])).launched.count players.injector) j = v
  have lets := told.stands.lets_of_returned verdict.symm
  have silent := told.stands.launched_returned (told.stands.spares lets) out
  refine ⟨es ++ [.tell ns'] ++ [.returned 0 j v], ?_, ?_, ?_, ?_, ?_⟩
  · rw [world]
    exact silent
  · constructor
    case performs => exact told.next lets
    case hosted => exact (h.hosted.host (.tells ns')).host (.returned verdict)
    case prompt => simpa using h.prompt
    case play =>
      rw [world]
      conv_rhs =>
        rw [asOf, World.returned_of_out out, World.run_concat,
          World.step_of_out (World.agrees_run _ 0) out]
      rfl
  · rw [World.out_returned out, World.launched_returned, silent, List.append_nil]
  · rw [World.deliveries_of_untaken rfl, World.deliveries_of_untaken rfl]
  · rw [World.run_concat, World.clock_step, World.run_concat, World.clock_step]
    rfl

/-- **The steps of a tick are run to its end.** -/
theorem Follows.runSteps {wave : List JobRef} {fuel : Nat}
    (h : p.Follows after frameDelay wakeup ns es)
    (out : (journal 0 es).out = wave) (enough : wave.length ≤ fuel) :
    ∃ es', (p.runSteps fuel wave).Follows after frameDelay wakeup ns es' ∧
      (journal 0 es').out = [] ∧ deliveries 0 es' = deliveries 0 es ∧
      (World.run es').clock = (World.run es).clock := by
  induction wave generalizing fuel p es with
  | nil => exact ⟨es, by cases fuel <;> exact h, out, rfl, rfl⟩
  | cons j rest ih =>
    obtain ⟨fuel, rfl⟩ := Nat.exists_eq_succ_of_ne_zero (Nat.ne_zero_of_lt enough)
    obtain ⟨es₁, silent, follows, left, delivered, clock⟩ :=
      h.returned (j := j) (by rw [out]; exact List.mem_cons_self)
    rw [out, List.erase_cons_head] at left
    obtain ⟨es₂, goesOn, none, delivered', clock'⟩ :=
      ih follows left (Nat.le_of_succ_le_succ enough)
    refine ⟨es₂, ?_, none, delivered'.trans delivered, clock'.trans clock⟩
    have more : p.runSteps (fuel + 1) (j :: rest) = Play.runSteps fuel
        (rest ++ ((p.step j).2.world.returned (p.step j).2.scheduler j (p.step j).1).1)
        ((p.step j).2.withWorld
          ((p.step j).2.world.returned (p.step j).2.scheduler j (p.step j).1).2) := rfl
    rw [more, silent, List.append_nil]
    exact goesOn

/-! ## From wake-up to wake-up -/

/-- **A play between two wake-ups**: no tick is in flight, and the next wake-up is still to
come. -/
structure Rests (p : Play) (after : Nat) (frameDelay wakeup : Duration) (ns : List Notice)
    (es : List Event) : Prop where
  follows : p.Follows after frameDelay wakeup ns es
  still : ((World.run es).scheduler 0).driver.tick? = none
  early : (World.run es).clock ≤ p.nextWake

/-- The next wake-up of a driver on a source at a fixed rate. -/
theorem nextWake_eq {loop : Loop} {j : Interval}
    (driver : (p.world.scheduler p.scheduler).driver.loop? = some loop)
    (mine : loop.source = .interval j) : p.nextWake = j.deadline := by
  obtain ⟨source, pacer, lastStart, roused⟩ := loop
  obtain rfl : source = .interval j := mine
  rw [nextWake, driver]

/-- What has just been delivered is before the next wake-up. -/
theorem Follows.early (h : p.Follows after frameDelay wakeup ns es)
    (last : ⟨((World.run es).clock : Nat)⟩ ∈ (deliveries 0 es).map (·.1)) :
    (World.run es).clock ≤ p.nextWake := by
  cases driver : (p.world.scheduler p.scheduler).driver.loop? with
  | none =>
    rw [nextWake, driver, h.world]
  | some loop =>
    obtain ⟨j, delivers, source⟩ := h.hosted.paced.metered.delivers
    obtain ⟨ks, n, grid⟩ := delivers.onGrid
    have mine : loop.source = .interval j := by
      refine source loop.source loop.pacer ?_
      rw [← h.world, ← h.scheduler, Driver.gear?, driver]
      rfl
    have apart := grid.next_apart _ last
    rw [nextWake_eq driver mine]
    dsimp only at apart
    omega

/-- The clock is put forward to the next wake-up. -/
theorem Rests.atClock (h : p.Rests after frameDelay wakeup ns es) :
    ∃ es', (p.atClock p.nextWake).Follows after frameDelay wakeup ns es' ∧
      (World.run es').scheduler 0 = (World.run es).scheduler 0 ∧
      (World.run es').clock = p.nextWake ∧ journal 0 es' = journal 0 es ∧
      deliveries 0 es' = deliveries 0 es := by
  have same : journal 0 (es ++ [.pass (p.nextWake - (World.run es).clock)]) = journal 0 es := by
    rw [World.journal_concat]
    exact List.append_nil _
  have later : (World.run es).clock + (p.nextWake - (World.run es).clock) = p.nextWake :=
    Nat.add_sub_of_le h.early
  refine ⟨_, ?_, by rw [World.run_concat]; rfl, ?_, same, World.deliveries_of_untaken rfl⟩
  · constructor
    case performs => exact h.follows.performs.pass _
    case hosted => exact h.follows.hosted.host (.passes _)
    case prompt => simpa using h.follows.prompt
    case play =>
      have forward : max (World.run es).clock p.nextWake =
          (World.run es).clock + (p.nextWake - (World.run es).clock) := by
        rw [later, Nat.max_eq_right h.early]
      obtain rfl := h.follows.play
      conv_rhs => rw [asOf, same, World.run_concat]
      exact congrArg (fun clock => { asOf after es with world := { World.run es with clock } })
        forward
  · rw [World.run_concat, World.clock_step]
    exact later

/-- **The driver looks up**, and takes the wake-up that is due. -/
theorem Follows.poll (h : p.Follows after frameDelay wakeup ns es) {loop : Loop} {j : Interval}
    (waiting : ((World.run es).scheduler 0).driver = .waiting loop)
    (mine : loop.source = .interval j) (now : (World.run es).clock = j.deadline) :
    (p.withWorld (p.world.poll p.scheduler).2).Follows after frameDelay wakeup ns
        (es ++ [.poll 0]) ∧
      deliveries 0 (es ++ [.poll 0]) = deliveries 0 es ++ [(⟨j.deadline⟩, j.deadline)] := by
  have active : ((World.run es).scheduler 0).driver.isActive = true := by rw [waiting]; rfl
  have stands := h.performs.stands
  have sound := World.sound_run es 0
  have running := (sound.of_active active).1.resolve_right stands.unasked
  have asked : loop.askedAt (World.run es).clock = j.deadline := by
    rw [Loop.askedAt, World.unroused_run h.prompt waiting, Option.getD_none, now]
  have taken : (World.run es).taken 0 = some ⟨j.deadline⟩ := by
    have offered : (World.run es).offer loop = .reading ⟨j.deadline⟩ := by
      rw [World.offer, mine, asked]
      simp [Source.next, Interval.next, Interval.due]
    rw [World.taken_of_unseen _ waiting (sound.seesStop_of_running running loop), offered]
  refine ⟨?_, ?_⟩
  · constructor
    case performs => exact h.performs.next stands.lets_of_poll
    case hosted => exact h.hosted.host .polls
    case prompt => simpa using h.prompt
    case play =>
      obtain rfl := h.play
      conv_rhs => rw [asOf, World.returned_poll active, World.run_concat, World.step_poll active]
      rfl
  · rw [World.deliveries_concat, World.delivery, World.evaluation_poll, taken,
      World.givenAt_of_waiting waiting, asked]
    rfl

/-- **A wake-up comes when it is due**, and the tick that may come of it runs to its end. -/
theorem Rests.wake (h : p.Rests after frameDelay wakeup ns es)
    (active : ((World.run es).scheduler 0).driver.isActive = true) :
    ∃ es', ((p.atClock p.nextWake).wake).Rests after frameDelay wakeup ns es' ∧
      (deliveries 0 es').length = (deliveries 0 es).length + 1 := by
  obtain ⟨loop, waiting⟩ := Driver.waiting_of_still active h.still
  obtain ⟨j, -, source⟩ := h.follows.hosted.paced.metered.delivers
  have mine : loop.source = .interval j := source loop.source loop.pacer (by rw [waiting]; rfl)
  have next : p.nextWake = j.deadline := by
    refine nextWake_eq ?_ mine
    rw [h.follows.world, h.follows.scheduler, waiting]
    rfl
  obtain ⟨es₁, follows, scheduler, clock, same, delivered⟩ := h.atClock
  have waiting' := (congrArg Scheduler.driver scheduler).trans waiting
  obtain ⟨polled, taken⟩ := follows.poll waiting' mine (clock.trans next)
  have active' : ((World.run es₁).scheduler 0).driver.isActive = true := by rw [scheduler, active]
  -- The tick that may have come of it.
  have out : (journal 0 (es₁ ++ [.poll 0])).out = ((World.run es₁).poll 0).1 := by
    rw [World.out_poll active', same, (World.agrees_run es 0).out_of_still h.still,
      List.nil_append]
  have enough : ((World.run es₁).poll 0).1.length ≤
      (World.run (es₁ ++ [.poll 0])).forest.nodes.length := by
    rw [← out]
    exact (World.run _).forest.length_le_of_nodup (World.ordered_run 0 _).nodup_out
      fun j isOut => World.has_of_out (World.held_run _) (World.agrees_run _ 0) isOut
  obtain ⟨es₂, played, none, delivered', clock'⟩ := polled.runSteps out enough
  have deliveries : deliveries 0 es₂ = deliveries 0 es ++ [(⟨j.deadline⟩, j.deadline)] := by
    rw [delivered', taken, delivered]
  have wake : (p.atClock p.nextWake).wake = Play.runSteps
      (World.run (es₁ ++ [.poll 0])).forest.nodes.length ((World.run es₁).poll 0).1
      ((p.atClock p.nextWake).withWorld
        ((p.atClock p.nextWake).world.poll (p.atClock p.nextWake).scheduler).2) := by
    rw [Play.wake, follows.world, follows.scheduler, World.run_concat, World.step_poll active']
  refine ⟨es₂, ⟨wake ▸ played, ?_, ?_⟩, by rw [deliveries, List.length_append]; rfl⟩
  · by_contra busy
    exact World.out_ne_nil (Option.isSome_iff_ne_none.2 busy) none
  · rw [wake]
    refine played.early ?_
    rw [clock', World.run_concat, World.clock_step, clock, next, deliveries, List.map_append]
    exact List.mem_append_right _ (List.mem_singleton_self _)

theorem Follows.outcome_eq (h : p.Follows after frameDelay wakeup ns es) :
    p.outcome = ((World.run es).scheduler 0).outcome := by
  rw [outcome, h.world, h.scheduler]

/-- A play goes on as long as it has no outcome. -/
theorem Follows.active_of_unsettled (h : p.Follows after frameDelay wakeup ns es)
    (unsettled : p.outcome = none) :
    ((World.run es).scheduler 0).driver.isActive = true := by
  rw [h.outcome_eq] at unsettled
  cases World.sound_run es 0 with
  | idle idle => exact absurd idle h.performs.stands.begun
  | running _ _ _ active | stopping _ _ _ active => exact active
  | stopped _ _ outcome | faulted _ _ _ outcome => rw [outcome] at unsettled; cases unsettled

/-- **A play goes from wake-up to wake-up** until its loop has ended or it is interrupted, if the
wake-ups that it may take are enough. -/
theorem Rests.run (h : p.Rests after frameDelay wakeup ns es) (deadline : Option Nat) (fuel : Nat) :
    ∃ es', (p.run deadline fuel).Rests after frameDelay wakeup ns es' ∧
      ((p.run deadline fuel).outcome.isSome = true ∨
        deadline.any (· ≤ (p.run deadline fuel).nextWake) = true ∨
        (deliveries 0 es).length + fuel ≤ (deliveries 0 es').length) := by
  induction fuel generalizing p es with
  | zero => exact ⟨es, h, .inr (.inr (Nat.le_refl _))⟩
  | succ fuel ih =>
    rw [Play.run]
    split
    · next ends =>
      rw [Bool.or_eq_true] at ends
      exact ⟨es, h, ends.imp_right .inl⟩
    · next goesOn =>
      rw [Bool.or_eq_true, not_or, Bool.not_eq_true, Option.isSome_eq_false_iff,
        Option.isNone_iff_eq_none] at goesOn
      obtain ⟨es₁, woken, more⟩ := h.wake (h.follows.active_of_unsettled goesOn.1)
      obtain ⟨es₂, rests, comes⟩ := ih woken
      refine ⟨es₂, rests, comes.imp_right (.imp_right fun enough => ?_)⟩
      omega

/-- **A play that has not been interrupted has faulted** on the tick that was asked for, once the
wake-ups have been enough. -/
theorem Rests.hasFaulted (h : p.Rests after frameDelay wakeup ns es)
    (ends : p.outcome.isSome = true ∨
      max after 1 * (frameDelay.saturated.nanos / (Interval.start wakeup 0).period + 1) ≤
        (deliveries 0 es).length) :
    players.HasFaulted after 0 es := by
  rw [h.follows.outcome_eq] at ends
  exact h.follows.performs.hasFaulted h.still
    (h.follows.hosted.paced.come_of_ends (period_pos wakeup) ends)

/-! ## The opening -/

/-- **Up to the first wake-up**: the start of the engine is over before the driver looks up. -/
def opening (frameDelay wakeup : Duration) (ns : List Notice) : List Event :=
  started frameDelay wakeup ns ++ brings frameDelay

theorem hosted_opening :
    Hosted after frameDelay wakeup ns [] (opening frameDelay wakeup ns) := by
  have brought : opening frameDelay wakeup ns = started frameDelay wakeup ns ++
      [.tell [.heartbeatOnline frameDelay.saturated]] ++ [.newJob heartbeatName] ++
      [.hookReturned 0 (.ok (some 2))] := by
    simp [opening, brings]
  rw [brought]
  exact ((Hosted.begins.starts).starts).starts

theorem ready_opening : players.Ready 0 (opening frameDelay wakeup ns) := by
  have hosted : Hosted 0 frameDelay wakeup ns [] (opening frameDelay wakeup ns) := hosted_opening
  have carries := hosted.paced.carries
  constructor
  case distinct => exact carries.distinct
  case registered =>
    have registry : ((World.run (opening frameDelay wakeup ns)).scheduler 0).registry =
        [0, 1, 2] := by
      cbv
    rw [registry]
    decide
  case unlinked => exact carries.unlinked
  case name => exact carries.name
  case running => cbv
  case untaken => cbv

theorem start_cast :
    (cast (World.run [.tell ns, .newScheduler ⟨"demo"⟩ frameDelay wakeup]) 0 (some after)).start =
      asOf after (opening frameDelay wakeup ns) := by
  cbv

/-- **A play that has been started** waits for its first wake-up. -/
theorem rests_opening :
    (asOf after (opening frameDelay wakeup ns)).Rests after frameDelay wakeup ns
      (opening frameDelay wakeup ns) := by
  have clock : (World.run (opening frameDelay wakeup ns)).clock = 0 := by cbv
  constructor
  case follows =>
    constructor
    case performs => exact .ready ready_opening
    case hosted => exact hosted_opening
    case prompt => simp [opening, started, prelude, brings]
    case play => rfl
  case still => cbv
  case early =>
    rw [clock]
    exact Nat.zero_le _

end Play

end FrameLoop.Demo

import FrameLoop.CommandLine.Outcome
import FrameLoop.Proofs.Demo.Play
import FrameLoop.Proofs.Settings.Overlong

/-!
# The demonstration as a program

The program sets the demonstration up, plays it, stops the engine and shows the counters. What it
is set up on is always the opening of a play (`setUp_eq`): a frame delay on the command line is as
good as one in the settings. The wake-ups that it allows itself are enough for the tick that was
asked for (`wakeups_start`), unless its time is over before (`Interrupted`). And stopping the
engine changes nothing about a loop that has ended (`HasEnded.stop`).

An interrupt from the keyboard is no part of this: the outcome of a command line is that of a run
which nobody disturbs.
-/

namespace FrameLoop

open World (Event deliveries)

/-! ## Setting up -/

/-- A duration that has been read may have told the log something. -/
theorem World.readMillis_ok {w w' : World} {ms : Binary64} {d : Duration}
    (read : w.readMillis ms = (.ok d, w')) : ∃ ns, w' = w.tell ns := by
  unfold readMillis at read
  obtain ⟨-, rfl⟩ := Prod.mk.inj read
  split
  · exact ⟨_, rfl⟩
  · exact ⟨[], by rw [tell, List.append_nil]⟩

/-- What a scheduler is made of that settings ask for. -/
theorem World.schedulerOfSettings_ok {w w' : World} {loopId : LoopId} {s : SchedulerSettings}
    {r : SchedulerRef} (made : w.schedulerOfSettings loopId s = (.ok r, w')) :
    ∃ frameDelay wakeup ns, r = w.schedulers.length ∧
      w' = ((w.tell ns).newScheduler loopId frameDelay wakeup).2 := by
  unfold schedulerOfSettings at made
  cases first : w.readMillis s.frameDelayMs with
  | mk answer told =>
    rw [first] at made
    cases answer with
    | error e => cases made
    | ok frameDelay =>
      obtain ⟨ns, rfl⟩ := readMillis_ok first
      dsimp only at made
      cases second : (w.tell ns).readMillis s.wakeupIntervalMs with
      | mk answer told =>
        rw [second] at made
        cases answer with
        | error e => cases made
        | ok wakeup =>
          obtain ⟨ns', rfl⟩ := readMillis_ok second
          obtain ⟨ref, rfl⟩ := Prod.mk.inj made
          refine ⟨frameDelay, wakeup, ns ++ ns', (Except.ok.inj ref).symm, ?_⟩
          rw [tell, tell, List.append_assoc]
          rfl

namespace Demo.Play

variable {p : Play} {s : SchedulerSettings} {frameDelayMs : Option Binary64}
  {abortAfter : Option Nat}

/-- **What a demonstration is set up on**: a scheduler that has been made of two durations,
whatever the log has been told of them. A frame delay that takes the place of another is as one
that was there from the beginning. -/
theorem setUp_eq (made : setUp s frameDelayMs abortAfter = .ok p) :
    ∃ frameDelay wakeup ns, p = cast
      (World.run [.tell ns, .newScheduler ⟨"demo"⟩ frameDelay wakeup]) 0 abortAfter := by
  unfold setUp at made
  cases scheduler : World.schedulerOfSettings {} ⟨"demo"⟩ s with
  | mk answer w =>
    rw [scheduler] at made
    cases answer with
    | error e => cases made
    | ok r =>
      obtain ⟨frameDelay, wakeup, ns, rfl, rfl⟩ := World.schedulerOfSettings_ok scheduler
      cases frameDelayMs with
      | none =>
        obtain rfl := Except.ok.inj made
        exact ⟨frameDelay, wakeup, ns, rfl⟩
      | some ms =>
        dsimp only at made
        cases instead : ((World.tell {} ns).newScheduler ⟨"demo"⟩ frameDelay
            wakeup).2.readMillis ms with
        | mk answer w =>
          rw [instead] at made
          cases answer with
          | error e => cases made
          | ok d =>
            obtain ⟨ns', rfl⟩ := World.readMillis_ok instead
            obtain rfl := Except.ok.inj made
            exact ⟨d, wakeup, ns ++ ns', rfl⟩

/-! ## Stopping -/

/-- **A play whose loop has ended**, with the outcome and the counters. -/
structure HasEnded (p : Play) (completion : Completion) (counted : TickStats) : Prop where
  sound : (p.world.scheduler p.scheduler).Sound
  terminal : (p.world.scheduler p.scheduler).state.isTerminal = true
  outcome : p.outcome = some completion
  stats : p.stats = counted

namespace HasEnded

variable {completion : Completion} {counted : TickStats} (h : p.HasEnded completion counted)
include h

/-- A loop that has ended stays as it is, whatever is done to it. -/
theorem turn {w : World}
    (turn : Scheduler.Turn (p.world.scheduler p.scheduler) (w.scheduler p.scheduler)) :
    (p.withWorld w).HasEnded completion counted := by
  obtain ⟨state, outcome, stats⟩ := turn.of_terminal h.sound h.terminal
  constructor
  case sound => exact h.sound.turn turn
  case terminal => rw [← h.terminal, ← state]; rfl
  case outcome => rw [← h.outcome]; exact outcome
  case stats => rw [← h.stats]; exact stats

theorem hookReturned (w : World) (same : w.scheduler p.scheduler = p.world.scheduler p.scheduler)
    (c : CallRef) (result : HookResult) :
    (p.withWorld (w.hookReturned c result).2).HasEnded completion counted :=
  h.turn (same ▸ World.turn_hookReturned w c result p.scheduler)

theorem hooks (fuel : Nat) (progress : Engine.Progress) :
    (hooks fuel progress p).HasEnded completion counted := by
  induction fuel generalizing p progress with
  | zero => exact h
  | succ fuel ih =>
    cases progress with
    | done result => exact h
    | enterStart c s =>
      let w := p.world.tell [.heartbeatOnline (p.world.scheduler p.scheduler).frameDelay]
      exact ih (h.hookReturned (w.newJob heartbeatName).2 rfl c
        (.ok (some (w.newJob heartbeatName).1))) _
    | enterStop c s =>
      exact ih (h.hookReturned (p.world.tell [.heartbeatOffline p.beats]) rfl c (.ok none)) _
    | awaitEnd c r =>
      have turn : Scheduler.Turn (p.world.scheduler p.scheduler)
          (((p.world.poll r).2.schedulerEnded c).2.scheduler p.scheduler) := by
        rw [World.scheduler_congr (World.schedulers_schedulerEnded _ c)]
        exact World.turn_poll h.sound r
      exact ih (h.turn turn) _

/-- **Stopping the engine leaves it as it is** too. -/
theorem stop : p.stop.HasEnded completion counted :=
  (h.turn (World.turn_stopEngine _ _ _)).hooks _ _

end HasEnded

end Demo.Play

/-! ## A run of the program -/

namespace CommandLine

open Demo (players faultInjectorName)
open Demo.Cast (HasAborted)

variable {o : RunOptions} {loaded : Except SettingsError Settings} {p : Demo.Play} {after : Nat}

/-- **A demonstration played** as options ask. -/
def played (o : RunOptions) (p : Demo.Play) : Demo.Play :=
  p.start.run (deadline o) (wakeups o p.start)

/-- **What has been played is interrupted**: the time that was asked for is over, and the loop
has not ended. -/
def Interrupted (o : RunOptions) (played : Demo.Play) : Prop :=
  played.outcome = none ∧ (deadline o).any (· ≤ played.nextWake) = true

/-- **What a run shows whose loop the injector has aborted**, and the counters that are among
it. -/
structure ShowsAbort (after : Nat) (shown : Outcome) (counted : TickStats) : Prop where
  exitCode : shown.exitCode = exitFault
  complaint : shown.complaint = some (complaint (.jobAborted faultInjectorName))
  stats : shown.stats = some counted
  ticks : counted.ticks = max after 1
  subCycles : counted.subCyclesLastTick = 1

/-- **What a run shows whose loop has faulted** because of the injector, with the jobs of its last
tick. -/
structure ShowsFault (after : Nat) (shown : Outcome) (counted : TickStats) : Prop
    extends ShowsAbort after shown counted where
  jobs : counted.jobsLastTick = if after ≤ 1 then 3 else 2

/-- What a run shows whose loop has ended. -/
theorem outcome?_of_setUp
    (made : Demo.Play.setUp (used loaded).scheduler o.frameDelayMs o.abortAfter = .ok p)
    (ended : (played o p).outcome.isSome = true) :
    outcome? o loaded = some (conclude loaded.toOption.isNone (played o p).stop) := by
  have loads (settings : Settings)
      (made : Demo.Play.setUp settings.scheduler o.frameDelayMs o.abortAfter = .ok p) :
      outcome? o (.ok settings) = some (conclude false (played o p).stop) := by
    unfold outcome?
    dsimp only
    rw [made]
    dsimp only
    rw [← Option.not_isSome, show (p.start.run _ _).outcome.isSome = true from ended]
    rfl
  cases loaded with
  | ok settings => exact loads settings made
  | error e =>
    rw [outcome?_error, loads {} made, Option.map_some, ← conclude_true]
    rfl

/-- **What is shown once the loop has been aborted**, whatever host it was on. -/
theorem shows_of_hasAborted {es : List Event} (aborted : HasAborted after 0 es)
    (settingsRejected : Bool) :
    ShowsAbort after (conclude settingsRejected (Demo.Play.asOf after es).stop)
      ((World.run es).scheduler 0).stats := by
  have ended : (Demo.Play.asOf after es).HasEnded (.faulted (.jobAborted faultInjectorName))
      ((World.run es).scheduler 0).stats := by
    constructor
    case sound => exact World.sound_run es 0
    case terminal =>
      show ((World.run es).scheduler 0).state.isTerminal = true
      rw [aborted.state]
      rfl
    case outcome => exact aborted.outcome
    case stats => rfl
  have stopped := ended.stop
  have shown : conclude settingsRejected (Demo.Play.asOf after es).stop =
      { exitCode := exitFault, settingsRejected, stats := some (Demo.Play.asOf after es).stop.stats
        complaint := some (complaint (.jobAborted faultInjectorName)) } := by
    unfold conclude
    rw [stopped.outcome]
  rw [shown, stopped.stats]
  exact ⟨rfl, rfl, rfl, aborted.ticks, aborted.subCycles⟩

/-- **The wake-ups that a run may take are enough** for the tick that is asked for. -/
theorem wakeups_start (frameDelay wakeup : Duration) (ns : List Notice)
    (asked : o.abortAfter = some after) :
    max after 1 * (frameDelay.saturated.nanos / (Interval.start wakeup 0).period + 1) ≤
      wakeups o (Demo.Play.cast (World.run [.tell ns, .newScheduler ⟨"demo"⟩ frameDelay wakeup]) 0
        (some after)).start := by
  rw [Demo.Play.start_cast]
  generalize started : Demo.Play.asOf after (Demo.Play.opening frameDelay wakeup ns) = p
  have delay : (p.world.scheduler p.scheduler).frameDelay = frameDelay.saturated := by
    rw [← started]
    cbv
  have period : (p.world.scheduler p.scheduler).wakeup = wakeup := by
    rw [← started]
    cbv
  unfold wakeups
  dsimp only
  rw [delay, period, asked, Option.map_some, Option.getD_some, Interval.start]
  refine Nat.le_succ_of_le (Nat.le_trans ?_ (Nat.le_add_right _ _))
  exact Nat.mul_le_mul_left _ (Nat.le_succ _)

/-- **A program that is asked for a fault is a demonstration on a host**, unless its settings
break it, and it shows the fault if it is not interrupted. -/
theorem outcome?_of_abortAfter (asked : o.abortAfter = some after)
    (unbroken : ¬ Breaks o (used loaded)) :
    ∃ p, Demo.Play.setUp (used loaded).scheduler o.frameDelayMs o.abortAfter = .ok p ∧
      (¬ Interrupted o (played o p) →
        (played o p).beats = max after 1 ∧
        ∃ shown stats, outcome? o loaded = some shown ∧ ShowsFault after shown stats) ∧
      ∃ frameDelay wakeup ns es,
        p = .cast (World.run [.tell ns, .newScheduler ⟨"demo"⟩ frameDelay wakeup]) 0
          (some after) ∧
        Demo.Play.Hosted after frameDelay wakeup ns [] es ∧ played o p = .asOf after es := by
  obtain ⟨⟨p, made⟩, -⟩ | ⟨-, breaks⟩ :=
    Demo.Play.setUp_cases (used loaded).scheduler o.frameDelayMs o.abortAfter
  · obtain ⟨frameDelay, wakeup, ns, cast⟩ := Demo.Play.setUp_eq made
    rw [asked] at cast
    have enough := wakeups_start frameDelay wakeup ns asked
    have rests : p.start.Rests after frameDelay wakeup ns
        (Demo.Play.opening frameDelay wakeup ns) := by
      rw [cast, Demo.Play.start_cast]
      exact Demo.Play.rests_opening
    rw [← cast] at enough
    obtain ⟨es, rests, ends⟩ := rests.run (deadline o) (wakeups o p.start)
    have play : played o p = .asOf after es := rests.follows.play
    refine ⟨p, made, fun uninterrupted => ?_, frameDelay, wakeup, ns, es, cast,
      rests.follows.hosted, play⟩
    have faulted : players.HasFaulted after 0 es := by
      refine rests.hasFaulted ?_
      rcases ends with ended | late | many
      · exact .inl ended
      · left
        rw [Option.isSome_iff_ne_none]
        exact fun unsettled => uninterrupted ⟨unsettled, late⟩
      · exact .inr (by omega)
    have ended : (played o p).outcome.isSome = true := by
      rw [played, rests.follows.outcome_eq, faulted.outcome]
      rfl
    refine ⟨?_, conclude loaded.toOption.isNone (played o p).stop,
      ((World.run es).scheduler 0).stats, outcome?_of_setUp made ended, ?_⟩
    · rw [play]
      exact faulted.heartbeat
    · rw [play]
      exact ⟨shows_of_hasAborted faulted.toHasAborted _, faulted.jobs⟩
  · exact absurd breaks unbroken

end CommandLine

end FrameLoop

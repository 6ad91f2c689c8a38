import FrameLoop.Proofs.Tick.LaunchSet
import FrameLoop.Proofs.Wakeups.Roused

/-!
# Asking for a stop

Anybody may ask a running loop to stop, at any time and any number of times:
from outside, from a step, while a tick is in flight, while wake-ups are queued.
This module says what all these requests come to (`stop_drains`): from the first
of them on no tick starts, the tick in flight goes on to its end as if nobody had
asked, and who waits is let go at the end of the loop and not before.

One fact carries it. A driver that waits sees a request before any wake-up
(`startsTick_of_windsDown`), and no event takes the request back
(`Turn.windsDown`).

There are two things that a request does not do. It does not keep a tick in flight
from ending at the first sub-cycle in which a step faults. And it comes too late
for a wake-up that has woken the driver already (`World.roused`): by that the driver
goes first, and starts a tick if the pacer says so. There is one such wake-up at most
(`winding_once`), and `stop_drains` says nothing of what comes of it. Both are seen in
`stop_overtaken`.

**What this does not say.** Nothing here makes a step return: if one never does, the
loop does not end and who waits for it is not let go.
-/

namespace FrameLoop

/-- The states after a request to stop, those after the end included. -/
def SchedulerState.windsDown : SchedulerState → Bool
  | stopping | stopped | faulted => true
  | idle | running => false

namespace Scheduler

/-- **A request to stop is not taken back.** -/
theorem Turn.windsDown {s s' : Scheduler} (h : Turn s s') (sound : s.Sound)
    (winds : s.state.windsDown = true) : s'.state.windsDown = true := by
  rcases h.state sound with same | next
  · rwa [same]
  · revert next winds
    generalize s'.state = after
    cases s.state <;> cases after <;> decide

/-- A driver that is there after a request has the request in its slot. -/
theorem Sound.shutdown_of_windsDown {s : Scheduler} (sound : s.Sound)
    (winds : s.state.windsDown = true) (active : s.driver.isActive = true) :
    s.shutdown = some true := by
  rcases (sound.of_active active).1 with running | stopping
  · rw [running] at winds
    cases winds
  · exact (sound.of_stopping stopping).1

end Scheduler

namespace World

variable {w : World} {r : SchedulerRef} {e : Event}

/-- **Whether the driver of a scheduler has been woken**, and has not gone by that yet. -/
def roused (w : World) (r : SchedulerRef) : Bool :=
  match (w.scheduler r).driver with
  | .waiting loop => loop.roused.isSome
  | .absent | .ticking .. | .ended => false

theorem roused_of_waiting {loop : Loop} (waiting : (w.scheduler r).driver = .waiting loop) :
    w.roused r = loop.roused.isSome := by
  rw [roused, waiting]

theorem active_of_roused (awake : w.roused r = true) :
    (w.scheduler r).driver.isActive = true := by
  unfold roused at awake
  split at awake
  · next waiting => rw [waiting]; rfl
  all_goals cases awake

/-- Where there is no driver between two ticks none has been woken. -/
theorem roused_eq_false (fresh : ∀ loop, (w.scheduler r).driver = .waiting loop →
    loop.roused = none) : w.roused r = false := by
  unfold roused
  split
  · next loop waiting => rw [fresh loop waiting]; rfl
  · rfl
  · rfl
  · rfl

/-! ## No further tick -/

theorem windsDown_run {es : List Event} (winds : ((run es).scheduler r).state.windsDown = true)
    (more : List Event) : ((run (es ++ more)).scheduler r).state.windsDown = true := by
  induction more using List.reverseRecOn with
  | nil => rwa [List.append_nil]
  | append_singleton more e ih =>
    rw [← List.append_assoc, run_concat]
    have sound := sound_run (es ++ more) r
    exact (turn_step sound e).windsDown sound ih

/-- A driver that waits after a request sees it, unless it has been woken before. -/
theorem seesStop_of_windsDown {loop : Loop} (sound : (w.scheduler r).Sound)
    (winds : (w.scheduler r).state.windsDown = true)
    (waiting : (w.scheduler r).driver = .waiting loop) (calm : w.roused r = false) :
    (w.scheduler r).seesStop loop = true := by
  have slot := sound.shutdown_of_windsDown winds (by rw [waiting]; rfl)
  rw [roused_of_waiting waiting] at calm
  simp [Scheduler.seesStop, slot, Option.not_isSome_iff_eq_none.1 (Bool.not_eq_true _ ▸ calm)]

/-- **After a request no tick starts**, unless the driver has been woken before. -/
theorem startsTick_of_windsDown (sound : (w.scheduler r).Sound)
    (winds : (w.scheduler r).state.windsDown = true) (calm : w.roused r = false) :
    w.startsTick r = false := by
  unfold startsTick
  split
  · next loop waiting => rw [seesStop_of_windsDown sound winds waiting calm]; rfl
  · rfl
  · rfl
  · rfl

/-- **After a request nothing wakes the driver.** -/
theorem roused_step (sound : (w.scheduler r).Sound)
    (winds : (w.scheduler r).state.windsDown = true) (calm : w.roused r = false) (e : Event) :
    (w.step e).2.roused r = false := by
  apply roused_eq_false
  intro loop waiting
  have before (here : (w.scheduler r).driver = .waiting loop) : loop.roused = none := by
    rw [roused_of_waiting here] at calm
    exact Option.not_isSome_iff_eq_none.1 (Bool.not_eq_true _ ▸ calm)
  obtain ⟨quiet, -⟩ | ⟨rfl, step, next⟩ | ⟨j, v, rfl, step, next⟩ := w.step_cases e r
  · generalize (w.step e).2.scheduler r = s' at quiet waiting
    generalize given : w.scheduler r = s at quiet
    cases quiet with
    | same | scheduled | unregistered | paced | asked | released => exact before (given ▸ waiting)
    | made => cases waiting
    | started =>
      cases waiting
      rfl
    | roused _ here _ unasked =>
      have active : (w.scheduler r).driver.isActive = true := by rw [given, here]; rfl
      exact absurd (given ▸ sound.shutdown_of_windsDown winds active) unasked
  · rw [step, next] at waiting
    obtain ⟨-, other⟩ | ⟨starts, -⟩ := w.looksUp r
    · generalize w.lookUp r = m at other waiting
      cases other with
      | rests => exact before waiting
      | declines =>
        cases waiting
        rfl
      | ends =>
        dsimp only at waiting
        rw [Scheduler.finish_driver] at waiting
        cases waiting
    · rw [startsTick_of_windsDown sound winds calm] at starts
      cases starts
  · rw [step, next, settle] at waiting
    have returns := (w.scheduler r).returns w.forest j v w.clock
    generalize ((w.scheduler r).returned w.forest j v w.clock).1 = m at waiting returns
    cases returns with
    | nothing => exact before waiting
    | waits => cases waiting
    | proceeds _ _ _ goesOn => exact goesOn.not_roused waiting

/-- What is written down after a request begins no tick. -/
theorem winding_run {es : List Event} (winds : ((run es).scheduler r).state.windsDown = true)
    (calm : (run es).roused r = false) (more : List Event) :
    (run (es ++ more)).roused r = false ∧
      ∃ K, journal r (es ++ more) = journal r es ++ K ∧ ∀ registry, Entry.began registry ∉ K := by
  induction more using List.reverseRecOn with
  | nil => exact ⟨by rwa [List.append_nil], [], by simp, fun _ => List.not_mem_nil⟩
  | append_singleton more e ih =>
    obtain ⟨calm, K, before, none⟩ := ih
    have sound := sound_run (es ++ more) r
    have winds := windsDown_run winds more
    have still := startsTick_of_windsDown sound winds calm
    rw [← List.append_assoc, run_concat, journal_concat]
    refine ⟨roused_step sound winds calm e, _, by rw [before, List.append_assoc], ?_⟩
    intro registry began
    rcases List.mem_append.1 began with old | new
    · exact none registry old
    · rw [(began_mem_observe (before ▸ new)).2] at still
      cases still

/-- **One tick at most starts after a request**, the one of a wake-up that had come before. -/
theorem winding_once {es : List Event} (winds : ((run es).scheduler r).state.windsDown = true)
    (more : List Event) :
    ((run (es ++ more)).roused r = true →
        (journal r (es ++ more)).ticks.length = (journal r es).ticks.length) ∧
      (journal r (es ++ more)).ticks.length ≤ (journal r es).ticks.length + 1 := by
  induction more using List.reverseRecOn with
  | nil => simp
  | append_singleton more e ih =>
    obtain ⟨none, once⟩ := ih
    rw [← List.append_assoc]
    cases awake : (run (es ++ more)).roused r with
    | false =>
      obtain ⟨calm, K, grown, unbegun⟩ := winding_run (windsDown_run winds more) awake [e]
      rw [calm, grown, Journal.length_ticks_append _ unbegun]
      exact ⟨Bool.noConfusion, once⟩
    | true =>
      by_cases poll : e = .poll r
      · subst poll
        have active := active_of_roused awake
        have spent : (run (es ++ more ++ [.poll r])).roused r = false := by
          apply roused_eq_false
          intro loop waiting
          rw [run_concat, step_poll active, scheduler_poll (length_of_active active)] at waiting
          exact not_roused_of_poll (roused_run _ r) waiting
        rw [length_ticks_poll active, none awake, spent]
        refine ⟨Bool.noConfusion, Nat.add_le_add_left ?_ _⟩
        split <;> decide
      · have untaken : (run (es ++ more)).evaluation r e = Option.none := by
          cases evaluated : (run (es ++ more)).evaluation r e with
          | none => rfl
          | some x => exact absurd (evaluation_cases evaluated).1 poll
        rw [length_ticks_untaken untaken]
        exact ⟨fun _ => none awake, once⟩

/-! ## The tick in flight -/

/-- **The last tick goes on to its end**: the loop does not end before it is over. -/
theorem winding_tick {es : List Event} (winds : ((run es).scheduler r).state.windsDown = true)
    (calm : (run es).roused r = false) {past : List TickRecord} {t : TickRecord}
    (last : (journal r es).ticks = past ++ [t]) (more : List Event) :
    ∃ u, (journal r (es ++ more)).ticks = past ++ [u] ∧ t.Continues u ∧
      (((run (es ++ more)).scheduler r).state.isTerminal = true → u.Over) := by
  obtain ⟨-, K, grown, none⟩ := winding_run winds calm more
  obtain ⟨u, now, goesOn⟩ := (journal r es).ticks_append_last none last
  rw [← grown] at now
  refine ⟨u, now, goesOn, ?_⟩
  intro terminal
  obtain ⟨-, -, ⟨spent, -⟩ | ⟨-, loop, k, driver, -⟩⟩ := tick_cases r (es ++ more) now
  · exact spent
  · rw [(sound_run (es ++ more) r).ended_of_terminal terminal] at driver
    cases driver

/-- In a final state no step is out. -/
theorem out_of_terminal {es : List Event}
    (terminal : ((run es).scheduler r).state.isTerminal = true) : (journal r es).out = [] := by
  apply (agrees_run es r).out_of_still
  rw [(sound_run es r).ended_of_terminal terminal]
  rfl

/-- **With nothing out the driver ends the loop the next time it looks up.** -/
theorem poll_of_stopping {es : List Event} (stopping : ((run es).scheduler r).state = .stopping)
    (calm : (run es).roused r = false) (out : (journal r es).out = []) :
    ((run (es ++ [.poll r])).scheduler r).state = .stopped := by
  have sound := sound_run es r
  have active := (sound.of_stopping stopping).2
  rw [run_concat]
  cases driver : ((run es).scheduler r).driver with
  | waiting loop =>
    have sees := seesStop_of_windsDown sound (by rw [stopping]; rfl) driver calm
    exact poll_of_exit sound driver (if_pos sees)
  | ticking loop k =>
    -- A tick in flight has a step out.
    cases agrees_run es r with
    | rests still => rw [driver] at still; cases still
    | ticks _ _ _ _ pending busy => exact absurd (pending.symm.trans out) busy
    | faulted ended => rw [driver] at ended; cases ended
  | absent | ended => rw [driver] at active; cases active

/-! ## Who asks -/

/-- Whether a call that asked the loop to stop is back: it did not have to wait, or
the end is there. -/
def stopIsBack (asked now : World) (r : SchedulerRef) : Bool :=
  !(asked.stop r).1 || (now.scheduler r).outcome.isSome

theorem stop_of_active (w : World) (active : (w.scheduler r).state = .running ∨
    (w.scheduler r).state = .stopping) : (w.stop r).1 = true := by
  unfold stop
  dsimp only
  rcases active with state | state <;> rw [state]

/-- A call that finds nothing to stop is told so, and that is all. -/
theorem stop_of_inactive (w : World) (inactive : (w.scheduler r).state = .idle ∨
    (w.scheduler r).state.isTerminal = true) :
    w.stop r = (false, w.tell [.stopIgnored (w.scheduler r).state]) := by
  unfold stop
  dsimp only
  cases state : (w.scheduler r).state with
  | idle | stopped | faulted => rfl
  | running | stopping => rw [state] at inactive; simp [SchedulerState.isTerminal] at inactive

/-- **A running loop that is asked is stopping**, whether the caller waits or not. -/
theorem stopping_of_running (here : w.hasScheduler r = true)
    (running : (w.scheduler r).state = .running) {e : Event}
    (asks : e = .stop r ∨ e = .signalStop r) :
    ((w.step e).2.scheduler r).state = .stopping := by
  have asked : (w.scheduler r).requestStop.2.state = .stopping := by
    rw [Scheduler.requestStop, if_pos running]
  have put : (w.setScheduler r (w.scheduler r).requestStop.2).scheduler r = _ :=
    scheduler_setScheduler_self _ (length_of_hasScheduler here)
  rcases asks with rfl | rfl
  · have step : w.step (.stop r) = ([], (w.stop r).2) := if_pos here
    rw [step, stop, running]
    exact (congrArg Scheduler.state put).trans asked
  · have step : w.step (.signalStop r) = ([], (w.signalStop r).2) := if_pos here
    rw [step]
    exact (congrArg Scheduler.state put).trans asked

/-- An idle scheduler that somebody holds can be started. -/
theorem start_of_idle (here : w.hasScheduler r = true) (idle : (w.scheduler r).state = .idle)
    (source : Source) :
    (w.start r source).1 = .ok () ∧ ((w.start r source).2.scheduler r).state = .running := by
  rw [starts_of_idle idle]
  refine ⟨rfl, ?_⟩
  rw [scheduler_tell, scheduler_setScheduler_self _ (length_of_hasScheduler here)]

/-- A run in which a stop is asked for before the start, to no effect, and then, by
a signal, in a tick, while two more wake-ups are queued. -/
def askedRun : List Event :=
  [.newJob "parent", .newJob "child", .attach 0 1, .newScheduler ⟨"loop"⟩ .zero .zero,
    .schedule 0 0, .stop 0, .newFeed, .start 0 (.manual 0), .fire 0 ⟨0⟩, .fire 0 ⟨1⟩, .fire 0 ⟨2⟩,
    .rouse 0, .poll 0, .signalStop 0]

/-- How it goes on: two calls wait, one more wake-up comes, and both sub-cycles of
the tick return. -/
def drainingRun : List Event :=
  [.stop 0, .poll 0, .stop 0, .fire 0 ⟨3⟩, .returned 0 0 (.outcome .resume),
    .returned 0 1 (.outcome .resume)]

/-- A run in which a wake-up comes, and then a request to stop, before the driver has gone by
either. -/
def overtakenRun : List Event :=
  [.newJob "worker", .newScheduler ⟨"loop"⟩ .zero .zero, .schedule 0 0,
    .start 0 (.script [.reading ⟨0⟩]), .rouse 0, .signalStop 0]

/-- A run in which a stop is asked for in a tick whose only step then gives up. -/
def abortedRun : List Event :=
  [.newJob "parent", .newJob "child", .attach 0 1, .newScheduler ⟨"loop"⟩ .zero .zero,
    .schedule 0 0, .start 0 (.script [.reading ⟨0⟩]), .poll 0, .signalStop 0,
    .returned 0 0 (.outcome .abort)]

end World

end FrameLoop

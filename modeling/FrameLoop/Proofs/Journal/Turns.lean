import FrameLoop.Proofs.Journal.Agreement

/-!
# What an event does to the ticks of a loop

The counters of a scheduler are published when a tick has drained, and so is the fault
that ends a loop. Both are written at the one place where the driver's record of a tick is
thrown away, so what they have to do with the journal is best said there.
`Scheduler.TickTurn` is that: all that one event can do to the ticks of a journal, to the
counters and to the outcome, taken together. Nothing happens to them; or the loop ends
between two ticks; or a tick begins or goes on; or a tick drains, and then it is counted.
-/

namespace FrameLoop

open Scheduler (Exit Intake Proceeds Quiet)

namespace Scheduler

/-- **The ticks that have drained**: all that were started, but for the one in flight. -/
def drainedTicks (s : Scheduler) (J : Journal) : List TickRecord :=
  if s.driver.tick?.isSome then J.ticks.dropLast else J.ticks

theorem drainedTicks_of_still {s : Scheduler} (still : s.driver.tick? = none) (J : Journal) :
    s.drainedTicks J = J.ticks := by
  rw [drainedTicks, still]
  rfl

theorem drainedTicks_of_busy {s : Scheduler} (busy : s.driver.tick?.isSome = true) {J : Journal}
    {past : List TickRecord} {t : TickRecord} (last : J.ticks = past ++ [t]) :
    s.drainedTicks J = past := by
  rw [drainedTicks, if_pos busy, last, List.dropLast_concat]

theorem drainedTicks_isPrefix_ticks (s : Scheduler) (J : Journal) :
    s.drainedTicks J <+: J.ticks := by
  unfold drainedTicks
  split
  · exact List.dropLast_prefix J.ticks
  · exact List.prefix_rfl

/-- **What one event does to the ticks of a loop**, to its counters and to its outcome. -/
inductive TickTurn (s : Scheduler) (J : Journal) (s' : Scheduler) (J' : Journal) : Prop where
  | rests (ticks : J'.ticks = J.ticks) (tick : s'.driver.tick? = s.driver.tick?)
    (stats : s'.stats = s.stats) (outcome : s'.outcome = s.outcome)
  /-- The loop ends between two ticks. No job is to blame. -/
  | ends (exit : Exit) (blameless : ∀ e, exit = .faulted e → e.isInternal = true)
    (ticks : J'.ticks = J.ticks) (still : s.driver.tick? = none) (tick : s'.driver.tick? = none)
    (stats : s'.stats = s.stats) (outcome : s'.outcome = some exit.completion)
  /-- A tick begins or goes on, and is in flight then. -/
  | runs {t : TickRecord} (ticks : J'.ticks = s.drainedTicks J ++ [t])
    (tick : s'.driver.tick?.isSome = true) (stats : s'.stats = s.stats)
    (outcome : s'.outcome = none)
  /-- A tick drains. It is counted, and its first fault is the outcome. -/
  | drains {t : TickRecord} (ticks : J'.ticks = s.drainedTicks J ++ [t])
    (tick : s'.driver.tick? = none) (entry : TickStats.Entry) (stats : s'.stats = s.stats.add entry)
    (jobs : entry.jobs = t.launched.length) (subCycles : entry.subCycles = t.waves.length)
    (outcome : s'.outcome = (t.firstFault?.bind (·.error?)).map .faulted)

/-- A quiet change has nothing to do with ticks. -/
theorem TickTurn.quiet {may : Intake} {s s' : Scheduler} (quiet : Quiet may s s')
    (sound : s.Sound) (J : Journal) : TickTurn s J s' J := by
  cases quiet with
  | same | made | scheduled | unregistered | paced | asked | released =>
    exact .rests rfl rfl rfl rfl
  | started _ source brought idle =>
    refine .rests rfl ?_ rfl rfl
    rw [(sound.of_idle idle).1]
    rfl
  | roused _ waiting => exact .rests rfl (by rw [waiting]; rfl) rfl rfl

/-- **A tick of which nothing is out goes on or drains.** -/
theorem TickTurn.proceeds {s s₁ : Scheduler} {loop : Loop} {k : Tick} {now : Nat} {m : Move}
    {J J₁ : Journal} {t : TickRecord} (live : s₁.state.isTerminal = false)
    (unsettled : s₁.outcome = none) (stats : s₁.stats = s.stats) (h : Proceeds s₁ loop k now m)
    (last : J₁.ticks = s.drainedTicks J ++ [t]) (tracks : k.Tracks t) :
    TickTurn s J m.scheduler (J₁ ++ Journal.handOut m.launched) := by
  have jobs : (entry loop k now).jobs = t.launched.length := congrArg List.length tracks.launched
  have subCycles : (entry loop k now).subCycles = t.waves.length := by
    show k.waves.length = _
    rw [tracks.waves, List.length_map]
  have counts : (s₁.counted loop k now).stats = s.stats.add (entry loop k now) := by
    rw [counted, stats]
  cases h with
  | wave more =>
    refine .runs (t := t.launch k.nextWave) ?_ rfl stats unsettled
    rw [handOut_of_ne_nil more, Journal.ticks_concat, last, Entry.sort, List.modifyLast_concat]
  | drained _ sound =>
    refine .drains (t := t) ?_ rfl (entry loop k now) counts jobs subCycles ?_
    · rw [Journal.handOut, List.append_nil, last]
    · rw [← tracks.fault, sound]
      exact unsettled
  | @faulted e fault =>
    have unfinished : (s₁.counted loop k now).state.isTerminal = false := live
    refine .drains (t := t) ?_ ?_ (entry loop k now) ?_ jobs subCycles ?_
    · rw [Journal.handOut, List.append_nil, last]
    · rw [finish_driver]
      rfl
    · rw [stats_finish]
      exact counts
    · rw [finish_of_live unfinished, ← tracks.fault, fault]
      show some (s₁.outcome.getD _) = _
      rw [unsettled]
      rfl

end Scheduler

namespace World

open Scheduler (TickTurn)

variable {w : World} {r : SchedulerRef} {J : Journal}

/-- A driver gives up for itself, not for a job. -/
theorem blameless_of_exit {loop : Loop} {exit : Exit} (gives : w.exit? r loop = some exit)
    {e : SchedulerError} (faulted : exit = .faulted e) : e.isInternal = true := by
  subst faulted
  unfold exit? at gives
  split at gives
  · cases gives
  · split at gives
    · cases gives
    · cases gives
      rfl
    · cases gives
    · cases gives

/-- What a driver that looks up does to the ticks of its loop. -/
theorem tickTurn_poll (sound : (w.scheduler r).Sound) :
    TickTurn (w.scheduler r) J (w.lookUp r).scheduler
      (J ++ ((if w.startsTick r then [.began (w.scheduler r).registry] else []) ++
        Journal.handOut (w.lookUp r).launched)) := by
  obtain ⟨stays, other⟩ | ⟨starts, loop, t, waiting, -, move⟩ := w.looksUp r
  · rw [stays, if_neg Bool.false_ne_true, List.nil_append]
    generalize w.lookUp r = m at other
    cases other with
    | rests =>
      rw [Journal.handOut, List.append_nil]
      exact .rests rfl rfl rfl rfl
    | declines waiting =>
      rw [Journal.handOut, List.append_nil]
      exact .rests rfl (by rw [waiting]; rfl) rfl rfl
    | @ends loop exit waiting gives =>
      have active : (w.scheduler r).driver.isActive = true := by rw [waiting]; rfl
      rw [Journal.handOut, List.append_nil, Scheduler.finish_of_live (sound.live_of_active active)]
      refine .ends exit (fun e => blameless_of_exit gives) rfl (by rw [waiting]; rfl) rfl rfl ?_
      rw [(sound.of_active active).2]
      rfl
  · have active : (w.scheduler r).driver.isActive = true := by rw [waiting]; rfl
    have still : (w.scheduler r).driver.tick? = none := by rw [waiting]; rfl
    rw [starts, if_pos rfl, move, ← List.append_assoc]
    refine TickTurn.proceeds (sound.live_of_active active) (sound.of_active active).2 rfl
      (Scheduler.proceeds _ _ _ w.clock) ?_ (.began w.clock (w.scheduler r).registry)
    rw [Journal.ticks_concat, Scheduler.drainedTicks_of_still still]
    rfl

/-- What a step that returns does to the ticks of its loop. -/
theorem tickTurn_returned (sound : (w.scheduler r).Sound) (agrees : (w.scheduler r).Agrees J)
    (j : JobRef) (v : Verdict) :
    TickTurn (w.scheduler r) J (w.settle r j v).scheduler
      (J ++ ((if j ∈ J.out then [.returned (w.returnOf r j v)] else []) ++
        Journal.handOut (w.settle r j v).launched)) := by
  by_cases out : j ∈ J.out
  · obtain ⟨loop, k, past, t, driver, pending, tracks, last⟩ := agrees.ticking_of_out out
    have active : (w.scheduler r).driver.isActive = true := by rw [driver]; rfl
    have busy : (w.scheduler r).driver.tick?.isSome = true := by rw [driver]; rfl
    have now := tracks.settle (b := w.returnOf r j v) pending
    have ticks := Journal.ticks_returned last (w.returnOf r j v)
    rw [← Scheduler.drainedTicks_of_busy busy last] at ticks
    obtain ⟨registry, -, departed⟩ := (w.scheduler r).depart_cases w.forest j v
    rw [if_pos out, ← List.append_assoc]
    unfold settle
    rw [Scheduler.returned_of_pending driver pending]
    dsimp only
    rw [departed]
    split
    · refine TickTurn.proceeds ?_ ?_ ?_ (Scheduler.proceeds _ loop _ w.clock) ticks now
      · exact sound.live_of_active active
      · exact (sound.of_active active).2
      · rfl
    · rw [Journal.handOut, List.append_nil]
      exact .runs ticks rfl rfl (sound.of_active active).2
  · unfold settle
    rw [Scheduler.returned_of_not_pending (agrees.not_pending out), if_neg out, Journal.handOut,
      List.append_nil, List.append_nil]
    exact .rests rfl rfl rfl rfl

/-- **Every event is a turn** of the ticks of every loop. -/
theorem tickTurn_step (sound : (w.scheduler r).Sound) (agrees : (w.scheduler r).Agrees J)
    (e : Event) :
    TickTurn (w.scheduler r) J ((w.step e).2.scheduler r) (J ++ w.observe r J e) := by
  obtain ⟨quiet, unmoved⟩ | ⟨rfl, step, next⟩ | ⟨j, v, rfl, step, next⟩ := w.step_cases e r
  · rw [observe_of_not_driven agrees unmoved, List.append_nil]
    exact .quiet quiet sound J
  · rw [observe_poll step, step, next]
    exact tickTurn_poll sound
  · rw [observe_returned step, step, next]
    exact tickTurn_returned sound agrees j v

/-- The same of a run and one more event. -/
theorem tickTurn_concat (r : SchedulerRef) (es : List Event) (e : Event) :
    TickTurn ((run es).scheduler r) (journal r es) ((run (es ++ [e])).scheduler r)
      (journal r (es ++ [e])) := by
  rw [run_concat, journal_concat]
  exact tickTurn_step (sound_run es r) (agrees_run es r) e

end World

end FrameLoop

import FrameLoop.Proofs.Driver

/-!
# How a scheduler stands

Four parts of a scheduler tell how it stands: its state, the slot through
which a stop request reaches the driver, the outcome, and the position of the
driver. Different events write different ones of them. `Scheduler.Sound` says
which of the combinations occur, and `sound_run` that no other ever does.

The way there is `Scheduler.Turn`: all that one event can do to the four
parts. That soundness is kept is a case analysis over it, and so is every
other law about them.
-/

namespace FrameLoop

namespace Scheduler

/-- **The four parts agree.** A loop that is running or stopping has a driver,
a slot for stop requests and no outcome; one that has ended has an outcome and
nothing else. -/
inductive Sound (s : Scheduler) : Prop where
  | idle (state : s.state = .idle) (shutdown : s.shutdown = none) (outcome : s.outcome = none)
    (driver : s.driver = .absent)
  | running (state : s.state = .running) (shutdown : s.shutdown = some false)
    (outcome : s.outcome = none) (active : s.driver.isActive = true)
  | stopping (state : s.state = .stopping) (shutdown : s.shutdown = some true)
    (outcome : s.outcome = none) (active : s.driver.isActive = true)
  | stopped (state : s.state = .stopped) (shutdown : s.shutdown = none)
    (outcome : s.outcome = some .graceful) (driver : s.driver = .ended)
  | faulted (e : SchedulerError) (state : s.state = .faulted) (shutdown : s.shutdown = none)
    (outcome : s.outcome = some (.faulted e)) (driver : s.driver = .ended)

/-- A scheduler with a driver is running or stopping. -/
theorem Sound.of_active {s : Scheduler} (sound : s.Sound) (active : s.driver.isActive = true) :
    (s.state = .running ∨ s.state = .stopping) ∧ s.outcome = none := by
  cases sound with
  | idle _ _ _ driver => rw [driver] at active; cases active
  | running state _ outcome => exact ⟨.inl state, outcome⟩
  | stopping state _ outcome => exact ⟨.inr state, outcome⟩
  | stopped _ _ _ driver => rw [driver] at active; cases active
  | faulted _ _ _ _ driver => rw [driver] at active; cases active

/-- A scheduler that has ended has no tick in flight. -/
theorem Sound.still_of_settled {s : Scheduler} (sound : s.Sound)
    (settled : s.outcome.isSome = true) : s.driver.tick? = none := by
  cases driver : s.driver with
  | absent | waiting _ | ended => rfl
  | ticking loop k =>
    rw [(sound.of_active (by rw [driver]; rfl)).2] at settled
    cases settled

/-- A scheduler with a driver has not ended. -/
theorem Sound.live_of_active {s : Scheduler} (sound : s.Sound)
    (active : s.driver.isActive = true) : s.state.isTerminal = false := by
  obtain ⟨state | state, -⟩ := sound.of_active active <;> rw [state] <;> rfl

/-- A scheduler in a final state has no driver any more. -/
theorem Sound.ended_of_terminal {s : Scheduler} (sound : s.Sound)
    (terminal : s.state.isTerminal = true) : s.driver = .ended := by
  cases sound with
  | idle state => rw [state] at terminal; cases terminal
  | running state => rw [state] at terminal; cases terminal
  | stopping state => rw [state] at terminal; cases terminal
  | stopped _ _ _ driver => exact driver
  | faulted _ _ _ _ driver => exact driver

/-- A driver ends in a final state. -/
theorem Sound.terminal_of_ended {s : Scheduler} (sound : s.Sound) (ended : s.driver = .ended) :
    s.state.isTerminal = true := by
  cases sound with
  | idle _ _ _ driver => rw [ended] at driver; cases driver
  | running _ _ _ active => rw [ended] at active; cases active
  | stopping _ _ _ active => rw [ended] at active; cases active
  | stopped state => rw [state]; rfl
  | faulted _ state => rw [state]; rfl

/-- A scheduler that has not been started has no driver yet, and no outcome. -/
theorem Sound.of_idle {s : Scheduler} (sound : s.Sound) (idle : s.state = .idle) :
    s.driver = .absent ∧ s.outcome = none := by
  cases sound with
  | idle _ _ outcome driver => exact ⟨driver, outcome⟩
  | running state => rw [state] at idle; cases idle
  | stopping state => rw [state] at idle; cases idle
  | stopped state => rw [state] at idle; cases idle
  | faulted _ state => rw [state] at idle; cases idle

/-- A running loop has a driver, and no stop has been asked for. -/
theorem Sound.of_running {s : Scheduler} (sound : s.Sound) (running : s.state = .running) :
    s.shutdown = some false ∧ s.outcome = none ∧ s.driver.isActive = true := by
  cases sound with
  | idle state => rw [state] at running; cases running
  | running _ shutdown outcome active => exact ⟨shutdown, outcome, active⟩
  | stopping state => rw [state] at running; cases running
  | stopped state => rw [state] at running; cases running
  | faulted _ state => rw [state] at running; cases running

/-- A stopping loop has a driver still, and the request is in its slot. -/
theorem Sound.of_stopping {s : Scheduler} (sound : s.Sound) (stopping : s.state = .stopping) :
    s.shutdown = some true ∧ s.driver.isActive = true := by
  cases sound with
  | idle state => rw [state] at stopping; cases stopping
  | running state => rw [state] at stopping; cases stopping
  | stopping _ shutdown _ active => exact ⟨shutdown, active⟩
  | stopped state => rw [state] at stopping; cases stopping
  | faulted _ state => rw [state] at stopping; cases stopping

/-- Nobody has asked a running loop to stop. -/
theorem Sound.seesStop_of_running {s : Scheduler} (sound : s.Sound) (running : s.state = .running)
    (loop : Loop) : s.seesStop loop = false :=
  seesStop_of_unasked loop (by rw [(sound.of_running running).1]; decide)

/-! ## What one event does -/

/-- **What one event does to the standing of a scheduler.** -/
inductive Turn (s s' : Scheduler) : Prop where
  | stays (state : s'.state = s.state) (shutdown : s'.shutdown = s.shutdown)
    (outcome : s'.outcome = s.outcome)
    (driver : s'.driver = s.driver ∧ s'.stats = s.stats ∨
      s.driver.isActive = true ∧ s'.driver.isActive = true)
  | starts (idle : s.state = .idle) (state : s'.state = .running)
    (shutdown : s'.shutdown = some false) (outcome : s'.outcome = s.outcome)
    (active : s'.driver.isActive = true)
  | asks (running : s.state = .running) (state : s'.state = .stopping)
    (shutdown : s'.shutdown = s.shutdown.map fun _ => true) (outcome : s'.outcome = s.outcome)
    (driver : s'.driver = s.driver)
  | ends (active : s.driver.isActive = true) (exit : Exit) (state : s'.state = exit.state)
    (shutdown : s'.shutdown = none) (outcome : s'.outcome = some (s.outcome.getD exit.completion))
    (driver : s'.driver = .ended)

/-- A scheduler that is left alone has not turned. -/
theorem Turn.refl (s : Scheduler) : Turn s s := .stays rfl rfl rfl (.inl ⟨rfl, rfl⟩)

theorem turn_quiet {may : Intake} {s s' : Scheduler} (h : Quiet may s s') : Turn s s' := by
  cases h with
  | same | made | scheduled | unregistered | paced | released =>
    exact .stays rfl rfl rfl (.inl ⟨rfl, rfl⟩)
  | started _ source brought idle => exact .starts idle rfl rfl rfl rfl
  | asked _ running => exact .asks running rfl rfl rfl rfl
  | roused _ waiting => exact .stays rfl rfl rfl (.inr ⟨by rw [waiting]; rfl, rfl⟩)

theorem turn_finish {s : Scheduler} (live : s.state.isTerminal = false)
    (active : s.driver.isActive = true) (exit : Exit) : Turn s (s.finish exit).1 := by
  rw [finish_of_live live]
  exact .ends active exit rfl rfl rfl rfl

theorem turn_proceeds {s : Scheduler} {loop : Loop} {t : Tick} {now : Nat} {m : Move}
    (live : s.state.isTerminal = false) (active : s.driver.isActive = true)
    (h : Proceeds s loop t now m) : Turn s m.scheduler := by
  cases h with
  | wave more => exact .stays rfl rfl rfl (.inr ⟨active, rfl⟩)
  | drained spent sound => exact .stays rfl rfl rfl (.inr ⟨active, rfl⟩)
  | @faulted e fault =>
    have counted : (s.counted loop t now).state.isTerminal = false := live
    dsimp only
    rw [finish_of_live counted]
    exact .ends active (.faulted e) rfl rfl rfl rfl

/-- The registry has no part in how a scheduler stands. -/
theorem Turn.of_registry {s s' : Scheduler} (registry : List JobRef)
    (h : Turn { s with registry } s') : Turn s s' := by
  cases h with
  | stays state shutdown outcome driver => exact .stays state shutdown outcome driver
  | starts idle state shutdown outcome active => exact .starts idle state shutdown outcome active
  | asks running state shutdown outcome driver => exact .asks running state shutdown outcome driver
  | ends active exit state shutdown outcome driver =>
    exact .ends active exit state shutdown outcome driver

theorem turn_returned {s : Scheduler} (sound : s.Sound) (f : Forest) (j : JobRef) (v : Verdict)
    (now : Nat) : Turn s (s.returned f j v now).1.scheduler := by
  have returns := s.returns f j v now
  generalize (s.returned f j v now).1 = m at returns
  cases returns with
  | nothing => exact .refl s
  | waits driver =>
    have active : s.driver.isActive = true := by rw [driver]; rfl
    exact .stays rfl rfl rfl (.inr ⟨active, rfl⟩)
  | @proceeds _ _ registry m driver _ _ goesOn =>
    have active : s.driver.isActive = true := by rw [driver]; rfl
    have turn : Turn { s with registry } m.scheduler :=
      turn_proceeds (sound.live_of_active active) active goesOn
    exact turn.of_registry registry

/-- **Soundness is kept by a turn.** -/
theorem Sound.turn {s s' : Scheduler} (sound : s.Sound) (h : Turn s s') : s'.Sound := by
  cases h with
  | stays state shutdown outcome driver =>
    have active : s.driver.isActive = true → s'.driver.isActive = true := by
      intro before
      obtain ⟨same, -⟩ | ⟨-, after⟩ := driver
      · rw [same]; exact before
      · exact after
    have same : s.driver.isActive = false → s'.driver = s.driver := by
      intro none
      obtain ⟨same, -⟩ | ⟨some, -⟩ := driver
      · exact same
      · rw [some] at none; cases none
    cases sound with
    | idle a b c d =>
      exact .idle (state.trans a) (shutdown.trans b) (outcome.trans c)
        ((same (by rw [d]; rfl)).trans d)
    | running a b c d =>
      exact .running (state.trans a) (shutdown.trans b) (outcome.trans c) (active d)
    | stopping a b c d =>
      exact .stopping (state.trans a) (shutdown.trans b) (outcome.trans c) (active d)
    | stopped a b c d =>
      exact .stopped (state.trans a) (shutdown.trans b) (outcome.trans c)
        ((same (by rw [d]; rfl)).trans d)
    | faulted e a b c d =>
      exact .faulted e (state.trans a) (shutdown.trans b) (outcome.trans c)
        ((same (by rw [d]; rfl)).trans d)
  | starts idle state shutdown outcome active =>
    exact .running state shutdown (outcome.trans (sound.of_idle idle).2) active
  | asks running state shutdown outcome driver =>
    obtain ⟨slot, unsettled, active⟩ := sound.of_running running
    exact .stopping state (by rw [shutdown, slot]; rfl) (outcome.trans unsettled)
      (driver ▸ active)
  | ends active exit state shutdown outcome driver =>
    have settled : s'.outcome = some exit.completion := by
      rw [outcome, (sound.of_active active).2]
      rfl
    cases exit with
    | stopped | exhausted => exact .stopped state shutdown settled driver
    | faulted e => exact .faulted e state shutdown settled driver

end Scheduler

namespace World

open Scheduler (Sound Turn)

/-! ## Every run -/

theorem turn_lookUp {w : World} {r : SchedulerRef} (sound : (w.scheduler r).Sound) :
    Turn (w.scheduler r) (w.lookUp r).scheduler := by
  obtain ⟨-, other⟩ | ⟨-, loop, t, waiting, -, starts⟩ := w.looksUp r
  · generalize w.lookUp r = m at other
    cases other with
    | rests => exact .refl _
    | declines waiting => exact .stays rfl rfl rfl (.inr ⟨by rw [waiting]; rfl, rfl⟩)
    | ends waiting gives =>
      have active : (w.scheduler r).driver.isActive = true := by rw [waiting]; rfl
      exact Scheduler.turn_finish (sound.live_of_active active) active _
  · have active : (w.scheduler r).driver.isActive = true := by rw [waiting]; rfl
    rw [starts]
    exact Scheduler.turn_proceeds (sound.live_of_active active) active
      (Scheduler.proceeds _ _ _ w.clock)

/-- **Every event is a turn** of a scheduler that is sound. -/
theorem turn_step {w : World} {r : SchedulerRef} (sound : (w.scheduler r).Sound) (e : Event) :
    Turn (w.scheduler r) ((w.step e).2.scheduler r) := by
  obtain ⟨quiet, -⟩ | ⟨rfl, step, next⟩ | ⟨j, v, rfl, step, next⟩ := w.step_cases e r
  · exact Scheduler.turn_quiet quiet
  · rw [step, next]; exact turn_lookUp sound
  · rw [step, next]; exact Scheduler.turn_returned sound w.forest j v w.clock

/-! Operations are turns of their own, whether they are events or not. -/

/-- A hook may bring along any job. -/
theorem turn_hookReturned (w : World) (c : CallRef) (result : HookResult)
    (r : SchedulerRef) :
    Turn (w.scheduler r) ((w.hookReturned c result).2.scheduler r) := by
  have quiet : Scheduler.Quiet ⟨fun _ => True, fun _ => True, fun _ _ => True⟩ (w.scheduler r)
      ((w.hookReturned c result).2.scheduler r) :=
    w.quiet_hookReturned c fun _ _ _ _ _ => trivial
  exact Scheduler.turn_quiet quiet

theorem turn_stopEngine (w : World) (e : EngineRef) (r : SchedulerRef) :
    Turn (w.scheduler r) ((w.stopEngine e).2.scheduler r) := by
  have quiet : Scheduler.Quiet ⟨fun _ => False, fun _ => False, fun _ _ => False⟩ (w.scheduler r)
      ((w.stopEngine e).2.scheduler r) := w.quiet_stopEngine e r
  exact Scheduler.turn_quiet quiet

theorem turn_poll {w : World} {r : SchedulerRef} (sound : (w.scheduler r).Sound)
    (k : SchedulerRef) : Turn (w.scheduler r) ((w.poll k).2.scheduler r) := by
  cases active : (w.scheduler k).driver.isActive with
  | true =>
    rw [← step_poll active]
    exact turn_step sound (.poll k)
  | false =>
    have nothing : w.poll k = ([], w) := by
      unfold poll
      dsimp only
      split
      · next waiting =>
        rw [waiting] at active
        cases active
      · rfl
    rw [nothing]
    exact .refl _

/-- **The four parts agree after every run.** -/
theorem sound_run (es : List Event) (r : SchedulerRef) : ((run es).scheduler r).Sound :=
  run_keeps (P := fun w => (w.scheduler r).Sound) (.idle rfl rfl rfl rfl)
    (fun _ e sound => sound.turn (turn_step sound e)) es

end World

end FrameLoop

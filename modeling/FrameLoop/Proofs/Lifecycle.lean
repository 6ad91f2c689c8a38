import FrameLoop.Proofs.Lifecycle.Sound
import FrameLoop.Proofs.Journal.Agreement

/-!
# The life of a scheduler

A scheduler goes from idle to running, perhaps by way of stopping to one of
the two final states, and stays there. The outcome is given out with the final
state and never before it, so all who wait read the same one, whenever they
look. In a final state nothing goes on: no tick starts, nothing is handed out
or waited for, the counters stand still, and nothing is registered.
-/

namespace FrameLoop

/-- **The states that may come next.** -/
def SchedulerState.next : SchedulerState → List SchedulerState
  | idle => [running]
  | running => [stopping, stopped, faulted]
  | stopping => [stopped, faulted]
  | stopped | faulted => []

namespace Scheduler

/-! ## One event -/

/-- **An event leaves the state, or takes it to one that may come next.** -/
theorem Turn.state {s s' : Scheduler} (h : Turn s s') (sound : s.Sound) :
    s'.state = s.state ∨ s'.state ∈ s.state.next := by
  cases h with
  | stays state => exact .inl state
  | starts idle state => rw [idle, state]; exact .inr (by decide)
  | asks running state => rw [running, state]; exact .inr (by decide)
  | ends active exit state =>
    have final : exit.state = .stopped ∨ exit.state = .faulted := by
      cases exit <;> simp [Exit.state]
    right
    obtain ⟨before | before, -⟩ := sound.of_active active <;> obtain after | after := final <;>
      rw [before, state, after] <;> decide

/-- No scheduler becomes idle again. -/
theorem Turn.of_idle {s s' : Scheduler} (h : Turn s s') (sound : s.Sound)
    (idle : s'.state = .idle) : s.state = .idle := by
  rcases h.state sound with same | next
  · exact same.symm.trans idle
  · rw [idle] at next
    revert next
    cases s.state <;> decide

/-- **A final state is left as it is**, and so are the outcome, the counters
and the driver. -/
theorem Turn.of_terminal {s s' : Scheduler} (h : Turn s s') (sound : s.Sound)
    (terminal : s.state.isTerminal = true) :
    s'.state = s.state ∧ s'.outcome = s.outcome ∧ s'.stats = s.stats := by
  have ended := sound.ended_of_terminal terminal
  cases h with
  | stays state _ outcome driver =>
    obtain ⟨-, stats⟩ | ⟨active, -⟩ := driver
    · exact ⟨state, outcome, stats⟩
    · rw [ended] at active; cases active
  | starts idle => rw [idle] at terminal; cases terminal
  | asks running => rw [running] at terminal; cases terminal
  | ends active => rw [ended] at active; cases active

/-- A driver that has ended its loop does not come back. -/
theorem Turn.ended {s s' : Scheduler} (h : Turn s s') (sound : s.Sound)
    (ended : s.driver = .ended) : s'.driver = .ended := by
  cases h with
  | stays _ _ _ driver =>
    obtain ⟨same, -⟩ | ⟨active, -⟩ := driver
    · exact same.trans ended
    · rw [ended] at active; cases active
  | starts idle => rw [(sound.of_idle idle).1] at ended; cases ended
  | asks _ _ _ _ driver => exact driver.trans ended
  | ends _ _ _ _ _ driver => exact driver

/-- **The outcome is the final state's**, and there is none before it. -/
theorem Sound.outcome {s : Scheduler} (sound : s.Sound) :
    (s.outcome = none ↔ s.state.isTerminal = false) ∧
      (s.outcome = some .graceful ↔ s.state = .stopped) ∧
      ((∃ e, s.outcome = some (.faulted e)) ↔ s.state = .faulted) := by
  cases sound with
  | idle state _ outcome | running state _ outcome | stopping state _ outcome
  | stopped state _ outcome | faulted _ state _ outcome =>
    simp [state, outcome, SchedulerState.isTerminal]

/-- There is a slot for stop requests while the loop runs. -/
theorem Sound.shutdown {s : Scheduler} (sound : s.Sound) :
    s.shutdown.isSome = true ↔ s.state = .running ∨ s.state = .stopping := by
  cases sound with
  | idle state slot | running state slot | stopping state slot | stopped state slot
  | faulted _ state slot => simp [state, slot]

end Scheduler

namespace World

/-! ## The end -/

/-- **A driver that has a reason to end its loop does so when it looks up.** -/
theorem poll_of_exit {w : World} {r : SchedulerRef} {loop : Loop} {exit : Scheduler.Exit}
    (sound : (w.scheduler r).Sound) (waiting : (w.scheduler r).driver = .waiting loop)
    (gives : w.exit? r loop = some exit) :
    ((w.step (.poll r)).2.scheduler r).state = exit.state := by
  have active : (w.scheduler r).driver.isActive = true := by rw [waiting]; rfl
  rw [step_poll active, scheduler_poll (length_of_active active), lookUp_of_exit waiting gives,
    Scheduler.finish_of_live (sound.live_of_active active)]

/-- Of a scheduler that has ended there is nothing more to see. -/
theorem observe_of_ended {w : World} {r : SchedulerRef} {J : Journal}
    (agrees : (w.scheduler r).Agrees J) (ended : (w.scheduler r).driver = .ended) (e : Event) :
    w.observe r J e = [] := by
  have still : w.startsTick r = false := by rw [startsTick, ended]
  have out : J.out = [] := agrees.out_of_still (by rw [ended]; rfl)
  obtain ⟨-, unmoved⟩ | ⟨rfl, step, -⟩ | ⟨j, v, rfl, step, -⟩ := w.step_cases e r
  · exact observe_of_not_driven agrees unmoved
  · have rests : w.lookUp r = { scheduler := w.scheduler r } := by rw [lookUp, ended]
    rw [observe_poll step, still, rests]
    rfl
  · have none : j ∉ J.out := by rw [out]; exact List.not_mem_nil
    rw [observe_returned step, if_neg none, settle,
      Scheduler.returned_of_not_pending (agrees.not_pending none)]
    rfl

/-- **Nothing happens to a scheduler in a final state**, whatever happens
elsewhere. -/
theorem terminal_run (r : SchedulerRef) (es more : List Event)
    (terminal : ((run es).scheduler r).state.isTerminal = true) :
    ((run (es ++ more)).scheduler r).state = ((run es).scheduler r).state ∧
      ((run (es ++ more)).scheduler r).outcome = ((run es).scheduler r).outcome ∧
      ((run (es ++ more)).scheduler r).stats = ((run es).scheduler r).stats ∧
      journal r (es ++ more) = journal r es := by
  induction more using List.reverseRecOn with
  | nil => simp
  | append_singleton more e ih =>
    obtain ⟨state, outcome, stats, same⟩ := ih
    have sound := sound_run (es ++ more) r
    have still : ((run (es ++ more)).scheduler r).state.isTerminal = true := state ▸ terminal
    obtain ⟨state', outcome', stats'⟩ := (turn_step sound e).of_terminal sound still
    rw [← List.append_assoc, run_concat, journal_concat,
      observe_of_ended (agrees_run _ r) (sound.ended_of_terminal still), List.append_nil]
    exact ⟨state'.trans state, outcome'.trans outcome, stats'.trans stats, same⟩

/-- A scheduler in a final state registers nothing. -/
theorem schedule_of_terminal {w : World} {r : SchedulerRef}
    (terminal : (w.scheduler r).state.isTerminal = true) (j : JobRef) :
    (w.schedule r j).1 = false ∧ (w.schedule r j).2.schedulers = w.schedulers := by
  unfold schedule
  rw [if_pos terminal]
  exact ⟨rfl, rfl⟩

/-- **State and outcome agree in every reachable state**, the state takes only
the steps that there are, and the end is final. -/
theorem lifecycle_agrees (r : SchedulerRef) (es : List Event) :
    (∀ e, ((run (es ++ [e])).scheduler r).state = ((run es).scheduler r).state ∨
        ((run (es ++ [e])).scheduler r).state ∈ ((run es).scheduler r).state.next) ∧
      (((run es).scheduler r).outcome = none ↔ ((run es).scheduler r).state.isTerminal = false) ∧
      (((run es).scheduler r).outcome = some .graceful ↔
        ((run es).scheduler r).state = .stopped) ∧
      ((∃ e, ((run es).scheduler r).outcome = some (.faulted e)) ↔
        ((run es).scheduler r).state = .faulted) ∧
      (((run es).scheduler r).shutdown.isSome = true ↔
        ((run es).scheduler r).state = .running ∨ ((run es).scheduler r).state = .stopping) ∧
      (∀ more c, ((run es).scheduler r).outcome = some c →
        ((run (es ++ more)).scheduler r).outcome = some c) ∧
      (((run es).scheduler r).state.isTerminal = true → ∀ more,
        journal r (es ++ more) = journal r es ∧
          ((run (es ++ more)).scheduler r).stats = ((run es).scheduler r).stats ∧
          ∀ j, ((run (es ++ more)).schedule r j).1 = false ∧
            ((run (es ++ more)).schedule r j).2.schedulers = (run (es ++ more)).schedulers) := by
  have sound := sound_run es r
  obtain ⟨unsettled, graceful, faulted⟩ := sound.outcome
  refine ⟨?_, unsettled, graceful, faulted, sound.shutdown, ?_, ?_⟩
  · intro e
    rw [run_concat]
    exact (turn_step sound e).state sound
  · intro more c settled
    have terminal : ((run es).scheduler r).state.isTerminal = true := by
      rw [← Bool.not_eq_false, ← unsettled, settled]
      exact Option.some_ne_none c
    rw [(terminal_run r es more terminal).2.1, settled]
  · intro terminal more
    obtain ⟨state, -, stats, same⟩ := terminal_run r es more terminal
    exact ⟨same, stats, schedule_of_terminal (by rw [state, terminal])⟩

/-- A run whose only step panics after a stop has been asked for. -/
def panickingRun : List Event :=
  [.newJob "worker", .newScheduler ⟨"loop"⟩ .zero .zero, .schedule 0 0,
    .start 0 (.script [.reading ⟨0⟩, .reading ⟨1⟩]), .poll 0, .signalStop 0,
    .returned 0 0 (.panicked ⟨some "boom"⟩)]

/-- The panic is the outcome, and it stays so whatever happens next. -/
theorem lifecycle_agrees_of_panickingRun :
    ((run panickingRun).scheduler 0).state = .faulted ∧
      (∀ more, ((run (panickingRun ++ more)).scheduler 0).outcome =
        some (.faulted (.jobPanicked "worker" "boom"))) ∧
      ∀ more, journal 0 (panickingRun ++ more) = journal 0 panickingRun := by
  obtain ⟨-, -, -, faulted, -, stays, still⟩ := lifecycle_agrees 0 panickingRun
  have outcome : ((run panickingRun).scheduler 0).outcome =
      some (.faulted (.jobPanicked "worker" "boom")) := by
    decide
  exact ⟨faulted.1 ⟨_, outcome⟩, fun more => stays more _ outcome,
    fun more => (still (by decide) more).1⟩

end World

end FrameLoop

import FrameLoop.Proofs.Journal.Turns
import FrameLoop.Proofs.Wakeups.Loop

/-!
# Between two ticks

A driver that waits goes on waiting until it takes a reading (`still_of_untaken`), and gives up
for one of two reasons: its source, or a stop that has been asked for, or else a fault of the
tick that has drained (`ends_cases`). Whether the source may be the reason is for the source to
say.
-/

namespace FrameLoop

namespace Scheduler

/-- A tick that proceeds leaves the state as it is, or has made a fault. -/
theorem Proceeds.state {s : Scheduler} {loop : Loop} {t : Tick} {now : Nat} {m : Move}
    (h : Proceeds s loop t now m) :
    m.scheduler.state = s.state ∨ m.scheduler.state = .faulted := by
  cases h with
  | wave => exact .inl rfl
  | drained => exact .inl rfl
  | faulted fault told =>
    dsimp only [finish]
    split
    · exact .inl rfl
    · exact .inr rfl

end Scheduler

namespace World

variable {r : SchedulerRef} {es : List Event} {e : Event}

/-- **A driver does not ask its loop to stop.** -/
theorem not_stopping_of_driven {w : World} (driven : e.drives r = true)
    (unasked : (w.scheduler r).state ≠ .stopping) :
    ((w.step e).2.scheduler r).state ≠ .stopping := by
  have either {m : Scheduler.Move} (h : m.scheduler.state = (w.scheduler r).state ∨
      m.scheduler.state = .faulted) : m.scheduler.state ≠ .stopping := by
    rcases h with same | faulted
    · rwa [same]
    · rw [faulted]
      decide
  obtain ⟨-, unmoved⟩ | ⟨rfl, step, next⟩ | ⟨j, v, rfl, step, next⟩ := w.step_cases e r
  · rwa [(unmoved driven).2]
  · rw [step, next]
    obtain ⟨-, other⟩ | ⟨-, loop, t, -, -, starts⟩ := w.looksUp r
    · generalize w.lookUp r = m at other
      cases other with
      | rests | declines => exact unasked
      | @ends _ exit =>
        have final : exit.state ≠ .stopping := by cases exit <;> simp [Scheduler.Exit.state]
        dsimp only [Scheduler.finish]
        split
        · exact unasked
        · exact final
    · rw [starts]
      exact either (Scheduler.proceeds _ _ _ _).state
  · rw [step, next, settle]
    have returns := (w.scheduler r).returns w.forest j v w.clock
    generalize ((w.scheduler r).returned w.forest j v w.clock).1 = m at returns
    cases returns with
    | nothing | waits => exact unasked
    | proceeds _ _ _ goesOn => exact either goesOn.state

/-- Nor does it change the frame delay. -/
theorem frameDelay_of_driven {w : World} (driven : e.drives r = true) :
    ((w.step e).2.scheduler r).frameDelay = (w.scheduler r).frameDelay := by
  obtain ⟨-, unmoved⟩ | ⟨rfl, step, next⟩ | ⟨j, v, rfl, step, next⟩ := w.step_cases e r
  · rw [(unmoved driven).2]
  · rw [step, next, frameDelay_lookUp]
  · rw [step, next, settle, (Scheduler.returns _ _ j v _).frameDelay]

/-- **Between two ticks** it stays so until a reading is taken. -/
theorem still_of_untaken (still : ((run es).scheduler r).driver.tick? = none)
    (untaken : (run es).evaluation r e = none) :
    ((run (es ++ [e])).scheduler r).driver.tick? = none := by
  cases tickTurn_concat r es e with
  | rests _ tick => exact tick.trans still
  | ends _ _ _ _ tick => exact tick
  | drains _ tick => exact tick
  | runs ticks =>
    have same := length_ticks_untaken untaken
    rw [ticks, Scheduler.drainedTicks_of_still still, List.length_append] at same
    exact absurd same (Nat.succ_ne_self _)

/-- A driver is there as long as it has a source and a pacer. -/
theorem gear?_isSome (d : Driver) : d.gear?.isSome = d.isActive := by
  rw [Driver.gear?, Option.isSome_map, Driver.isActive]

/-- A driver stays until it ends its loop. -/
theorem active_or_ended (active : ((run es).scheduler r).driver.isActive = true) (e : Event) :
    ((run (es ++ [e])).scheduler r).driver.isActive = true ∨
      ((run (es ++ [e])).scheduler r).driver = .ended := by
  rw [← gear?_isSome] at active ⊢
  have turn := loopTurn_step (sound_run es r) e
  rw [← run_concat] at turn
  cases turn with
  | keeps _ gear => exact .inl (gear ▸ active)
  | starts _ _ _ _ gear => exact .inl (Option.isSome_of_mem gear)
  | takes _ _ _ gear => exact .inl (Option.isSome_of_mem gear)
  | ends _ _ ended => exact .inr ended

/-- **Why a loop has ended**: its driver had a reason when it looked up, or its last tick has
made a fault. -/
theorem ends_cases (active : ((run es).scheduler r).driver.isActive = true)
    (ended : ((run (es ++ [e])).scheduler r).driver = .ended) :
    (∃ loop exit, e = .poll r ∧ ((run es).scheduler r).driver = .waiting loop ∧
        (run es).exit? r loop = some exit ∧
          ((run (es ++ [e])).scheduler r).state = exit.state) ∨
      ∃ past t, (journal r (es ++ [e])).ticks = past ++ [t] ∧ t.faulty = true := by
  have sound := sound_run es r
  have sound' := sound_run (es ++ [e]) r
  have settled : ((run (es ++ [e])).scheduler r).outcome ≠ none := by
    rw [Ne, sound'.outcome.1, sound'.terminal_of_ended ended]
    decide
  cases tickTurn_concat r es e with
  | rests _ _ _ outcome => exact absurd (outcome.trans (sound.of_active active).2) settled
  | runs _ tick => rw [ended] at tick; cases tick
  | drains ticks _ _ _ _ _ outcome =>
    refine .inr ⟨_, _, ticks, Option.isSome_iff_ne_none.2 fun none => settled ?_⟩
    rw [outcome, none]
    rfl
  | ends _ _ _ still =>
    have gone (there : ((run (es ++ [e])).scheduler r).driver.gear?.isSome = true) : False := by
      rw [ended] at there
      cases there
    have geared : ((run es).scheduler r).driver.gear?.isSome = true := by rwa [gear?_isSome]
    rw [run_concat] at gone ⊢
    obtain ⟨quiet, -⟩ | ⟨rfl, step, next⟩ | ⟨j, v, rfl, step, next⟩ := (run es).step_cases e r
    · obtain same | ⟨source, -, -, started⟩ := quiet.gear
      · exact (gone (same ▸ geared)).elim
      · exact (gone (by rw [started]; rfl)).elim
    · obtain ⟨-, other⟩ | ⟨-, loop, t, waiting, -, starts⟩ := (run es).looksUp r
      · rw [step, next] at gone
        generalize (run es).lookUp r = m at other gone
        cases other with
        | rests => exact (gone geared).elim
        | declines => exact (gone rfl).elim
        | ends waiting gives =>
          exact .inl ⟨_, _, rfl, waiting, gives, poll_of_exit sound waiting gives⟩
      · rw [step, next, starts] at gone
        obtain gear | ⟨fault, -⟩ :=
          (Scheduler.proceeds _ _ _ _).gear (sound.live_of_active active)
        · exact (gone (Option.isSome_of_mem gear)).elim
        · exact absurd rfl fault
    · -- Nothing is out that could return.
      have none : ∀ loop k, ((run es).scheduler r).driver = .ticking loop k → j ∉ k.pending := by
        intro loop k driver
        rw [driver] at still
        cases still
      rw [step, next, settle, Scheduler.returned_of_not_pending none] at gone
      exact (gone geared).elim

end World

end FrameLoop

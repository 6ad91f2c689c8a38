import FrameLoop.CommandLine.Outcome
import FrameLoop.Proofs.Millis
import FrameLoop.Proofs.Settings.Layers

/-!
# Settings that are too long

Settings load whatever the length of their two times. It shows when a time is used: an
`Overlong` one has no duration, and asking for it breaks the program. So does making a
scheduler of such settings, and so does a frame delay on the command line that takes the place
of one in the settings. Nothing else does, and no other number breaks anything
(`breaks_iff_overlong`): what is negative, infinite or no number counts as zero.

The numbers that break the program are among those that a settings file and a command line
can say (`accepted_setting_breaks`). Where they break it, it ends with an exit code of its own;
what it prints then is not part of this.
-/

namespace FrameLoop

open Binary64 (Overlong)

variable {w : World} {loopId : LoopId} {s : SchedulerSettings} {o : RunOptions}
  {loaded : Except SettingsError Settings}

/-! ## A scheduler of settings -/

/-- **A scheduler can be made of settings unless one of their times is overlong.** -/
theorem World.schedulerOfSettings_ok_iff :
    (∃ r, (w.schedulerOfSettings loopId s).1 = .ok r) ↔
      ¬ s.frameDelayMs.Overlong ∧ ¬ s.wakeupIntervalMs.Overlong := by
  unfold schedulerOfSettings readMillis
  rcases durationOfMillis_cases s.frameDelayMs with ⟨short, d, made⟩ | ⟨long, broken⟩
  · rw [made]
    rcases durationOfMillis_cases s.wakeupIntervalMs with ⟨short', d', made'⟩ | ⟨long', broken'⟩
    · rw [made']
      exact ⟨fun _ => ⟨short, short'⟩, fun _ => ⟨_, rfl⟩⟩
    · rw [broken']
      exact ⟨nofun, fun h => absurd long' h.2⟩
  · rw [broken]
    exact ⟨nofun, fun h => absurd long h.1⟩

/-! ## A run of the program -/

/-- The settings that a run uses: the defaults where none could be loaded. -/
def CommandLine.used (loaded : Except SettingsError Settings) : Settings :=
  loaded.toOption.getD {}

/-- **What breaks a run**: an overlong time in its settings, or on its command line. -/
def CommandLine.Breaks (o : RunOptions) (settings : Settings) : Prop :=
  settings.scheduler.frameDelayMs.Overlong ∨ settings.scheduler.wakeupIntervalMs.Overlong ∨
    ∃ ms, o.frameDelayMs = some ms ∧ ms.Overlong

/-- **The demonstration can be set up unless a time is overlong.** A frame delay on the
command line does not save a run from the one in the settings: both are read. -/
theorem Demo.Play.setUp_cases (s : SchedulerSettings) (frameDelayMs : Option Binary64)
    (abortAfter : Option Nat) :
    (∃ p, setUp s frameDelayMs abortAfter = .ok p) ∧
        ¬ (s.frameDelayMs.Overlong ∨ s.wakeupIntervalMs.Overlong ∨
          ∃ ms, frameDelayMs = some ms ∧ ms.Overlong) ∨
      (∃ e, setUp s frameDelayMs abortAfter = .error e) ∧
        (s.frameDelayMs.Overlong ∨ s.wakeupIntervalMs.Overlong ∨
          ∃ ms, frameDelayMs = some ms ∧ ms.Overlong) := by
  have scheduler : (∃ r, (World.schedulerOfSettings {} ⟨"demo"⟩ s).1 = .ok r) ↔
      ¬ s.frameDelayMs.Overlong ∧ ¬ s.wakeupIntervalMs.Overlong := World.schedulerOfSettings_ok_iff
  unfold setUp
  cases made : World.schedulerOfSettings {} ⟨"demo"⟩ s with
  | mk answer w =>
    rw [made] at scheduler
    cases answer with
    | error e =>
      refine .inr ⟨⟨e, rfl⟩, ?_⟩
      by_contra short
      rw [not_or, not_or] at short
      obtain ⟨r, ok⟩ := scheduler.2 ⟨short.1, short.2.1⟩
      cases ok
    | ok r =>
      obtain ⟨first, second⟩ := scheduler.1 ⟨r, rfl⟩
      cases frameDelayMs with
      | none =>
        refine .inl ⟨⟨_, rfl⟩, ?_⟩
        rintro (long | long | ⟨ms, given, -⟩)
        · exact first long
        · exact second long
        · cases given
      | some ms =>
        dsimp only
        unfold World.readMillis
        rcases durationOfMillis_cases ms with ⟨short, d, ok⟩ | ⟨long, broken⟩
        · rw [ok]
          refine .inl ⟨⟨_, rfl⟩, ?_⟩
          rintro (long | long | ⟨other, given, long⟩)
          · exact first long
          · exact second long
          · cases given
            exact short long
        · rw [broken]
          exact .inr ⟨⟨_, rfl⟩, .inr (.inr ⟨ms, rfl, long⟩)⟩

namespace CommandLine

theorem exitCode_conclude (settingsRejected : Bool) (p : Demo.Play) :
    (conclude settingsRejected p).exitCode ≠ exitPanic := by
  unfold conclude
  split
  · exact (by decide : exitFault ≠ exitPanic)
  · exact (by decide : exitOk ≠ exitPanic)

theorem conclude_true (p : Demo.Play) :
    conclude true p = { conclude false p with settingsRejected := true } := by
  unfold conclude
  split <;> rfl

/-- **A run whose settings cannot be loaded** is a run with the defaults, and says so. -/
theorem outcome?_error (o : RunOptions) (e : SettingsError) :
    outcome? o (.error e) =
      (outcome? o (.ok {})).map fun outcome => { outcome with settingsRejected := true } := by
  unfold outcome?
  dsimp only
  cases Demo.Play.setUp ({} : Settings).scheduler o.frameDelayMs o.abortAfter with
  | error e => rfl
  | ok p =>
    dsimp only
    rw [conclude_true, apply_ite (Option.map _), Option.map_none, Option.map_some]

theorem outcome?_ok_panics_iff (o : RunOptions) (settings : Settings) :
    (∃ outcome, outcome? o (.ok settings) = some outcome ∧ outcome.exitCode = exitPanic) ↔
      Breaks o settings := by
  unfold outcome? Breaks
  dsimp only
  rcases Demo.Play.setUp_cases settings.scheduler o.frameDelayMs o.abortAfter with
    ⟨⟨p, ok⟩, short⟩ | ⟨⟨e, broken⟩, long⟩
  · rw [ok]
    refine ⟨fun ⟨outcome, shown, panics⟩ => ?_, fun long => absurd long short⟩
    dsimp only at shown
    split at shown
    · cases shown
    · cases shown
      exact absurd panics (exitCode_conclude _ _)
  · rw [broken]
    exact ⟨fun _ => long, fun _ => ⟨_, rfl, rfl⟩⟩

/-- **A run breaks exactly if a time that it reads is overlong.** -/
theorem outcome?_panics_iff :
    (∃ outcome, outcome? o loaded = some outcome ∧ outcome.exitCode = exitPanic) ↔
      Breaks o (used loaded) := by
  cases loaded with
  | ok settings => exact outcome?_ok_panics_iff o settings
  | error e =>
    refine Iff.trans ?_ (outcome?_ok_panics_iff o {})
    rw [outcome?_error]
    constructor
    · rintro ⟨outcome, shown, panics⟩
      obtain ⟨plain, shown', rfl⟩ := Option.map_eq_some_iff.1 shown
      exact ⟨plain, shown', panics⟩
    · rintro ⟨outcome, shown, panics⟩
      exact ⟨_, Option.map_eq_some_iff.2 ⟨outcome, shown, rfl⟩, panics⟩

end CommandLine

/-! ## What breaks the program -/

/-- **Only an overlong time breaks the program, and wherever it is used.** Any number that is
not overlong has a duration, and what is no positive number has the duration zero. Loading
settings does not look at this: it is their two times, a scheduler made of them, and a run
that uses them or is given a frame delay, that break. -/
theorem breaks_iff_overlong (ms : Binary64) (around : Surroundings) (directory : Directory) :
    ((ms.isFinite = false ∨ ms.value ≤ 0 → durationOfMillis ms = .ok .zero) ∧
      (¬ ms.Overlong → ∃ d, durationOfMillis ms = .ok d) ∧
      (ms.Overlong → durationOfMillis ms = .error .overlongSeconds)) ∧
    (∀ (explicit : Option String) (settings : Settings),
        Settings.load explicit around directory = .ok settings →
      ((∃ d, settings.scheduler.frameDelay = .ok d) ↔
        ¬ settings.scheduler.frameDelayMs.Overlong) ∧
      ((∃ d, settings.scheduler.wakeupInterval = .ok d) ↔
        ¬ settings.scheduler.wakeupIntervalMs.Overlong) ∧
      ∀ (w : World) (loopId : LoopId),
        (∃ r, (w.schedulerOfSettings loopId settings.scheduler).1 = .ok r) ↔
          ¬ settings.scheduler.frameDelayMs.Overlong ∧
            ¬ settings.scheduler.wakeupIntervalMs.Overlong) ∧
    ∀ (args : List String) (o : RunOptions), CommandLine.parse args = .run o →
      ((∃ outcome, CommandLine.outcomeOf? args around directory = some outcome ∧
          outcome.exitCode = CommandLine.exitPanic) ↔
        CommandLine.Breaks o (CommandLine.used (Settings.load o.config around directory))) := by
  refine ⟨⟨durationOfMillis_of_nonpos, durationOfMillis_ok_iff.2, fun long => ?_⟩,
    fun explicit settings _ => ⟨durationOfMillis_ok_iff, durationOfMillis_ok_iff,
      fun w loopId => World.schedulerOfSettings_ok_iff⟩,
    fun args o asked => ?_⟩
  · rcases durationOfMillis_cases ms with ⟨short, -⟩ | ⟨-, broken⟩
    · exact absurd long short
    · exact broken
  · rw [CommandLine.outcomeOf?, asked]
    exact CommandLine.outcome?_panics_iff

/-- 2 · 10^22 milliseconds. -/
def beyond : Binary64 := ⟨0x4490f0cf064dd592⟩

theorem durationOfMillis_beyond : durationOfMillis beyond = .error .overlongSeconds := by
  decide +kernel

theorem overlong_beyond : beyond.Overlong := by
  rcases durationOfMillis_cases beyond with ⟨-, d, ok⟩ | ⟨long, -⟩
  · rw [durationOfMillis_beyond] at ok
    cases ok
  · exact long

/-- A file that says so many. -/
def beyondText : String := "scheduler.frame_delay_ms=2e22"

/-- The settings that the file has. -/
def beyondSettings : Settings where
  scheduler := { frameDelayMs := beyond }

theorem document?_beyondText :
    Toml.document? beyondText =
      some (.table [("scheduler", .table [("frame_delay_ms", .real beyond)])]) := by
  decide +kernel

theorem load_beyond :
    Settings.load none Settings.pointer (Settings.holding beyondText) = .ok beyondSettings := by
  rw [Settings.load_holding document?_beyondText (by unfold Settings.Sectioned; decide)]
  rfl

theorem parse_beyond :
    CommandLine.parse ["run", "--frame-delay-ms", "2e22"] = .run { frameDelayMs := beyond } := by
  decide +kernel

/-- **A setting that is accepted breaks the program.** The file is loaded and a command line
is understood, and there is no frame delay, no scheduler and no run. -/
theorem accepted_setting_breaks :
    durationOfMillis beyond = .error .overlongSeconds ∧
      Settings.load none Settings.pointer (Settings.holding beyondText) = .ok beyondSettings ∧
      beyondSettings.scheduler.frameDelay = .error .overlongSeconds ∧
      (¬ ∃ r, (({} : World).schedulerOfSettings ⟨"demo"⟩ beyondSettings.scheduler).1 = .ok r) ∧
      CommandLine.parse ["run", "--frame-delay-ms", "2e22"] = .run { frameDelayMs := beyond } ∧
      ∃ outcome,
        CommandLine.outcomeOf? ["run", "--frame-delay-ms", "2e22"] {} {} = some outcome ∧
          outcome.exitCode = CommandLine.exitPanic := by
  refine ⟨durationOfMillis_beyond, load_beyond, durationOfMillis_beyond, fun made => ?_,
    parse_beyond, ?_⟩
  · exact (World.schedulerOfSettings_ok_iff.1 made).1 overlong_beyond
  · rw [CommandLine.outcomeOf?, parse_beyond]
    exact CommandLine.outcome?_panics_iff.2 (.inr (.inr ⟨beyond, rfl, overlong_beyond⟩))

/-- The default of the other time has a duration, and a frame delay on the command line does
not cover the one in the file. -/
theorem breaks_iff_overlong_of_beyond :
    Settings.load none Settings.pointer (Settings.holding beyondText) = .ok beyondSettings ∧
      (¬ ∃ d, beyondSettings.scheduler.frameDelay = .ok d) ∧
      (∃ d, beyondSettings.scheduler.wakeupInterval = .ok d) ∧
      CommandLine.parse ["run", "--frame-delay-ms", "5"] =
        .run { frameDelayMs := Binary64.ofNat 5 } ∧
      ∃ outcome, CommandLine.outcomeOf? ["run", "--frame-delay-ms", "5"] Settings.pointer
          (Settings.holding beyondText) = some outcome ∧
        outcome.exitCode = CommandLine.exitPanic := by
  have parsed : CommandLine.parse ["run", "--frame-delay-ms", "5"] =
      .run { frameDelayMs := Binary64.ofNat 5 } := by
    decide +kernel
  obtain ⟨-, files, runs⟩ :=
    breaks_iff_overlong beyond Settings.pointer (Settings.holding beyondText)
  obtain ⟨delay, interval, -⟩ := files none beyondSettings load_beyond
  refine ⟨load_beyond, fun made => delay.1 made overlong_beyond, interval.2 fun long => ?_,
    parsed, (runs _ _ parsed).2 (.inl ?_)⟩
  · have short : ∃ d, durationOfMillis beyondSettings.scheduler.wakeupIntervalMs = .ok d :=
      ⟨.ofNanos 4166667, by decide +kernel⟩
    exact durationOfMillis_ok_iff.1 short long
  · rw [load_beyond]
    exact overlong_beyond

end FrameLoop

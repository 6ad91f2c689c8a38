import FrameLoop.Proofs.Demo.Program
import FrameLoop.Proofs.Demo.Wakeups
import Mathlib.Data.List.GetD

/-!
# The demonstration faults when it is asked to

The demonstration is there to show a fault, and which tick is to make it is asked for beforehand.
It is the tick with that number, or the first if the number is zero; no wake-up, no frame delay and
no order of returns makes it another. The parts that say so are in the modules below this one:
where every run stands (`Demo.Cast`, `Demo.Course`), which wake-ups are enough (`Demo.Wakeups`),
and the program, which has a source at a fixed rate (`Demo.Stage`). Of the program there are two
readings. On a host that is never late and lets the engine's start come first it is what the
command line shows (`Demo.Play`, `Demo.Program`), and on any other it is the same fault
(`Demo.Host`).

**What is taken for granted.** A run is given the wake-ups and the returns it is given. That steps
return at all, and that the driver looks up, is asked of the host (`Cast.Attended`,
`Cast.Listens`). A program whose settings break it comes to no demonstration.
-/

namespace FrameLoop.Demo

open CommandLine (Breaks Interrupted ShowsAbort ShowsFault played used)
open World (Event run journal evaluations fired firstEvents)

/-- The jobs of the run. -/
def rehearsers : Cast := { heartbeat := 0, warmup := 1, injector := 2 }

/-- Three wake-ups with a frame delay of five milliseconds, of which the pacer lets two pass. -/
def rehearsed (i : Nat) : Event :=
  [.newJob heartbeatName, .newJob warmupName, .newJob faultInjectorName,
    .newScheduler ⟨"loop"⟩ (.ofMillis 5) .zero, .newFeed, .schedule 0 0, .schedule 0 1,
    .schedule 0 2, .start 0 (.manual 0),
    .fire 0 ⟨0⟩, .fire 0 ⟨1000000⟩, .fire 0 ⟨5000000⟩,
    .poll 0, .returned 0 0 (.outcome .resume), .returned 0 2 (.outcome .resume),
    .returned 0 1 (.outcome .detach), .poll 0,
    .poll 0, .returned 0 2 (.outcome .abort), .returned 0 0 (.outcome .resume)].getD i (.poll 0)

theorem ready_rehearsed : rehearsers.Ready 0 (firstEvents rehearsed 9) := by
  constructor
  case distinct => decide
  case registered => decide
  case unlinked => unfold Cast.Unlinked; decide
  case name => decide
  case running => decide
  case untaken => decide

theorem rehearsed_late {n : Nat} (late : 20 ≤ n) : rehearsed n = .poll 0 :=
  List.getD_eq_default _ _ late

theorem lets_rehearsed {n : Nat} (later : 9 ≤ n)
    (stands : rehearsers.Stands 2 0 (firstEvents rehearsed n)) :
    rehearsers.Lets 2 0 (firstEvents rehearsed n) (rehearsed n) := by
  rcases Nat.lt_or_ge n 20 with early | late
  · interval_cases n
    iterate 3 exact stands.lets_of_same rfl (by rfl) (by rfl)
    · exact stands.lets_of_poll
    iterate 3 exact stands.lets_of_returned (by rfl)
    iterate 2 exact stands.lets_of_poll
    iterate 2 exact stands.lets_of_returned (by rfl)
  · rw [rehearsed_late late]
    exact stands.lets_of_poll

theorem performs_rehearsed {n : Nat} (later : 9 ≤ n) :
    rehearsers.Performs 2 0 (firstEvents rehearsed n) :=
  Cast.performs_of_lets ready_rehearsed (fun _ => lets_rehearsed) later

theorem faulted_rehearsed {n : Nat} (late : 20 ≤ n) :
    ((run (firstEvents rehearsed n)).scheduler 0).state = .faulted := by
  have ended : ((run (firstEvents rehearsed 20)).scheduler 0).state = .faulted := by decide
  obtain ⟨more, goesOn⟩ := World.firstEvents_grows rehearsed late
  rw [← goesOn, (World.terminal_run 0 _ more (by rw [ended]; rfl)).1, ended]

theorem frameDelay_rehearsed {n : Nat} (later : 9 ≤ n) :
    ((run (firstEvents rehearsed n)).scheduler 0).frameDelay = .ofMillis 5 := by
  induction n, later using Nat.le_induction with
  | base => decide
  | succ n later ih =>
    rw [World.firstEvents_succ, World.run_concat, ← ih]
    rcases Nat.lt_or_ge n 20 with early | late
    · interval_cases n
      iterate 3 rfl
      all_goals exact World.frameDelay_of_driven rfl
    · rw [rehearsed_late late]
      exact World.frameDelay_of_driven rfl

theorem listens_rehearsed : rehearsers.Listens 2 0 0 (.ofMillis 5) rehearsed 9 := by
  have outs : ∀ n < 20, ∀ j ∈ (journal 0 (firstEvents rehearsed n)).out,
      ∃ x ∈ [(13, 0), (14, 2), (15, 1), (18, 2), (19, 0)], n ≤ x.1 ∧ x.2 = j := by
    decide
  constructor
  case toAttended =>
    constructor
    case ready => exact ready_rehearsed
    case lets => exact fun n later => lets_rehearsed later (performs_rehearsed later).stands
    case returns =>
      intro n later j out
      rcases Nat.lt_or_ge n 20 with early | late
      · obtain ⟨⟨k, _⟩, returns, before, rfl⟩ := outs n early j out
        refine ⟨k, before, ?_⟩
        simp only [List.mem_cons, List.not_mem_nil, or_false, Prod.mk.injEq] at returns
        rcases returns with ⟨rfl, rfl⟩ | ⟨rfl, rfl⟩ | ⟨rfl, rfl⟩ | ⟨rfl, rfl⟩ | ⟨rfl, rfl⟩
        all_goals exact ⟨_, rfl⟩
      · rw [World.out_of_terminal (by rw [faulted_rehearsed late]; rfl)] at out
        cases out
  case heard => decide
  case looksUp =>
    intro n _
    exact ⟨max n 20, Nat.le_max_left n 20, rehearsed_late (Nat.le_max_right n 20)⟩
  case delay => exact fun n later => frameDelay_rehearsed later

/-- A file that asks for wake-ups every five milliseconds. -/
def quickText : String := "scheduler.wakeup_interval_ms=5"

theorem load_quick : Settings.load none Settings.pointer (Settings.holding quickText) =
    .ok { scheduler := { wakeupIntervalMs := .ofInt 5 } } := by
  have parsed : Toml.document? quickText =
      some (.table [("scheduler", .table [("wakeup_interval_ms", .whole 5)])]) := by
    decide +kernel
  rw [Settings.load_holding parsed (by unfold Settings.Sectioned; decide)]
  rfl

/-- A host that is late: the driver looks up before there is a heartbeat, and then once more. -/
def belated : List Event :=
  Play.started (.ofNanos 16666667) (.ofMillis 5) [] ++ [.pass 30000000] ++ [.poll 0] ++
    [.tell [.heartbeatOnline (.ofNanos 16666667)]] ++ [.newJob heartbeatName] ++
    [.returned 0 1 (.outcome .resume)] ++ [.hookReturned 0 (.ok (some 2))] ++
    [.returned 0 0 (.outcome .detach)] ++ [.pass 40000000] ++ [.rouse 0] ++ [.poll 0] ++
    [.returned 0 2 (.outcome .resume)] ++ [.returned 0 1 (.outcome .abort)]

theorem hosted_belated : Play.Hosted 2 (.ofNanos 16666667) (.ofMillis 5) [] [] belated :=
  Play.Hosted.begins
    |>.host (.passes 30000000)
    |>.host .polls
    |>.starts
    |>.starts
    |>.host (.returned (by decide))
    |>.starts
    |>.host (.returned (by decide))
    |>.host (.passes 40000000)
    |>.host .rouses
    |>.host .polls
    |>.host (.returned (by decide))
    |>.host (.returned (by decide))

end FrameLoop.Demo

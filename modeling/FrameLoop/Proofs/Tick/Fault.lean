import FrameLoop.Proofs.Tick.Places
import Mathlib.Data.List.Nodup

/-!
# A step makes a fault

A step makes a fault if it asks to abort, fails or panics. The wave it belongs
to is the last of its tick, and the tick the last of its loop, but the others of
the wave are waited for, and those of them that ask to leave do. Only then does
the loop end, with the error of the step that made its fault first, whether or
not a stop had been asked for. Every later fault is told to the log and changes
nothing. A job is not taken from its place for having made a fault.
-/

namespace FrameLoop.World

variable {r : SchedulerRef} {es : List Event} {before after : List TickRecord} {t : TickRecord}

/-! ## Where the fault is -/

/-- **No tick follows one with a fault.** -/
theorem last_of_faulty (split : (journal r es).ticks = before ++ t :: after)
    (faulty : t.faulty = true) : after = [] := by
  by_contra some
  have early : t ∈ (journal r es).ticks.dropLast := by
    rw [split, List.dropLast_append_of_ne_nil (List.cons_ne_nil t after),
      List.dropLast_cons_of_ne_nil some]
    simp
  rw [((ordered_run r es).clean_init t early).sound] at faulty
  cases faulty

/-- **A job returns once in a tick.** -/
theorem nodup_returns (split : (journal r es).ticks = before ++ t :: after) :
    (t.returns.map (·.job)).Nodup := by
  obtain ⟨exact, -, ⟨spent, -⟩ | ⟨-, loop, k, -, tracks, -⟩⟩ := tick_cases r es split
  · exact (TickRecord.returned_perm spent.1).nodup_iff.2 exact.nodup
  · exact (List.nodup_append.1 (tracks.pending.nodup_iff.2 exact.nodup)).1

/-! ## The end of the loop -/

/-- **A loop whose tick has made a fault** waits for the steps that are out, or
has ended with the first fault. -/
theorem faulted_cases (split : (journal r es).ticks = before ++ t :: after)
    (faulty : t.faulty = true) :
    ((∃ c ∈ t.waves, ¬ c.Drained) ∧ (journal r es).out ≠ [] ∧
        ((run es).scheduler r).driver.tick?.isSome = true ∧
        (((run es).scheduler r).state = .running ∨ ((run es).scheduler r).state = .stopping) ∧
        ((run es).scheduler r).outcome = none) ∨
      (t.Over ∧ (journal r es).out = [] ∧ ((run es).scheduler r).state = .faulted ∧
        ∃ a e, t.firstFault? = some a ∧ a.error? = some e ∧
          ((run es).scheduler r).outcome = some (.faulted e)) := by
  have none : after = [] := last_of_faulty split faulty
  subst none
  cases agrees_run es r with
  | rests _ _ clean =>
    rw [(clean t (by simp [split])).sound] at faulty
    cases faulty
  | @ticks loop k past u driver last clean tracks out busy =>
    obtain ⟨-, rfl⟩ := List.append_singleton_inj.1 (split.symm.trans last)
    have active : ((run es).scheduler r).driver.isActive = true := by rw [driver]; rfl
    obtain ⟨state, unsettled⟩ := (sound_run es r).of_active active
    refine .inl ⟨?_, out ▸ busy, by rw [driver]; rfl, state, unsettled⟩
    by_contra all
    push Not at all
    exact busy (tracks.pending_eq_nil all)
  | faulted _ out last _ _ spent first error state outcome =>
    obtain ⟨-, rfl⟩ := List.append_singleton_inj.1 (split.symm.trans last)
    exact .inr ⟨spent, out, state, _, _, first, error, outcome⟩

/-! ## Places -/

/-- **A step that asks to leave is no fault of the tick it returns in.** -/
theorem detach_of_tick (split : (journal r es).ticks = before ++ t :: after) {pre post : List Event}
    {j : JobRef} (here : es = pre ++ .returned r j (.outcome .detach) :: post)
    (out : j ∈ (journal r pre).out)
    (during : (journal r (pre ++ [.returned r j (.outcome .detach)])).ticks.length =
      before.length + 1) : ∃ d ∈ t.returns, d.job = j ∧ d.isFault = false := by
  have agrees := agrees_run pre r
  obtain ⟨loop, k, past, u, driver, pending, tracks, last⟩ := agrees.ticking_of_out out
  -- The journal up to and with the return, and what is handed out thereupon.
  have now := journal_returned out (.outcome .detach)
  have ticks := Journal.ticks_returned last ((run pre).returnOf r j (.outcome .detach))
  have length : past.length = before.length := by
    rw [now, Journal.length_ticks_append _ (Journal.began_not_mem_handOut _), ticks] at during
    simpa using during
  obtain ⟨added, rest⟩ := journal_append r (pre ++ [.returned r j (.outcome .detach)]) post
  have whole : es = (pre ++ [.returned r j (.outcome .detach)]) ++ post := by rw [here]; simp
  rw [whole, rest, now, List.append_assoc] at split
  obtain ⟨v, more, later, kept⟩ := Journal.ticks_append _ (_ ++ added) ticks
  obtain ⟨-, same⟩ := List.append_inj (split.symm.trans later) length.symm
  obtain ⟨rfl, -⟩ := List.cons.inj same
  refine ⟨(run pre).returnOf r j (.outcome .detach), kept.returns.subset ?_, rfl, rfl⟩
  rw [TickRecord.returns_settle (tracks.waves_ne_nil (List.ne_nil_of_mem pending))]
  simp

/-- **A job that has made a fault keeps its place** while its tick lasts. -/
theorem faulting_job_keeps_place (split : (journal r es).ticks = before ++ t :: after) {b : Return}
    (ret : b ∈ t.returns) (fault : b.isFault = true) {pre post : List Event} {e : Event}
    (here : es = pre ++ e :: post) (driven : e.drives r = true)
    (during : (journal r (pre ++ [e])).ticks.length = before.length + 1) :
    (b.job ∈ ((run pre).scheduler r).registry →
        b.job ∈ ((run (pre ++ [e])).scheduler r).registry) ∧
      ∀ p, b.job ∈ (run pre).forest.children p → b.job ∈ (run (pre ++ [e])).forest.children p := by
  rw [run_concat]
  refine keeps_place (agrees_run pre r) driven ?_
  rintro ⟨rfl, out⟩
  obtain ⟨d, hd, job, sound⟩ := detach_of_tick split here out during
  have same : d = b := List.inj_on_of_nodup_map (nodup_returns split) hd ret job
  rw [same, fault] at sound
  cases sound

/-! ## Faults -/

/-- **What a fault comes to.** No wave follows the faulting one, no tick follows
the faulting one, and from then on there is nothing to see but steps that
return. While one of the wave is out nothing is settled. Once all have returned
the scheduler is faulted, and the outcome is the error of the step that made its
fault first, which names its job. The log is told of that fault and, apart from
it, of each later one. Jobs that ask to leave do; the faulting ones keep their
places. -/
theorem fault_ends_loop {c : Wave} {b : Return}
    (split : (journal r es).ticks = before ++ t :: after) (wave : c ∈ t.waves)
    (ret : b ∈ c.returns) (fault : b.isFault = true) :
    (after = [] ∧ ∃ cs, t.waves = cs ++ [c]) ∧
      (∀ more, ∃ K, journal r (es ++ more) = journal r es ++ K ∧ ∀ e ∈ K, ∃ d, e = .returned d) ∧
      (¬ c.Drained → (journal r es).out ≠ [] ∧
        ((run es).scheduler r).driver.tick?.isSome = true ∧
        (((run es).scheduler r).state = .running ∨ ((run es).scheduler r).state = .stopping) ∧
        ((run es).scheduler r).outcome = none) ∧
      (c.Drained → (journal r es).out = [] ∧ ((run es).scheduler r).state = .faulted ∧
        ∃ pre a post e, t.returns = pre ++ a :: post ∧ (∀ d ∈ pre, d.isFault = false) ∧
          a.Blames e ∧ (∀ cause, a.verdict = .failed cause → e.chain = cause.chain) ∧
          ((run es).scheduler r).outcome = some (.faulted e)) ∧
      (∀ pre a post, t.returns = pre ++ a :: post → a.isFault = true →
        ∃ e, a.Blames e ∧
          (if pre.any (·.isFault) then Notice.additionalFault a.name e
            else Notice.jobFault a.name e) ∈ a.told) ∧
      (∀ pre j post, es = pre ++ .returned r j (.outcome .detach) :: post →
        j ∈ (journal r pre).out →
          (run (pre ++ [.returned r j (.outcome .detach)])).forest.parent j = none ∧
          (∀ q, j ∉ (run (pre ++ [.returned r j (.outcome .detach)])).forest.children q) ∧
          ((run pre).forest.parent j = none →
            j ∉ ((run (pre ++ [.returned r j (.outcome .detach)])).scheduler r).registry)) ∧
      (∀ pre e post, es = pre ++ e :: post → e.drives r = true →
        (journal r (pre ++ [e])).ticks.length = before.length + 1 →
          (b.job ∈ ((run pre).scheduler r).registry →
            b.job ∈ ((run (pre ++ [e])).scheduler r).registry) ∧
          ∀ p, b.job ∈ (run pre).forest.children p →
            b.job ∈ (run (pre ++ [e])).forest.children p) := by
  have hb : b ∈ t.returns := List.mem_flatMap.2 ⟨c, wave, ret⟩
  have ht : t ∈ (journal r es).ticks := by rw [split]; simp
  have faulty : t.faulty = true := by
    rw [TickRecord.faulty_eq_any, List.any_eq_true]
    exact ⟨b, hb, fault⟩
  have exact := (tick_cases r es split).1
  obtain ⟨cs, last⟩ := exact.last_of_faulty wave (List.any_eq_true.2 ⟨b, ret, fault⟩)
  have reported := (ordered_run r es).reported t ht
  refine ⟨⟨last_of_faulty split faulty, cs, last⟩, ?_, ?_, ?_, ?_, ?_, ?_⟩
  · intro more
    obtain ⟨K, added⟩ := journal_append r es more
    have ordered := ordered_run r (es ++ more)
    rw [added] at ordered
    exact ⟨K, added, ordered.returns_after_fault ht faulty⟩
  · intro running
    obtain ⟨-, waits⟩ | ⟨spent, -⟩ := faulted_cases split faulty
    · exact waits
    · exact absurd (spent.1 c wave) running
  · intro drained
    obtain ⟨⟨d, hd, out⟩, -⟩ | ⟨-, none, state, a, e, first, error, outcome⟩ :=
      faulted_cases split faulty
    · rw [last, List.mem_append, List.mem_singleton] at hd
      obtain early | rfl := hd
      · exact absurd (exact.drained_init last d early).1 out
      · exact absurd drained out
    · obtain ⟨-, pre, post, here, sound⟩ := List.find?_eq_some_iff_append.1 first
      have blames := (reported pre a post here).blames error
      exact ⟨none, state, pre, a, post, e, here, fun d hd => by simpa using sound d hd, blames,
        fun cause => blames.chain, outcome⟩
  · intro pre a post here faulted
    obtain ⟨e, error⟩ := Option.isSome_iff_exists.1 faulted
    have told := reported pre a post here
    exact ⟨e, told.blames error, told.told e error⟩
  · intro pre j post _ out
    exact detach_leaves r pre out
  · intro pre e post here driven during
    exact faulting_job_keeps_place split hb fault here driven during

/-- A run whose only wave has a panic, a detach and an abort in it, in that
order, after a stop has been asked for. -/
def mixedRun : List Event :=
  [.newJob "a", .newJob "b", .newJob "c", .newScheduler ⟨"loop"⟩ .zero .zero, .schedule 0 0,
    .schedule 0 1, .schedule 0 2, .start 0 (.script [.reading ⟨0⟩, .reading ⟨1⟩]), .poll 0,
    .signalStop 0, .returned 0 2 (.panicked ⟨some "boom"⟩), .returned 0 1 (.outcome .detach),
    .returned 0 0 (.outcome .abort)]

/-- The return of its step that panics. -/
def panicReturn : Return where
  job := 2
  name? := some "c"
  verdict := .panicked ⟨some "boom"⟩
  children := []
  told := [.jobFault "c" (.jobPanicked "c" "boom")]

/-- What is written down of its wave. -/
def mixedWave : Wave where
  launched := [0, 1, 2]
  returns :=
    [panicReturn,
      { job := 1, name? := some "b", verdict := .outcome .detach, children := [],
        told := [.jobDetached "b"] },
      { job := 0, name? := some "a", verdict := .outcome .abort, children := [],
        told := [.additionalFault "a" (.jobAborted "a"), .tickDrained 3 1,
          .schedulerFaulted 1 (.jobPanicked "c" "boom")] }]

/-- The panic came first, so it is the outcome; the job that detached is gone, and
the two that made a fault are still registered. -/
theorem fault_ends_loop_of_mixedRun :
    (journal 0 mixedRun).ticks = [] ++ { registry := [0, 1, 2], waves := [mixedWave] } :: [] ∧
      ((run mixedRun).scheduler 0).state = .faulted ∧
      ((run mixedRun).scheduler 0).outcome = some (.faulted (.jobPanicked "c" "boom")) ∧
      ((run mixedRun).scheduler 0).registry = [0, 2] ∧
      ∀ more, ∃ K, journal 0 (mixedRun ++ more) = journal 0 mixedRun ++ K ∧
        ∀ e ∈ K, ∃ d, e = .returned d := by
  have split : (journal 0 mixedRun).ticks =
      [] ++ { registry := [0, 1, 2], waves := [mixedWave] } :: [] := by
    decide
  obtain ⟨-, rest, -, settled, -⟩ :=
    fault_ends_loop (c := mixedWave) (b := panicReturn) split (by simp) (by decide) (by decide)
  have drained : mixedWave.Drained := by
    show List.Perm _ _
    decide
  obtain ⟨-, state, -⟩ := settled drained
  exact ⟨split, state, by decide, by decide, rest⟩

end FrameLoop.World

import FrameLoop.Proofs.Tick.Fault
import FrameLoop.Proofs.Tick.Undisturbed

/-!
# The order in which steps return

The steps of a wave return in any order, and what returns last decides when the next wave
is launched, who is let go in between, and whose children are looked at before and whose
after somebody has left. None of it shows in the end (`waves_are_levels`). If nobody
disturbs a tick, its waves are the levels of the job forest below the registry, down to the
first level with a fault in it; so two such ticks that differ only in the order in which
their steps return launch the same waves and leave the same counters, the same registry
and, once everything has been let go that nobody holds, the same forest.

**What this does not say.** Which fault is reported depends on the order. It is one of the
last wave's.
-/

namespace FrameLoop.World

/-- **What is let go once a tick is over**: held are the jobs of a list, which are there,
and those that are registered. -/
structure Settles (w : World) (r : SchedulerRef) (host : Holdings) (held : List JobRef) :
    Prop where
  there : ∀ j ∈ held, w.forest.has j = true
  kept : ∀ j, j ∈ w.kept host ↔ j ∈ held ∨ j ∈ (w.scheduler r).registry

variable {r : SchedulerRef} {pre ds : List Event} {outside : List JobRef}
  {verdicts : JobRef → Verdict}

/-- A tick that is not in flight any more is over. -/
theorem over_of_still {es : List Event} {before after : List TickRecord} {t : TickRecord}
    (split : (journal r es).ticks = before ++ t :: after)
    (still : ((run es).scheduler r).driver.tick? = none) : t.Over :=
  (over_iff r es split).2 (.inr still)

/-- **The fault that is reported is one of the last wave's.** -/
theorem reported_of_last {es : List Event} {before : List TickRecord} {t : TickRecord}
    {f : Forest} (split : (journal r es).ticks = before ++ [t])
    (still : ((run es).scheduler r).driver.tick? = none) (follows : t.Follows f verdicts)
    (faulty : t.faulty = true) :
    ((run es).scheduler r).state = .faulted ∧
      ∃ j ∈ t.launchedAt (t.waves.length - 1), ∃ e, (verdicts j).fault? (f.name j) = some e ∧
        ((run es).scheduler r).outcome = some (.faulted e) := by
  obtain ⟨-, -, running, -⟩ | ⟨spent, -, state, b, e, first, error, outcome⟩ :=
    faulted_cases split faulty
  · rw [still] at running
    cases running
  · obtain ⟨c, wave, ret⟩ := List.mem_flatMap.1 (List.mem_of_find?_eq_some first)
    have hb : b ∈ t.returns := List.mem_flatMap.2 ⟨c, wave, ret⟩
    have fault : b.isFault = true := by rw [Return.isFault, error]; rfl
    obtain ⟨cs, last⟩ :=
      (tick_cases r es split).1.last_of_faulty wave (List.any_eq_true.2 ⟨b, ret, fault⟩)
    have here : t.waves[t.waves.length - 1]? = some c := by simp [last]
    refine ⟨state, b.job, ?_, e, ?_, outcome⟩
    · rw [TickRecord.launchedAt_eq here, ← (spent.1 c wave).mem_iff]
      exact List.mem_map_of_mem ret
    · rw [← follows.verdict b hb, ← follows.named b hb]
      exact error

/-- **What two runs through the same tick leave is the same**, but for who has been let go
already. -/
theorem same_places {ds' : List Event} {t t' : TickRecord} (spent : t.Over) (spent' : t'.Over)
    (exact : t.Exact) (exact' : t'.Exact)
    (tick : Underway (run pre) r verdicts t (run (pre ++ .poll r :: ds)))
    (tick' : Underway (run pre) r verdicts t' (run (pre ++ .poll r :: ds'))) :
    ((run (pre ++ .poll r :: ds')).scheduler r).registry =
        ((run (pre ++ .poll r :: ds)).scheduler r).registry ∧
      ∀ host host' held, Settles (run (pre ++ .poll r :: ds)) r host held →
        Settles (run (pre ++ .poll r :: ds')) r host' held →
          ∀ j, (run pre).forest.has j = true →
            (run (pre ++ .poll r :: ds' ++ [.sweep host'])).forest.node? j =
              (run (pre ++ .poll r :: ds ++ [.sweep host])).forest.node? j := by
  have detached := tick.follows.same_detached tick'.follows exact exact' spent spent'
    (tick'.registered.trans tick.registered.symm)
  have registry : ((run (pre ++ .poll r :: ds')).scheduler r).registry =
      ((run (pre ++ .poll r :: ds)).scheduler r).registry := by
    rw [tick'.registry, tick.registry]
    refine List.filter_congr fun j _ => decide_eq_decide.2 ?_
    rw [detached]
  refine ⟨registry, ?_⟩
  intro host host' held settles settles' j before
  have held₁ := held_run (pre ++ .poll r :: ds)
  have held₂ := held_run (pre ++ .poll r :: ds')
  rw [run_concat, run_concat]
  show ((run (pre ++ .poll r :: ds')).sweep host').forest.node? j =
    ((run (pre ++ .poll r :: ds)).sweep host).forest.node? j
  rw [forest_sweep, forest_sweep]
  refine tick.pruned.sweep_congr tick'.pruned (held_run pre).linked held₁.linked held₂.linked
    detached ?_ ?_ j before
  · intro x
    rw [settles.kept, settles'.kept, registry]
  · intro x kept
    rcases (settles.kept x).1 kept with foreign | registered
    · exact ⟨settles.there x foreign, settles'.there x foreign⟩
    · exact ⟨held₁.there r x (List.mem_append_left _ registered),
        held₂.there r x (List.mem_append_left _ (registry ▸ registered))⟩

/-- **Waves are levels, and the order of returns makes no difference.** The `k`-th wave of
an undisturbed tick launches the `k`-th level below the registry, in the forest as it is
when the tick starts; and once the tick is over, it has launched the levels down to the first
one with a fault in it, and nothing else. If there is a fault, the loop ends with one of the
last wave's. Any other way through the same tick launches the same in each wave, leaves the
same counters, the same registry and, when all has been let go that is not held, the same
name, parent and children of every job; and it comes to a fault if this one does. -/
theorem waves_are_levels (tick : Undisturbed r pre ds outside verdicts) :
    let f := (run pre).forest
    let registry := ((run pre).scheduler r).registry
    let left := run (pre ++ .poll r :: ds)
    ∃ t, (journal r (pre ++ .poll r :: ds)).ticks = (journal r pre).ticks ++ [t] ∧
      (∀ k < t.waves.length, ∀ j, j ∈ t.launchedAt k ↔ f.Level registry k j) ∧
      ((left.scheduler r).driver.tick? = none →
        (∀ k j, j ∈ t.launchedAt k ↔ f.Level registry k j ∧
          ∀ i < k, ∀ x, f.Level registry i x → (verdicts x).isFault = false) ∧
        (left.scheduler r).stats.jobsLastTick = t.launched.length ∧
        (left.scheduler r).stats.subCyclesLastTick = t.waves.length ∧
        (t.faulty = true → (left.scheduler r).state = .faulted ∧
          ∃ j ∈ t.launchedAt (t.waves.length - 1), ∃ e,
            (verdicts j).fault? (f.name j) = some e ∧
              (left.scheduler r).outcome = some (.faulted e)) ∧
        ∀ ds' outside', Undisturbed r pre ds' outside' verdicts →
          let left' := run (pre ++ .poll r :: ds')
          (left'.scheduler r).driver.tick? = none →
            ∃ t', (journal r (pre ++ .poll r :: ds')).ticks = (journal r pre).ticks ++ [t'] ∧
              (∀ k, (t'.launchedAt k).Perm (t.launchedAt k)) ∧
              (left'.scheduler r).stats.jobsLastTick = (left.scheduler r).stats.jobsLastTick ∧
              (left'.scheduler r).stats.subCyclesLastTick =
                (left.scheduler r).stats.subCyclesLastTick ∧
              t'.faulty = t.faulty ∧
              (left'.scheduler r).registry = (left.scheduler r).registry ∧
              ∀ host host' held, Settles left r host held → Settles left' r host' held →
                ∀ j, f.has j = true →
                  (run (pre ++ .poll r :: ds' ++ [.sweep host'])).forest.node? j =
                    (run (pre ++ .poll r :: ds ++ [.sweep host])).forest.node? j) := by
  intro f registry left
  obtain ⟨t, last, underway⟩ := underway_run tick
  have exact := (tick_cases r _ last).1
  have levels {k : Nat} (h : k < t.waves.length ∨ t.Over) (j : JobRef) :=
    underway.follows.mem_launchedAt_iff_level exact h j
  rw [underway.registered] at levels
  refine ⟨t, last, ?_, ?_⟩
  · intro k short j
    -- No wave is empty, and whoever is in it is below levels without a fault.
    obtain ⟨y, hy⟩ := exact.lt_length_iff.1 short
    have sound := ((levels (.inl short) y).1 hy).2
    rw [levels (.inl short)]
    exact and_iff_left sound
  · intro still
    have spent := over_of_still last still
    obtain ⟨jobs, subCycles⟩ := underway.counted still
    refine ⟨fun k => levels (.inr spent), jobs, subCycles,
      reported_of_last last still underway.follows, ?_⟩
    intro ds' outside' tick' left' still'
    obtain ⟨t', last', underway'⟩ := underway_run tick'
    have exact' := (tick_cases r _ last').1
    have spent' := over_of_still last' still'
    obtain ⟨jobs', subCycles'⟩ := underway'.counted still'
    have follows := underway.follows
    have follows' := underway'.follows
    have same := underway'.registered.trans underway.registered.symm
    obtain ⟨places, settled⟩ := same_places spent spent' exact exact' underway underway'
    refine ⟨t', last', ?_, ?_, ?_, ?_, places, settled⟩
    · exact follows.same_waves follows' exact exact' spent spent' same
    · rw [jobs', jobs]
      exact (follows.same_launched follows' exact exact' spent spent' same).length_eq
    · rw [subCycles', subCycles]
      exact follows.same_length follows' exact exact' spent spent' same
    · exact follows.same_faulty follows' exact exact' spent spent' same

/-- A forest in which a job is registered that is also below another: of `root` and
`nested` in the registry, `root` is the parent of `left` and `right`, `left` of `nested`,
`nested` of `leaf` and `right` of `cut`. The next wake-up starts a tick. -/
def nestedRun : List Event :=
  [.newJob "root", .newJob "left", .newJob "right", .newJob "nested", .newJob "leaf",
    .newJob "cut", .attach 0 1, .attach 0 2, .attach 1 3, .attach 3 4, .attach 2 5,
    .newScheduler ⟨"loop"⟩ .zero .zero, .schedule 0 0, .schedule 0 3,
    .start 0 (.script [.reading ⟨0⟩])]

/-- The two that are registered ask to leave, and the two below the first make faults. -/
def nestedVerdicts : JobRef → Verdict
  | 0 | 3 => .outcome .detach
  | 1 => .outcome .abort
  | 2 => .panicked ⟨some "boom"⟩
  | _ => .outcome .resume

/-- From outside `left` is held, and the scheduler. -/
def leftHeld : Holdings := { jobs := [1], schedulers := [0] }

/-- The steps return in the order in which they were launched, and `root` is let go as soon
as nothing holds it. -/
def promptReturns : List Event :=
  [.returned 0 0 (nestedVerdicts 0), .returned 0 3 (nestedVerdicts 3),
    .sweep leftHeld, .returned 0 1 (nestedVerdicts 1),
    .returned 0 2 (nestedVerdicts 2), .returned 0 4 (nestedVerdicts 4)]

/-- They return the other way round, and nobody is let go. -/
def lateReturns : List Event :=
  [.returned 0 3 (nestedVerdicts 3), .returned 0 0 (nestedVerdicts 0),
    .returned 0 4 (nestedVerdicts 4), .returned 0 2 (nestedVerdicts 2),
    .returned 0 1 (nestedVerdicts 1)]

theorem undisturbed_promptReturns : Undisturbed 0 nestedRun promptReturns [1] nestedVerdicts where
  starts := by decide
  held := by decide
  calm := ⟨.returned 0, .returned 3, .sweep _ (by decide) (by decide), .returned 1, .returned 2,
    .returned 4, trivial⟩

theorem undisturbed_lateReturns : Undisturbed 0 nestedRun lateReturns [1] nestedVerdicts where
  starts := by decide
  held := by decide
  calm := ⟨.returned 3, .returned 0, .returned 4, .returned 2, .returned 1, trivial⟩

theorem settles_promptReturns :
    Settles (run (nestedRun ++ .poll 0 :: promptReturns)) 0 leftHeld [1] where
  there := by decide
  kept j := by
    have kept : (run (nestedRun ++ .poll 0 :: promptReturns)).kept leftHeld = [1, 3] := by
      decide
    have registry : ((run (nestedRun ++ .poll 0 :: promptReturns)).scheduler 0).registry = [3] := by
      decide
    rw [kept, registry, ← List.mem_append]
    rfl

theorem settles_lateReturns :
    Settles (run (nestedRun ++ .poll 0 :: lateReturns)) 0 leftHeld [1] where
  there := by decide
  kept j := by
    have kept : (run (nestedRun ++ .poll 0 :: lateReturns)).kept leftHeld = [1, 3] := by
      decide
    have registry : ((run (nestedRun ++ .poll 0 :: lateReturns)).scheduler 0).registry = [3] := by
      decide
    rw [kept, registry, ← List.mem_append]
    rfl

/-- Either way there are two levels, and `cut` is not reached. The faults that are reported
differ. What is left is the same: `nested` stays registered, and `left` has lost its parent
and its child. -/
theorem waves_are_levels_of_nestedRun :
    (∃ t, (journal 0 (nestedRun ++ .poll 0 :: promptReturns)).ticks =
        (journal 0 nestedRun).ticks ++ [t] ∧ t.waves.length = 2 ∧
      (∀ k j, j ∈ t.launchedAt k ↔ (run nestedRun).forest.Level [0, 3] k j ∧
        ∀ i < k, ∀ x, (run nestedRun).forest.Level [0, 3] i x →
          (nestedVerdicts x).isFault = false) ∧
      ∃ t', (journal 0 (nestedRun ++ .poll 0 :: lateReturns)).ticks =
          (journal 0 nestedRun).ticks ++ [t'] ∧
        ∀ k, (t'.launchedAt k).Perm (t.launchedAt k)) ∧
      ((run (nestedRun ++ .poll 0 :: promptReturns)).scheduler 0).outcome =
        some (.faulted (.jobAborted "left")) ∧
      ((run (nestedRun ++ .poll 0 :: lateReturns)).scheduler 0).outcome =
        some (.faulted (.jobPanicked "right" "boom")) ∧
      ((run (nestedRun ++ .poll 0 :: lateReturns)).scheduler 0).registry = [3] ∧
      (run (nestedRun ++ .poll 0 :: lateReturns ++ [.sweep leftHeld])).forest.node? 1 =
        some { job := 1, name := "left" } := by
  have outcome : ((run (nestedRun ++ .poll 0 :: promptReturns)).scheduler 0).outcome =
      some (.faulted (.jobAborted "left")) := by
    decide
  have outcome' : ((run (nestedRun ++ .poll 0 :: lateReturns)).scheduler 0).outcome =
      some (.faulted (.jobPanicked "right" "boom")) := by
    decide
  obtain ⟨t, last, -, whenOver⟩ := waves_are_levels undisturbed_promptReturns
  obtain ⟨levels, -, subCycles, -, other⟩ := whenOver (by decide)
  obtain ⟨t', last', waves, -, -, -, registry, settled⟩ :=
    other lateReturns [1] undisturbed_lateReturns (by decide)
  have two : t.waves.length = 2 := by
    rw [← subCycles]
    decide
  refine ⟨⟨t, last, two, levels, t', last', waves⟩, outcome, outcome', ?_, ?_⟩
  · rw [registry]
    decide
  · rw [settled _ _ [1] settles_promptReturns settles_lateReturns 1 (by decide)]
    decide

end FrameLoop.World

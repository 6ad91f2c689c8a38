import FrameLoop.Proofs.Errors
import FrameLoop.Proofs.Wakeups

/-!
# The source lives as long as the loop

A trigger tells its holder whether anybody still listens. Once a loop has been started on
a feed, that is the same question as whether the loop is running or stopping
(`source_lives_with_loop`): as long as it is, readings can be fired, and when it has ended
none can, whatever ended it.

The end of a loop is one event, at which its driver goes. So there is no moment at which
somebody knows the outcome and can still queue a wake-up, and what was queued at the end
is gone without having been evaluated. `Attends` has the two ways in which a loop may stand
to the feed on which it was started, and `Shut` says that a closed feed stays closed.

A start that is refused lets go of the source that it was given, and of no other.

**What this does not say.** Before the start a feed is open, too: its source listens,
though no loop does. And what is fired while the loop lives may yet be lost at its end.
-/

namespace FrameLoop.World

variable {w : World} {r : SchedulerRef} {q : FeedRef} {e : Event} {began past es : List Event}

/-! ## Starting -/

/-- **A start that is not refused hears its feed.** -/
theorem hears_of_starts (can : e.canHappen (run es) = true)
    (idle : ((run es).scheduler r).state = .idle)
    (given : (run es).starts r e = some (.manual q)) : (run (es ++ [e])).hears r q := by
  rw [hears, driver_of_starts can idle given]
  rfl

/-! ## A feed that is closed -/

/-- **A feed that is there, closed and empty.** -/
structure Shut (w : World) (q : FeedRef) : Prop where
  inside : q < w.feeds.length
  deaf : (w.feed q).listening = false
  empty : (w.feed q).queued = []

/-- **A closed feed stays so.** -/
theorem Shut.step (shut : w.Shut q) (sound : ∀ r, (w.scheduler r).Sound) (wired : w.Wired)
    (e : Event) : (w.step e).2.Shut q := by
  have inside := Nat.lt_of_lt_of_le shut.inside (length_feeds_step w e)
  cases lineTurn_step sound wired e q with
  | keeps _ _ queued listening =>
    exact ⟨inside, listening.trans shut.deaf, queued.trans shut.empty⟩
  | made new => exact absurd shut.inside (Nat.not_lt.2 new)
  | fired _ _ _ line =>
    have lost : (w.step e).2.feed q = w.feed q := by
      rw [line, Feed.fire, shut.deaf]
      rfl
    exact ⟨inside, lost ▸ shut.deaf, lost ▸ shut.empty⟩
  | taken _ heard =>
    have open_ := wired.open_ q _ heard
    rw [shut.deaf] at open_
    cases open_
  | closed _ _ line => exact ⟨inside, by rw [line]; rfl, by rw [line]; rfl⟩

/-- **A loop that ends closes the feed that it has heard**, and empties it. -/
theorem shut_of_ended (sound : ∀ r, (w.scheduler r).Sound) (wired : w.Wired)
    (heard : w.hears r q) (ended : ((w.step e).2.scheduler r).driver = .ended) :
    (w.step e).2.Shut q := by
  have silent : ¬ (w.step e).2.hears r q := by
    rw [hears, ended]
    exact (Option.some_ne_none q).symm
  have here := length_of_listening (wired.open_ q r heard)
  cases lineTurn_step sound wired e q with
  | keeps _ _ _ _ _ ears => exact absurd (ears r heard) silent
  | made new => exact absurd here (Nat.not_lt.2 new)
  | fired _ _ _ _ ears => exact absurd (ears r heard) silent
  | taken _ _ _ _ _ ears => exact absurd (ears r heard) silent
  | closed _ _ line =>
    exact ⟨Nat.lt_of_lt_of_le here (length_feeds_step w e), by rw [line]; rfl, by rw [line]; rfl⟩

/-! ## A loop and its feed -/

/-- **A loop has ended after `past`**: its driver is gone, the feed is closed, and nothing
has been evaluated since. -/
structure Over (r : SchedulerRef) (q : FeedRef) (past es : List Event) : Prop where
  ended : ((run es).scheduler r).driver = .ended
  shut : (run es).Shut q
  unread : evaluations r es = evaluations r past

theorem Over.concat (h : Over r q past es) (e : Event) : Over r q past (es ++ [e]) := by
  have sound := sound_run es
  have gone := (turn_step (sound r) e).ended (sound r) h.ended
  have unread := evaluations_of_untaken (untaken_of_ended (sound r) gone)
  refine ⟨?_, ?_, unread.trans h.unread⟩
  · rwa [run_concat]
  · rw [run_concat]
    exact h.shut.step sound (wired_run es) e

/-- **It stays so**, from the event at which the driver goes. -/
theorem over_run {d : Event} (heard : (run past).hears r q)
    (ended : ((run (past ++ [d])).scheduler r).driver = .ended) (rest : List Event) :
    Over r q past (past ++ d :: rest) := by
  induction rest using List.reverseRecOn with
  | nil =>
    refine ⟨ended, ?_, ?_⟩
    · rw [run_concat] at ended ⊢
      exact shut_of_ended (sound_run past) (wired_run past) heard ended
    · rw [run_concat] at ended
      exact evaluations_of_untaken (untaken_of_ended (sound_run past r) ended)
  | append_singleton rest e ih =>
    rw [← List.cons_append, ← List.append_assoc]
    exact ih.concat e

/-- **How a loop stands to the feed on which it was started**: it hears it, or has ended,
at one event. -/
inductive Attends (r : SchedulerRef) (q : FeedRef) (began es : List Event) : Prop where
  | hears (heard : (run es).hears r q)
  | ended {past rest : List Event} {d : Event} (split : es = past ++ d :: rest)
    (after : began <+: past) (heard : (run past).hears r q)
    (ended : ((run (past ++ [d])).scheduler r).driver = .ended)

/-- **After every run.** -/
theorem attends_run (early : began <+: es) (started : (run began).hears r q) :
    Attends r q began es := by
  obtain ⟨more, rfl⟩ := early
  induction more using List.reverseRecOn with
  | nil =>
    rw [List.append_nil]
    exact .hears started
  | append_singleton more e ih =>
    rw [← List.append_assoc]
    cases ih with
    | hears heard =>
      rcases hears_step (sound_run _ r) e heard with goesOn | ⟨-, ended⟩
      · exact .hears (by rwa [run_concat])
      · rw [← run_concat] at ended
        have split : began ++ more ++ [e] = (began ++ more) ++ e :: [] := rfl
        exact .ended split (List.prefix_append began more) heard ended
    | @ended past rest d split after heard ended =>
      have longer : began ++ more ++ [e] = past ++ d :: (rest ++ [e]) := by
        rw [split, List.append_assoc, List.cons_append]
      exact .ended longer after heard ended

/-- While a loop hears a feed it has an active driver. -/
theorem active_of_hears (heard : w.hears r q) : (w.scheduler r).driver.isActive = true := by
  unfold hears Driver.feed? at heard
  obtain ⟨loop, has, -⟩ := Option.bind_eq_some_iff.1 heard
  rw [Driver.isActive, has]
  rfl

/-- **A trigger is connected exactly while the loop is running or stopping.** -/
theorem Attends.listening (h : Attends r q began es) :
    ((run es).feed q).listening = true ↔
      ((run es).scheduler r).state = .running ∨ ((run es).scheduler r).state = .stopping := by
  cases h with
  | hears heard =>
    exact iff_of_true ((wired_run es).open_ q r heard)
      ((sound_run es r).of_active (active_of_hears heard)).1
  | @ended past rest d split _ heard ended =>
    have gone := over_run heard ended rest
    rw [← split] at gone
    have terminal := (sound_run es r).terminal_of_ended gone.ended
    refine iff_of_false (by rw [gone.shut.deaf]; exact Bool.false_ne_true) ?_
    rintro (state | state) <;> rw [state] at terminal <;> cases terminal

/-- Nobody hears a closed feed. -/
theorem not_hears_of_shut (shut : (run es).Shut q) (k : SchedulerRef) : ¬ (run es).hears k q := by
  intro hears
  have open_ := (wired_run es).open_ q k hears
  rw [shut.deaf] at open_
  cases open_

/-- **A loop whose outcome is settled has ended at one event**, and is over from there on. -/
theorem Attends.settled (h : Attends r q began es)
    (settled : ((run es).scheduler r).outcome.isSome = true) :
    ∃ past d rest, es = past ++ d :: rest ∧ began <+: past ∧ (run past).hears r q ∧
      ((run (past ++ [d])).scheduler r).driver = .ended ∧ ∀ more, Over r q past (es ++ more) := by
  cases h with
  | hears heard =>
    rw [((sound_run es r).of_active (active_of_hears heard)).2] at settled
    cases settled
  | @ended past rest d split after heard ended =>
    refine ⟨past, d, rest, split, after, heard, ended, fun more => ?_⟩
    rw [split, List.append_assoc]
    exact over_run heard ended (rest ++ more)

/-! ## A start that is refused -/

/-- **A start that is refused lets go of the source that it was given.** -/
theorem Refused.dropSource {k : SchedulerRef} {source : Source} (h : Refused w e .alreadyStarted)
    (can : e.canHappen w = true) (given : w.starts k e = some source) :
    (w.step e).2 = w.dropSource source := by
  have step : (w.step e).2 = (w.act e).2 := congrArg Prod.snd (if_pos can)
  rw [step]
  cases h with
  | started busy =>
    obtain ⟨-, same⟩ := Option.ite_none_right_eq_some.1 given
    cases same
    rw [act, start_of_busy busy]
  | engineStarted busy =>
    obtain ⟨-, same⟩ := Option.ite_none_right_eq_some.1 given
    cases same
    rw [act, startEngine_of_busy busy]

/-- A source that can still be given is that of no loop. -/
theorem feed_ne_of_given (can : e.canHappen w = true) {k : SchedulerRef} {source : Source}
    (given : w.starts k e = some source) (heard : w.hears r q) : source.feed? ≠ some q := by
  have free : w.canGive source = true := by
    cases e with
    | start n other =>
      obtain ⟨-, same⟩ := Option.ite_none_right_eq_some.1 given
      cases same
      exact (Bool.and_eq_true _ _ ▸ can).2
    | startEngine n other =>
      obtain ⟨-, same⟩ := Option.ite_none_right_eq_some.1 given
      cases same
      exact (Bool.and_eq_true _ _ ▸ can).2
    | _ => cases given
  intro listens
  cases source with
  | manual p =>
    cases listens
    exact (free_of_canGive free).2 r heard
  | interval i | script offers => cases listens

/-- **A start that is refused closes the feed that it was given**, and no other: whoever hears
another goes on to hear it. -/
theorem feeds_of_refusal {k : SchedulerRef} {source : Source} (can : e.canHappen (run es) = true)
    (given : (run es).starts k e = some source)
    (refusal : (run es).refusal e = some .alreadyStarted) :
    (run (es ++ [e])).schedulers = (run es).schedulers ∧
      (∀ p, (run (es ++ [e])).feed p =
        if source.feed? = some p then ((run es).feed p).close else (run es).feed p) ∧
      ((run es).hears r q → source.feed? ≠ some q ∧ (run (es ++ [e])).hears r q ∧
        ((run (es ++ [e])).feed q).listening = true) := by
  have refused := refused_of_refusal (held_run es).linked (acyclic_run es) refusal
  rw [run_concat, refused.dropSource can given]
  have feeds := feed_dropSource (run es) source
  refine ⟨schedulers_dropSource _ _, feeds, fun heard => ?_⟩
  have other := feed_ne_of_given can given heard
  refine ⟨other, ?_, ?_⟩
  · rwa [hears, scheduler_congr (schedulers_dropSource _ source)]
  · rw [feeds, if_neg other]
    exact (wired_run es).open_ q r heard

/-! ## The whole -/

/-- **The wake-up source lives exactly as long as the loop.** Of a scheduler whose start on
a feed was not refused, at every later time:

* the triggers are connected, and a reading can be fired, exactly while the scheduler is
  running or stopping;
* when its outcome is settled, nothing can be fired any more, now or later, and nobody
  hears the feed, which is empty. The loop has ended at one event: what had been fired by
  then was evaluated or queued, and of what was queued nothing is ever evaluated;
* a start that is refused closes the feed of the source that it was given and no other,
  and changes no scheduler. A loop that is in use goes on to hear its own. -/
theorem source_lives_with_loop {pre : List Event} (can : e.canHappen (run pre) = true)
    (idle : ((run pre).scheduler r).state = .idle)
    (given : (run pre).starts r e = some (.manual q)) (later : pre ++ [e] <+: es) :
    (((run es).feed q).listening = true ↔
        ((run es).scheduler r).state = .running ∨ ((run es).scheduler r).state = .stopping) ∧
      (∀ t, ((run es).fire q t).1 = true ↔
        ((run es).scheduler r).state = .running ∨ ((run es).scheduler r).state = .stopping) ∧
      (((run es).scheduler r).outcome.isSome = true →
        (∀ more t, ((run (es ++ more)).fire q t).1 = false) ∧
        (∀ k, ¬ (run es).hears k q) ∧ ((run es).feed q).queued = [] ∧
        ∃ past d rest, es = past ++ d :: rest ∧ pre ++ [e] <+: past ∧
          ((run past).scheduler r).outcome = none ∧
          ((run (past ++ [d])).scheduler r).outcome.isSome = true ∧
          fired q past = (evaluations r past).map (·.1) ++ ((run past).feed q).queued ∧
          ∀ more, evaluations r (es ++ more) = evaluations r past) ∧
      ∀ d k source, d.canHappen (run es) = true → (run es).starts k d = some source →
        (run es).refusal d = some .alreadyStarted →
          (run (es ++ [d])).schedulers = (run es).schedulers ∧
          (∀ p, (run (es ++ [d])).feed p =
            if source.feed? = some p then ((run es).feed p).close else (run es).feed p) ∧
          ((run es).hears r q → source.feed? ≠ some q ∧ (run (es ++ [d])).hears r q ∧
            ((run (es ++ [d])).feed q).listening = true) := by
  have started := hears_of_starts can idle given
  have here : Attends r q (pre ++ [e]) es := attends_run later started
  have fires (w : World) (t : Instant) : (w.fire q t).1 = (w.feed q).listening :=
    Feed.fire_fst _ t
  refine ⟨here.listening, ?_, ?_, ?_⟩
  · intro t
    rw [fires]
    exact here.listening
  · intro settled
    obtain ⟨past, d, rest, split, after, heard, ended, gone⟩ := here.settled settled
    have now : Over r q past es := List.append_nil es ▸ gone []
    refine ⟨fun more t => ?_, not_hears_of_shut now.shut, now.shut.empty, past, d, rest, split,
      after, ?_, ?_, (fed_run q past).heard r heard, fun more => (gone more).unread⟩
    · rw [fires]
      exact (gone more).shut.deaf
    · exact ((sound_run past r).of_active (active_of_hears heard)).2
    · have terminal := (sound_run _ r).terminal_of_ended ended
      rw [Option.isSome_iff_ne_none, Ne, (sound_run _ r).outcome.1, terminal]
      decide
  · exact fun d k source can given refusal => feeds_of_refusal can given refusal

/-- The beginning of a run: a scheduler with one job, and two feeds. -/
def openedStart : List Event :=
  [.newJob "worker", .newScheduler ⟨"loop"⟩ .zero .zero, .newFeed, .newFeed, .schedule 0 0]

/-- The loop is started on the first feed, and a stop is asked for during its first tick.
Two readings are queued. -/
def stoppingRun : List Event :=
  openedStart ++ [.start 0 (.manual 0), .fire 0 ⟨0⟩, .fire 0 ⟨1⟩, .poll 0, .signalStop 0,
    .fire 0 ⟨2⟩]

/-- The tick drains, and the driver looks up. -/
def stoppedRun : List Event := stoppingRun ++ [.returned 0 0 (.outcome .resume), .poll 0]

/-- While the loop is stopping its trigger is connected, and a second start closes the other
feed only. When it has stopped the trigger is not connected, and two of three readings are
lost. -/
theorem source_lives_with_loop_of_stoppedRun :
    (∀ t, ((run stoppingRun).fire 0 t).1 = true) ∧
      ((run (stoppingRun ++ [.start 0 (.manual 1)])).feed 0).listening = true ∧
      ((run (stoppingRun ++ [.start 0 (.manual 1)])).feed 1).listening = false ∧
      fired 0 stoppedRun = [⟨0⟩, ⟨1⟩, ⟨2⟩] ∧
      (∀ more t, ((run (stoppedRun ++ more)).fire 0 t).1 = false) ∧
      ∀ more, (evaluations 0 (stoppedRun ++ more)).length = 1 := by
  have can : (Event.start 0 (.manual 0)).canHappen (run openedStart) = true := by decide
  have idle : ((run openedStart).scheduler 0).state = .idle := by decide
  have given : (run openedStart).starts 0 (.start 0 (.manual 0)) = some (.manual 0) :=
    rfl
  have early : openedStart ++ [.start 0 (.manual 0)] <+: stoppingRun :=
    ⟨[.fire 0 ⟨0⟩, .fire 0 ⟨1⟩, .poll 0, .signalStop 0, .fire 0 ⟨2⟩], rfl⟩
  have late : openedStart ++ [.start 0 (.manual 0)] <+: stoppedRun :=
    early.trans (List.prefix_append _ _)
  obtain ⟨-, fires, -, refused⟩ := source_lives_with_loop can idle given early
  obtain ⟨-, -, ended, -⟩ := source_lives_with_loop can idle given late
  have stopping : ((run stoppingRun).scheduler 0).state = .stopping := by decide
  have hears : (run stoppingRun).hears 0 0 := by decide
  obtain ⟨-, feeds, kept⟩ :=
    refused (.start 0 (.manual 1)) 0 (.manual 1) (by decide) rfl (by decide)
  obtain ⟨dead, -, -, past, d, rest, -, -, -, -, -, unread⟩ := ended (by decide)
  refine ⟨?_, (kept hears).2.2, ?_, by decide, dead, ?_⟩
  · intro t
    exact (fires t).2 (.inr stopping)
  · have second : (Source.manual 1).feed? = some 1 := rfl
    rw [feeds 1, if_pos second]
    rfl
  · intro more
    have now := unread []
    rw [List.append_nil] at now
    rw [unread more, ← now]
    decide

end FrameLoop.World

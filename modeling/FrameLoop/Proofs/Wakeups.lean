import FrameLoop.Proofs.Wakeups.Line
import Mathlib.Data.List.Infix

/-!
# Wake-ups and ticks

A loop that listens to a feed gets there what the holders of triggers fire into it,
whenever they do: before the start, while a tick is in flight, faster than the loop can
follow. This module compares three lists. What has been fired into the feed
(`World.fired`) is what the loop has evaluated and then what is still queued, in this
order, as long as it listens (`fed_run`); and what it has evaluated, folded through one
pacer, says how many ticks there have been (`paced_run`). When the loop ends, what was
queued is lost, unless it ends because there is nothing more to come: then all has been
evaluated (`served_run`).

So neither the duration of steps nor the order in which wake-ups and ticks alternate
has a part in how many ticks there are (`ticks_refine_pacer`).

**What this does not say.** That a driver looks up at all is for the host to see to.
What is shown is that a look-up makes the next step: it takes the oldest reading, or
ends the loop if there can be none.
-/

namespace FrameLoop.World

variable {w : World} {r : SchedulerRef} {q : FeedRef} {e : Event} {es : List Event}

/-- **The readings that are fired into a feed**, in order. -/
def fired (q : FeedRef) (es : List Event) : List Instant := record (firing · q) es

theorem fired_concat (q : FeedRef) (es : List Event) (e : Event) :
    fired q (es ++ [e]) = fired q es ++ ((run es).firing q e).toList :=
  record_concat _ es e

/-! ## While a feed is open -/

/-- **What was fired into a feed is evaluated or queued**: queued, as long as nobody
hears the feed, and from then on first what has been evaluated by the loop that does.
-/
structure Fed (w : World) (q : FeedRef) (all : List Instant)
    (seen : SchedulerRef → List (Instant × Duration)) : Prop where
  unborn : w.feeds.length ≤ q → all = []
  unheard : (w.feed q).listening = true → (∀ r, ¬ w.hears r q) → all = (w.feed q).queued
  heard : ∀ r, w.hears r q → all = (seen r).map (·.1) ++ (w.feed q).queued

theorem fired_of_unfired (unfired : (run es).firing q e = none) :
    fired q (es ++ [e]) = fired q es :=
  record_of_none unfired

/-- The loop that hears a feed after an event, and what was fired before it. -/
theorem Fed.before (h : Fed (run es) q (fired q es) (evaluations · es))
    (hears : (run (es ++ [e])).hears r q) :
    ((run es).feed q).listening = true ∧
      fired q es = (evaluations r es).map (·.1) ++ ((run es).feed q).queued ∧
        ((run es).hears r q ∨
          (∀ k, ¬ (run es).hears k q) ∧ (run es).evaluation r e = none) := by
  rw [run_concat] at hears
  rcases hears_of_step (sound_run es r) e hears with before | ⟨-, given, idle, untaken⟩
  · exact ⟨(wired_run es).open_ q r before, h.heard r before, .inl before⟩
  · -- The loop has just been started on the feed, and has evaluated nothing yet.
    obtain ⟨listening, free⟩ := free_of_canGive given
    refine ⟨listening, ?_, .inr ⟨free, untaken⟩⟩
    rw [(paced_run r es).idle idle]
    exact h.unheard listening free

/-- A feed that is new after an event has had nothing fired into it. -/
theorem Fed.unborn_concat (h : Fed (run es) q (fired q es) (evaluations · es))
    (unfired : (run es).firing q e = none) (new : (run (es ++ [e])).feeds.length ≤ q) :
    fired q (es ++ [e]) = [] := by
  have grows : (run es).feeds.length ≤ (run (es ++ [e])).feeds.length :=
    run_concat es e ▸ length_feeds_step (run es) e
  rw [fired_of_unfired unfired]
  exact h.unborn (Nat.le_trans grows new)

/-- A feed that is left alone. -/
theorem Fed.keeps (h : Fed (run es) q (fired q es) (evaluations · es))
    (unfired : (run es).firing q e = none)
    (untaken : ∀ r, (run es).hears r q → (run es).evaluation r e = none)
    (queued : ((run (es ++ [e])).feed q).queued = ((run es).feed q).queued)
    (listening : ((run (es ++ [e])).feed q).listening = ((run es).feed q).listening)
    (ears : ∀ r, (run es).hears r q → (run (es ++ [e])).hears r q) :
    Fed (run (es ++ [e])) q (fired q (es ++ [e])) (evaluations · (es ++ [e])) where
  unborn := h.unborn_concat unfired
  unheard open_ free := by
    rw [fired_of_unfired unfired, queued]
    exact h.unheard (listening ▸ open_) fun k heard => free k (ears k heard)
  heard r hears := by
    obtain ⟨-, before, whom⟩ := h.before hears
    have none : (run es).evaluation r e = Option.none := by
      rcases whom with heard | ⟨-, none⟩
      · exact untaken r heard
      · exact none
    rw [fired_of_unfired unfired, evaluations_of_untaken none, queued]
    exact before

/-- **What is fired is queued last.** -/
theorem Fed.fires {t : Instant} (h : Fed (run es) q (fired q es) (evaluations · es))
    (firing : (run es).firing q e = some t) (held : 0 < ((run es).feed q).triggers)
    (untaken : ∀ r, (run es).evaluation r e = none)
    (line : (run (es ++ [e])).feed q = (((run es).feed q).fire t).2)
    (ears : ∀ r, (run es).hears r q → (run (es ++ [e])).hears r q) :
    Fed (run (es ++ [e])) q (fired q (es ++ [e])) (evaluations · (es ++ [e])) := by
  have grown : World.fired q (es ++ [e]) = World.fired q es ++ [t] := by
    rw [fired_concat, firing]
    rfl
  have put (listening : ((run es).feed q).listening = true) :
      ((run (es ++ [e])).feed q).queued = ((run es).feed q).queued ++ [t] := by
    rw [line, Feed.queued_fire t listening]
  refine ⟨fun new => ?_, fun open_ free => ?_, fun r hears => ?_⟩
  · have grows := length_feeds_step (run es) e
    rw [← run_concat] at grows
    rw [feed_of_length_le (Nat.le_trans grows new)] at held
    cases held
  · rw [line, Feed.listening_fire] at open_
    rw [grown, put open_, h.unheard open_ fun k heard => free k (ears k heard)]
  · obtain ⟨listening, before, -⟩ := h.before hears
    rw [grown, put listening, evaluations_of_untaken (untaken r), before, List.append_assoc]

/-- **What is taken is the oldest that is queued**, and the loop that hears the feed evaluates
it. -/
theorem Fed.takes {k : SchedulerRef} {t : Instant} {d : Duration} {rest : List Instant}
    (h : Fed (run es) q (fired q es) (evaluations · es))
    (unfired : (run es).firing q e = none) (heard : (run es).hears k q)
    (taken : (run es).evaluation k e = some (t, d))
    (queued : ((run es).feed q).queued = t :: rest)
    (left : ((run (es ++ [e])).feed q).queued = rest)
    (ears : ∀ r, (run es).hears r q → (run (es ++ [e])).hears r q) :
    Fed (run (es ++ [e])) q (fired q (es ++ [e])) (evaluations · (es ++ [e])) where
  unborn := h.unborn_concat unfired
  unheard _ free := absurd (ears k heard) (free k)
  heard r hears := by
    obtain ⟨-, before, whom⟩ := h.before hears
    obtain rfl : r = k := by
      rcases whom with same | ⟨free, -⟩
      · exact (wired_run es).unique q r k same heard
      · exact absurd heard (free k)
    rw [fired_of_unfired unfired, evaluations_concat, taken, left, before, queued]
    simp

theorem Fed.concat (h : Fed (run es) q (fired q es) (evaluations · es)) (e : Event) :
    Fed (run (es ++ [e])) q (fired q (es ++ [e])) (evaluations · (es ++ [e])) := by
  have turn := lineTurn_step (sound_run es) (wired_run es) e q
  rw [← run_concat] at turn
  cases turn with
  | keeps unfired untaken queued listening _ ears =>
    exact h.keeps unfired untaken queued listening ears
  | made new unfired queued =>
    refine ⟨h.unborn_concat unfired, fun _ _ => ?_, fun r hears => ?_⟩
    · rw [fired_of_unfired unfired, queued]
      exact h.unborn new
    · exact absurd (length_of_listening (h.before hears).1) (Nat.not_lt.2 new)
  | fired firing held untaken line ears => exact h.fires firing held untaken line ears
  | taken unfired heard taken queued line ears =>
    exact h.takes unfired heard taken queued (congrArg Feed.queued line) ears
  | closed unfired _ line deaf =>
    refine ⟨h.unborn_concat unfired, fun open_ => ?_, fun r hears => absurd hears (deaf r)⟩
    rw [line] at open_
    cases open_

/-- **After every run what was fired is evaluated or queued.** -/
theorem fed_run (q : FeedRef) (es : List Event) :
    Fed (run es) q (fired q es) (evaluations · es) := by
  induction es using List.reverseRecOn with
  | nil =>
    refine ⟨fun _ => rfl, ?_, ?_⟩
    · intro listening
      cases listening
    · intro r heard
      cases heard
  | append_singleton es e ih => exact ih.concat e

/-! ## The end -/

/-- All triggers of a feed have been dropped. -/
def spent (w : World) (q : FeedRef) : Prop := q < w.feeds.length ∧ (w.feed q).triggers = 0

/-- Nobody has asked a running loop to stop. -/
def Unasked (r : SchedulerRef) (es : List Event) : Prop :=
  ∀ a, a <+: es → ((run a).scheduler r).state ≠ .stopping

theorem Unasked.init (h : Unasked r (es ++ [e])) : Unasked r es :=
  fun a early => h a (early.trans (List.prefix_append es [e]))

/-- **A dropped trigger does not come back**, so nothing more is fired. -/
theorem spent_step (sound : ∀ r, (w.scheduler r).Sound) (wired : w.Wired) (e : Event)
    (h : w.spent q) : w.firing q e = none ∧ (w.step e).2.spent q := by
  obtain ⟨inside, dry⟩ := h
  have inside' : q < (w.step e).2.feeds.length :=
    Nat.lt_of_lt_of_le inside (length_feeds_step w e)
  cases lineTurn_step sound wired e q with
  | keeps unfired _ _ _ spent => exact ⟨unfired, inside', spent inside dry⟩
  | made new => exact absurd inside (Nat.not_lt.2 new)
  | fired _ held => exact absurd dry (Nat.ne_of_gt held)
  | taken unfired _ _ _ line => exact ⟨unfired, inside', by rw [line]; exact dry⟩
  | closed unfired _ line => exact ⟨unfired, inside', by rw [line]; exact dry⟩

/-- **A loop that ends unasked and without a fault has nothing more to come.** -/
theorem exhausted_of_stopped (sound : (w.scheduler r).Sound) (heard : w.hears r q)
    (unasked : (w.scheduler r).state ≠ .stopping)
    (ended : ((w.step e).2.scheduler r).driver = .ended)
    (stopped : ((w.step e).2.scheduler r).state = .stopped) :
    (w.feed q).queued = [] ∧ (w.feed q).triggers = 0 := by
  cases loopTurn_step sound e with
  | keeps _ gear =>
    rw [hears, Driver.feed?_eq_gear?, ← gear, ended] at heard
    cases heard
  | starts _ idle =>
    rw [hears, (sound.of_idle idle).1] at heard
    cases heard
  | takes _ _ _ gear =>
    rw [ended] at gear
    cases gear
  | ends _ active _ cause =>
    rcases cause with faulted | ⟨loop, exit, -, waiting, gives⟩
    · rw [faulted] at stopped
      cases stopped
    · have running : (w.scheduler r).state = .running :=
        (sound.of_active active).1.resolve_right unasked
      rw [exit?, sound.seesStop_of_running running, if_neg Bool.false_ne_true,
        offer_of_hears heard waiting, Feed.next] at gives
      cases queued : (w.feed q).queued with
      | nil =>
        refine ⟨rfl, ?_⟩
        by_contra held
        rw [queued] at gives
        dsimp only at gives
        rw [if_neg held] at gives
        cases gives
      | cons t rest =>
        rw [queued] at gives
        cases gives

/-- **A loop that has been started on a feed** hears it, or has ended. Then it has
evaluated the first of what was fired, and all of it if it has ended unasked and
without a fault. -/
inductive Served (r : SchedulerRef) (q : FeedRef) (es : List Event) : Prop where
  | hears (heard : (run es).hears r q)
  | ended (driver : ((run es).scheduler r).driver = .ended)
    (first : (evaluations r es).map (·.1) <+: fired q es)
    (all : Unasked r es → ((run es).scheduler r).state = .stopped →
      (run es).spent q ∧ (evaluations r es).map (·.1) = fired q es)

/-- When a loop ends what is queued is lost. It is nothing if no one has asked. -/
theorem served_of_ended (heard : (run es).hears r q) (driven : e.drives r = true)
    (ended : (((run es).step e).2.scheduler r).driver = .ended) : Served r q (es ++ [e]) := by
  have sound := sound_run es
  have untaken := untaken_of_ended (sound r) ended
  have unfired : (run es).firing q e = none := by
    cases e with
    | fire => cases driven
    | _ => rfl
  have whole := (fed_run q es).heard r heard
  refine .ended (by rwa [run_concat]) ?_ ?_
  · rw [evaluations_of_untaken untaken, fired_of_unfired unfired, whole]
    exact List.prefix_append _ _
  · intro unasked stopped
    rw [run_concat] at stopped
    obtain ⟨nothing, dry⟩ := exhausted_of_stopped (sound r) heard
      (unasked es (List.prefix_append es [e])) ended stopped
    have inside := length_of_listening ((wired_run es).open_ q r heard)
    rw [evaluations_of_untaken untaken, fired_of_unfired unfired, whole, nothing, run_concat]
    exact ⟨(spent_step sound (wired_run es) e ⟨inside, dry⟩).2, (List.append_nil _).symm⟩

/-- A loop that has ended evaluates nothing more. What is fired comes behind the rest, and nothing
is once the triggers are gone. -/
theorem served_of_over (driver : ((run es).scheduler r).driver = .ended)
    (first : (evaluations r es).map (·.1) <+: fired q es)
    (all : Unasked r es → ((run es).scheduler r).state = .stopped →
      (run es).spent q ∧ (evaluations r es).map (·.1) = fired q es) (e : Event) :
    Served r q (es ++ [e]) := by
  have sound := sound_run es
  have turn := turn_step (sound r) e
  rw [← run_concat] at turn
  have ended := turn.ended (sound r) driver
  have untaken : (run es).evaluation r e = none := by
    rw [run_concat] at ended
    exact untaken_of_ended (sound r) ended
  refine .ended ended ?_ ?_
  · rw [evaluations_of_untaken untaken, fired_concat]
    exact first.trans (List.prefix_append _ _)
  · intro unasked stopped
    have before : ((run es).scheduler r).state = .stopped := by
      have terminal := (sound r).terminal_of_ended driver
      exact (turn.of_terminal (sound r) terminal).1.symm.trans stopped
    obtain ⟨dry, whole⟩ := all unasked.init before
    obtain ⟨unfired, dry'⟩ := spent_step sound (wired_run es) e dry
    rw [evaluations_of_untaken untaken, fired_of_unfired unfired, run_concat]
    exact ⟨dry', whole⟩

theorem Served.concat (h : Served r q es) (e : Event) : Served r q (es ++ [e]) := by
  cases h with
  | hears heard =>
    rcases hears_step (sound_run es r) e heard with still | ⟨driven, ended⟩
    · exact .hears (by rwa [run_concat])
    · exact served_of_ended heard driven ended
  | ended driver first all => exact served_of_over driver first all e

/-- **After every run a loop is served by the feed it has been started on.** -/
theorem served_run {pre : List Event} (began : pre <+: es) (started : (run pre).hears r q) :
    Served r q es := by
  obtain ⟨more, rfl⟩ := began
  induction more using List.reverseRecOn with
  | nil =>
    rw [List.append_nil]
    exact .hears started
  | append_singleton more e ih =>
    rw [← List.append_assoc]
    exact ih.concat e

/-! ## The whole -/

/-- Under one frame delay the readings alone say what has been evaluated. -/
theorem evaluations_of_delay {d : Duration}
    (constant : ∀ a, a <+: es → ((run a).scheduler r).driver.isActive = true →
      ((run a).scheduler r).frameDelay = d) :
    evaluations r es = ((evaluations r es).map (·.1)).map (·, d) := by
  induction es using List.reverseRecOn with
  | nil => rfl
  | append_singleton es e ih =>
    have before := ih fun a early => constant a (early.trans (List.prefix_append es [e]))
    rw [evaluations_concat, List.map_append, List.map_append, ← before]
    cases evaluated : (run es).evaluation r e with
    | none => rfl
    | some x =>
      obtain ⟨-, -, delay, loop, waiting⟩ := evaluation_cases evaluated
      have now := constant es (List.prefix_append es [e]) (by rw [waiting]; rfl)
      rw [now] at delay
      simp [← delay]

/-- **The next look-up of a loop that is between two ticks.** -/
theorem poll_of_hears (sound : (w.scheduler r).Sound) (heard : w.hears r q)
    (running : (w.scheduler r).state = .running) (still : (w.scheduler r).driver.tick? = none) :
    (∀ t rest, (w.feed q).queued = t :: rest →
      w.evaluation r (.poll r) = some (t, (w.scheduler r).frameDelay)) ∧
    ((w.feed q).queued = [] → (w.feed q).triggers = 0 →
      ((w.step (.poll r)).2.scheduler r).state = .stopped) := by
  obtain ⟨-, -, active⟩ := sound.of_running running
  obtain ⟨loop, waiting⟩ := Driver.waiting_of_still active still
  have unseen := sound.seesStop_of_running running loop
  have offered := offer_of_hears heard waiting
  constructor
  · intro t rest queued
    rw [Feed.next_of_queued queued] at offered
    rw [evaluation_poll, w.taken_of_unseen waiting unseen, offered]
    rfl
  · intro queued dry
    rw [Feed.next, queued] at offered
    dsimp only at offered
    rw [if_pos dry] at offered
    have gives : w.exit? r loop = some .exhausted := by
      rw [exit?, unseen, if_neg Bool.false_ne_true, offered]
    exact poll_of_exit sound waiting gives

/-- **The ticks of a loop refine one pacer.** Of a scheduler that has been started on a
feed:

* what it has evaluated is the first of what was fired into the feed, in order;
* while the loop lives, in a tick or not, the rest of it is queued;
* a reading is evaluated under the frame delay that is set then, and never while a
  tick is in flight or a step is out;
* there have been as many ticks as one pacer, folded over what was evaluated, has true
  answers, and its own pacer is what the fold comes to;
* while it runs, the next look-up between two ticks evaluates the oldest reading that
  is queued, and ends the loop if there is none and no trigger is left;
* if it has stopped though nobody has asked, all that was fired was evaluated, and
  under one frame delay the ticks depend on nothing but the readings. -/
theorem ticks_refine_pacer {r : SchedulerRef} {q : FeedRef} {pre es : List Event}
    (began : pre <+: es) (started : (run pre).hears r q) :
    (evaluations r es).map (·.1) <+: fired q es ∧
      (((run es).scheduler r).driver.isActive = true →
        fired q es = (evaluations r es).map (·.1) ++ ((run es).feed q).queued) ∧
      (∀ e t d, (run es).evaluation r e = some (t, d) →
        d = ((run es).scheduler r).frameDelay ∧
          ((run es).scheduler r).driver.tick? = none ∧ (journal r es).out = []) ∧
      (journal r es).ticks.length = ({} : Pacer).dueCount (evaluations r es) ∧
      (∀ source pacer, ((run es).scheduler r).driver.gear? = some (source, pacer) →
        pacer = ({} : Pacer).after (evaluations r es)) ∧
      (((run es).scheduler r).state = .running →
        ((run es).scheduler r).driver.tick? = none →
          (∀ t rest, ((run es).feed q).queued = t :: rest →
            evaluations r (es ++ [.poll r]) =
              evaluations r es ++ [(t, ((run es).scheduler r).frameDelay)]) ∧
          (((run es).feed q).queued = [] → ((run es).feed q).triggers = 0 →
            ((run (es ++ [.poll r])).scheduler r).state = .stopped)) ∧
      (Unasked r es → ((run es).scheduler r).state = .stopped →
        (evaluations r es).map (·.1) = fired q es ∧
          ∀ d, (∀ a, a <+: es → ((run a).scheduler r).driver.isActive = true →
              ((run a).scheduler r).frameDelay = d) →
            (journal r es).ticks.length = ({} : Pacer).dueCount ((fired q es).map (·, d))) := by
  have sound := sound_run es r
  have paced := paced_run r es
  have served := served_run began started
  have listens (active : ((run es).scheduler r).driver.isActive = true) : (run es).hears r q := by
    cases served with
    | hears heard => exact heard
    | ended driver => rw [driver] at active; cases active
  refine ⟨?_, ?_, ?_, paced.ticks, paced.pacer, ?_, ?_⟩
  · cases served with
    | hears heard =>
      rw [(fed_run q es).heard r heard]
      exact List.prefix_append _ _
    | ended _ first => exact first
  · intro active
    exact (fed_run q es).heard r (listens active)
  · intro e t d evaluated
    obtain ⟨-, -, delay, loop, waiting⟩ := evaluation_cases evaluated
    have still : ((run es).scheduler r).driver.tick? = none := by rw [waiting]; rfl
    exact ⟨delay, still, (agrees_run es r).out_of_still still⟩
  · intro running still
    have heard := listens (sound.of_running running).2.2
    obtain ⟨takes, ends⟩ := poll_of_hears sound heard running still
    refine ⟨?_, ?_⟩
    · intro t rest queued
      rw [evaluations_concat, takes t rest queued]
      rfl
    · rw [run_concat]
      exact ends
  · intro unasked stopped
    have whole : (evaluations r es).map (·.1) = fired q es := by
      cases served with
      | hears heard =>
        rw [hears, sound.ended_of_terminal (by rw [stopped]; rfl)] at heard
        cases heard
      | ended _ _ all => exact (all unasked stopped).2
    refine ⟨whole, ?_⟩
    intro d constant
    rw [paced.ticks, evaluations_of_delay constant, whole]

/-- What holds after each beginning of a run can be looked through. -/
theorem forall_of_inits {P : List Event → Prop} (all : ∀ a ∈ es.inits, P a) :
    ∀ a, a <+: es → P a := fun a early => all a ((List.mem_inits a es).2 early)

/-- The beginning of a run: one reading is fired, and then the loop is started on the
feed. -/
def hurriedStart : List Event :=
  [.newJob "worker", .newScheduler ⟨"loop"⟩ .zero .zero, .setFrameDelay 0 (Duration.ofNanos 10),
    .schedule 0 0, .newFeed, .addTrigger 0, .fire 0 ⟨0⟩, .start 0 (.manual 0)]

/-- How it goes on: two readings are fired during the first tick and one during the
second. They come 4, 8 and 3 nanoseconds apart, and only the second of them is due. -/
def hurriedRun : List Event :=
  hurriedStart ++
    [.poll 0, .fire 0 ⟨4⟩, .fire 0 ⟨12⟩, .returned 0 0 (.outcome .resume), .poll 0, .poll 0,
      .dropTrigger 0, .fire 0 ⟨15⟩, .dropTrigger 0, .returned 0 0 (.outcome .resume), .poll 0,
      .poll 0]

/-- All four readings have been evaluated when the loop has stopped, and there have
been two ticks. -/
theorem ticks_refine_pacer_of_hurriedRun :
    ((run hurriedRun).scheduler 0).state = .stopped ∧
      (evaluations 0 hurriedRun).map (·.1) = [⟨0⟩, ⟨4⟩, ⟨12⟩, ⟨15⟩] ∧
      (journal 0 hurriedRun).ticks.length =
        ({} : Pacer).dueCount ((fired 0 hurriedRun).map (·, Duration.ofNanos 10)) ∧
      ({} : Pacer).dueCount ((fired 0 hurriedRun).map (·, Duration.ofNanos 10)) = 2 := by
  have early : hurriedStart <+: hurriedRun := List.prefix_append _ _
  obtain ⟨-, -, -, -, -, -, ends⟩ := ticks_refine_pacer (r := 0) (q := 0) early (by decide)
  have unasked : Unasked 0 hurriedRun := forall_of_inits (by decide)
  have stopped : ((run hurriedRun).scheduler 0).state = .stopped := by decide
  obtain ⟨whole, ticks⟩ := ends unasked stopped
  have constant := ticks (Duration.ofNanos 10) (forall_of_inits (by decide))
  exact ⟨stopped, whole.trans (by decide), constant, by decide⟩

end FrameLoop.World

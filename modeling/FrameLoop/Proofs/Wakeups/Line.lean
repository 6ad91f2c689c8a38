import FrameLoop.Proofs.Engine.Services
import FrameLoop.Proofs.Wakeups.Loop

/-!
# What an event does to a line of wake-ups

A feed is written at both ends, by those who hold a trigger and by the driver whose
loop listens. Most events have nothing to do with either, and this module says so once
(`feeds_step`). The rest is `LineTurn`: all that one event can do to a feed, together
with who hears it then. A reading is put in, the loop that listens takes the oldest
one, or the line is closed and nobody hears it any more.

Two facts about who hears a feed are needed on the way and kept along it (`Wired`): no
two loops hear the same one, and a feed that is heard is open.
-/

namespace FrameLoop

namespace Scheduler

/-! ## Operations that leave the driver alone -/

theorem driver_schedule (s : Scheduler) (j : JobRef) : (s.schedule j).2.driver = s.driver := by
  unfold schedule
  split <;> rfl

theorem driver_remove (s : Scheduler) (f : Forest) (j : JobRef) :
    (s.remove f j).2.1.driver = s.driver := by
  unfold remove
  split
  · rfl
  · unfold unregister
    split <;> rfl

theorem driver_requestStop (s : Scheduler) : s.requestStop.2.driver = s.driver := by
  unfold requestStop
  split <;> rfl

end Scheduler

namespace World

variable {w w' : World} {r k : SchedulerRef} {q : FeedRef} {e : Event}

/-- **A loop hears a feed** if its source is the listening end of it. -/
def hears (w : World) (r : SchedulerRef) (q : FeedRef) : Prop :=
  (w.scheduler r).driver.feed? = some q

instance (w : World) (r : SchedulerRef) (q : FeedRef) : Decidable (w.hears r q) :=
  inferInstanceAs (Decidable ((w.scheduler r).driver.feed? = some q))

/-! ## A line after a change -/

theorem feed_of_length_le (h : w.feeds.length ≤ q) :
    w.feed q = { listening := false, triggers := 0 } := by
  simp [feed, h]

theorem length_of_listening (open_ : (w.feed q).listening = true) : q < w.feeds.length := by
  by_contra absent
  rw [feed_of_length_le (Nat.le_of_not_lt absent)] at open_
  cases open_

theorem feed_congr (h : w'.feeds = w.feeds) (q : FeedRef) : w'.feed q = w.feed q := by
  rw [feed, feed, h]

theorem feed_setFeed (w : World) (q : FeedRef) (f : Feed) (k : FeedRef) :
    (w.setFeed q f).feed k = if k = q ∧ q < w.feeds.length then f else w.feed k := by
  unfold feed setFeed
  dsimp only
  rw [List.getD_eq_getElem?_getD, List.getD_eq_getElem?_getD, List.getElem?_set]
  by_cases same : q = k
  · subst same
    by_cases inside : q < w.feeds.length <;> simp [inside]
  · simp [same, Ne.symm same]

theorem feed_closeFeed (w : World) (q k : FeedRef) :
    (w.closeFeed q).feed k = if k = q then (w.feed k).close else w.feed k := by
  rw [closeFeed, feed_setFeed]
  by_cases same : k = q
  · subst same
    by_cases inside : k < w.feeds.length
    · simp [inside]
    · simp [inside, feed_of_length_le (Nat.le_of_not_lt inside), Feed.close]
  · simp [same]

/-- **A feed is closed when the loop that has listened to it does no more.** -/
theorem feed_setScheduler (w : World) (r : SchedulerRef) (s : Scheduler) (q : FeedRef) :
    (w.setScheduler r s).feed q =
      if w.hears r q ∧ s.driver.feed? ≠ some q then (w.feed q).close else w.feed q := by
  unfold setScheduler hears
  dsimp only
  split
  · next p heard =>
    split
    · next still =>
      rw [if_neg]
      · exact feed_congr rfl q
      · rintro ⟨same, other⟩
        exact other (still.trans (heard.symm.trans same))
    · next left =>
      rw [feed_closeFeed]
      by_cases same : q = p
      · subst same
        rw [if_pos rfl, if_pos ⟨heard, left⟩]
        rfl
      · rw [if_neg same, if_neg fun both => same (Option.some.inj (both.1.symm.trans heard))]
        rfl
  · next none =>
    rw [if_neg fun both => absurd (none.symm.trans both.1) (Option.some_ne_none q).symm]
    rfl

theorem feeds_setScheduler {s : Scheduler}
    (kept : ∀ q, w.hears r q → s.driver.feed? = some q) : (w.setScheduler r s).feeds = w.feeds := by
  unfold setScheduler
  dsimp only
  split
  · next q heard => rw [if_pos (kept q heard)]
  · rfl

theorem feeds_setScheduler_of_driver {s : Scheduler} (same : s.driver = (w.scheduler r).driver) :
    (w.setScheduler r s).feeds = w.feeds := by
  apply feeds_setScheduler
  intro q heard
  rw [same]
  exact heard

/-! ## Operations that leave the lines alone -/

@[simp] theorem feeds_tell (w : World) (ns : List Notice) : (w.tell ns).feeds = w.feeds := rfl

@[simp] theorem feeds_schedule (w : World) (r : SchedulerRef) (j : JobRef) :
    (w.schedule r j).2.feeds = w.feeds := by
  unfold schedule
  dsimp only
  split
  · rfl
  · exact feeds_setScheduler_of_driver (Scheduler.driver_schedule _ j)

theorem feeds_rouse (w : World) (r : SchedulerRef) : (w.rouse r).feeds = w.feeds := by
  obtain same | ⟨loop, waiting, -, -, -, wakes⟩ := w.rouse_cases r
  · rw [same]
  · rw [wakes]
    apply feeds_setScheduler
    intro q heard
    rw [hears, waiting] at heard
    exact heard

theorem feeds_unschedule (w : World) (id : JobId) (r : SchedulerRef) (j : JobRef) :
    (w.unschedule id r j).2.feeds = w.feeds := by
  unfold unschedule
  dsimp only
  split
  · exact feeds_setScheduler_of_driver (Scheduler.driver_remove _ _ j)
  · rfl

theorem feeds_signalStop (w : World) (r : SchedulerRef) : (w.signalStop r).2.feeds = w.feeds :=
  feeds_setScheduler_of_driver (Scheduler.driver_requestStop _)

@[simp] theorem feeds_stop (w : World) (r : SchedulerRef) : (w.stop r).2.feeds = w.feeds := by
  unfold stop
  dsimp only
  split
  · exact feeds_setScheduler_of_driver (Scheduler.driver_requestStop _)
  · rfl
  · rfl

@[simp] theorem feeds_startNext (w : World) (c : CallRef) (e : EngineRef)
    (services : List Service) : (w.startNext c e services).2.feeds = w.feeds := by
  cases services <;> rfl

@[simp] theorem feeds_schedulerEnded (w : World) (c : CallRef) :
    (w.schedulerEnded c).2.feeds = w.feeds := by
  unfold schedulerEnded
  split <;> rfl

@[simp] theorem feeds_stopScheduler (w : World) (c : CallRef) (e : EngineRef)
    (stage : Engine.Stage) : (w.stopScheduler c e stage).2.feeds = w.feeds := by
  have stopped := feeds_stop (w.setStage c stage) (w.engine e).scheduler
  unfold stopScheduler
  dsimp only
  split
  · exact stopped
  · rw [feeds_schedulerEnded]
    exact stopped

@[simp] theorem feeds_stopNext (w : World) (c : CallRef) (e : EngineRef)
    (services : List Service) : (w.stopNext c e services).2.feeds = w.feeds := by
  cases services with
  | nil => exact feeds_stopScheduler w c e .draining
  | cons s rest => rfl

@[simp] theorem feeds_serviceStarted (w : World) (e : EngineRef) (s : Service)
    (job : Option JobRef) : (w.serviceStarted e s job).feeds = w.feeds := by
  cases job with
  | none => rfl
  | some j => exact feeds_schedule w (w.engine e).scheduler j

theorem feeds_hookReturned (w : World) (c : CallRef) (result : HookResult) :
    (w.hookReturned c result).2.feeds = w.feeds := by
  unfold hookReturned
  split
  · next s _ =>
    split
    · exact feeds_serviceStarted w _ s _
    · rfl
  · split <;> simp
  · split <;> simp
  · rfl

theorem feeds_load (w : World) (e : EngineRef) (s : Service) : (w.load e s).2.feeds = w.feeds := by
  unfold load
  split
  · rfl
  · dsimp only
    split <;> rfl

/-- Whether an event works on a feed, or on a loop that may listen to one. -/
def Event.onLine : Event → Bool
  | .newFeed | .fire .. | .addTrigger _ | .dropTrigger _ | .start .. | .startEngine .. | .poll _
  | .returned .. => true
  | _ => false

/-- **All other events leave the feeds alone.** -/
theorem feeds_step (off : e.onLine = false) : (w.step e).2.feeds = w.feeds := by
  unfold step
  split
  · cases e with
    | newFeed | fire | addTrigger | dropTrigger | start | startEngine | poll | returned => cases off
    | attach p c => unfold act attach; dsimp only; split <;> rfl
    | schedule r j => exact feeds_schedule w r j
    | unschedule id r j => exact feeds_unschedule w id r j
    | setFrameDelay r d => exact feeds_setScheduler_of_driver rfl
    | signalStop r => exact feeds_signalStop w r
    | stop r => exact feeds_stop w r
    | rouse r => exact feeds_rouse w r
    | load e s => exact feeds_load w e s
    | stopEngine e =>
      exact feeds_stopNext (w.openCall e (.stopping (w.engine e).services.reverse)).2 _ e _
    | hookReturned c result => exact feeds_hookReturned w c result
    | schedulerEnded c => exact feeds_schedulerEnded w c
    | newJob | eraseChild | newScheduler | newEngine | hookPanicked | pass | tell | readLog
    | sweep => rfl
  · rfl

/-! ## Starting on a line -/

/-- **Letting go of a source closes the feed that it listens to**, if it listens to one. -/
theorem feed_dropSource (w : World) (source : Source) (q : FeedRef) :
    (w.dropSource source).feed q =
      if source.feed? = some q then (w.feed q).close else w.feed q := by
  unfold dropSource
  cases source.feed? with
  | none => rfl
  | some p =>
    dsimp only
    rw [feed_closeFeed]
    by_cases same : q = p
    · rw [if_pos same, if_pos (congrArg some same.symm)]
    · rw [if_neg same, if_neg fun h => same (Option.some.inj h).symm]

/-- **A loop that starts leaves the feeds alone; one that cannot lets go of its
source.** -/
theorem start_cases (sound : (w.scheduler r).Sound) (source : Source) :
    (w.start r source).2.feeds = w.feeds ∨
      (w.start r source).2.schedulers = w.schedulers ∧
        ∀ q, (w.start r source).2.feed q =
          if source.feed? = some q then (w.feed q).close else w.feed q := by
  by_cases idle : (w.scheduler r).state = .idle
  · left
    rw [starts_of_idle idle, feeds_tell]
    apply feeds_setScheduler
    intro q heard
    rw [hears, (sound.of_idle idle).1] at heard
    cases heard
  · right
    rw [start_of_busy idle]
    exact ⟨schedulers_dropSource w source, feed_dropSource w source⟩

theorem startEngine_eq (w : World) (e : EngineRef) (source : Source) :
    (w.startEngine e source).2.feeds = (w.start (w.engine e).scheduler source).2.feeds ∧
      (w.startEngine e source).2.schedulers =
        (w.start (w.engine e).scheduler source).2.schedulers := by
  unfold startEngine
  split
  · next h =>
    rw [h]
    exact ⟨rfl, rfl⟩
  · next h =>
    rw [h]
    dsimp only
    rw [feeds_startNext, schedulers_startNext]
    exact ⟨rfl, rfl⟩

/-- **A start that is not refused puts a driver there**, which waits on the source. -/
theorem driver_of_starts {es : List Event} {source : Source} (can : e.canHappen (run es) = true)
    (idle : ((run es).scheduler r).state = .idle) (given : (run es).starts r e = some source) :
    ((run (es ++ [e])).scheduler r).driver = .waiting { source } := by
  -- By a call or by way of an engine, the scheduler is there and is put in its place.
  have starts (here : r < (run es).schedulers.length) :
      (((run es).start r source).2.scheduler r).driver = .waiting { source } := by
    rw [starts_of_idle idle, scheduler_tell, scheduler_setScheduler_self _ here]
  rw [run_concat_of_canHappen can]
  cases e with
  | start k other =>
    obtain ⟨rfl, same⟩ := Option.ite_none_right_eq_some.1 given
    cases same
    exact starts (length_of_hasScheduler (Bool.and_eq_true _ _ ▸ can).1)
  | startEngine n other =>
    obtain ⟨rfl, same⟩ := Option.ite_none_right_eq_some.1 given
    cases same
    show (((run es).startEngine n source).2.scheduler _).driver = .waiting { source }
    rw [scheduler_congr ((run es).startEngine_eq n source).2]
    exact starts (home_of_lt (lt_of_startEngine can))
  | _ => cases given

/-! ## Who hears -/

theorem free_of_canGive (given : w.canGive (.manual q) = true) :
    (w.feed q).listening = true ∧ ∀ r, ¬ w.hears r q := by
  rw [canGive, Bool.and_eq_true, List.all_eq_true] at given
  refine ⟨given.1, ?_⟩
  intro r heard
  by_cases here : r < w.schedulers.length
  · have mine : w.scheduler r ∈ w.schedulers := by
      rw [scheduler, List.getD_eq_getElem?_getD, List.getElem?_eq_getElem here]
      exact List.getElem_mem here
    exact bne_iff_ne.1 (given.2 _ mine) heard
  · rw [hears, scheduler_of_length_le (Nat.le_of_not_lt here)] at heard
    cases heard

/-- An event starts one loop at most. -/
theorem starts_unique {a b : Source} (first : w.starts r e = some a)
    (second : w.starts k e = some b) : r = k := by
  cases e with
  | start n source =>
    simp only [starts, Option.ite_none_right_eq_some] at first second
    rw [first.1, second.1]
  | startEngine n source =>
    simp only [starts, Option.ite_none_right_eq_some] at first second
    rw [first.1, second.1]
  | _ => cases first

theorem feed?_next (source : Source) (feeds : List Feed) (now : Nat) :
    (source.next feeds now).2.1.feed? = source.feed? := by
  cases source with
  | manual q | interval i => rfl
  | script offers => cases offers <;> rfl

/-- **Who hears a feed goes on hearing it**, unless his driver has ended the loop. -/
theorem hears_step (sound : (w.scheduler r).Sound) (e : Event) (heard : w.hears r q) :
    (w.step e).2.hears r q ∨
      e.drives r = true ∧ ((w.step e).2.scheduler r).driver = .ended := by
  have busy : (w.scheduler r).state ≠ .idle := by
    intro idle
    rw [hears, (sound.of_idle idle).1] at heard
    cases heard
  unfold hears at heard ⊢
  rw [Driver.feed?_eq_gear?] at heard ⊢
  cases driven : e.drives r with
  | false =>
    rcases (w.quiet_step driven).gear with gear | ⟨-, -, idle, -⟩
    · exact .inl (gear ▸ heard)
    · exact absurd idle busy
  | true =>
    cases loopTurn_step sound e with
    | keeps _ gear => exact .inl (gear ▸ heard)
    | starts _ idle => exact absurd idle busy
    | @takes loop t _ waiting _ gear =>
      left
      rw [gear]
      rw [waiting] at heard
      exact (feed?_next loop.source w.feeds (loop.askedAt w.clock)).trans heard
    | ends _ _ ended => exact .inr ⟨rfl, ended⟩

/-- **Who hears a feed has heard it before, or has just been started on it.** -/
theorem hears_of_step (sound : (w.scheduler r).Sound) (e : Event)
    (hears : (w.step e).2.hears r q) :
    w.hears r q ∨ w.starts r e = some (.manual q) ∧ w.canGive (.manual q) = true ∧
      (w.scheduler r).state = .idle ∧ w.evaluation r e = none := by
  unfold World.hears at hears ⊢
  rw [Driver.feed?_eq_gear?] at hears ⊢
  cases loopTurn_step sound e with
  | keeps _ gear => exact .inl (gear ▸ hears)
  | @starts source untaken idle brought given gear =>
    rw [gear] at hears
    cases source with
    | manual p =>
      obtain rfl : p = q := Option.some.inj hears
      exact .inr ⟨brought, given, idle, untaken⟩
    | interval i | script offers => cases hears
  | @takes loop t _ waiting _ gear =>
    left
    rw [gear] at hears
    rw [waiting]
    exact (feed?_next loop.source w.feeds (loop.askedAt w.clock)).symm.trans hears
  | ends _ _ ended =>
    rw [ended] at hears
    cases hears

/-- **Feeds and loops are wired one to one**: no two loops hear the same feed, and a
feed that is heard is open. -/
structure Wired (w : World) : Prop where
  unique : ∀ q r k, w.hears r q → w.hears k q → r = k
  open_ : ∀ q r, w.hears r q → (w.feed q).listening = true

/-! ## What one event does -/

/-- **The reading that an event puts into a feed**, or tries to. -/
def firing (w : World) (q : FeedRef) : Event → Option Instant
  | .fire k t => if k = q ∧ w.hasTrigger k = true then some t else none
  | _ => none

/-- **What one event does to a feed**, and who hears it then. -/
inductive LineTurn (w : World) (q : FeedRef) (e : Event) (w' : World) : Prop where
  | keeps (unfired : w.firing q e = none) (untaken : ∀ r, w.hears r q → w.evaluation r e = none)
    (queued : (w'.feed q).queued = (w.feed q).queued)
    (listening : (w'.feed q).listening = (w.feed q).listening)
    (spent : q < w.feeds.length → (w.feed q).triggers = 0 → (w'.feed q).triggers = 0)
    (ears : ∀ r, w.hears r q → w'.hears r q)
  | made (new : w.feeds.length ≤ q) (unfired : w.firing q e = none)
    (queued : (w'.feed q).queued = [])
  | fired {t : Instant} (firing : w.firing q e = some t) (held : 0 < (w.feed q).triggers)
    (untaken : ∀ r, w.evaluation r e = none) (line : w'.feed q = ((w.feed q).fire t).2)
    (ears : ∀ r, w.hears r q → w'.hears r q)
  | taken {r : SchedulerRef} {t : Instant} {rest : List Instant} (unfired : w.firing q e = none)
    (heard : w.hears r q) (taken : w.evaluation r e = some (t, (w.scheduler r).frameDelay))
    (queued : (w.feed q).queued = t :: rest) (line : w'.feed q = { w.feed q with queued := rest })
    (ears : ∀ r, w.hears r q → w'.hears r q)
  | closed (unfired : w.firing q e = none) (untaken : ∀ r, w.hears r q → w.evaluation r e = none)
    (line : w'.feed q = (w.feed q).close) (deaf : ∀ r, ¬ w'.hears r q)

/-- An event that drives no loop and fires no reading. -/
theorem lineTurn_undriven (sound : ∀ r, (w.scheduler r).Sound) (undriven : ∀ r, e.drives r = false)
    (unfired : w.firing q e = none)
    (queued : ((w.step e).2.feed q).queued = (w.feed q).queued)
    (listening : ((w.step e).2.feed q).listening = (w.feed q).listening)
    (spent : q < w.feeds.length → (w.feed q).triggers = 0 →
      ((w.step e).2.feed q).triggers = 0) : LineTurn w q e (w.step e).2 := by
  refine .keeps unfired ?_ queued listening spent ?_
  · intro r _
    apply evaluation_of_not_driven
    intro driven
    rw [undriven r] at driven
    cases driven
  · intro r heard
    rcases hears_step (sound r) e heard with still | ⟨driven, -⟩
    · exact still
    · rw [undriven r] at driven
      cases driven

/-- The same for one that leaves the feed as it was. -/
theorem lineTurn_same (sound : ∀ r, (w.scheduler r).Sound) (undriven : ∀ r, e.drives r = false)
    (unfired : w.firing q e = none) (same : (w.step e).2.feed q = w.feed q) :
    LineTurn w q e (w.step e).2 :=
  lineTurn_undriven sound undriven unfired (by rw [same]) (by rw [same]) fun _ none => by rwa [same]

/-! ### The side of the triggers -/

theorem length_of_hasTrigger (held : w.hasTrigger q = true) : q < w.feeds.length := by
  by_contra absent
  rw [hasTrigger, feed_of_length_le (Nat.le_of_not_lt absent)] at held
  cases held

theorem lineTurn_newFeed (sound : ∀ r, (w.scheduler r).Sound) (q : FeedRef) :
    LineTurn w q .newFeed (w.step .newFeed).2 := by
  have feeds : (w.step .newFeed).2.feeds = w.feeds ++ [({} : Feed)] := rfl
  rcases Nat.lt_trichotomy q w.feeds.length with old | rfl | beyond
  · apply lineTurn_same sound (fun _ => rfl) rfl
    simp [feed, feeds, List.getElem?_append_left old]
  · refine .made (Nat.le_refl _) rfl ?_
    rw [feed, feeds]
    simp
  · apply lineTurn_same sound (fun _ => rfl) rfl
    rw [feed_of_length_le (Nat.le_of_lt beyond), feed_of_length_le]
    rw [feeds, List.length_append]
    exact beyond

theorem lineTurn_fire (sound : ∀ r, (w.scheduler r).Sound) (q p : FeedRef) (t : Instant)
    (held : w.hasTrigger p = true) : LineTurn w q (.fire p t) (w.step (.fire p t)).2 := by
  have step : (w.step (.fire p t)).2 = w.setFeed p ((w.feed p).fire t).2 :=
    congrArg Prod.snd (if_pos held)
  have line : (w.step (.fire p t)).2.feed q =
      if q = p ∧ p < w.feeds.length then ((w.feed p).fire t).2 else w.feed q := by
    rw [step, feed_setFeed]
  by_cases same : q = p
  · subst same
    rw [if_pos ⟨rfl, length_of_hasTrigger held⟩] at line
    refine .fired (t := t) ?_ (of_decide_eq_true held) (fun _ => rfl) line ?_
    · simp [firing, held]
    · intro r heard
      rcases hears_step (sound r) _ heard with still | ⟨driven, -⟩
      · exact still
      · cases driven
  · apply lineTurn_same sound (fun _ => rfl)
    · simp [firing, Ne.symm same]
    · rw [line, if_neg fun both => same both.1]

/-- One trigger more or less changes nothing but their number. -/
theorem lineTurn_triggers (sound : ∀ r, (w.scheduler r).Sound) (q : FeedRef)
    (undriven : ∀ r, e.drives r = false) (unfired : w.firing q e = none) {p : FeedRef} {n : Nat}
    (held : w.hasTrigger p = true)
    (step : (w.step e).2 = w.setFeed p { w.feed p with triggers := n }) :
    LineTurn w q e (w.step e).2 := by
  have line : (w.step e).2.feed q =
      if q = p ∧ p < w.feeds.length then { w.feed p with triggers := n } else w.feed q := by
    rw [step, feed_setFeed]
  by_cases same : q = p
  · subst same
    rw [if_pos ⟨rfl, length_of_hasTrigger held⟩] at line
    apply lineTurn_undriven sound undriven unfired
    · rw [line]
    · rw [line]
    · intro _ none
      have some : 0 < (w.feed q).triggers := of_decide_eq_true held
      omega
  · apply lineTurn_same sound undriven unfired
    rw [line, if_neg fun both => same both.1]

/-! ### The side of the loop -/

/-- A loop is started on a source, or the source is let go of: nobody has heard it
yet. -/
theorem lineTurn_start (sound : ∀ r, (w.scheduler r).Sound) (q : FeedRef)
    (undriven : ∀ r, e.drives r = false) (unfired : w.firing q e = none) {source : Source}
    (given : w.canGive source = true)
    (starts : (w.step e).2.feeds = w.feeds ∨
      (w.step e).2.schedulers = w.schedulers ∧
        ∀ q, (w.step e).2.feed q =
          if source.feed? = some q then (w.feed q).close else w.feed q) :
    LineTurn w q e (w.step e).2 := by
  rcases starts with same | ⟨schedulers, line⟩
  · exact lineTurn_same sound undriven unfired (feed_congr same q)
  · by_cases listens : source.feed? = some q
    · refine .closed unfired ?_ (by rw [line, if_pos listens]) ?_
      · intro r _
        apply evaluation_of_not_driven
        intro driven
        rw [undriven r] at driven
        cases driven
      · intro r hears
        rw [World.hears, scheduler_congr schedulers] at hears
        cases source with
        | manual p =>
          obtain rfl : p = q := Option.some.inj listens
          exact (free_of_canGive given).2 r hears
        | interval i | script offers => cases listens
    · exact lineTurn_same sound undriven unfired (by rw [line, if_neg listens])

/-- A driver that is done with its loop hangs up. -/
theorem deaf_of_ended (sound : ∀ r, (w.scheduler r).Sound) (wired : w.Wired)
    (driven : e.drives r = true) (heard : w.hears r q)
    (ended : ((w.step e).2.scheduler r).driver = .ended) (k : SchedulerRef) :
    ¬ (w.step e).2.hears k q := by
  intro hears
  rcases hears_of_step (sound k) e hears with before | ⟨starts, -⟩
  · obtain rfl := wired.unique q k r before heard
    rw [World.hears, ended] at hears
    cases hears
  · cases e with
    | poll n | returned n j v => cases starts
    | _ => cases driven

theorem source_of_hears {loop : Loop} (heard : w.hears r q)
    (waiting : (w.scheduler r).driver = .waiting loop) : loop.source = .manual q := by
  have listens : loop.source.feed? = some q := by
    rw [hears, waiting] at heard
    exact heard
  cases source : loop.source with
  | manual p =>
    rw [source] at listens
    rw [Option.some.inj listens]
  | interval i | script offers =>
    rw [source] at listens
    cases listens

theorem offer_of_hears {loop : Loop} (heard : w.hears r q)
    (waiting : (w.scheduler r).driver = .waiting loop) : w.offer loop = (w.feed q).next.1 := by
  rw [offer, source_of_hears heard waiting]
  rfl

/-- **A loop that listens to a feed does not break of itself**: when it looks up it gives up
only if it has been asked to, or there is nothing more to come. -/
theorem exit_of_hears {loop : Loop} {exit : Scheduler.Exit} (heard : w.hears r q)
    (waiting : (w.scheduler r).driver = .waiting loop) (gives : w.exit? r loop = some exit) :
    exit.state = .stopped := by
  rw [exit?, offer_of_hears heard waiting, Feed.next] at gives
  split at gives
  · cases gives
    rfl
  · cases queued : (w.feed q).queued with
    | nil =>
      rw [queued] at gives
      dsimp only at gives
      by_cases dry : (w.feed q).triggers = 0
      · rw [if_pos dry] at gives
        cases gives
        rfl
      · rw [if_neg dry] at gives
        cases gives
    | cons t rest =>
      rw [queued] at gives
      cases gives

/-- **What a driver that looks up leaves of the feed it hears**: all but the oldest
reading if it takes one, and all of it otherwise. -/
theorem drawn_of_hears {loop : Loop} (heard : w.hears r q)
    (waiting : (w.scheduler r).driver = .waiting loop) :
    (w.taken r = none ∧ ({ w with feeds := w.drawn r } : World).feed q = w.feed q) ∨
      ∃ t rest, w.taken r = some t ∧ (w.feed q).queued = t :: rest ∧
        ({ w with feeds := w.drawn r } : World).feed q = { w.feed q with queued := rest } := by
  have source := source_of_hears heard waiting
  cases asked : (w.scheduler r).seesStop loop with
  | true =>
    have still : w.drawn r = w.feeds := by
      rw [drawn, waiting]
      exact if_pos asked
    have untaken : w.taken r = none := by
      rw [taken, waiting]
      exact if_pos asked
    exact .inl ⟨untaken, feed_congr still q⟩
  | false =>
    have set : ({ w with feeds := w.drawn r } : World) = w.setFeed q (w.feed q).next.2 := by
      have drawn : w.drawn r = w.feeds.set q (w.feed q).next.2 := by
        rw [World.drawn, waiting]
        dsimp only
        rw [asked, if_neg Bool.false_ne_true, source]
        rfl
      rw [drawn]
      rfl
    rw [w.taken_of_unseen waiting asked, offer_of_hears heard waiting, set, feed_setFeed]
    cases queued : (w.feed q).queued with
    | nil =>
      have next : (w.feed q).next =
          (if (w.feed q).triggers = 0 then .exhausted else .pending, w.feed q) := by
        rw [Feed.next, queued]
      rw [next]
      refine .inl ⟨?_, ite_self _⟩
      by_cases dry : (w.feed q).triggers = 0 <;> simp [dry]
    | cons t rest =>
      have inside : q < w.feeds.length := by
        by_contra absent
        rw [feed_of_length_le (Nat.le_of_not_lt absent)] at queued
        cases queued
      rw [Feed.next_of_queued queued, if_pos ⟨rfl, inside⟩]
      exact .inr ⟨t, rest, rfl, rfl, rfl⟩

/-- A driver that looks up leaves alone the feeds that it does not hear. -/
theorem drawn_of_not_hears {loop : Loop} (deaf : ¬ w.hears r q)
    (waiting : (w.scheduler r).driver = .waiting loop) :
    ({ w with feeds := w.drawn r } : World).feed q = w.feed q := by
  rw [hears, waiting] at deaf
  unfold drawn
  rw [waiting]
  dsimp only
  split
  · rfl
  · cases source : loop.source with
    | manual p =>
      have other : q ≠ p := by
        rintro rfl
        exact deaf (congrArg Source.feed? source)
      refine (feed_setFeed w p _ q).trans ?_
      rw [if_neg fun both => other both.1]
    | interval i => rfl
    | script offers => cases offers <;> rfl

/-- A driver that ends its loop takes no reading. -/
theorem untaken_of_ended (sound : (w.scheduler r).Sound)
    (ended : ((w.step e).2.scheduler r).driver = .ended) : w.evaluation r e = none := by
  cases loopTurn_step sound e with
  | keeps untaken => exact untaken
  | starts untaken => exact untaken
  | takes _ _ _ gear =>
    rw [ended] at gear
    cases gear
  | ends untaken => exact untaken

/-- An event that drives one loop leaves all others listening. -/
theorem hears_of_driven (sound : ∀ r, (w.scheduler r).Sound)
    (only : ∀ k, e.drives k = true → r = k)
    (still : w.hears r q → (w.step e).2.hears r q) (k : SchedulerRef) (heard : w.hears k q) :
    (w.step e).2.hears k q := by
  rcases hears_step (sound k) e heard with goesOn | ⟨driven, -⟩
  · exact goesOn
  · obtain rfl := only k driven
    exact still heard

/-- A look-up that takes nothing from a feed is no evaluation of the loop that hears it. -/
theorem untaken_poll (none : w.hears r q → w.taken r = none) (k : SchedulerRef)
    (heard : w.hears k q) : w.evaluation k (.poll r) = Option.none := by
  by_cases same : k = r
  · subst same
    rw [evaluation_poll, none heard]
    rfl
  · exact if_neg (Ne.symm same)

/-- **What a look-up leaves of a feed**: it is closed if the loop listens to it no longer. -/
theorem feed_step_poll {loop : Loop} (here : r < w.schedulers.length)
    (waiting : (w.scheduler r).driver = .waiting loop) :
    (w.step (.poll r)).2.feed q =
      if w.hears r q ∧ ¬ (w.step (.poll r)).2.hears r q then
        (({ w with feeds := w.drawn r } : World).feed q).close
      else ({ w with feeds := w.drawn r } : World).feed q := by
  have step : w.step (.poll r) = w.poll r := if_pos (decide_eq_true here)
  have next : (w.poll r).2.hears r q ↔ (w.lookUp r).scheduler.driver.feed? = some q := by
    rw [World.hears, scheduler_poll here]
  rw [step]
  simp only [next]
  rw [poll_of_waiting waiting]
  exact feed_setScheduler { w with feeds := w.drawn r } r _ q

/-- **What a return leaves of a feed**, likewise. -/
theorem feed_step_returned (here : r < w.schedulers.length) (j : JobRef) (v : Verdict) :
    (w.step (.returned r j v)).2.feed q =
      if w.hears r q ∧ ¬ (w.step (.returned r j v)).2.hears r q then (w.feed q).close
      else w.feed q := by
  have step : w.step (.returned r j v) = w.returned r j v := if_pos (decide_eq_true here)
  have next : (w.returned r j v).2.hears r q ↔
      (w.settle r j v).scheduler.driver.feed? = some q := by
    rw [World.hears, scheduler_returned j v here]
  rw [step]
  simp only [next]
  exact feed_setScheduler { w with forest := _ } r _ q

theorem lineTurn_poll (sound : ∀ r, (w.scheduler r).Sound) (wired : w.Wired) (q : FeedRef)
    (here : r < w.schedulers.length) : LineTurn w q (.poll r) (w.step (.poll r)).2 := by
  have ears := hears_of_driven (q := q) (e := .poll r) sound fun k driven => eq_of_beq driven
  cases driver : (w.scheduler r).driver with
  | absent | ticking _ _ | ended =>
    have step : w.step (.poll r) = w.poll r := if_pos (decide_eq_true here)
    have nothing : w.poll r = ([], w) := by rw [poll, driver]
    rw [step, nothing] at ears ⊢
    refine .keeps rfl (untaken_poll fun _ => ?_) rfl rfl (fun _ none => none) (ears id)
    rw [taken, driver]
  | waiting loop =>
    have line := feed_step_poll (q := q) here driver
    by_cases heard : w.hears r q
    · rcases hears_step (sound r) (.poll r) heard with still | ⟨driven, ended⟩
      · rw [if_neg fun both => both.2 still] at line
        rcases drawn_of_hears heard driver with ⟨none, same⟩ | ⟨t, rest, taken, queued, drawn⟩
        · rw [same] at line
          exact .keeps rfl (untaken_poll fun _ => none) (by rw [line]) (by rw [line])
            (fun _ dry => by rwa [line]) (ears fun _ => still)
        · refine .taken rfl heard ?_ queued (line.trans drawn) (ears fun _ => still)
          rw [evaluation_poll, taken]
          rfl
      · have deaf := deaf_of_ended sound wired driven heard ended
        have none := untaken_of_ended (sound r) ended
        rw [evaluation_poll, Option.map_eq_none_iff] at none
        rw [if_pos ⟨heard, deaf r⟩] at line
        refine .closed rfl (untaken_poll fun _ => none) ?_ deaf
        rcases drawn_of_hears heard driver with ⟨-, same⟩ | ⟨t, rest, -, -, drawn⟩
        · rw [line, same]
        · rw [line, drawn]
          rfl
    · rw [if_neg fun both => heard both.1, drawn_of_not_hears heard driver] at line
      exact .keeps rfl (untaken_poll fun h => absurd h heard) (by rw [line]) (by rw [line])
        (fun _ dry => by rwa [line]) (ears fun h => absurd h heard)

theorem lineTurn_returned (sound : ∀ r, (w.scheduler r).Sound) (wired : w.Wired) (q : FeedRef)
    (j : JobRef) (v : Verdict) (here : r < w.schedulers.length) :
    LineTurn w q (.returned r j v) (w.step (.returned r j v)).2 := by
  have line := feed_step_returned (q := q) here j v
  have ears := hears_of_driven (q := q) (e := .returned r j v) sound
    fun k driven => eq_of_beq driven
  have keeps (still : w.hears r q → (w.step (.returned r j v)).2.hears r q) :
      LineTurn w q (.returned r j v) (w.step (.returned r j v)).2 := by
    rw [if_neg fun both => both.2 (still both.1)] at line
    exact .keeps rfl (fun _ _ => rfl) (by rw [line]) (by rw [line]) (fun _ dry => by rwa [line])
      (ears still)
  by_cases heard : w.hears r q
  · rcases hears_step (sound r) (.returned r j v) heard with still | ⟨driven, ended⟩
    · exact keeps fun _ => still
    · have deaf := deaf_of_ended sound wired driven heard ended
      exact .closed rfl (fun _ _ => rfl) (line.trans (if_pos ⟨heard, deaf r⟩)) deaf
  · exact keeps fun h => absurd h heard

/-- **Every event is a turn** of every feed. -/
theorem lineTurn_step (sound : ∀ r, (w.scheduler r).Sound) (wired : w.Wired) (e : Event)
    (q : FeedRef) : LineTurn w q e (w.step e).2 := by
  by_cases can : e.canHappen w = true
  · cases e with
    | newFeed => exact lineTurn_newFeed sound q
    | fire p t => exact lineTurn_fire sound q p t can
    | addTrigger p | dropTrigger p =>
      exact lineTurn_triggers sound q (fun _ => rfl) rfl can (congrArg Prod.snd (if_pos can))
    | start r source =>
      have given := (Bool.and_eq_true _ _ ▸ can).2
      have step : (w.step (.start r source)).2 = (w.start r source).2 :=
        congrArg Prod.snd (if_pos can)
      refine lineTurn_start sound q (fun _ => rfl) rfl given ?_
      rw [step]
      exact start_cases (sound r) source
    | startEngine n source =>
      have given := (Bool.and_eq_true _ _ ▸ can).2
      have step : (w.step (.startEngine n source)).2 = (w.startEngine n source).2 :=
        congrArg Prod.snd (if_pos can)
      obtain ⟨feeds, schedulers⟩ := w.startEngine_eq n source
      refine lineTurn_start sound q (fun _ => rfl) rfl given ?_
      rw [step, feeds, schedulers]
      rcases start_cases (sound (w.engine n).scheduler) source with same | ⟨same, line⟩
      · exact .inl same
      · exact .inr ⟨same, fun q => (feed_congr feeds q).trans (line q)⟩
    | poll r => exact lineTurn_poll sound wired q (of_decide_eq_true can)
    | returned r j v => exact lineTurn_returned sound wired q j v (of_decide_eq_true can)
    | _ => exact lineTurn_same sound (fun _ => rfl) rfl (feed_congr (feeds_step rfl) q)
  · have nothing : w.step e = ([], w) := if_neg can
    rw [nothing]
    refine .keeps ?_ ?_ rfl rfl (fun _ dry => dry) (fun _ heard => heard)
    · cases e with
      | fire p t => exact if_neg fun both => can both.2
      | _ => rfl
    · intro r _
      apply evaluation_of_not_driven
      intro driven
      refine ⟨scheduler_of_length_le ?_, nothing⟩
      cases e with
      | poll k | returned k j v =>
        obtain rfl : k = r := by simpa [Event.drives] using driven
        simpa [Event.canHappen] using can
      | _ => cases driven

/-! ### How many there are -/

theorem length_feeds_setScheduler (w : World) (r : SchedulerRef) (s : Scheduler) :
    (w.setScheduler r s).feeds.length = w.feeds.length := by
  unfold setScheduler
  dsimp only
  split
  · split
    · rfl
    · exact List.length_set
  · rfl

theorem length_feeds_start (w : World) (r : SchedulerRef) (source : Source) :
    (w.start r source).2.feeds.length = w.feeds.length := by
  unfold start
  dsimp only
  split
  · exact length_feeds_setScheduler w r _
  · split
    · exact List.length_set
    · rfl

theorem length_drawn (w : World) (r : SchedulerRef) : (w.drawn r).length = w.feeds.length := by
  unfold drawn
  split
  · next loop _ =>
    split
    · rfl
    · cases loop.source with
      | manual q => exact List.length_set
      | interval i => rfl
      | script offers => cases offers <;> rfl
  · rfl
  · rfl
  · rfl

/-- **No feed is lost.** -/
theorem length_feeds_step (w : World) (e : Event) :
    w.feeds.length ≤ (w.step e).2.feeds.length := by
  cases off : e.onLine with
  | false => exact Nat.le_of_eq (congrArg List.length (feeds_step off)).symm
  | true =>
    unfold step
    split
    · cases e with
      | newFeed =>
        show w.feeds.length ≤ (w.feeds ++ [_]).length
        rw [List.length_append]
        exact Nat.le_add_right _ _
      | fire p t => exact Nat.le_of_eq List.length_set.symm
      | addTrigger p => exact Nat.le_of_eq List.length_set.symm
      | dropTrigger p => exact Nat.le_of_eq List.length_set.symm
      | start r source => exact Nat.le_of_eq (length_feeds_start w r source).symm
      | startEngine n source =>
        have same : (w.startEngine n source).2.feeds.length = w.feeds.length := by
          rw [(w.startEngine_eq n source).1, length_feeds_start]
        exact Nat.le_of_eq same.symm
      | poll r =>
        have same : (w.poll r).2.feeds.length = w.feeds.length := by
          rcases w.poll_cases r with moves | ⟨nothing, -⟩
          · rw [moves]
            exact (length_feeds_setScheduler _ r _).trans (w.length_drawn r)
          · rw [nothing]
        exact Nat.le_of_eq same.symm
      | returned r j v =>
        have same : (w.returned r j v).2.feeds.length = w.feeds.length :=
          length_feeds_setScheduler { w with forest := _ } r _
        exact Nat.le_of_eq same.symm
      | _ => cases off
    · exact Nat.le_refl _

/-! ## Every run -/

theorem Wired.step (sound : ∀ r, (w.scheduler r).Sound) (wired : w.Wired) (e : Event) :
    (w.step e).2.Wired := by
  constructor
  · intro q r k first second
    rcases hears_of_step (sound r) e first with before | ⟨starts, given, -⟩
    · rcases hears_of_step (sound k) e second with before' | ⟨-, given, -⟩
      · exact wired.unique q r k before before'
      · exact absurd before ((free_of_canGive given).2 r)
    · rcases hears_of_step (sound k) e second with before' | ⟨starts', -⟩
      · exact absurd before' ((free_of_canGive given).2 k)
      · exact starts_unique starts starts'
  · intro q r hears
    have listening : (w.feed q).listening = true := by
      rcases hears_of_step (sound r) e hears with before | ⟨-, given, -⟩
      · exact wired.open_ q r before
      · exact (free_of_canGive given).1
    cases lineTurn_step sound wired e q with
    | keeps _ _ _ same => rwa [same]
    | made new =>
      exact absurd (length_of_listening listening) (Nat.not_lt.2 new)
    | fired _ _ _ line => rwa [line, Feed.listening_fire]
    | taken _ _ _ _ line => rw [line]; exact listening
    | closed _ _ _ deaf => exact absurd hears (deaf r)

theorem wired_run (es : List Event) : (run es).Wired := by
  induction es using List.reverseRecOn with
  | nil =>
    constructor
    · intro q r k heard
      cases heard
    · intro q r heard
      cases heard
  | append_singleton es e ih => exact run_concat es e ▸ ih.step (sound_run es) e

end World

end FrameLoop

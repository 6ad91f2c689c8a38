import FrameLoop.Proofs.Journal.Order
import FrameLoop.Proofs.Lifecycle
import FrameLoop.Proofs.Pacer

/-!
# What a loop makes of its wake-ups

A driver takes readings to its pacer, one at a time and only between ticks, and the
pacer says which of them become ticks. This module writes down the readings that are
evaluated in a run, each with the frame delay in force (`World.evaluations`), and
proves that the loop is no more than one pacer folded over them: the pacer of the
loop is what the fold comes to, and the ticks are as many as the fold has true
answers (`paced_run`).

The way there is `LoopTurn`, all that one event can do to the source and the pacer of
a loop. What happens inside of a tick is not among it: a tick takes them over and
hands them back as they were.
-/

namespace FrameLoop

/-! ## Source and pacer of a loop -/

/-- What a driver keeps between two wake-ups: its source and its pacer. -/
def Driver.gear? (d : Driver) : Option (Source × Pacer) := d.loop?.map fun l => (l.source, l.pacer)

theorem Driver.feed?_eq_gear? (d : Driver) : d.feed? = d.gear?.bind (·.1.feed?) := by
  unfold feed? gear?
  cases d.loop? <;> rfl

namespace Scheduler

/-- **A tick hands source and pacer back as they were**, unless it ends the loop with
a fault. -/
theorem Proceeds.gear {s : Scheduler} {loop : Loop} {t : Tick} {now : Nat} {m : Move}
    (h : Proceeds s loop t now m) (live : s.state.isTerminal = false) :
    m.scheduler.driver.gear? = some (loop.source, loop.pacer) ∨
      t.fault ≠ none ∧ m.scheduler.driver = .ended ∧ m.scheduler.state = .faulted := by
  cases h with
  | wave more => exact .inl rfl
  | drained spent sound => exact .inl rfl
  | @faulted e fault =>
    have counted : (s.counted loop t now).state.isTerminal = false := live
    refine .inr ⟨by rw [fault]; exact Option.some_ne_none e, finish_driver _ _, ?_⟩
    dsimp only
    rw [finish_of_live counted]
    rfl

/-- **A quiet change leaves them alone**, unless it starts the loop. -/
theorem Quiet.gear {may : Intake} {s s' : Scheduler} (h : Quiet may s s') :
    s'.driver.gear? = s.driver.gear? ∨
      ∃ source, may.sources source ∧ s.state = .idle ∧ s'.driver.gear? = some (source, {}) := by
  cases h with
  | started _ source brought idle => exact .inr ⟨source, brought, idle, rfl⟩
  | same | made | scheduled | unregistered | paced | asked | released => exact .inl rfl
  | roused _ waiting => exact .inl (by rw [waiting]; rfl)

end Scheduler

namespace World

variable {w : World} {r : SchedulerRef} {e : Event}

/-! ## What is evaluated -/

/-- **The reading that is evaluated at an event**, with the frame delay in force. -/
def evaluation (w : World) (r : SchedulerRef) : Event → Option (Instant × Duration)
  | .poll k => if k = r then (w.taken r).map (·, (w.scheduler r).frameDelay) else none
  | _ => none

theorem evaluation_poll (w : World) (r : SchedulerRef) :
    w.evaluation r (.poll r) = (w.taken r).map (·, (w.scheduler r).frameDelay) := if_pos rfl

/-- Of an event that is none of its driver's nothing is evaluated. -/
theorem evaluation_of_not_driven
    (h : e.drives r = true → w.scheduler r = default ∧ w.step e = ([], w)) :
    w.evaluation r e = none := by
  unfold evaluation
  split
  · next k =>
    split
    · next same =>
      have absent := (h (by simp [Event.drives, same])).1
      rw [taken, absent]
      rfl
    · rfl
  · rfl

theorem offer_of_taken {loop : Loop} {t : Instant}
    (waiting : (w.scheduler r).driver = .waiting loop) (taken : w.taken r = some t) :
    (w.scheduler r).seesStop loop = false ∧ w.offer loop = .reading t := by
  cases asked : (w.scheduler r).seesStop loop with
  | true =>
    rw [World.taken, waiting] at taken
    dsimp only at taken
    rw [if_pos asked] at taken
    cases taken
  | false =>
    refine ⟨rfl, ?_⟩
    rw [w.taken_of_unseen waiting asked] at taken
    split at taken
    · next offered =>
      cases taken
      exact offered
    · cases taken
    · cases taken
    · cases taken

/-- Only a driver that waits takes a reading. -/
theorem waiting_of_taken {t : Instant} (taken : w.taken r = some t) :
    ∃ loop, (w.scheduler r).driver = .waiting loop := by
  cases driver : (w.scheduler r).driver with
  | waiting loop => exact ⟨loop, rfl⟩
  | absent | ticking _ _ | ended =>
    rw [World.taken, driver] at taken
    cases taken

/-- **Evaluated is what a driver takes that waits and looks up**, with the frame delay
that is set then. -/
theorem evaluation_cases {t : Instant} {d : Duration} (evaluated : w.evaluation r e = some (t, d)) :
    e = .poll r ∧ w.taken r = some t ∧ d = (w.scheduler r).frameDelay ∧
      ∃ loop, (w.scheduler r).driver = .waiting loop := by
  cases e with
  | poll k =>
    by_cases same : k = r
    · subst same
      rw [evaluation_poll, Option.map_eq_some_iff] at evaluated
      obtain ⟨u, taken, pair⟩ := evaluated
      obtain ⟨rfl, rfl⟩ := Prod.mk.inj pair
      exact ⟨rfl, taken, rfl, waiting_of_taken taken⟩
    · rw [evaluation, if_neg same] at evaluated
      cases evaluated
  | _ => cases evaluated

theorem taken_of_exit {loop : Loop} {exit : Scheduler.Exit}
    (waiting : (w.scheduler r).driver = .waiting loop) (gives : w.exit? r loop = some exit) :
    w.taken r = none := by
  cases taken : w.taken r with
  | none => rfl
  | some t =>
    obtain ⟨unseen, offered⟩ := offer_of_taken waiting taken
    rw [exit?, unseen, if_neg Bool.false_ne_true, offered] at gives
    cases gives

/-- **A tick starts where the pacer says so**, of a reading that is taken. -/
theorem startsTick_of_taken {loop : Loop} {t : Instant}
    (waiting : (w.scheduler r).driver = .waiting loop) (taken : w.taken r = some t) :
    w.startsTick r = (loop.pacer.evaluate t (w.scheduler r).frameDelay).1 := by
  obtain ⟨unseen, offered⟩ := offer_of_taken waiting taken
  rw [offer] at offered
  rw [startsTick, waiting]
  simp [unseen, offered]

theorem startsTick_of_untaken (untaken : w.taken r = none) : w.startsTick r = false := by
  obtain ⟨stays, -⟩ | ⟨-, loop, t, -, taken, -⟩ := w.looksUp r
  · exact stays
  · rw [untaken] at taken
    cases taken

/-! ## What one event does -/

/-- **What one event does to the source and the pacer of a loop.** -/
inductive LoopTurn (w : World) (r : SchedulerRef) (e : Event) (s' : Scheduler) : Prop where
  | keeps (untaken : w.evaluation r e = none)
    (gear : s'.driver.gear? = (w.scheduler r).driver.gear?)
  | starts {source : Source} (untaken : w.evaluation r e = none)
    (idle : (w.scheduler r).state = .idle) (brought : w.starts r e = some source)
    (given : w.canGive source = true) (gear : s'.driver.gear? = some (source, {}))
  | takes {loop : Loop} {t : Instant} (poll : e = .poll r)
    (waiting : (w.scheduler r).driver = .waiting loop) (taken : w.taken r = some t)
    (gear : s'.driver.gear? = some ((w.paced r loop t).source, (w.paced r loop t).pacer))
  | ends (untaken : w.evaluation r e = none) (active : (w.scheduler r).driver.isActive = true)
    (driver : s'.driver = .ended)
    (cause : s'.state = .faulted ∨ ∃ loop exit, e = .poll r ∧
      (w.scheduler r).driver = .waiting loop ∧ w.exit? r loop = some exit)

/-- The source and the pacer that a driver has after it has looked up. -/
theorem loopTurn_lookUp (sound : (w.scheduler r).Sound) :
    LoopTurn w r (.poll r) (w.lookUp r).scheduler := by
  obtain ⟨-, other⟩ | ⟨-, loop, t, waiting, taken, starts⟩ := w.looksUp r
  · generalize w.lookUp r = m at other
    cases other with
    | rests untaken =>
      refine .keeps ?_ rfl
      rw [evaluation_poll, untaken]
      rfl
    | declines waiting taken => exact .takes rfl waiting taken rfl
    | ends waiting gives =>
      refine .ends ?_ ?_ (Scheduler.finish_driver _ _) (.inr ⟨_, _, rfl, waiting, gives⟩)
      · rw [evaluation_poll, taken_of_exit waiting gives]
        rfl
      · rw [waiting]
        rfl
  · have active : (w.scheduler r).driver.isActive = true := by rw [waiting]; rfl
    refine .takes rfl waiting taken ?_
    rw [starts]
    rcases (Scheduler.proceeds _ _ _ _).gear (sound.live_of_active active) with gear | ⟨fault, -⟩
    · exact gear
    · exact absurd rfl fault

theorem gear_returned {s : Scheduler} (sound : s.Sound) (f : Forest) (j : JobRef) (v : Verdict)
    (now : Nat) :
    (s.returned f j v now).1.scheduler.driver.gear? = s.driver.gear? ∨
      s.driver.isActive = true ∧ (s.returned f j v now).1.scheduler.driver = .ended ∧
        (s.returned f j v now).1.scheduler.state = .faulted := by
  have returns := s.returns f j v now
  generalize (s.returned f j v now).1 = m at returns
  cases returns with
  | nothing => exact .inl rfl
  | waits driver => exact .inl (by rw [driver]; rfl)
  | proceeds driver _ _ goesOn =>
    have active : s.driver.isActive = true := by rw [driver]; rfl
    rcases goesOn.gear (sound.live_of_active active) with gear | ⟨-, ended, faulted⟩
    · exact .inl (gear.trans (by rw [driver]; rfl))
    · exact .inr ⟨active, ended, faulted⟩

/-- **Every event is a turn** of every loop. -/
theorem loopTurn_step (sound : (w.scheduler r).Sound) (e : Event) :
    LoopTurn w r e ((w.step e).2.scheduler r) := by
  obtain ⟨quiet, unmoved⟩ | ⟨rfl, step, next⟩ | ⟨j, v, rfl, step, next⟩ := w.step_cases e r
  · have untaken := evaluation_of_not_driven unmoved
    rcases quiet.gear with gear | ⟨source, ⟨brought, given⟩, idle, gear⟩
    · exact .keeps untaken gear
    · exact .starts untaken idle brought given gear
  · rw [step, next]
    exact loopTurn_lookUp sound
  · rw [step, next]
    rcases gear_returned sound w.forest j v w.clock with gear | ⟨active, ended, faulted⟩
    · exact .keeps rfl gear
    · exact .ends rfl active ended (.inl faulted)

/-! ## Every run -/

/-- **What is written down of some events**, the first one first. -/
def recordFrom {α : Type} (note : World → Event → Option α) (w : World) : List Event → List α
  | [] => []
  | e :: rest => (note w e).toList ++ recordFrom note (w.step e).2 rest

/-- **What is written down of a run.** -/
def record {α : Type} (note : World → Event → Option α) (es : List Event) : List α :=
  recordFrom note {} es

theorem record_concat {α : Type} (note : World → Event → Option α) (es : List Event) (e : Event) :
    record note (es ++ [e]) = record note es ++ (note (run es) e).toList := by
  suffices general : ∀ w, recordFrom note w (es ++ [e]) =
      recordFrom note w es ++ (note (runFrom w es) e).toList from general {}
  induction es with
  | nil => intro w; simp [recordFrom, runFrom]
  | cons d es ih =>
    intro w
    rw [List.cons_append, recordFrom, recordFrom, ih, List.append_assoc]
    rfl

theorem record_of_none {α : Type} {note : World → Event → Option α} {es : List Event} {e : Event}
    (none : note (run es) e = none) : record note (es ++ [e]) = record note es := by
  rw [record_concat, none]
  exact List.append_nil _

/-- What is written down of a run goes on what was written down before. -/
theorem record_grows {α : Type} (note : World → Event → Option α) {es es' : List Event}
    (early : es <+: es') : record note es <+: record note es' := by
  obtain ⟨more, rfl⟩ := early
  induction more using List.reverseRecOn with
  | nil => exact (List.append_nil es).symm ▸ List.prefix_refl _
  | append_singleton more e ih =>
    rw [← List.append_assoc, record_concat]
    exact ih.trans (List.prefix_append _ _)

/-- **The readings that the driver of a scheduler has evaluated**, in order, each with
the frame delay then in force. -/
def evaluations (r : SchedulerRef) (es : List Event) : List (Instant × Duration) :=
  record (evaluation · r) es

theorem evaluations_concat (r : SchedulerRef) (es : List Event) (e : Event) :
    evaluations r (es ++ [e]) = evaluations r es ++ ((run es).evaluation r e).toList :=
  record_concat _ es e

theorem evaluations_of_untaken {es : List Event} (untaken : (run es).evaluation r e = none) :
    evaluations r (es ++ [e]) = evaluations r es :=
  record_of_none untaken

/-- An event at which nothing is evaluated starts no tick. -/
theorem length_ticks_untaken {es : List Event} (untaken : (run es).evaluation r e = none) :
    (journal r (es ++ [e])).ticks.length = (journal r es).ticks.length := by
  rw [journal_concat]
  apply Journal.length_ticks_append
  intro registry began
  obtain ⟨rfl, starts⟩ := began_mem_observe began
  rw [evaluation_poll, Option.map_eq_none_iff] at untaken
  rw [startsTick_of_untaken untaken] at starts
  cases starts

theorem length_ticks_poll {es : List Event}
    (active : ((run es).scheduler r).driver.isActive = true) :
    (journal r (es ++ [.poll r])).ticks.length =
      (journal r es).ticks.length + if (run es).startsTick r then 1 else 0 := by
  rw [journal_concat, observe_poll (step_poll active), ← List.append_assoc,
    Journal.length_ticks_append _ (Journal.began_not_mem_handOut _)]
  split
  · rw [Journal.ticks_concat, Entry.sort, List.length_append]
    rfl
  · rw [List.append_nil]
    rfl

/-- **A loop is one pacer folded over the readings it evaluates**: a scheduler that is
idle has evaluated none, the pacer of a loop is what the fold comes to, and the ticks
are as many as its true answers. -/
structure Paced (s : Scheduler) (ws : List (Instant × Duration)) (ticks : Nat) : Prop where
  idle : s.state = .idle → ws = []
  pacer : ∀ source pacer, s.driver.gear? = some (source, pacer) → pacer = ({} : Pacer).after ws
  ticks : ticks = ({} : Pacer).dueCount ws

/-- **Every event keeps a loop to its pacer.** -/
theorem Paced.concat {es : List Event}
    (h : Paced ((run es).scheduler r) (evaluations r es) (journal r es).ticks.length) :
    Paced ((run (es ++ [e])).scheduler r) (evaluations r (es ++ [e]))
      (journal r (es ++ [e])).ticks.length := by
  have sound := sound_run es r
  have still (idle : ((run (es ++ [e])).scheduler r).state = .idle) :
      ((run es).scheduler r).state = .idle := by
    rw [run_concat] at idle
    exact (turn_step sound e).of_idle sound idle
  have turn := loopTurn_step sound e
  rw [← run_concat] at turn
  cases turn with
  | keeps untaken gear =>
    rw [evaluations_of_untaken untaken, length_ticks_untaken untaken]
    exact ⟨fun idle => h.idle (still idle), fun a b here => h.pacer a b (gear ▸ here), h.ticks⟩
  | @starts source untaken idle brought given gear =>
    rw [evaluations_of_untaken untaken, length_ticks_untaken untaken]
    refine ⟨fun _ => h.idle idle, ?_, h.ticks⟩
    intro a b here
    obtain ⟨rfl, rfl⟩ : source = a ∧ {} = b := by simpa using gear.symm.trans here
    rw [h.idle idle]
    rfl
  | @takes loop t poll waiting taken gear =>
    -- The one place where the fold and the loop's pacer both make a step.
    subst poll
    have before : loop.pacer = ({} : Pacer).after (evaluations r es) :=
      h.pacer loop.source loop.pacer (by rw [waiting]; rfl)
    have active : ((run es).scheduler r).driver.isActive = true := by rw [waiting]; rfl
    rw [evaluations_concat, evaluation_poll, taken]
    refine ⟨?_, ?_, ?_⟩
    · intro idle
      rw [(sound.of_idle (still idle)).1] at waiting
      cases waiting
    · intro a b here
      obtain ⟨-, rfl⟩ : _ = a ∧ _ = b := by simpa using gear.symm.trans here
      rw [Option.map_some, Option.toList_some, Pacer.after_concat, ← before]
      rfl
    · rw [Option.map_some, Option.toList_some, Pacer.dueCount_concat, ← before, ← h.ticks,
        length_ticks_poll active, startsTick_of_taken waiting taken]
  | ends untaken active ended cause =>
    rw [evaluations_of_untaken untaken, length_ticks_untaken untaken]
    refine ⟨fun idle => h.idle (still idle), ?_, h.ticks⟩
    intro a b here
    rw [ended] at here
    cases here

/-- **After every run a loop is its pacer folded over what it has evaluated.** -/
theorem paced_run (r : SchedulerRef) (es : List Event) :
    Paced ((run es).scheduler r) (evaluations r es) (journal r es).ticks.length := by
  induction es using List.reverseRecOn with
  | nil =>
    refine ⟨fun _ => rfl, ?_, rfl⟩
    intro a b here
    cases here
  | append_singleton es e ih => exact ih.concat

/-- There are never fewer ticks. -/
theorem length_ticks_mono {es es' : List Event} (early : es <+: es') :
    (journal r es).ticks.length ≤ (journal r es').ticks.length := by
  rw [(paced_run r es).ticks, (paced_run r es').ticks]
  exact Pacer.dueCount_mono (record_grows _ early)

end World

end FrameLoop

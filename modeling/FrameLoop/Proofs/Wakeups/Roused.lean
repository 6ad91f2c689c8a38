import FrameLoop.Proofs.Run.Clock
import FrameLoop.Proofs.Wakeups.Line

/-!
# What has woken a driver

A source wakes a driver at one event (`World.rouse`), and the driver goes by that at another
(`World.poll`). Between the two anything may happen. This module says that it makes no
difference to the driver: what has woken it is what it is offered when it looks up, however
much is fired, asked for or let go meanwhile (`offer_of_roused`), and the source is asked as of
the time at which it woke the driver, which is past (`roused_run`).

It is why a reading may stay at the head of its line until the driver goes by it.
-/

namespace FrameLoop

namespace Scheduler

variable {s s' : Scheduler} {may : Intake} {loop : Loop}

/-- A quiet change leaves a driver that has been woken where it is. -/
theorem Quiet.waiting_of_roused (h : Quiet may s s') (sound : s.Sound)
    (waiting : s.driver = .waiting loop) (roused : loop.roused ≠ none) :
    s'.driver = .waiting loop := by
  cases h with
  | same | scheduled | unregistered | paced | asked | released => exact waiting
  | made => cases waiting
  | started _ _ _ idle =>
    rw [(sound.of_idle idle).1] at waiting
    cases waiting
  | roused _ here fresh =>
    obtain rfl : _ = loop := by simpa using here.symm.trans waiting
    exact absurd fresh roused

/-- A quiet change after which a driver has been woken has just woken it, or found it so. -/
theorem Quiet.woken (h : Quiet may s s') (waiting : s'.driver = .waiting loop) {T : Nat}
    (roused : loop.roused = some T) :
    s.driver = .waiting loop ∨
      ∃ before, may.wakes before T ∧ loop = { before with roused := some T } := by
  cases h with
  | same | scheduled | unregistered | paced | asked | released => exact .inl waiting
  | made => cases waiting
  | started =>
    cases waiting
    cases roused
  | roused _ _ _ _ woken =>
    cases waiting
    cases roused
    exact .inr ⟨_, woken, rfl⟩

/-- **A tick leaves no driver that has been woken.** -/
theorem Proceeds.not_roused {t : Tick} {now : Nat} {m : Move} {after : Loop}
    (h : Proceeds s loop t now m) (waiting : m.scheduler.driver = .waiting after) :
    after.roused = none := by
  cases h with
  | wave => cases waiting
  | drained =>
    cases waiting
    rfl
  | faulted =>
    dsimp only at waiting
    rw [finish_driver] at waiting
    cases waiting

end Scheduler

namespace World

variable {w : World} {r : SchedulerRef} {e : Event} {es : List Event} {loop : Loop}

/-! ## One event -/

/-- **A driver that has been woken waits until it looks up.** -/
theorem waiting_step (sound : (w.scheduler r).Sound)
    (waiting : (w.scheduler r).driver = .waiting loop) (roused : loop.roused ≠ none)
    (other : e ≠ .poll r) :
    ((w.step e).2.scheduler r).driver = .waiting loop := by
  obtain ⟨quiet, -⟩ | ⟨rfl, -⟩ | ⟨j, v, rfl, step, next⟩ := w.step_cases e r
  · exact quiet.waiting_of_roused sound waiting roused
  · exact absurd rfl other
  · have still : ∀ l t, (w.scheduler r).driver = .ticking l t → j ∉ t.pending := by
      intro l t ticking
      rw [waiting] at ticking
      cases ticking
    rw [step, next, settle, Scheduler.returned_of_not_pending still]
    exact waiting

/-- What is at the head of a line stays there while others have their turns, and a line of
which nothing is to come stays so. -/
theorem next_step (sound : ∀ r, (w.scheduler r).Sound) (wired : w.Wired) {q : FeedRef}
    (heard : w.hears r q) (offered : (w.feed q).next.1 ≠ .pending)
    (hears : (w.step e).2.hears r q) (other : e ≠ .poll r) :
    ((w.step e).2.feed q).next.1 = (w.feed q).next.1 := by
  have inside := length_of_listening (wired.open_ q r heard)
  cases lineTurn_step sound wired e q with
  | keeps _ _ queued _ spent =>
    unfold Feed.next at offered ⊢
    rw [queued]
    cases line : (w.feed q).queued with
    | cons t rest => rfl
    | nil =>
      rw [line] at offered
      dsimp only at offered ⊢
      have dry : (w.feed q).triggers = 0 := by
        by_contra held
        exact offered (if_neg held)
      rw [dry, spent inside dry]
  | made new => exact absurd inside (Nat.not_lt.2 new)
  | fired _ held _ line =>
    have listens := wired.open_ q r heard
    unfold Feed.next at offered ⊢
    rw [line, Feed.queued_fire _ listens]
    cases queue : (w.feed q).queued with
    | cons t rest => rfl
    | nil =>
      rw [queue] at offered
      exact absurd (if_neg (Nat.pos_iff_ne_zero.1 held)) offered
  | @taken k t rest _ listens taken =>
    obtain rfl := wired.unique q k r listens heard
    exact absurd (evaluation_cases taken).1 other
  | closed _ _ _ deaf => exact absurd hears (deaf r)

/-- **Nothing comes between a driver and what has woken it.** -/
theorem offer_step (sound : ∀ r, (w.scheduler r).Sound) (wired : w.Wired)
    (waiting : (w.scheduler r).driver = .waiting loop) (roused : loop.roused ≠ none)
    (offered : w.offer loop ≠ .pending) (other : e ≠ .poll r) :
    (w.step e).2.offer loop = w.offer loop := by
  have still := waiting_step (sound r) waiting roused other
  obtain ⟨T, at_⟩ := Option.ne_none_iff_exists'.1 roused
  cases source : loop.source with
  | manual q =>
    have listens {v : World} (here : (v.scheduler r).driver = .waiting loop) : v.hears r q := by
      rw [hears, here]
      exact congrArg Source.feed? source
    rw [offer_of_hears (listens waiting) waiting] at offered ⊢
    rw [offer_of_hears (listens still) still]
    exact next_step sound wired (listens waiting) offered (listens still) other
  | interval i => simp only [offer, Loop.askedAt, at_, source, Option.getD_some, Source.next]
  | script offers => cases offers <;> simp only [offer, source, Source.next]

/-! ## Every run -/

/-- **A driver that has been woken** has been so at a time that is past, and has something to
go by. -/
def Roused (w : World) (r : SchedulerRef) : Prop :=
  ∀ loop T, (w.scheduler r).driver = .waiting loop → loop.roused = some T →
    T ≤ w.clock ∧ w.offer loop ≠ .pending

/-- A driver that has been woken and looks up has not been woken any more. -/
theorem not_roused_of_poll (before : w.Roused r)
    (waiting : (w.lookUp r).scheduler.driver = .waiting loop) : loop.roused = none := by
  have looksUp := w.looksUp r
  cases roused : loop.roused with
  | none => rfl
  | some T =>
    obtain ⟨-, other⟩ | ⟨-, l, t, -, -, starts⟩ := looksUp
    · generalize given : w.lookUp r = m at other waiting
      cases other with
      | declines =>
        cases waiting
        cases roused
      | ends =>
        dsimp only at waiting
        rw [Scheduler.finish_driver] at waiting
        cases waiting
      | rests untaken =>
        -- What it goes by is no reading, so it ends the loop.
        have unseen : (w.scheduler r).seesStop loop = false := by simp [Scheduler.seesStop, roused]
        have offered := (before loop T waiting roused).2
        rw [w.taken_of_unseen waiting unseen] at untaken
        obtain ⟨exit, gives⟩ : ∃ exit, w.exit? r loop = some exit := by
          rw [exit?, unseen, if_neg Bool.false_ne_true]
          cases offer : w.offer loop with
          | pending => exact absurd offer offered
          | exhausted => exact ⟨_, rfl⟩
          | broken message => exact ⟨_, rfl⟩
          | reading t =>
            rw [offer] at untaken
            cases untaken
        have ends := lookUp_of_exit waiting gives
        rw [given] at ends
        dsimp only at ends
        have gone := congrArg Scheduler.driver ends
        rw [Scheduler.finish_driver, waiting] at gone
        cases gone
    · rw [starts] at waiting
      exact roused.symm.trans ((Scheduler.proceeds _ _ _ _).not_roused waiting)

theorem Roused.step (sound : ∀ r, (w.scheduler r).Sound) (wired : w.Wired) (h : w.Roused r)
    (e : Event) : (w.step e).2.Roused r := by
  intro loop T waiting roused
  have later : w.clock ≤ (w.step e).2.clock := by
    rw [clock_step]
    exact Nat.le_add_right _ _
  have keeps (here : (w.scheduler r).driver = .waiting loop) (other : e ≠ .poll r) :
      T ≤ (w.step e).2.clock ∧ (w.step e).2.offer loop ≠ .pending := by
    obtain ⟨past, offered⟩ := h loop T here roused
    refine ⟨Nat.le_trans past later, ?_⟩
    rwa [offer_step sound wired here (by simp [roused]) offered other]
  obtain ⟨quiet, unmoved⟩ | ⟨rfl, step, next⟩ | ⟨j, v, rfl, step, next⟩ := w.step_cases e r
  · rcases quiet.woken waiting roused with here | ⟨before, ⟨rfl, rfl, ready⟩, rfl⟩
    · refine keeps here ?_
      rintro rfl
      rw [(unmoved (by simp [Event.drives])).1] at here
      cases here
    · refine ⟨later, ?_⟩
      have feeds : (w.step (.rouse r)).2.feeds = w.feeds := feeds_step rfl
      rw [offer, feeds]
      simpa [Source.ready, Loop.askedAt] using ready
  · rw [step, next] at waiting
    rw [not_roused_of_poll h waiting] at roused
    cases roused
  · rw [step, next, settle] at waiting
    have returns := (w.scheduler r).returns w.forest j v w.clock
    generalize ((w.scheduler r).returned w.forest j v w.clock).1 = m at waiting returns
    cases returns with
    | nothing => exact keeps waiting (by simp)
    | waits => cases waiting
    | proceeds _ _ _ goesOn =>
      rw [goesOn.not_roused waiting] at roused
      cases roused

/-- **Nothing wakes a driver but its source.** -/
theorem unroused_step (before : w.Roused r)
    (fresh : ∀ loop, (w.scheduler r).driver = .waiting loop → loop.roused = none)
    (other : e ≠ .rouse r) (waiting : ((w.step e).2.scheduler r).driver = .waiting loop) :
    loop.roused = none := by
  obtain ⟨quiet, -⟩ | ⟨rfl, step, next⟩ | ⟨j, v, rfl, step, next⟩ := w.step_cases e r
  · cases roused : loop.roused with
    | none => rfl
    | some T =>
      rcases quiet.woken waiting roused with here | ⟨-, ⟨wakes, -⟩, -⟩
      · exact roused.symm.trans (fresh loop here)
      · exact absurd wakes other
  · rw [step, next] at waiting
    exact not_roused_of_poll before waiting
  · rw [step, next, settle] at waiting
    have returns := (w.scheduler r).returns w.forest j v w.clock
    generalize ((w.scheduler r).returned w.forest j v w.clock).1 = m at waiting returns
    cases returns with
    | nothing => exact fresh loop waiting
    | waits => cases waiting
    | proceeds _ _ _ goesOn => exact goesOn.not_roused waiting

/-- **After every run.** -/
theorem roused_run (es : List Event) (r : SchedulerRef) : (run es).Roused r := by
  induction es using List.reverseRecOn with
  | nil =>
    intro loop T waiting
    cases waiting
  | append_singleton es e ih => exact run_concat es e ▸ ih.step (sound_run es) (wired_run es) e

/-- A driver that is never woken before it is asked to look up. -/
theorem unroused_run (never : .rouse r ∉ es)
    (waiting : ((run es).scheduler r).driver = .waiting loop) : loop.roused = none := by
  induction es using List.reverseRecOn generalizing loop with
  | nil => cases waiting
  | append_singleton es e ih =>
    rw [List.mem_append, not_or, List.mem_singleton] at never
    rw [run_concat] at waiting
    exact unroused_step (roused_run es r) (fun _ => ih never.1) (Ne.symm never.2) waiting

/-- **What has woken a driver is what it goes by**: until it looks up it waits, and is offered
the same. -/
theorem offer_of_roused (waiting : ((run es).scheduler r).driver = .waiting loop)
    (roused : loop.roused ≠ none) {more : List Event} (unlooked : .poll r ∉ more) :
    ((run (es ++ more)).scheduler r).driver = .waiting loop ∧
      (run (es ++ more)).offer loop = (run es).offer loop := by
  obtain ⟨T, at_⟩ := Option.ne_none_iff_exists'.1 roused
  have offered := (roused_run es r loop T waiting at_).2
  induction more using List.reverseRecOn with
  | nil => simp [waiting]
  | append_singleton more e ih =>
    rw [List.mem_append, not_or, List.mem_singleton] at unlooked
    obtain ⟨here, same⟩ := ih unlooked.1
    have other : e ≠ .poll r := Ne.symm unlooked.2
    rw [← List.append_assoc, run_concat]
    refine ⟨waiting_step (sound_run _ r) here roused other, ?_⟩
    rw [offer_step (sound_run _) (wired_run _) here roused (same ▸ offered) other, same]

/-- When a driver is asked to look up its source is asked as of now, or of before. -/
theorem askedAt_le (waiting : ((run es).scheduler r).driver = .waiting loop) :
    loop.askedAt (run es).clock ≤ (run es).clock := by
  unfold Loop.askedAt
  cases roused : loop.roused with
  | none => exact Nat.le_refl _
  | some T => exact (roused_run es r loop T waiting roused).1

end World

end FrameLoop

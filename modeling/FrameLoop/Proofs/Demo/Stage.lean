import FrameLoop.Proofs.Demo.Course
import FrameLoop.Proofs.Wakeups.Ends
import FrameLoop.Proofs.Wakeups.Rate

/-!
# The demonstration at a fixed rate

A demonstration whose loop listens to a source at a fixed rate (`Cast.Paced`). The frame delay
is the same throughout, so what the pacer is shown are points of a grid. A deadline may be noticed
late, and then some of the points are skipped.

Such a source is never a reason to end the loop (`World.exit_of_interval`), so the loop runs on
until the injector ends it. And it cannot run on for ever: each tick takes no more deliveries
than fit into a frame delay, and one (`Paced.come_of_many`).
-/

namespace FrameLoop

namespace World

/-- A source that wakes a driver changes nothing but the driver. -/
theorem run_rouse (es : List Event) (r : SchedulerRef) :
    (∃ driver, (run (es ++ [.rouse r])).scheduler r = { (run es).scheduler r with driver }) ∧
      (run (es ++ [.rouse r])).forest = (run es).forest := by
  rw [run_concat, step]
  split
  · next can =>
    refine ⟨?_, forest_rouse _ r⟩
    rw [act]
    obtain same | ⟨loop, -, -, -, -, wakes⟩ := (run es).rouse_cases r
    · exact ⟨_, by rw [same]⟩
    · exact ⟨_, by rw [wakes, scheduler_setScheduler_self _ (of_decide_eq_true can)]⟩
  · exact ⟨⟨_, rfl⟩, rfl⟩

/-- **A source at a fixed rate is no reason to give up.** -/
theorem exit_of_interval {w : World} {r : SchedulerRef} {loop : Loop} {i : Interval}
    (mine : loop.source = .interval i) (unseen : (w.scheduler r).seesStop loop = false) :
    w.exit? r loop = none := by
  rw [exit?, unseen, if_neg Bool.false_ne_true, offer, mine]
  dsimp only [Source.next, Interval.next]
  cases i.due (loop.askedAt w.clock) <;> rfl

end World

namespace Demo

open World (Event run journal evaluations deliveries Metered)

namespace Cast

variable {c : Cast} {after : Nat} {i : Interval} {d : Duration} {r : SchedulerRef}
  {es : List Event} {e : Event}

/-- **A demonstration on a source at a fixed rate.** -/
structure Paced (c : Cast) (after : Nat) (r : SchedulerRef) (i : Interval) (d : Duration)
    (es : List Event) : Prop where
  carries : c.Carries after r es
  metered : Metered i ((run es).scheduler r) (deliveries r es)
  delay : ((run es).scheduler r).frameDelay = d
  readings : evaluations r es = ((deliveries r es).map (·.1)).map (·, d)
  lives : ((run es).scheduler r).driver.isActive = true ∨
    max after 1 ≤ (journal r es).ticks.length

namespace Paced

variable (h : c.Paced after r i d es)
include h

/-- **One more event.** -/
theorem concat (spares : c.Spares after r es e)
    (delay : ((run (es ++ [e])).scheduler r).frameDelay = ((run es).scheduler r).frameDelay) :
    c.Paced after r i d (es ++ [e]) := by
  have carries := h.carries.concat spares
  constructor
  case carries => exact carries
  case metered => exact h.metered.concat e
  case delay => rw [delay, h.delay]
  case readings =>
    rw [World.evaluations_concat, World.deliveries_concat, List.map_append, List.map_append,
      ← h.readings, World.delivery]
    cases evaluated : (run es).evaluation r e with
    | none => rfl
    | some x =>
      obtain ⟨-, -, now, -⟩ := World.evaluation_cases evaluated
      rw [h.delay] at now
      simp [← now]
  case lives =>
    rcases h.lives with active | come
    · refine (World.active_or_ended active e).imp_right fun ended => ?_
      obtain ⟨loop, exit, -, waiting, gives, -⟩ | ⟨past, t, last, faulty⟩ :=
        World.ends_cases active ended
      · -- The source gives no reason, and nobody has asked for a stop.
        have sound := World.sound_run es r
        have running := (sound.of_active active).1.resolve_right h.carries.unasked
        obtain ⟨j, -, source⟩ := h.metered.delivers
        have mine := source loop.source loop.pacer (by rw [waiting]; rfl)
        rw [World.exit_of_interval mine (sound.seesStop_of_running running loop)] at gives
        cases gives
      · exact carries.come_of_faulty last (by rw [ended]; rfl) faulty
    · exact .inr (Nat.le_trans come (World.length_ticks_mono (List.prefix_append _ _)))

/-- An event that does nothing to the loop or the jobs. -/
theorem same (apart : e.drives r = false)
    (scheduler : (run (es ++ [e])).scheduler r = (run es).scheduler r)
    (forest : (run (es ++ [e])).forest = (run es).forest) : c.Paced after r i d (es ++ [e]) :=
  h.concat (h.carries.spares_of_same apart scheduler forest) (by rw [scheduler])

theorem tell (ns : List Notice) : c.Paced after r i d (es ++ [.tell ns]) :=
  h.same rfl (by rw [World.run_concat]; rfl) (by rw [World.run_concat]; rfl)

theorem pass (nanos : Nat) : c.Paced after r i d (es ++ [.pass nanos]) :=
  h.same rfl (by rw [World.run_concat]; rfl) (by rw [World.run_concat]; rfl)

/-- The driver is woken. -/
theorem rouse : c.Paced after r i d (es ++ [.rouse r]) := by
  obtain ⟨⟨driver, woken⟩, forest⟩ := World.run_rouse es r
  refine h.concat (h.carries.spares_of_apart rfl (by rw [woken]) ?_ ?_) (by rw [woken])
  · rw [woken]
    exact h.carries.called
  · rw [forest]
    exact h.carries.unlinked

/-- Somebody makes a job. -/
theorem newJob (name : String) : c.Paced after r i d (es ++ [.newJob name]) := by
  have scheduler : (run (es ++ [.newJob name])).scheduler r = (run es).scheduler r := by
    rw [World.run_concat]
    rfl
  have forest : (run (es ++ [.newJob name])).forest = ((run es).forest.create name).2 := by
    rw [World.run_concat]
    rfl
  refine h.concat (h.carries.spares_of_apart rfl (by rw [scheduler])
    (by rw [scheduler]; exact h.carries.called) ?_) (by rw [scheduler])
  intro j here
  rw [forest, Forest.parent_create, Forest.children_create]
  exact h.carries.unlinked j here

/-- A step returns as it is to end. -/
theorem returned {j : JobRef} {v : Verdict}
    (verdict : v = c.verdict after ((journal r es).launched.count c.injector) j) :
    c.Paced after r i d (es ++ [.returned r j v]) := by
  have driven : Event.drives r (.returned r j v) = true := by simp [Event.drives]
  refine h.concat (h.carries.spares_of_returned verdict) ?_
  rw [World.run_concat, World.frameDelay_of_driven driven]

/-- The driver looks up, whenever it does. -/
theorem poll : c.Paced after r i d (es ++ [.poll r]) := by
  have driven : Event.drives r (.poll r) = true := by simp [Event.drives]
  refine h.concat h.carries.spares_of_poll ?_
  rw [World.run_concat, World.frameDelay_of_driven driven]

/-- **Deliveries enough come to the tick that is asked for.** -/
theorem come_of_many (pos : 0 < i.period) {m : Nat}
    (many : m * (d.nanos / i.period + 1) ≤ (deliveries r es).length) :
    m ≤ (journal r es).ticks.length := by
  obtain ⟨j, delivers, -⟩ := h.metered.delivers
  obtain ⟨ks, n, grid⟩ := delivers.onGrid
  have most := Pacer.length_le_of_apart (d := d) pos grid.apart
  rw [← h.readings, ← (World.paced_run r es).ticks, List.length_map] at most
  exact Nat.le_of_mul_le_mul_right (Nat.le_trans many most) (Nat.succ_pos _)

/-- **The tick that is asked for has come if the loop has ended**, or if the deliveries have been
enough. -/
theorem come_of_ends (pos : 0 < i.period)
    (ends : ((run es).scheduler r).outcome.isSome = true ∨
      max after 1 * (d.nanos / i.period + 1) ≤ (deliveries r es).length) :
    max after 1 ≤ (journal r es).ticks.length := by
  rcases ends with ended | many
  · refine h.lives.resolve_left fun active => ?_
    rw [((World.sound_run es r).of_active active).2] at ended
    cases ended
  · exact h.come_of_many pos many

end Paced

/-- **A demonstration on a source at a fixed rate is on its course**: no tick comes after the one
that is asked for, which comes if deliveries enough do, and when it is over the injector has
aborted the loop. -/
structure OnCourse (after : Nat) (r : SchedulerRef) (i : Interval) (d : Duration)
    (es : List Event) : Prop where
  few : (journal r es).ticks.length ≤ max after 1
  /-- Each tick has one wave. -/
  waves : ∀ t ∈ (journal r es).ticks, t.waves.length = 1
  /-- A tick takes no more deliveries than fit into a frame delay, and one. -/
  comes : max after 1 * (d.nanos / i.period + 1) ≤ (deliveries r es).length →
    max after 1 ≤ ({} : Pacer).dueCount (evaluations r es)
  ends : ((run es).scheduler r).outcome.isSome = true ↔
    max after 1 ≤ ({} : Pacer).dueCount (evaluations r es) ∧
      ((run es).scheduler r).driver.tick? = none
  aborted : ((run es).scheduler r).outcome.isSome = true → HasAborted after r es

theorem Paced.onCourse (h : c.Paced after r i d es) (pos : 0 < i.period) :
    OnCourse after r i d es := by
  have still := (World.sound_run es r).still_of_settled
  constructor
  case few => exact h.carries.length_ticks_le
  case waves =>
    intro t ht
    obtain ⟨past, rest, split⟩ := List.append_of_mem ht
    exact (h.carries.tick split).1
  case comes =>
    intro many
    rw [← (World.paced_run r es).ticks]
    exact h.come_of_many pos many
  case ends =>
    refine ⟨fun ended => ⟨?_, still ended⟩, fun both => ?_⟩
    · rw [← (World.paced_run r es).ticks]
      exact h.come_of_ends pos (.inl ended)
    · rw [h.carries.aborted_iff.2 both]
      rfl
  case aborted =>
    exact fun ended => h.carries.hasAborted (still ended) (h.come_of_ends pos (.inl ended))

end Cast

end Demo

end FrameLoop

import FrameLoop.World.Holdings
import Mathlib.Data.List.Induction

/-!
# Runs

Everything that may happen in a world is an `Event`, and `World.step` says
what the world comes to when it happens. A run is a list of events, taken from
the world in which there is nothing yet (`World.run`): every order of wake-ups,
step completions, calls and changes of the forest is some such list, and a law
about all runs is a law about all lists of events.

An event names what it works on by number. One that names something that is
not there, or a source that has been given away, cannot happen
(`Event.canHappen`): nobody holds such a handle. A run passes over it. Nothing
else is asked for. The host may report a step that is not out, a driver may
look up when there is nothing to see, and what is let go of, and when, is free
(`Event.sweep`).

**What a run does not say.** Nothing here makes anything happen: a step that
is out may never return, and a driver may never look up.
-/

namespace FrameLoop

/-- Where a list with a last element is split: at the last, or before it. -/
theorem split_concat {α : Type} {xs pre post : List α} {a b : α}
    (h : pre ++ b :: post = xs ++ [a]) :
    (pre = xs ∧ b = a ∧ post = []) ∨ ∃ rest, post = rest ++ [a] ∧ xs = pre ++ b :: rest := by
  obtain rfl | ⟨rest, x, rfl⟩ := post.eq_nil_or_concat
  · obtain ⟨rfl, rfl⟩ := List.append_singleton_inj.1 h
    exact .inl ⟨rfl, rfl, rfl⟩
  · rw [List.concat_eq_append, ← List.cons_append, ← List.append_assoc] at h
    obtain ⟨rfl, rfl⟩ := List.append_singleton_inj.1 h
    exact .inr ⟨rest, List.concat_eq_append, rfl⟩

/-- Whether a call at this stage is running a hook. -/
def Engine.Stage.runsHook : Engine.Stage → Bool
  | .loading _ | .starting _ | .stopping _ => true
  | .abandoning _ | .draining => false

/-- The job that a hook contributes. -/
def HookResult.job? : HookResult → Option JobRef
  | .ok job => job
  | .failed _ => none

namespace World

/-- **Something that happens in a world.** -/
inductive Event where
  -- jobs
  | newJob (name : String)
  | attach (parent child : JobRef)
  | eraseChild (parent child : JobRef)
  -- feeds
  | newFeed
  | fire (feed : FeedRef) (t : Instant)
  | addTrigger (feed : FeedRef)
  | dropTrigger (feed : FeedRef)
  -- schedulers
  | newScheduler (loopId : LoopId) (frameDelay wakeup : Duration)
  | schedule (r : SchedulerRef) (j : JobRef)
  | unschedule (id : JobId) (r : SchedulerRef) (j : JobRef)
  | setFrameDelay (r : SchedulerRef) (d : Duration)
  | start (r : SchedulerRef) (source : Source)
  | signalStop (r : SchedulerRef)
  | stop (r : SchedulerRef)
  -- loops
  | rouse (r : SchedulerRef)
  | poll (r : SchedulerRef)
  | returned (r : SchedulerRef) (j : JobRef) (v : Verdict)
  -- engines
  | newEngine (r : SchedulerRef)
  | load (e : EngineRef) (s : Service)
  | startEngine (e : EngineRef) (source : Source)
  | stopEngine (e : EngineRef)
  | hookReturned (c : CallRef) (result : HookResult)
  | schedulerEnded (c : CallRef)
  | hookPanicked (c : CallRef)
  -- the rest
  | pass (nanos : Nat)
  | tell (ns : List Notice)
  | readLog
  | sweep (h : Holdings)

/-- Whether somebody may still hold a scheduler. -/
def hasScheduler (w : World) (r : SchedulerRef) : Bool := (w.schedulers[r]?).any (!·.released)

/-- Whether somebody may still hold an engine. -/
def hasEngine (w : World) (e : EngineRef) : Bool := (w.engines[e]?).any (!·.released)

/-- A scheduler that somebody holds is there. -/
theorem length_of_hasScheduler {w : World} {r : SchedulerRef} (h : w.hasScheduler r = true) :
    r < w.schedulers.length := by
  by_contra absent
  rw [hasScheduler, List.getElem?_eq_none (Nat.le_of_not_lt absent)] at h
  cases h

/-- An engine that somebody holds is there. -/
theorem length_of_hasEngine {w : World} {e : EngineRef} (h : w.hasEngine e = true) :
    e < w.engines.length := by
  by_contra absent
  rw [hasEngine, List.getElem?_eq_none (Nat.le_of_not_lt absent)] at h
  cases h

/-- Whether somebody may still hold a trigger of a feed. -/
def hasTrigger (w : World) (q : FeedRef) : Bool := decide (0 < (w.feed q).triggers)

/-- Whether a source can still be given to a loop: the listening end of a feed
is given away once. -/
def canGive (w : World) : Source → Bool
  | .manual q => (w.feed q).listening && w.schedulers.all (·.driver.feed? != some q)
  | .interval _ | .script _ => true

/-- Whether what a call waits for is the end of a scheduler that has ended. -/
def endAwaited (w : World) (c : Engine.Call) : Bool :=
  !c.stage.runsHook && (w.scheduler (w.engine c.engine).scheduler).outcome.isSome

/-- **Whether an event can happen**: what it names is there. -/
def Event.canHappen (w : World) : Event → Bool
  | .attach p c | .eraseChild p c => w.forest.has p && w.forest.has c
  | .fire q _ | .addTrigger q | .dropTrigger q => w.hasTrigger q
  | .schedule r j | .unschedule _ r j => w.hasScheduler r && w.forest.has j
  | .setFrameDelay r _ | .signalStop r | .stop r | .newEngine r => w.hasScheduler r
  | .start r source => w.hasScheduler r && w.canGive source
  | .rouse r | .poll r | .returned r _ _ => decide (r < w.schedulers.length)
  | .load e s => w.hasEngine e && s.keeps.all w.forest.has
  | .startEngine e source => w.hasEngine e && w.canGive source
  | .stopEngine e => w.hasEngine e
  | .hookReturned c result =>
    (w.call? c).any (·.stage.runsHook) && result.job?.all w.forest.has
  | .hookPanicked c => (w.call? c).any (·.stage.runsHook)
  | .schedulerEnded c => (w.call? c).any w.endAwaited
  | .newJob _ | .newFeed | .newScheduler .. | .pass _ | .tell _ | .readLog | .sweep _ => true

/-- What an event does: the steps that are launched by it, and the world after
it. -/
def act (w : World) : Event → List JobRef × World
  | .newJob name => ([], (w.newJob name).2)
  | .attach p c => ([], (w.attach p c).2)
  | .eraseChild p c => ([], (w.eraseChild p c).2)
  | .newFeed => ([], w.newFeed.2)
  | .fire q t => ([], (w.fire q t).2)
  | .addTrigger q => ([], w.addTrigger q)
  | .dropTrigger q => ([], w.dropTrigger q)
  | .newScheduler loopId frameDelay wakeup => ([], (w.newScheduler loopId frameDelay wakeup).2)
  | .schedule r j => ([], (w.schedule r j).2)
  | .unschedule id r j => ([], (w.unschedule id r j).2)
  | .setFrameDelay r d => ([], w.setFrameDelay r d)
  | .start r source => ([], (w.start r source).2)
  | .signalStop r => ([], (w.signalStop r).2)
  | .stop r => ([], (w.stop r).2)
  | .rouse r => ([], w.rouse r)
  | .poll r => w.poll r
  | .returned r j v => w.returned r j v
  | .newEngine r => ([], (w.newEngine r).2)
  | .load e s => ([], (w.load e s).2)
  | .startEngine e source => ([], (w.startEngine e source).2)
  | .stopEngine e => ([], (w.stopEngine e).2)
  | .hookReturned c result => ([], (w.hookReturned c result).2)
  | .schedulerEnded c => ([], (w.schedulerEnded c).2)
  | .hookPanicked c => ([], w.closeCall c)
  | .pass nanos => ([], { w with clock := w.clock + nanos })
  | .tell ns => ([], w.tell ns)
  | .readLog => ([], { w with notices := [] })
  | .sweep h => ([], w.sweep h)

/-- **One event of a run**; one that cannot happen is passed over. -/
def step (w : World) (e : Event) : List JobRef × World :=
  if e.canHappen w then w.act e else ([], w)

/-- The world after some events. -/
def runFrom (w : World) (es : List Event) : World := es.foldl (fun w e => (w.step e).2) w

/-- **The world after a run**, from nothing. -/
def run (es : List Event) : World := runFrom {} es

@[simp] theorem run_nil : run [] = {} := rfl

/-- A run goes on from where it has come to. -/
theorem run_append (es more : List Event) : run (es ++ more) = runFrom (run es) more :=
  List.foldl_append

/-- The last event of a run comes last. -/
@[simp] theorem run_concat (es : List Event) (e : Event) : run (es ++ [e]) = ((run es).step e).2 :=
  run_append es [e]

/-- An event that can happen does what it does. -/
theorem run_concat_of_canHappen {es : List Event} {e : Event} (can : e.canHappen (run es) = true) :
    run (es ++ [e]) = ((run es).act e).2 :=
  (run_concat es e).trans (congrArg Prod.snd (if_pos can))

/-- **What holds at first and is kept by every event holds after every run.** -/
theorem run_keeps {P : World → Prop} (start : P {}) (keep : ∀ w e, P w → P (w.step e).2)
    (es : List Event) : P (run es) := by
  induction es using List.reverseRecOn with
  | nil => exact start
  | append_singleton es e ih => exact run_concat es e ▸ keep (run es) e ih

/-- **Something has happened**, in a run that goes on from a world: it holds of one of the
events of the run, in the world in which that came. -/
def Happened (w : World) (P : World → Event → Prop) (es : List Event) : Prop :=
  ∃ pre e post, es = pre ++ e :: post ∧ e.canHappen (w.runFrom pre) = true ∧ P (w.runFrom pre) e

theorem not_happened_nil {w : World} {P : World → Event → Prop} : ¬ w.Happened P [] := by
  rintro ⟨pre, e, post, split, -⟩
  simp at split

/-- What has happened by now had happened before, or does so at the last event. -/
theorem happened_concat {w : World} {P : World → Event → Prop} {es : List Event} {e : Event} :
    w.Happened P (es ++ [e]) ↔
      w.Happened P es ∨ e.canHappen (w.runFrom es) = true ∧ P (w.runFrom es) e := by
  constructor
  · rintro ⟨pre, d, post, split, can, here⟩
    rcases split_concat split.symm with ⟨rfl, rfl, -⟩ | ⟨rest, -, earlier⟩
    · exact .inr ⟨can, here⟩
    · exact .inl ⟨pre, d, rest, earlier, can, here⟩
  · rintro (⟨pre, d, post, rfl, can, here⟩ | ⟨can, here⟩)
    · exact ⟨pre, d, post ++ [e], by simp, can, here⟩
    · exact ⟨es, e, [], rfl, can, here⟩

/-- What happens in a run happens at the first event, or after it. -/
theorem happened_cons {w : World} {P : World → Event → Prop} {es : List Event} {e : Event} :
    w.Happened P (e :: es) ↔ e.canHappen w = true ∧ P w e ∨ (w.step e).2.Happened P es := by
  constructor
  · rintro ⟨pre, d, post, split, can, here⟩
    cases pre with
    | nil =>
      obtain ⟨rfl, rfl⟩ := List.cons.inj split
      exact .inl ⟨can, here⟩
    | cons a pre =>
      obtain ⟨rfl, rfl⟩ := List.cons.inj split
      exact .inr ⟨pre, d, post, rfl, can, here⟩
  · rintro (⟨can, here⟩ | ⟨pre, d, post, rfl, can, here⟩)
    · exact ⟨[], e, es, rfl, can, here⟩
    · exact ⟨e :: pre, d, post, rfl, can, here⟩

/-- What has happened once has happened for good. -/
theorem Happened.append {w : World} {P : World → Event → Prop} {es : List Event}
    (h : w.Happened P es) (more : List Event) : w.Happened P (es ++ more) := by
  obtain ⟨pre, d, post, rfl, can, here⟩ := h
  exact ⟨pre, d, post ++ more, by simp, can, here⟩

end World

end FrameLoop

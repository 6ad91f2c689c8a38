import FrameLoop.Proofs.Commands.Runs
import FrameLoop.Proofs.Driver

/-!
# How a step of a queue ends

A step is one thread, and nothing that the others do brings it off its course: moved on often
enough, it ends (`Ends`), for each command that it takes leaves it one less to take, whatever comes
in meanwhile. Its verdict is then handed down to whoever called for the step (`Reports`).
-/

namespace FrameLoop.Rehearsal

open CommandQueue (Drain)

namespace Stage

variable {st : Stage} {n : Nat} {j k : JobRef} {rest : List Frame} {ms : List Move}

/-! ## A step comes to its end -/

/-- A thread that is there goes on with the frames that it is given. -/
theorem thread?_goOn (frames : List Frame) (here : ∃ u ∈ st.threads, u.number = n) :
    ∃ t, (st.goOn n frames).thread? n = some t ∧ t.frames = frames := by
  obtain ⟨u, hu, number⟩ := here
  cases found : (st.goOn n frames).thread? n with
  | none =>
    have moved : { u with frames, gate := none, awaits := none } ∈ (st.goOn n frames).threads :=
      mem_update.2 ⟨u, hu, if_pos number⟩
    have absent := List.find?_eq_none.1 found _ moved
    simp [number] at absent
  | some t =>
    obtain ⟨ht, same⟩ := thread_of_thread? found
    obtain ⟨v, hv, rfl⟩ := mem_update.1 ht
    refine ⟨_, rfl, ?_⟩
    split at same
    · next here => rw [if_pos here]
    · next other => exact absurd same other

theorem goesOn_handed (st : Stage) (j : JobRef) (act : Act) :
    ∀ e ∈ st.handed j act, e.goesOn = true := by
  intro e he
  unfold handed at he
  split at he
  · split at he
    · split at he
      · rw [List.mem_singleton.1 he]; rfl
      · rw [List.mem_singleton.1 he]; rfl
      · cases he
    · cases he
  · cases he

/-- A thread that drains a queue has its lock and does not wait. -/
theorem waits_of_draining {t : Thread} {x : JobRef × Drain × List Act}
    (here : draining? t.frames = some x) : st.waits t = false := by
  unfold waits
  split
  · next top => rw [top] at here; cases here
  · rfl

/-- **What the move of a draining thread is**, and what is noted of it. -/
theorem resume_draining {t : Thread} {x : Drain × List Act} (tame : (after ms).Tame)
    (found : (after ms).thread? n = some t) (here : draining? t.frames = some (j, x)) :
    after (ms ++ [.task (.resume n)]) = (after ms).moveThread t ∧
      history j (ms ++ [.task (.resume n)]) =
        ((after ms).noteFrames j t.frames).foldl History.add (history j ms) := by
  have free : (after ms).waits t = false := waits_of_draining here
  obtain ⟨ht, -⟩ := thread_of_thread? found
  rw [after_concat, history_concat, note, if_pos (tame.known ⟨t, ht, rfl, here⟩)]
  simp only [move, noteMove, found, free, Bool.false_eq_true, if_false, and_self]

/-- **The step under way comes to its end** when its thread is moved on often enough. -/
def Ends (ms : List Move) (n : Nat) (j : JobRef) (found : List CommandScript) : Prop :=
  ∃ k s, (history j (ms ++ .replicate k (.task (.resume n)))).current = none ∧
    (history j (ms ++ .replicate k (.task (.resume n)))).past = (history j ms).past ++ [s] ∧
    s.found = found

/-- One more move of the thread does no harm. -/
theorem Ends.of_next {found : List CommandScript}
    (same : (history j (ms ++ [.task (.resume n)])).past = (history j ms).past)
    (h : Ends (ms ++ [.task (.resume n)]) n j found) : Ends ms n j found := by
  obtain ⟨k, s, idle, past, whole⟩ := h
  refine ⟨k + 1, s, ?_, ?_, whole⟩
  · simpa [List.replicate_succ] using idle
  · simpa [List.replicate_succ, same] using past

/-- The last move of a step. -/
theorem Ends.of_ended {found : List CommandScript} {v : Verdict} {left : List CommandScript}
    (here : (history j ms).current.map (·.found) = some found)
    (ended : history j (ms ++ [.task (.resume n)]) = (history j ms).add (.ended v left)) :
    Ends ms n j found := by
  obtain ⟨b, current, rfl⟩ := Option.map_eq_some_iff.1 here
  refine ⟨1, { b with verdict := v, left }, ?_, ?_, rfl⟩
  · rw [List.replicate_one, ended]
    rfl
  · rw [List.replicate_one, ended]
    simp [History.add, current]

/-- **A command comes to its end**, and then the step does if it would without the command. -/
theorem ends_of_command {d : Drain} {acts : List Act} {t : Thread} {found : List CommandScript}
    (goes_on : ∀ {ms t}, (after ms).thread? n = some t → t.frames = .queue j d :: rest →
      (history j ms).current.map (·.found) = some found → Ends ms n j found)
    (at_ : (after ms).thread? n = some t) (top : t.frames = .command acts :: .queue j d :: rest)
    (current : (history j ms).current.map (·.found) = some found) : Ends ms n j found := by
  induction acts generalizing ms t with
  | nil =>
    obtain ⟨ht, number⟩ := thread_of_thread? at_
    have draining : draining? t.frames = some (j, d, []) := by rw [top]; rfl
    obtain ⟨moved, noted⟩ := resume_draining (tame_after ms) at_ draining
    rw [moveThread_of_command_nil top, number] at moved
    have same : history j (ms ++ [.task (.resume n)]) = history j ms := by rw [noted, top]; rfl
    obtain ⟨u, next, frames⟩ := thread?_goOn (.queue j d :: rest) ⟨t, ht, number⟩
    exact .of_next (congrArg _ same) (goes_on (moved ▸ next) frames (same ▸ current))
  | cons act acts ih =>
    obtain ⟨ht, number⟩ := thread_of_thread? at_
    have draining : draining? t.frames = some (j, d, act :: acts) := by rw [top]; rfl
    have drains : (after ms).Drains n (j, d, act :: acts) := ⟨t, ht, number, draining⟩
    obtain ⟨q, known⟩ := Option.isSome_iff_exists.1 ((tame_after ms).known drains)
    obtain ⟨moved, noted⟩ := resume_draining (tame_after ms) at_ draining
    obtain ⟨p, rfl⟩ | calm := act.panic_cases
    · rw [top, noteFrames_of_panic known] at noted
      exact .of_ended current noted
    · rw [moveThread_of_calm top calm, number] at moved
      rw [top, noteFrames_of_calm calm] at noted
      obtain ⟨past, goes⟩ := (history j ms).foldl_goesOn ((after ms).goesOn_handed j act)
      rw [← noted] at past goes
      obtain ⟨v, hv, number', -⟩ := ((tame_after ms).perform_steps act).2.drains.2 drains
      obtain ⟨u, next, frames⟩ :=
        thread?_goOn (.command acts :: .queue j d :: rest) ⟨v, hv, number'⟩
      exact .of_next past (ih (moved ▸ next) frames (goes.trans current))

/-- **A step comes to its end**: with each command that it takes it has one less to take. -/
theorem ends_of_queue {d : Drain} {t : Thread} {found : List CommandScript}
    (at_ : (after ms).thread? n = some t) (top : t.frames = .queue j d :: rest)
    (current : (history j ms).current.map (·.found) = some found) : Ends ms n j found := by
  induction left : d.left using Nat.strongRecOn generalizing ms t d with
  | ind left ih =>
    obtain ⟨ht, number⟩ := thread_of_thread? at_
    have draining : draining? t.frames = some (j, d, []) := by rw [top]; rfl
    have drains : (after ms).Drains n (j, d, []) := ⟨t, ht, number, draining⟩
    obtain ⟨q, known⟩ := Option.isSome_iff_exists.1 ((tame_after ms).known drains)
    obtain ⟨moved, noted⟩ := resume_draining (tame_after ms) at_ draining
    rw [top, noteFrames_of_queue known] at noted
    rw [moveThread_of_queue top, number] at moved
    cases taken : q.take d with
    | none =>
      rw [taken] at noted
      exact .of_ended current noted
    | some next =>
      obtain ⟨c, r, e⟩ := next
      rw [taken] at noted
      rw [nextCommand_of_take known taken] at moved
      obtain ⟨less, -, -⟩ := CommandQueue.drain_of_take taken
      have goes : ∀ e ∈ [Entry.started c], e.goesOn = true := by simp [Entry.goesOn]
      obtain ⟨past, goes⟩ := (history j ms).foldl_goesOn goes
      rw [← noted] at past goes
      obtain ⟨u, next, frames⟩ :=
        thread?_goOn (.command c.acts :: .queue j e :: rest) ⟨t, ht, number⟩
      refine .of_next past (ends_of_command (fun at_ top current => ?_) (moved ▸ next) frames
        (goes.trans current))
      exact ih e.left (by omega) at_ top current rfl

/-! ## How a step is reported -/

theorem world_launchWave (st : Stage) (r : SchedulerRef) (wave : List JobRef) :
    (st.launchWave r wave).world = st.world := by
  induction wave with
  | nil => rfl
  | cons j wave ih => exact ih

/-- A step that a tick has launched is reported to the tick. -/
theorem world_deliver_tick {t : Thread} {r : SchedulerRef} (found : st.thread? n = some t)
    (owner : t.owner = .tick r k) (v : Verdict) :
    (Stage.deliver n [] (.verdict v) st).world = (st.world.returned r k v).2 := by
  have reported : Stage.deliver n [] (.verdict v) st = st.stepReturned n r k v := by
    show st.report n (.verdict v) = _
    simp only [report, found, Option.map_some, owner]
  rw [reported]
  unfold stepReturned
  dsimp only
  split
  · exact world_launchWave _ r _
  · exact world_launchWave _ r _

end Stage

end FrameLoop.Rehearsal

namespace FrameLoop.World

/-- **A step that panicked is a fault of its job**: the log of a tick that has it out is told so. -/
theorem notices_returned_of_panicked {w : World} {r : SchedulerRef} {j : JobRef} {p : Panic}
    {loop : Loop} {tick : Tick} (ticking : (w.scheduler r).driver = .ticking loop tick)
    (out : j ∈ tick.pending) :
    ∃ told, (w.returned r j (.panicked p)).2.notices = w.notices ++
      Scheduler.faultNotice tick (w.forest.name j) (.jobPanicked (w.forest.name j) p.message) ::
        told := by
  rw [notices_returned, settle, Scheduler.returned_of_pending ticking out]
  exact ⟨_, rfl⟩

end FrameLoop.World

namespace FrameLoop.Rehearsal

open CommandQueue (Drain)

namespace Stage

variable {n : Nat} {j : JobRef} {ms : List Move}

/-- **How a step of a queue is reported** when the thread that runs it ends it: the verdict goes to
the frames below, and if there are none, to the tick that launched the step, as the verdict on this
very job. A panic is then a fault of the job. -/
def Reports (st st' : Stage) (t : Thread) (j : JobRef) (v : Verdict) : Prop :=
  ∃ above d below told,
    t.frames = above ++ .queue j d :: below ∧
      st' = deliver t.number below (.verdict v) (st.tell told) ∧
      ∀ r k, below = [] → t.owner = .tick r k →
        k = j ∧ st'.world = ((st.tell told).world.returned r j v).2 ∧
          ∀ p loop tick, v = .panicked p → (st.world.scheduler r).driver = .ticking loop tick →
            j ∈ tick.pending → ∃ more, st'.world.notices = (st.tell told).world.notices ++
              Scheduler.faultNotice tick (st.world.forest.name j)
                (.jobPanicked (st.world.forest.name j) p.message) :: more

theorem reports_of_deliver {st st' : Stage} {t : Thread} {v : Verdict} (above : List Frame)
    {below : List Frame} {d : Drain} {told : List Notice} (found : st.thread? t.number = some t)
    (frames : t.frames = above ++ .queue j d :: below) (own : below = [] → t.owner.launched j)
    (done : st' = deliver t.number below (.verdict v) (st.tell told)) : Reports st st' t j v := by
  refine ⟨above, d, below, told, frames, done, fun r k none_ owner => ?_⟩
  have mine := own none_
  rw [owner] at mine
  obtain rfl : k = j := mine
  have same : (st.tell told).thread? t.number = some t := found
  have world : st'.world = ((st.tell told).world.returned r k v).2 := by
    rw [done, none_]
    exact world_deliver_tick same owner v
  refine ⟨rfl, world, fun p loop tick panics ticking out => ?_⟩
  rw [world, panics]
  have ticking' : ((st.tell told).world.scheduler r).driver = .ticking loop tick := ticking
  exact World.notices_returned_of_panicked ticking' out

/-- A step that goes on is still under way. -/
theorem current_of_goesOn {m : Move} {b : Batch} (es : List Entry)
    (current : (history j ms).current = some b)
    (noted : history j (ms ++ [m]) = es.foldl History.add (history j ms))
    (goes : ∀ e ∈ es, e.goesOn = true) : (history j (ms ++ [m])).current ≠ none := by
  intro ended
  have kept := ((history j ms).foldl_goesOn goes).2
  rw [← noted, ended, current] at kept
  cases kept

/-- The last move of a step notes how it has ended, and reports that. -/
theorem reports_of_noted {t : Thread} {b : Batch} {v : Verdict} {left : List CommandScript}
    (above : List Frame) {below : List Frame} {d : Drain} (told : List Notice)
    (found : (after ms).thread? t.number = some t)
    (frames : t.frames = above ++ .queue j d :: below) (own : below = [] → t.owner.launched j)
    (current : (history j ms).current = some b)
    (noted : history j (ms ++ [.task (.resume t.number)]) = (history j ms).add (.ended v left))
    (done : after (ms ++ [.task (.resume t.number)]) =
      deliver t.number below (.verdict v) ((after ms).tell told)) :
    ∃ s, (history j (ms ++ [.task (.resume t.number)])).past = (history j ms).past ++ [s] ∧
      Reports (after ms) (after (ms ++ [.task (.resume t.number)])) t j s.verdict := by
  refine ⟨{ b with verdict := v, left }, ?_, reports_of_deliver above found frames own done⟩
  rw [noted]
  simp [History.add, current]

/-- **A step that ends is reported with the verdict that is noted.** -/
theorem reports_of_ended {t : Thread} {x : Drain × List Act} (at_ : (after ms).thread? n = some t)
    (here : draining? t.frames = some (j, x)) {b : Batch}
    (current : (history j ms).current = some b)
    (ended : (history j (ms ++ [.task (.resume n)])).current = none) :
    ∃ s, (history j (ms ++ [.task (.resume n)])).past = (history j ms).past ++ [s] ∧
      Reports (after ms) (after (ms ++ [.task (.resume n)])) t j s.verdict := by
  obtain ⟨ht, rfl⟩ := thread_of_thread? at_
  have tame := tame_after ms
  obtain ⟨moved, noted⟩ := resume_draining tame at_ here
  obtain ⟨q, known⟩ := Option.isSome_iff_exists.1 (tame.known ⟨t, ht, rfl, here⟩)
  have runs := tame.runs t ht
  unfold draining? at here
  split at here
  · next k d below top =>
    cases here
    obtain ⟨-, own⟩ := Owner.Runs.of_queue (top ▸ runs)
    rw [top, noteFrames_of_queue known] at noted
    cases taken : q.take d with
    | some next =>
      rw [taken] at noted
      exact absurd ended (current_of_goesOn _ current noted (by simp [Entry.goesOn]))
    | none =>
      rw [taken] at noted
      rw [moveThread_of_queue top, nextCommand_of_spent known taken] at moved
      exact reports_of_noted [] _ at_ top own current noted moved
  · next acts k d below top =>
    cases here
    obtain ⟨_, _, _, same, -, own⟩ := Owner.Runs.of_command (top ▸ runs)
    cases same
    cases acts with
    | nil =>
      rw [top] at noted
      exact absurd ended (current_of_goesOn [] current noted (by simp))
    | cons act acts =>
      obtain ⟨p, rfl⟩ | calm := act.panic_cases
      · rw [top, noteFrames_of_panic known] at noted
        refine reports_of_noted [_] [] at_ top own current noted ?_
        rw [moved, moveThread_of_panic top, tell_nil]
      · rw [top, noteFrames_of_calm calm] at noted
        exact absurd ended (current_of_goesOn _ current noted ((after ms).goesOn_handed j act))
  · cases here

end Stage

end FrameLoop.Rehearsal

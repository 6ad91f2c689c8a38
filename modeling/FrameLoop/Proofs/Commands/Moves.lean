import FrameLoop.Proofs.Commands.Cells
import FrameLoop.Rehearsal.Session

/-!
# One move of a stage

Whatever happens on a stage is one of a few moves (`Move`): an act from outside, a move of some
thread or driver, a gate that opens, time that passes, a report that is taken, and letting go. Any
move may come at any time, so a list of moves is an interleaving of everything that goes on, the
one that `Stage.settle` makes being one of them. One thing has to wait: a thread that would begin
to drain a queue while another drains it (`Stage.waits`), for the receiving end of a queue is
behind a lock.

`Stage.note` says what is noted of a queue at a move, and `Tame.move_steps` that each move is a
turn of each queue.
-/

namespace FrameLoop.Rehearsal

open CommandQueue (Drain)

/-- **Something that happens on a stage.** -/
inductive Move where
  /-- An act from outside. -/
  | act (a : Act)
  | task (t : Task)
  | openGate (thread : Nat)
  /-- Nanoseconds pass. -/
  | pass (nanos : Nat)
  /-- What has been seen is reported. -/
  | report
  /-- What nobody holds is gone. -/
  | tidy
  /-- It is decided anew what is next. -/
  | agenda (tasks : List Task)

namespace Stage

variable {st st' : Stage} {n : Nat} {j k : JobRef} {frames rest : List Frame}
  {q : CommandQueue CommandScript}

/-- Whether a thread is about to drain a queue that is being drained already. -/
def waits (st : Stage) (t : Thread) : Bool :=
  match t.frames with
  | .launch j :: _ =>
    match st.conducts.lookup j with
    | some (.scripted (.queue _)) => (st.work? j).isSome
    | _ => false
  | _ => false

/-- **One move.** A thread that has to wait does not move. -/
def move (st : Stage) : Move → Stage
  | .act a => (st.perform a).2
  | .task (.drive r) => st.doTask (.drive r)
  | .task (.resume n) =>
    match st.thread? n with
    | some t => if st.waits t then st else st.moveThread t
    | none => st
  | .openGate n => st.openGate n
  | .pass nanos => st.withWorld { st.world with clock := st.world.clock + nanos }
  | .report => (st.takeReport .nothing).2
  | .tidy => st.tidy
  | .agenda tasks => { st with agenda := tasks }

/-- A queue by its job; one that is not there is empty. -/
def queueOf (st : Stage) (j : JobRef) : CommandQueue CommandScript := (st.queues.lookup j).getD {}

/-- What is noted of a queue when a thread with these frames moves. -/
def noteFrames (st : Stage) (j : JobRef) : List Frame → List Entry
  | .launch k :: _ =>
    match st.conducts.lookup k with
    | some (.scripted (.queue _)) => if j = k then [.began (st.queueOf k).queued] else []
    | _ => []
  | .body _ _ (act :: _) _ :: _ => st.handed j act
  | .queue k d :: _ =>
    if j = k then
      match (st.queueOf k).take d with
      | some (c, _, _) => [.started c]
      | none => [.ended (.outcome .resume) (st.queueOf k).queued]
    else []
  | .command (.panic p :: _) :: .queue k _ :: _ =>
    if j = k then [.ended (.panicked p) (st.queueOf k).queued] else []
  | .command (act :: _) :: _ => st.handed j act
  | _ => []

/-- What is noted of a queue that is there. -/
def noteMove (st : Stage) (j : JobRef) : Move → List Entry
  | .act a => st.handed j a
  | .task (.resume n) =>
    match st.thread? n with
    | some t => if st.waits t then [] else st.noteFrames j t.frames
    | none => []
  | .task (.drive _) | .openGate _ | .pass _ | .report | .tidy | .agenda _ => []

/-- **What is noted of a queue at a move**; nothing before it is there. -/
def note (st : Stage) (j : JobRef) (m : Move) : List Entry :=
  if (st.queues.lookup j).isSome then st.noteMove j m else []

/-! ## What the moves of a draining thread are -/

theorem queueOf_eq (known : st.queues.lookup j = some q) : st.queueOf j = q := by
  rw [queueOf, known]
  rfl

section Command

variable {t : Thread} {d : Drain} {acts : List Act}

theorem tell_nil (st : Stage) : st.tell [] = st := by
  simp [tell, withWorld, World.tell]

theorem moveThread_of_queue (top : t.frames = .queue k d :: rest) :
    st.moveThread t = st.nextCommand t.number rest k d := by
  rw [Stage.moveThread, top]

/-- A step takes its next command. -/
theorem nextCommand_of_take {r : CommandQueue CommandScript} {e : Drain} {c : CommandScript}
    (known : st.queues.lookup k = some q) (taken : q.take d = some (c, r, e)) :
    st.nextCommand n rest k d =
      ((st.setQueue k r).reveal (.command c.tag)).goOn n
        (.command c.acts :: .queue k e :: rest) := by
  unfold Stage.nextCommand
  simp only [known, Option.getD_some, taken]
  rfl

/-- A step with nothing to take resumes. -/
theorem nextCommand_of_spent (known : st.queues.lookup k = some q) (spent : q.take d = none) :
    st.nextCommand n rest k d =
      Stage.deliver n rest (.verdict (.outcome .resume))
        (st.tell (if 0 < d.applied then [.queueDrained d.applied] else [])) := by
  unfold Stage.nextCommand
  simp only [known, Option.getD_some, spent]
  split
  · rfl
  · rw [tell_nil]

/-- A command with nothing left to do is over. -/
theorem moveThread_of_command_nil (top : t.frames = .command [] :: rest) :
    st.moveThread t = st.goOn t.number rest := by
  rw [Stage.moveThread, top]

/-- **A command that panics ends the step.** -/
theorem moveThread_of_panic {p : Panic}
    (top : t.frames = .command (.panic p :: acts) :: .queue k d :: rest) :
    st.moveThread t = Stage.deliver t.number rest (.verdict (.panicked p)) st := by
  rw [Stage.moveThread, top]

/-- A command does an act that is no panic, and goes on. -/
theorem moveThread_of_calm {act : Act} (top : t.frames = .command (act :: acts) :: rest)
    (calm : act.panic? = none) :
    st.moveThread t =
      ((st.perform act).2.reveal (.acted "cmd" act.word (st.perform act).1)).goOn t.number
        (.command acts :: rest) := by
  rw [Stage.moveThread, top]
  cases act <;> first | rfl | cases calm

theorem noteFrames_of_calm {act : Act} (calm : act.panic? = none) (j : JobRef) :
    st.noteFrames j (.command (act :: acts) :: rest) = st.handed j act := by
  cases act <;> first | rfl | cases calm

theorem noteFrames_of_panic {p : Panic} (known : st.queues.lookup k = some q) :
    st.noteFrames k (.command (.panic p :: acts) :: .queue k d :: rest) =
      [.ended (.panicked p) q.queued] := by
  simp only [noteFrames, if_true, queueOf_eq known]

theorem noteFrames_of_queue (known : st.queues.lookup k = some q) :
    st.noteFrames k (.queue k d :: rest) = match q.take d with
      | some (c, _, _) => [.started c]
      | none => [.ended (.outcome .resume) q.queued] := by
  simp only [noteFrames, if_true, queueOf_eq known]

end Command

/-! ## A step begins -/

/-- A thread that is about to begin a step: below, nothing drains, and if nothing is below, the job
is the one that the thread was launched for. -/
theorem Owner.Runs.of_launch {o : Owner} (h : o.Runs (.launch k :: rest)) :
    (∀ f ∈ rest, f.isPlain = true) ∧ (rest = [] → o.launched k) := by
  cases h with
  | plain plain => exact absurd (plain _ List.mem_cons_self) (by simp [Frame.isPlain])
  | launch plain own => exact ⟨plain, own⟩

theorem Owner.Runs.of_queue {o : Owner} {d : Drain} (h : o.Runs (.queue k d :: rest)) :
    (∀ f ∈ rest, f.isPlain = true) ∧ (rest = [] → o.launched k) := by
  cases h with
  | plain plain => exact absurd (plain _ List.mem_cons_self) (by simp [Frame.isPlain])
  | queue _ plain own => exact ⟨plain, own⟩

/-- A command runs above the queue that it comes from. -/
theorem Owner.Runs.of_command {o : Owner} {acts : List Act} (h : o.Runs (.command acts :: rest)) :
    ∃ j d below, rest = .queue j d :: below ∧ (∀ f ∈ below, f.isPlain = true) ∧
      (below = [] → o.launched j) := by
  cases h with
  | plain plain => exact absurd (plain _ List.mem_cons_self) (by simp [Frame.isPlain])
  | command _ d plain own => exact ⟨_, d, _, rfl, plain, own⟩

/-- A thread drains what its frames say. -/
theorem Tame.not_drains (tame : st.Tame) {t : Thread} (ht : t ∈ st.threads)
    (idle : draining? t.frames = none) (x : JobRef × Drain × List Act) :
    ¬ st.Drains t.number x := by
  rintro ⟨u, hu, number, here⟩
  rw [tame.thread_unique hu ht number, idle] at here
  cases here

theorem Tame.drains_only (tame : st.Tame) {t : Thread} (ht : t ∈ st.threads)
    {x : Drain × List Act} (here : draining? t.frames = some (k, x)) (i : JobRef)
    (y : Drain × List Act) (hy : st.Drains t.number (i, y)) : i = k :=
  congrArg Prod.fst (tame.drains_unique hy ⟨t, ht, rfl, here⟩)

/-- A job that drains no queue begins a step. -/
theorem Tame.beginStep_leaves (tame : st.Tame) (n : Nat) (plain : ∀ f ∈ rest, f.isPlain = true)
    (other : ∀ sender, st.conducts.lookup k ≠ some (.scripted (.queue sender))) :
    Leaves n st (st.beginStep n rest k) := by
  have handed : ∀ st₁, Rests n st st₁ → ∀ s, Leaves n st (Stage.deliver n rest s st₁) :=
    fun _ h s => h.leaves (h.tame.deliver n plain s)
  unfold beginStep
  dsimp only
  split
  · split
    · refine handed _ ?_ _
      exact tame.rests n rfl rfl rfl rfl (.refl _)
    · refine (tame.begun n _).leaves ((tame.begun n _).tame.park n _ _ _ ?_)
      simpa [Frame.isPlain] using plain
  · next sender told => exact absurd told (other sender)
  all_goals
    refine handed _ ?_ _
    exact tame.rests n rfl rfl rfl rfl (.refl _)

/-- A job that drains a queue begins a step. -/
theorem beginStep_of_queue {sender : Handle}
    (told : st.conducts.lookup k = some (.scripted (.queue sender)))
    (known : st.queues.lookup k = some q) :
    st.beginStep n rest k =
      { st with begun := bind st.begun k ((st.begun.lookup k).getD 0 + 1) }.goOn n
        (.queue k q.beginStep :: rest) := by
  unfold Stage.beginStep
  simp only [told, known, Option.getD_some]

/-- **A job begins a step**: if it drains a queue, it finds what is queued. -/
theorem Tame.beginStep_moved (tame : st.Tame) {t : Thread} (ht : t ∈ st.threads)
    (top : t.frames = .launch k :: rest) (free : st.waits t = false) :
    Moved t.number st (st.beginStep t.number rest k) fun j =>
      st.noteFrames j (.launch k :: rest) := by
  have idle : draining? t.frames = none := by rw [top]; rfl
  obtain ⟨plain, own⟩ := Owner.Runs.of_launch (top ▸ tame.runs t ht)
  by_cases drains : ∃ sender, st.conducts.lookup k = some (.scripted (.queue sender))
  · obtain ⟨sender, told⟩ := drains
    obtain ⟨q, known⟩ := Option.isSome_iff_exists.1 (tame.conducts told)
    have unused : st.work? k = none := by simpa [waits, top, told] using free
    have tame₁ := (tame.begun t.number (bind st.begun k ((st.begun.lookup k).getD 0 + 1))).tame
    obtain ⟨tame', cells⟩ := tame₁.goOn_cells ht (.queue q.beginStep plain own) rfl known
      (fun m y hy => absurd hy (tame.work?_eq_none.1 unused m y))
      (fun i y hy => absurd hy (tame.not_drains ht idle (i, y)))
    rw [beginStep_of_queue told known]
    refine ⟨steps_of_cell tame' (cell?_of_lookup known) cells ?_ fun j hj => ?_,
      goes_goOn _ _ fun _ _ => Iff.rfl⟩
    · have noted : st.noteFrames k (.launch k :: rest) = [.began q.queued] := by
        simp only [noteFrames, told, if_true, queueOf_eq known]
      rw [noted, unused]
      exact .began q
    · simp only [noteFrames, told, if_neg hj]
  · have other : ∀ sender, st.conducts.lookup k ≠ some (.scripted (.queue sender)) :=
      fun sender told => drains ⟨sender, told⟩
    have silent : (fun j => st.noteFrames j (.launch k :: rest)) = fun _ => [] := by
      funext j
      unfold noteFrames
      dsimp only
      split
      · next told => exact absurd told (other _)
      · rfl
    rw [silent]
    exact (tame.beginStep_leaves t.number plain other).moved tame (tame.not_drains ht idle)

/-! ## A step goes on -/

/-- **A step takes its next command, or ends.** -/
theorem Tame.nextCommand_moved (tame : st.Tame) {t : Thread} (ht : t ∈ st.threads) {d : Drain}
    (top : t.frames = .queue k d :: rest) :
    Moved t.number st (st.nextCommand t.number rest k d) fun j =>
      st.noteFrames j (.queue k d :: rest) := by
  have here : st.Drains t.number (k, d, []) := ⟨t, ht, rfl, by rw [top]; rfl⟩
  obtain ⟨plain, own⟩ := Owner.Runs.of_queue (top ▸ tame.runs t ht)
  obtain ⟨q, known⟩ := Option.isSome_iff_exists.1 (tame.known here)
  have others : ∀ j, j ≠ k → st.noteFrames j (.queue k d :: rest) = [] := fun j hj => if_neg hj
  have mine : st.noteFrames k (.queue k d :: rest) = _ := noteFrames_of_queue known
  cases taken : q.take d with
  | none =>
    rw [nextCommand_of_spent known taken]
    have told := tame.tell t.number (if 0 < d.applied then [.queueDrained d.applied] else [])
    have ended := told.leaves (told.tame.deliver t.number plain (.verdict (.outcome .resume)))
    refine ⟨ended.steps_ended tame here others fun q' known' => ?_, ended.goes⟩
    obtain rfl : q = q' := Option.some.inj (known.symm.trans known')
    rw [mine, taken]
    exact .resumed taken
  | some next =>
    obtain ⟨c, r, e⟩ := next
    rw [nextCommand_of_take known taken]
    obtain ⟨-, -, isOpen⟩ := CommandQueue.drain_of_take taken
    have queued := CommandQueue.queued_of_take taken
    have tame₁ : (st.setQueue k r).Tame := by
      refine tame.setQueue known isOpen fun shut => ?_
      have empty := tame.empty known (isOpen ▸ shut)
      rw [queued] at empty
      cases empty
    have tame₂ : ((st.setQueue k r).reveal (.command c.tag)).Tame := (tame₁.reveal 0 _).tame
    have known₂ : ((st.setQueue k r).reveal (.command c.tag)).queues.lookup k = some r := by
      show (st.setQueue k r).queues.lookup k = some r
      rw [lookup_setQueue, known]
      simp
    have draining : draining? t.frames = some (k, d, []) := by rw [top]; rfl
    obtain ⟨tame', cells⟩ := tame₂.goOn_cells ht (.command c.acts e plain own) rfl known₂
      (fun m y hy => tame.alone hy here) (tame.drains_only ht draining)
    have after (j : JobRef) := (cells j).trans (ite_congr rfl (fun _ => rfl) fun hj =>
      (cell?_setQueue known r j).trans (if_neg hj))
    refine ⟨steps_of_cell tame' (cell?_of_lookup known) after ?_ others,
      goes_goOn _ _ fun _ _ => Iff.rfl⟩
    rw [mine, taken, tame.work?_eq_some.2 ⟨t.number, here⟩]
    exact .started taken

/-! ## A command or a step acts -/

/-- A step or a hook does an act that is over at once. -/
theorem nextAct_of_act {who : String} {index : Nat} {act : Act} {acts : List Act} {ending : Signal}
    (waits : ∀ millis, act ≠ .pause millis) (calls : ∀ inner, act ≠ .await inner) :
    st.nextAct n rest who index (act :: acts) ending =
      ((st.perform act).2.reveal (.acted who act.word (st.perform act).1)).goOn n
        (.body who index acts ending :: rest) := by
  unfold Stage.nextAct
  split
  · contradiction
  · next h => cases h; exact absurd rfl (waits _)
  · next h => cases h; exact absurd rfl (calls _)
  · next h => cases h; rfl

/-- **A step or a hook does its next act.** -/
theorem Tame.nextAct_moved (tame : st.Tame) {t : Thread} (ht : t ∈ st.threads)
    (plain : ∀ f ∈ t.frames, f.isPlain = true) (below : ∀ f ∈ rest, f.isPlain = true)
    (who : String) (index : Nat) (acts : List Act) (ending : Signal) :
    Moved t.number st (st.nextAct t.number rest who index acts ending) fun j =>
      st.noteFrames j (.body who index acts ending :: rest) := by
  have idle := tame.not_drains ht (draining?_of_plain plain)
  have body : ∀ acts, ∀ f ∈ Frame.body who index acts ending :: rest, f.isPlain = true := by
    simpa [Frame.isPlain] using below
  cases acts with
  | nil => exact (tame.deliver t.number below ending).moved tame idle
  | cons act acts =>
    by_cases waits : ∃ millis, act = .pause millis
    · obtain ⟨millis, rfl⟩ := waits
      refine (tame.park t.number who index millis ?_).moved tame idle
      simpa [Frame.isPlain] using below
    · by_cases calls : ∃ inner, act = .await inner
      · obtain ⟨inner, rfl⟩ := calls
        have awaiting : ∀ f ∈ .awaiting who :: .body who index acts ending :: rest,
            f.isPlain = true := by simpa [Frame.isPlain] using below
        have silent : (fun j => st.noteFrames j (.body who index (.await inner :: acts) ending ::
          rest)) = fun _ => [] := rfl
        rw [silent]
        unfold Stage.nextAct
        dsimp only
        split
        · next e st' called =>
          have begun := tame.errand? t.number called
          refine (begun.leaves (begun.tame.goOn t.number ?_)).moved tame idle
          simpa [Frame.isPlain] using below
        · exact (tame.deliver t.number awaiting (.answer .notAsync)).moved tame idle
      · obtain ⟨acted, kept⟩ := tame.perform_steps act
        have seen := acted.tame.reveal t.number (.acted who act.word (st.perform act).1)
        rw [nextAct_of_act (fun millis same => waits ⟨millis, same⟩)
          fun inner same => calls ⟨inner, same⟩]
        have gone := seen.leaves (seen.tame.goOn t.number (body acts))
        exact ⟨acted.stays (gone.stays acted.tame fun x hx => idle x (kept.drains.1 hx)),
          goes_goOn _ _ fun _ _ => kept.drains⟩

/-- **A command does its next act**, or panics. -/
theorem Tame.command_moved (tame : st.Tame) {t : Thread} (ht : t ∈ st.threads) {acts : List Act}
    (top : t.frames = .command acts :: rest) :
    Moved t.number st (st.moveThread t) fun j => st.noteFrames j t.frames := by
  obtain ⟨k, d, below, rfl, plain, own⟩ := Owner.Runs.of_command (top ▸ tame.runs t ht)
  have draining : draining? t.frames = some (k, d, acts) := by rw [top]; rfl
  have here : st.Drains t.number (k, d, acts) := ⟨t, ht, rfl, draining⟩
  obtain ⟨q, known⟩ := Option.isSome_iff_exists.1 (tame.known here)
  have before : st.cell? k = some ⟨q, some (d, acts)⟩ := by
    rw [cell?_of_lookup known, tame.work?_eq_some.2 ⟨t.number, here⟩]
  cases acts with
  | nil =>
    rw [moveThread_of_command_nil top, top]
    obtain ⟨tame', cells⟩ := tame.goOn_cells ht (.queue d plain own) rfl known
      (fun m y hy => tame.alone hy here) (tame.drains_only ht draining)
    exact ⟨steps_of_cell tame' before cells (.rests _) fun _ _ => rfl,
      goes_goOn _ _ fun _ _ => Iff.rfl⟩
  | cons act acts =>
    obtain ⟨p, rfl⟩ | calm := act.panic_cases
    · rw [moveThread_of_panic top, top]
      have ended := tame.deliver t.number plain (.verdict (.panicked p))
      refine ⟨ended.steps_ended tame here (fun j hj => if_neg hj) fun q' known' => ?_, ended.goes⟩
      obtain rfl : q = q' := Option.some.inj (known.symm.trans known')
      rw [noteFrames_of_panic known]
      exact .panicked q d p acts
    · rw [moveThread_of_calm top calm, top, funext (noteFrames_of_calm calm)]
      obtain ⟨acted, kept⟩ := tame.perform_steps act
      obtain ⟨⟨r, work⟩, between, -⟩ := acted.turn before
      obtain ⟨known', work'⟩ := lookup_of_cell? between
      -- Somebody may have been put on meanwhile, but the thread is still where it was.
      have here' := kept.drains.2 here
      obtain ⟨u, hu, number, draining'⟩ := here'
      obtain ⟨t', ht', number', owner⟩ := kept.owners u hu (number ▸ tame.below t ht)
      obtain rfl := tame.thread_unique ht' ht (number'.trans number)
      have seen := (acted.tame.reveal 0 (.acted "cmd" act.word (st.perform act).1)).tame
      have runs : u.owner.Runs (.command acts :: .queue k d :: below) :=
        owner ▸ .command acts d plain own
      obtain ⟨tame', cells⟩ := seen.goOn_cells hu runs rfl known'
        (fun m y hy => acted.tame.alone hy ⟨u, hu, rfl, draining'⟩)
        (acted.tame.drains_only hu draining')
      have working : work = some (d, act :: acts) :=
        work'.symm.trans (acted.tame.work?_eq_some.2 ⟨u.number, u, hu, rfl, draining'⟩)
      rw [working] at between
      have old : st.cell? k ≠ none := by rw [before]; simp
      have step := acted.goes_on tame' old between cells (.acted r d acts calm)
      rw [number] at step
      exact ⟨step, goes_goOn _ _ fun _ _ => kept.drains⟩

/-! ## Any thread moves -/

/-- **A call begins**: its thread drains nothing yet, even if it is to begin a step. -/
theorem Tame.beginErrand_leaves (tame : st.Tame) (n : Nat)
    (plain : ∀ f ∈ rest, f.isPlain = true) (e : Errand) :
    Leaves n st (st.beginErrand n rest e) := by
  have answered : ∀ a {st : Stage}, st.Tame →
      Leaves n st (Stage.deliver n rest (.answer a) st) :=
    fun a _ tame => tame.deliver n plain (.answer a)
  cases e with
  | answer a => exact answered a tame
  | stop r =>
    have told : Rests n st (st.withWorld (st.world.stop r).2) :=
      tame.withWorld n (.of_eq (World.forest_stop _ r))
    unfold beginErrand
    dsimp only
    split
    · refine told.leaves (told.tame.untilEnd n r ?_)
      simpa [Frame.isPlain] using plain
    · exact told.leaves (answered _ told.tame)
  | wait r =>
    refine tame.goOn n ?_
    simpa [Frame.isPlain] using plain
  | step j =>
    refine tame.goOn_idle n (fun _ => .launch ?_ fun none_ => by cases none_) rfl
    simpa [Frame.isPlain] using plain
  | load e s =>
    have told : Rests n st (st.withWorld (st.world.load e s).2) :=
      tame.withWorld n (.of_eq (World.forest_load _ e s))
    exact told.leaves (told.tame.handleProgress n plain answered _)
  | startEngine e source =>
    have told (s : Source) : Rests n st (st.withWorld (st.world.startEngine e s).2) :=
      tame.withWorld n (.of_eq (World.forest_startEngine _ e s))
    exact (told _).leaves ((told _).tame.handleProgress n plain answered _)
  | stopEngine e =>
    have told : Rests n st (st.withWorld (st.world.stopEngine e).2) :=
      tame.withWorld n (.of_eq (World.forest_stopEngine _ e))
    exact told.leaves (told.tame.handleProgress n plain answered _)

/-- **A thread moves.** -/
theorem Tame.moveThread_moved (tame : st.Tame) {t : Thread} (ht : t ∈ st.threads)
    (free : st.waits t = false) :
    Moved t.number st (st.moveThread t) fun j => st.noteFrames j t.frames := by
  cases top : t.frames with
  | nil =>
    have idle := tame.not_drains ht (by rw [top]; rfl)
    have done : st.moveThread t = st.close t.number := by rw [Stage.moveThread, top]
    rw [done]
    exact (tame.close t.number).moved tame idle
  | cons f rest =>
    have runs := top ▸ tame.runs t ht
    -- A thread with a plain frame on top drains nothing, and has nothing noted.
    have quiet : f.isPlain = true → (∀ g ∈ rest, g.isPlain = true) ∧ ∀ st' : Stage,
        Leaves t.number st st' → Moved t.number st st' fun _ => [] := by
      intro plain
      have all := runs.plain_of_cons plain
      have idle := tame.not_drains ht (by rw [top]; exact draining?_of_plain all)
      exact ⟨fun g hg => all g (List.mem_cons_of_mem f hg), fun st' h => h.moved tame idle⟩
    cases f with
    | launch k =>
      rw [Stage.moveThread, top]
      exact tame.beginStep_moved ht top free
    | queue k d =>
      rw [Stage.moveThread, top]
      exact tame.nextCommand_moved ht top
    | command acts => rw [← top]; exact tame.command_moved ht top
    | body who index acts ending =>
      rw [Stage.moveThread, top]
      exact tame.nextAct_moved ht (top ▸ runs.plain_of_cons rfl) (quiet rfl).1 who index acts ending
    | reveal e =>
      rw [Stage.moveThread, top]
      have seen := tame.reveal t.number e
      exact (quiet rfl).2 _ (seen.leaves (seen.tame.goOn t.number (quiet rfl).1))
    | errand e =>
      rw [Stage.moveThread, top]
      exact (quiet rfl).2 _ (tame.beginErrand_leaves t.number (quiet rfl).1 e)
    | untilEnd r answer =>
      refine (quiet rfl).2 _ ?_
      rw [Stage.moveThread, top]
      dsimp only
      split
      · exact tame.deliver t.number (quiet rfl).1 _
      · exact tame.untilEnd t.number r (runs.plain_of_cons rfl)
    | engineEnd c r =>
      refine (quiet rfl).2 _ ?_
      rw [Stage.moveThread, top]
      dsimp only
      split
      · have told : Rests t.number st (st.withWorld (st.world.schedulerEnded c).2) :=
          tame.withWorld t.number (.of_eq (World.forest_schedulerEnded _ c))
        exact told.leaves (told.tame.handleProgress t.number (quiet rfl).1
          (fun a _ tame => tame.deliver t.number (quiet rfl).1 (.answer a)) _)
      · exact tame.untilEnd t.number r (runs.plain_of_cons rfl)
    | awaiting | stepping | engine =>
      rw [Stage.moveThread, top]
      exact (quiet rfl).2 _ (tame.goOn t.number (quiet rfl).1)

/-! ## What is no thread's move -/

theorem Tame.drive_stays (tame : st.Tame) (r : SchedulerRef) : Stays st (st.doTask (.drive r)) := by
  refine tame.stays_of_rests fun k => ?_
  have told : Rests k st (st.withWorld (st.world.poll r).2) :=
    tame.withWorld k (.of_eq (World.forest_poll _ r))
  have wave := told.trans (told.tame.launchWave k r (st.world.poll r).1)
  unfold Stage.doTask
  dsimp only
  split
  · exact wave.trans (wave.tame.agenda k _)
  · exact wave

theorem Tame.openGate_stays (tame : st.Tame) (n : Nat) : Stays st (st.openGate n) := by
  have retains : Retains fun t => { t with gate := none } := ⟨fun _ => rfl, fun _ => rfl⟩
  have opened : Rests n st (st.update n fun t => { t with gate := none }) := by
    refine tame.update retains (fun t ht _ => tame.runs t ht) fun t ht number j x here => ?_
    have drains : st.Drains n (j, x) := ⟨t, ht, number, here⟩
    exact ⟨tame.known drains, fun m y hy => tame.alone hy drains⟩
  have same : ∀ {m x}, (st.update n fun t => { t with gate := none }).Drains m x ↔
      st.Drains m x := by
    intro m x
    by_cases hm : m = n
    · subst hm
      exact retains.drains_self
    · exact opened.drains hm
  have all (k : Nat) : Rests k st (st.update n fun t => { t with gate := none }) :=
    { opened with drains := fun _ => same }
  exact tame.stays_of_rests fun k => (all k).trans (opened.tame.agenda k _)

/-- **A frame that drains a queue holds its job.** -/
theorem mem_holdings {x : Drain × List Act} (here : st.Drains n (k, x)) :
    k ∈ st.holdings.jobs := by
  obtain ⟨t, ht, -, draining⟩ := here
  refine List.mem_append_right _ (List.mem_flatMap.2 ⟨t, ht, List.mem_flatMap.2 ?_⟩)
  unfold draining? at draining
  split at draining
  · next j d rest frames =>
    cases draining
    exact ⟨.queue k d, by rw [frames]; simp, List.mem_singleton_self k⟩
  · next acts j d rest frames =>
    cases draining
    exact ⟨.queue k d, by rw [frames]; simp, List.mem_singleton_self k⟩
  · cases draining

/-- **Letting go keeps the jobs that are held.** -/
theorem has_tidy (st : Stage) (j : JobRef) :
    (st.tidy.world.forest.has j = true → st.world.forest.has j = true) ∧
      (j ∈ st.holdings.jobs → st.tidy.world.forest.has j = st.world.forest.has j) := by
  have swept : st.tidy.world.forest = st.world.forest.sweep
      (((st.world.releaseEngines st.holdings).releaseSchedulers st.holdings).heldJobs
        st.holdings) := rfl
  rw [swept, Forest.has_sweep]
  refine ⟨fun h => (Bool.and_eq_true_iff.1 h).2, fun held => ?_⟩
  rw [decide_eq_true (Forest.mem_reachable ?_), Bool.true_and]
  unfold World.heldJobs
  simp only [List.append_assoc]
  exact List.mem_append_left _ held

/-- **Letting go closes the queues of the jobs that are gone**, none of which is being drained. -/
theorem Tame.tidy_steps (tame : st.Tame) : Steps st st.tidy fun _ => [] := by
  have lookup (j : JobRef) : st.tidy.queues.lookup j = (st.queues.lookup j).map fun q =>
      if st.tidy.world.forest.has j then q else q.close :=
    lookup_map st.queues (fun j q => if st.tidy.world.forest.has j then q else q.close) j
  have cell (j : JobRef) : st.tidy.cell? j = (st.cell? j).map fun x =>
      { x with queue := if st.tidy.world.forest.has j then x.queue else x.queue.close } := by
    rw [cell?, lookup, cell?, Option.map_map, Option.map_map]
    rfl
  refine ⟨?_, fun {j x} here => ?_, fun {j y} absent here => ?_⟩
  · refine tame.mapQueues rfl rfl rfl rfl lookup (fun {j q} known => ?_) fun {j q} known => ?_
    · split
      · next left => rw [left, tame.isOpen known, (st.has_tidy j).1 left]
      · next gone => rw [Bool.not_eq_true] at gone; rw [gone]; rfl
    · split
      · exact tame.empty known
      · exact fun _ => rfl
  · rw [cell, here]
    refine ⟨_, rfl, ?_⟩
    obtain ⟨known, work⟩ := lookup_of_cell? here
    obtain ⟨q, busy⟩ := x
    split
    · exact .rests _
    · next gone =>
      cases busy with
      | none => exact .closed q
      | some y =>
        -- The thread that drains the queue holds the job, so it had gone before.
        obtain ⟨n, hn⟩ := tame.work?_eq_some.1 work
        rw [(st.has_tidy j).2 (mem_holdings hn), ← tame.isOpen known, Bool.not_eq_true] at gone
        have same : q.close = q := by
          have empty := tame.empty known gone
          cases q
          simp_all [CommandQueue.close]
        dsimp only
        rw [same]
        exact .rests _
  · rw [cell, absent] at here
    cases here

/-! ## Every move -/

/-- **Every move is a turn of each queue**, with what is noted of it. -/
theorem Tame.move_steps (tame : st.Tame) (m : Move) :
    Steps st (st.move m) fun j => st.noteMove j m := by
  cases m with
  | act a => exact (tame.perform_steps a).1
  | task task =>
    cases task with
    | drive r => exact (tame.drive_stays r).steps
    | resume n =>
      unfold move noteMove
      dsimp only
      cases found : st.thread? n with
      | none => exact (Stays.refl tame).steps
      | some t =>
        obtain ⟨ht, -⟩ := thread_of_thread? found
        dsimp only
        cases waits : st.waits t with
        | true => exact (Stays.refl tame).steps
        | false => exact (tame.moveThread_moved ht waits).toSteps
  | openGate n => exact (tame.openGate_stays n).steps
  | pass nanos =>
    have passed (k : Nat) : Rests k st (st.move (.pass nanos)) := tame.withWorld k (.refl _)
    exact (tame.stays_of_rests passed).steps
  | report =>
    have taken (k : Nat) : Rests k st (st.move .report) := tame.rests k rfl rfl rfl rfl (.refl _)
    exact (tame.stays_of_rests taken).steps
  | tidy => exact tame.tidy_steps
  | agenda tasks => exact (tame.stays_of_rests fun k => tame.agenda k tasks).steps

end Stage

end FrameLoop.Rehearsal

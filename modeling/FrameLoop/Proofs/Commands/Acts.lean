import FrameLoop.Proofs.Commands.Threads

/-!
# What acts leave alone

Acts make jobs, move loops and engines along and put new threads on, and what they come to is
handed down through the frames. Of all this only one act writes a queue: handing in a command. This
module goes through the rest, operation by operation, and shows that a stage rests meanwhile.
-/

namespace FrameLoop

namespace World

variable (w : World)

theorem forest_schedulerOfSettings (loopId : LoopId) (s : SchedulerSettings) :
    (w.schedulerOfSettings loopId s).2.forest = w.forest := by
  have read : ∀ (w : World) (ms : Binary64), (w.readMillis ms).2.forest = w.forest := by
    intro w ms
    unfold readMillis
    dsimp only
    split <;> rfl
  have first := read w s.frameDelayMs
  unfold schedulerOfSettings
  split
  · next h => rw [h] at first; exact first
  · next w' h =>
    rw [h] at first
    have second := read w' s.wakeupIntervalMs
    split
    · next h' => rw [h'] at second; exact second.trans first
    · next h' => rw [h'] at second; exact second.trans first

theorem keeps_unschedule (id : JobId) (r : SchedulerRef) (j : JobRef) :
    w.forest.Keeps (w.unschedule id r j).2.forest := by
  unfold unschedule
  dsimp only
  split
  · have change : Forest.Change (fun _ _ => True) w.forest _ :=
      (w.scheduler r).forest_remove w.forest j
    exact change.keeps
  · exact .refl _

theorem keeps_returned (r : SchedulerRef) (j : JobRef) (v : Verdict) :
    w.forest.Keeps (w.returned r j v).2.forest := by
  rw [forest_returned]
  unfold Scheduler.returned
  split
  · split
    · dsimp only
      split
      · have change : Forest.Change (fun _ _ => True) w.forest _ :=
          (w.scheduler r).forest_remove w.forest j
        exact change.keeps
      · exact .refl _
    · exact .refl _
  · exact .refl _

end World

namespace Rehearsal.Stage

variable {st st' : Stage} {n : Nat} {rest : List Frame}

/-! ## Acts that are over at once -/

theorem rests_withHandle {α : Type} (tame : st.Tame) (table : List (Handle × α)) (id : Handle)
    {f : α → Answer × Stage} (h : ∀ a, Rests n st (f a).2) :
    Rests n st (st.withHandle table id f).2 := by
  unfold withHandle
  split
  · exact h _
  · exact .refl tame n

theorem rests_asking {α : Type} (tame : st.Tame) (table : List (Handle × α)) (id : Handle)
    (f : α → Answer) : Rests n st (st.asking table id f).2 :=
  rests_withHandle tame table id fun _ => .refl tame n

theorem Tame.dropTrigger (tame : st.Tame) (n : Nat) (id : Handle) :
    Rests n st (st.dropTrigger id) := by
  unfold Stage.dropTrigger
  split
  · exact tame.rests n rfl rfl rfl rfl (.refl _)
  · exact .refl tame n

theorem Tame.keepTrigger (tame : st.Tame) (n : Nat) (id : Handle) (q : FeedRef) :
    Rests n st (st.keepTrigger id q) :=
  have dropped := tame.dropTrigger n id
  dropped.trans (dropped.tame.rests n rfl rfl rfl rfl (.refl _))

theorem Tame.makeSource (tame : st.Tame) (n : Nat) (source : SourceScript) :
    Rests n st (st.makeSource source).2 := by
  cases source with
  | manual id =>
    have made : Rests n st (st.withWorld st.world.newFeed.2) := tame.withWorld n (.refl _)
    exact made.trans (made.tame.keepTrigger n id _)
  | builtIn | interval | script => exact .refl tame n

theorem Tame.setUp (tame : st.Tame) (n : Nat) (id : Handle) (pace : Pace) :
    Rests n st (st.setUp id pace).2 := by
  cases pace with
  | frameDelay d => exact tame.rests n rfl rfl rfl rfl (.refl _)
  | settings s =>
    have same := st.world.forest_schedulerOfSettings loopId s
    unfold Stage.setUp
    dsimp only
    split
    · next h => rw [h] at same; exact tame.rests n rfl rfl rfl rfl (.of_eq same)
    · next h => rw [h] at same; exact tame.withWorld n (.of_eq same)

theorem Tame.startLoop (tame : st.Tame) (n : Nat) (r : SchedulerRef) (source : SourceScript) :
    Rests n st (st.startLoop r source).2 := by
  have made := tame.makeSource n source
  unfold Stage.startLoop World.startBuiltIn
  dsimp only
  split
  · exact made.trans (made.tame.withWorld n (.of_eq (World.forest_start _ r _)))
  · exact made.trans (made.tame.withWorld n (.of_eq (World.forest_start _ r _)))

theorem Tame.fire (tame : st.Tame) (n : Nat) (q : FeedRef) (t : Instant) (times : Nat) :
    Rests n st (st.fire q t times).2 := by
  induction times generalizing st with
  | zero => exact .refl tame n
  | succ times ih =>
    have fired : Rests n st (st.withWorld (st.world.fire q t).2) := tame.withWorld n (.refl _)
    cases times with
    | zero => exact fired
    | succ more => exact fired.trans (ih fired.tame)

theorem Tame.letGo (tame : st.Tame) (n : Nat) (id : Handle) (what : Held) :
    Rests n st (st.letGo id what).2 := by
  cases what with
  | trigger => exact tame.dropTrigger n id
  | job | sender | scheduler | engine | receiver | signal =>
    exact tame.rests n rfl rfl rfl rfl (.refl _)

/-! ## Acts that take time -/

theorem Tame.makeService (tame : st.Tame) (n : Nat) (sort : ServiceSort) (name : String)
    (job : Option JobScript) (start stop : HookScript) :
    Rests n st (st.makeService sort name job start stop).2 := by
  unfold Stage.makeService
  cases job with
  | none => exact tame.rests n rfl rfl rfl rfl (.refl _)
  | some spec =>
    have made := tame.makeJob n spec
    exact made.trans (made.tame.rests n rfl rfl rfl rfl (.refl _))

theorem Tame.errand? (tame : st.Tame) (n : Nat) {act : Act} {e : Errand}
    (h : st.errand? act = some (e, st')) : Rests n st st' := by
  unfold Stage.errand? at h
  split at h
  case h_5 sort name job start stop =>
    split at h
    · cases h; exact tame.makeService n sort name job start stop
    · cases h; exact .refl tame n
  case h_6 source =>
    split at h
    · cases h; exact tame.makeSource n source
    · cases h; exact .refl tame n
  case h_8 => cases h
  all_goals cases h; exact .refl tame n

/-- **Every act but one leaves the queues alone**, and all threads. -/
theorem Tame.perform (tame : st.Tame) (n : Nat) {act : Act}
    (other : ∀ sender c, act ≠ .enqueue sender c) : Rests n st (st.perform act).2 := by
  unfold Stage.perform
  split
  · next e st' called =>
    have begun := tame.errand? n called
    have put : Rests n st' (st'.spawn (.call st'.nextCall) [.errand e]) :=
      begun.tame.put n (.plain (by simp [Frame.isPlain])) rfl _
    exact (begun.trans put).trans (put.tame.rests n rfl rfl rfl rfl (.refl _))
  · cases act with
    | job spec => exact tame.makeJob n spec
    | enqueue sender c => exact absurd rfl (other sender c)
    | cloneJob id source =>
      exact rests_withHandle tame _ _ fun _ => tame.rests n rfl rfl rfl rfl (.refl _)
    | child p c =>
      refine rests_withHandle tame _ _ fun p => rests_withHandle tame _ _ fun c => ?_
      unfold World.attach
      split
      · next h =>
        split at h
        · next attached => cases h; exact tame.withWorld n (Forest.keeps_attach attached)
        · cases h
      · exact .refl tame n
    | erase p c =>
      exact rests_withHandle tame _ _ fun p => rests_withHandle tame _ _ fun c =>
        tame.withWorld n (Forest.keeps_erase _ p c)
    | same a b =>
      exact rests_withHandle tame _ _ fun _ => rests_withHandle tame _ _ fun _ => .refl tame n
    | scheduler id pace => exact tame.setUp n id pace
    | start s source => exact rests_withHandle tame _ _ fun r => tame.startLoop n r source
    | signalStop s =>
      exact rests_withHandle tame _ _ fun r =>
        tame.withWorld n (.of_eq (World.forest_signalStop _ r))
    | schedule s j =>
      exact rests_withHandle tame _ _ fun r => rests_withHandle tame _ _ fun j =>
        tame.withWorld n (.of_eq (World.forest_schedule _ r j))
    | unschedule s j =>
      exact rests_withHandle tame _ _ fun r => rests_withHandle tame _ _ fun j =>
        tame.withWorld n (st.world.keeps_unschedule _ r j)
    | contains s j =>
      exact rests_withHandle tame _ _ fun _ => rests_withHandle tame _ _ fun _ => .refl tame n
    | setFrameDelay s d =>
      exact rests_withHandle tame _ _ fun r =>
        tame.withWorld n (.of_eq (World.forest_setScheduler _ r _))
    | signal id s =>
      exact rests_withHandle tame _ _ fun _ => tame.rests n rfl rfl rfl rfl (.refl _)
    | subscribe id s =>
      exact rests_withHandle tame _ _ fun _ => tame.rests n rfl rfl rfl rfl (.refl _)
    | received id =>
      exact rests_withHandle tame _ _ fun _ => tame.rests n rfl rfl rfl rfl (.refl _)
    | fire t reading times => exact rests_withHandle tame _ _ fun q => tame.fire n q _ times
    | cloneTrigger id source =>
      refine rests_withHandle tame _ _ fun q => ?_
      have added : Rests n st (st.withWorld (st.world.addTrigger q)) := tame.withWorld n (.refl _)
      exact added.trans (added.tame.keepTrigger n id q)
    | engine id s =>
      exact rests_withHandle tame _ _ fun _ => tame.rests n rfl rfl rfl rfl (.refl _)
    | engineSchedule e j =>
      exact rests_withHandle tame _ _ fun e => rests_withHandle tame _ _ fun j =>
        tame.withWorld n (.of_eq (World.forest_schedule _ _ j))
    | drop what id => exact tame.letGo n id what
    | children | parent | root | descendants | tree | jobName | jobCount | frameDelay | state
    | stats | finished | outcome | signalState | describeScheduler | describeJob
    | describeEngine | connected | senderConnected | engineState | services | engineJobCount
    | lookup => exact rests_asking tame _ _ _
    | log | inflight | now | advance | settle | release | stop | waitScheduler | waitSignal
    | step | load | startEngine | stopEngine | pause | await | panic | unknown =>
      exact .refl tame n

/-! ## Handing down -/

theorem Tame.stepReturned (tame : st.Tame) (n : Nat) (r : SchedulerRef) (j : JobRef)
    (v : Verdict) : Leaves n st (st.stepReturned n r j v) := by
  have closed := tame.close n
  have told (k : Nat) : Rests k (st.close n) ((st.close n).withWorld (st.world.returned r j v).2) :=
    closed.tame.withWorld k (st.world.keeps_returned r j v)
  have wave (k : Nat) := (told k).trans
    ((told k).tame.launchWave k r (st.world.returned r j v).1)
  unfold Stage.stepReturned
  dsimp only
  split
  · exact (closed.rests wave).agenda _
  · exact closed.rests wave

theorem Tame.report (tame : st.Tame) (n : Nat) (s : Signal) : Leaves n st (st.report n s) := by
  have closed := tame.close n
  unfold Stage.report
  split
  · exact tame.stepReturned n _ _ _
  · exact closed.rests fun k => closed.tame.rests k rfl rfl rfl rfl (.refl _)
  · exact closed

theorem Tame.heartbeatStart (tame : st.Tame) (n : Nat) (e : EngineRef) (tag : Nat) :
    Rests n st (st.heartbeatStart e tag).2 :=
  tame.create rfl rfl rfl rfl (List.append_nil _).symm (.inr ⟨rfl, by simp⟩)

/-- **Whatever a call on an engine goes on with**, its thread drains nothing, as long as this is
so when the result is handed down. -/
theorem Tame.handleProgress (tame : st.Tame) (n : Nat) (plain : ∀ f ∈ rest, f.isPlain = true)
    {answer : Answer → Stage → Stage}
    (answered : ∀ a {st : Stage}, st.Tame → Leaves n st (answer a st))
    (progress : Engine.Progress) : Leaves n st (handleProgress n rest answer progress st) := by
  have hook : ∀ {st : Stage}, st.Tame → ∀ who index acts ending c,
      Leaves n st (st.goOn n (.body who index acts ending :: .engine c :: rest)) := by
    intro st tame who index acts ending c
    refine tame.goOn n ?_
    simpa [Frame.isPlain] using plain
  cases progress with
  | enterStart c s =>
    unfold Stage.handleProgress
    dsimp only
    split
    · have begun := tame.heartbeatStart n (st.engineOf c) s.tag
      exact begun.leaves (hook begun.tame _ _ _ _ c)
    · have seen := tame.reveal n (.entered s.name true)
      exact seen.leaves (hook seen.tame _ _ _ _ c)
    · exact hook tame _ _ _ _ c
  | enterStop c s =>
    unfold Stage.handleProgress
    dsimp only
    split
    · have told := tame.tell n [.heartbeatOffline ((st.beats.lookup s.tag).getD 0)]
      exact told.leaves (hook told.tame _ _ _ _ c)
    · have seen := tame.reveal n (.entered s.name false)
      exact seen.leaves (hook seen.tame _ _ _ _ c)
    · exact hook tame _ _ _ _ c
  | awaitEnd c r =>
    refine tame.untilEnd n r ?_
    simpa [Frame.isPlain] using plain
  | done result => exact answered _ tame

/-- **Whatever is handed down to plain frames**, the thread drains nothing afterwards. -/
theorem Tame.deliver (tame : st.Tame) (n : Nat) (plain : ∀ f ∈ rest, f.isPlain = true)
    (s : Signal) : Leaves n st (deliver n rest s st) := by
  induction rest generalizing st s with
  | nil => exact tame.report n s
  | cons f rest ih =>
    have below : ∀ g ∈ rest, g.isPlain = true := fun g hg => plain g (List.mem_cons_of_mem f hg)
    have answered : ∀ a {st : Stage}, st.Tame → Leaves n st (Stage.deliver n rest (.answer a) st) :=
      fun a _ tame => ih tame below (.answer a)
    cases f with
    | awaiting who =>
      cases s with
      | answer a =>
        have seen := tame.reveal n (.acted who "await" a)
        exact seen.leaves (seen.tame.goOn n below)
      | verdict | hook => exact tame.report n _
    | stepping j =>
      cases s with
      | verdict v => exact answered (verdictAnswer v) tame
      | answer | hook => exact tame.report n _
    | engine c =>
      cases s with
      | hook result =>
        cases result with
        | ok result =>
          have told : Rests n st (st.withWorld (st.world.hookReturned c result).2) :=
            tame.withWorld n (.of_eq (World.forest_hookReturned _ c result))
          exact told.leaves (told.tame.handleProgress n below answered _)
        | error p =>
          have told : Rests n st (st.withWorld (st.world.closeCall c)) :=
            tame.withWorld n (.refl _)
          exact told.leaves (answered (.panicked p) told.tame)
      | answer | verdict => exact tame.report n _
    | launch | reveal | body | queue | command | errand | untilEnd | engineEnd =>
      exact tame.report n s

end Rehearsal.Stage

end FrameLoop

import FrameLoop.Rehearsal.Perform

/-!
# Running threads

A thread is run one move at a time: the frame on top does one thing. What a
frame hands down when it is done goes to the frame below it, or, when there is
none, to the thread's owner (`Stage.deliver`). A move is small, so that
whatever it changes is noticed before the next.
-/

namespace FrameLoop.Rehearsal

/-- How a step ends that is scripted to end so. -/
def Ending.verdict : Ending → Verdict
  | outcome o => .outcome o
  | failed messages => .failed (.ofChain messages)
  | panicked p => .panicked p

namespace Stage

/-! ## How things end -/

/-- What the step of a job comes to, for somebody who has called for it. -/
def verdictAnswer : Verdict → Answer
  | .outcome o => .text o.word
  | .failed cause => .stepError cause
  | .panicked p => .panicked p

/-- What a call on an engine comes to. -/
def resultAnswer : Engine.Result → Answer
  | .loaded name => .loaded name
  | .started => .text "ok"
  | .stopped => .text "stopped"
  | .failed e => .engineError e

/-- How a hook ends. -/
def hookEnding (h : HookScript) (job : Option JobRef) : Signal :=
  match h.panic, h.failure with
  | some p, _ => .hook (.error p)
  | none, some messages => .hook (.ok (.failed (.ofChain messages)))
  | none, none => .hook (.ok (.ok job))

/-! ## Hooks -/

/-- A heartbeat comes online: the log is told, and a new job is made. -/
def heartbeatStart (st : Stage) (e : EngineRef) (tag : Nat) : JobRef × Stage :=
  let delay := (st.world.scheduler (st.world.engine e).scheduler).frameDelay
  let (j, w) := (st.world.tell [.heartbeatOnline delay]).newJob Demo.heartbeatName
  (j, { st with world := w, conducts := st.conducts ++ [(j, .beats tag)] })

/-- The engine on which a call has been made. -/
def engineOf (st : Stage) (c : CallRef) : EngineRef :=
  ((st.world.call? c).map (·.engine)).getD 0

/-! ## Handing down -/

/-- Go on with the call on an engine that this frame runs: what has to happen
next is put on top, or its result is handed down. -/
def handleProgress (number : Nat) (rest : List Frame)
    (answer : Answer → Stage → Stage) : Engine.Progress → Stage → Stage
  | .enterStart c s, st =>
    match st.services.lookup s.tag with
    | some ⟨.heartbeat, _, _⟩ =>
      let (j, st) := st.heartbeatStart (st.engineOf c) s.tag
      st.goOn number (.body s.name 0 [] (.hook (.ok (.ok (some j)))) :: .engine c :: rest)
    | some k =>
      (st.reveal (.entered s.name true)).goOn number
        (.body s.name k.sort.gateIndex k.start.acts (hookEnding k.start s.keeps)
          :: .engine c :: rest)
    | none => st.goOn number (.body s.name 0 [] (.hook (.ok (.ok none))) :: .engine c :: rest)
  | .enterStop c s, st =>
    match st.services.lookup s.tag with
    | some ⟨.heartbeat, _, _⟩ =>
      (st.tell [.heartbeatOffline ((st.beats.lookup s.tag).getD 0)]).goOn number
        (.body s.name 0 [] (.hook (.ok (.ok none))) :: .engine c :: rest)
    | some k =>
      (st.reveal (.entered s.name false)).goOn number
        (.body s.name k.sort.gateIndex k.stop.acts (hookEnding k.stop none) :: .engine c :: rest)
    | none => st.goOn number (.body s.name 0 [] (.hook (.ok (.ok none))) :: .engine c :: rest)
  | .awaitEnd c r, st => st.untilEnd number r (.engineEnd c r :: rest)
  | .done result, st => answer (resultAnswer result) st

/-- A step launched by a tick has returned. -/
def stepReturned (st : Stage) (number : Nat) (r : SchedulerRef) (j : JobRef) (v : Verdict) :
    Stage :=
  let (wave, w) := st.world.returned r j v
  let st := (st.close number).withWorld w
  let st := st.launchWave r wave
  if st.world.canPoll r then { st with agenda := .drive r :: st.agenda } else st

/-- The thread has nothing left to do. -/
def report (st : Stage) (number : Nat) (s : Signal) : Stage :=
  match (st.thread? number).map Thread.owner, s with
  | some (.tick r j), .verdict v => st.stepReturned number r j v
  | some (.call n), .answer a =>
    { st.close number with finished := st.finished ++ [(n, a)] }
  | _, _ => st.close number

/-- **Hand something down** to the frames below. -/
def deliver (number : Nat) : List Frame → Signal → Stage → Stage
  | .awaiting who :: rest, .answer a, st => (st.reveal (.acted who "await" a)).goOn number rest
  | .stepping _ :: rest, .verdict v, st => deliver number rest (.answer (verdictAnswer v)) st
  | .engine c :: rest, .hook (.ok result), st =>
    let (progress, w) := st.world.hookReturned c result
    handleProgress number rest (fun a => deliver number rest (.answer a)) progress (st.withWorld w)
  | .engine c :: rest, .hook (.error p), st =>
    deliver number rest (.answer (.panicked p)) (st.withWorld (st.world.closeCall c))
  | _, s, st => st.report number s

/-! ## One move -/

/-- Begin a call. -/
def beginErrand (st : Stage) (number : Nat) (rest : List Frame) : Errand → Stage
  | .answer a => deliver number rest (.answer a) st
  | .stop r =>
    let (waits, w) := st.world.stop r
    if waits then
      (st.withWorld w).untilEnd number r (.untilEnd r (fun _ => .text "stopped") :: rest)
    else deliver number rest (.answer (.text "stopped")) (st.withWorld w)
  | .wait r => st.goOn number (.untilEnd r Answer.ofCompletion :: rest)
  | .step j => st.goOn number (.launch j :: .stepping j :: rest)
  | .load e s =>
    let (progress, w) := st.world.load e s
    handleProgress number rest (fun a => deliver number rest (.answer a)) progress (st.withWorld w)
  | .startEngine e source =>
    let source := source.getD ((st.world.scheduler (st.world.engine e).scheduler).builtIn
      st.world.clock)
    let (progress, w) := st.world.startEngine e source
    handleProgress number rest (fun a => deliver number rest (.answer a)) progress (st.withWorld w)
  | .stopEngine e =>
    let (progress, w) := st.world.stopEngine e
    handleProgress number rest (fun a => deliver number rest (.answer a)) progress (st.withWorld w)

/-- Begin the next step of a job. -/
def beginStep (st : Stage) (number : Nat) (rest : List Frame) (j : JobRef) : Stage :=
  let n := (st.begun.lookup j).getD 0 + 1
  let st := { st with begun := bind st.begun j n }
  let verdict (v : Verdict) (st : Stage) := deliver number rest (.verdict v) st
  match st.conducts.lookup j with
  | some (.scripted (.steps steps cycle)) =>
    let step := (Behaviour.stepAt steps cycle n).getD .plain
    let ending := Ending.verdict step.ending
    if step.immediate then verdict ending st
    else
      let who := st.label j
      st.park number who j step.delay
        (.reveal (.ran who n) :: .body who j step.acts (.verdict ending) :: rest)
  | some (.scripted (.queue _)) =>
    let drain := ((st.queues.lookup j).getD {}).beginStep
    st.goOn number (.queue j drain :: rest)
  | some (.scripted .warmup) => verdict (.outcome .detach) (st.tell [.warmupComplete])
  | some (.scripted (.faultInjector after)) => verdict (.outcome (Demo.faultInjector after n)) st
  | some (.beats tag) =>
    let beat := (st.beats.lookup tag).getD 0 + 1
    verdict (.outcome .resume)
      ({ st with beats := bind st.beats tag beat }.tell (Demo.beatNotices beat))
  | none => verdict (.outcome .resume) st

/-- Take the next command of a queue, or end the step. -/
def nextCommand (st : Stage) (number : Nat) (rest : List Frame) (j : JobRef)
    (d : CommandQueue.Drain) : Stage :=
  match ((st.queues.lookup j).getD {}).take d with
  | some (c, q, d) =>
    let st := { st with queues := st.queues.map fun (k, old) => (k, if k = j then q else old) }
    (st.reveal (.command c.tag)).goOn number (.command c.acts :: .queue j d :: rest)
  | none =>
    deliver number rest (.verdict (.outcome .resume))
      (if 0 < d.applied then st.tell [.queueDrained d.applied] else st)

/-- Do the next act of a step or a hook. -/
def nextAct (st : Stage) (number : Nat) (rest : List Frame) (who : String) (index : Nat)
    (acts : List Act) (ending : Signal) : Stage :=
  match acts with
  | [] => deliver number rest ending st
  | .pause millis :: acts =>
    st.park number who index millis
      (.reveal (.acted who "pause" .nothing) :: .body who index acts ending :: rest)
  | .await act :: acts =>
    let below := .awaiting who :: .body who index acts ending :: rest
    match st.errand? act with
    | some (e, st) => st.goOn number (.errand e :: below)
    | none => deliver number below (.answer .notAsync) st
  | act :: acts =>
    let (answer, st) := st.perform act
    (st.reveal (.acted who act.word answer)).goOn number (.body who index acts ending :: rest)

/-- **One move of a thread.** -/
def moveThread (st : Stage) (t : Thread) : Stage :=
  match t.frames with
  | [] => st.close t.number
  | .launch j :: rest => st.beginStep t.number rest j
  | .reveal e :: rest => (st.reveal e).goOn t.number rest
  | .body who index acts ending :: rest => st.nextAct t.number rest who index acts ending
  | .queue j d :: rest => st.nextCommand t.number rest j d
  | .command [] :: rest => st.goOn t.number rest
  | .command (.panic p :: _) :: .queue _ _ :: rest =>
    deliver t.number rest (.verdict (.panicked p)) st
  | .command (act :: acts) :: rest =>
    let (answer, st) := st.perform act
    (st.reveal (.acted "cmd" act.word answer)).goOn t.number (.command acts :: rest)
  | .errand e :: rest => st.beginErrand t.number rest e
  | .untilEnd r answer :: rest =>
    match (st.world.scheduler r).outcome with
    | some c => deliver t.number rest (.answer (answer c)) st
    | none => st.untilEnd t.number r t.frames
  | .engineEnd c r :: rest =>
    if st.hasEnded r then
      let (progress, w) := st.world.schedulerEnded c
      handleProgress t.number rest (fun a => deliver t.number rest (.answer a)) progress
        (st.withWorld w)
    else st.untilEnd t.number r t.frames
  | .awaiting _ :: rest | .stepping _ :: rest | .engine _ :: rest => st.goOn t.number rest

/-- **Do one thing of the agenda.** -/
def doTask (st : Stage) : Task → Stage
  | .drive r =>
    let (wave, w) := st.world.poll r
    let st := (st.withWorld w).launchWave r wave
    if st.world.canPoll r then { st with agenda := .drive r :: st.agenda } else st
  | .resume number =>
    match st.thread? number with
    | some t => st.moveThread t
    | none => st

end Stage

end FrameLoop.Rehearsal

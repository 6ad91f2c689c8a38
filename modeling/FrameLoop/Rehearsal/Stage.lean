import FrameLoop.Demo
import FrameLoop.Describe
import FrameLoop.CommandQueue
import FrameLoop.Rehearsal.Answer
import FrameLoop.World.Holdings

/-!
# The stage

The state of a rehearsal: the world, what the handles stand for, what the jobs
and services have been told to do, and the *threads* of acts under way. A
thread runs a stack of frames: a step may await a call, the call may run a
hook, the hook may await a further call. It stands still at a *gate*, which is
opened one at a time and in a fixed order, or until a loop has ended.

What is to be done next is an agenda: threads that can go on and drivers that
may look up.
-/

namespace FrameLoop.Rehearsal

/-! ## Tables -/

/-- Bind a key, and unbind what it was bound to. -/
def bind {κ α : Type} [BEq κ] (table : List (κ × α)) (k : κ) (v : α) : List (κ × α) :=
  table.filter (·.1 != k) ++ [(k, v)]

/-- Unbind a key. -/
def unbind {κ α : Type} [BEq κ] (table : List (κ × α)) (k : κ) : List (κ × α) :=
  table.filter (·.1 != k)

/-! ## Threads -/

/-- **What a frame hands to the frame below it.** -/
inductive Signal where
  /-- How a step ended. -/
  | verdict (v : Verdict)
  /-- How a hook ended. -/
  | hook (result : Except Panic HookResult)
  /-- What a call came to. -/
  | answer (a : Answer)

/-- **A call that takes time**, with its handles looked up. -/
inductive Errand where
  | answer (a : Answer)
  | stop (r : SchedulerRef)
  | wait (r : SchedulerRef)
  | step (j : JobRef)
  | load (e : EngineRef) (s : Service)
  /-- On a source, or on the one that the scheduler brings along. -/
  | startEngine (e : EngineRef) (source : Option Source)
  | stopEngine (e : EngineRef)

/-- **What a thread has to do.** -/
inductive Frame where
  /-- Begin the next step of a job. -/
  | launch (job : JobRef)
  /-- Let something be seen. -/
  | reveal (e : Event)
  /-- Act, then end. `index` is where the gates of this body stand. -/
  | body (who : String) (index : Nat) (acts : List Act) (ending : Signal)
  /-- Apply the commands of a queue. -/
  | queue (job : JobRef) (drain : CommandQueue.Drain)
  /-- Act as a command. -/
  | command (acts : List Act)
  /-- Begin a call. -/
  | errand (e : Errand)
  /-- Take what an awaited call came to. -/
  | awaiting (who : String)
  /-- Take how the step of a job ended. -/
  | stepping (job : JobRef)
  /-- Take how the hook of a call on an engine ended. -/
  | engine (call : CallRef)
  /-- Wait for a loop to end; then answer. -/
  | untilEnd (r : SchedulerRef) (answer : Completion → Answer)
  /-- Wait for a loop to end; then go on with a call on an engine. -/
  | engineEnd (call : CallRef) (r : SchedulerRef)

/-- Whom a thread reports to. -/
inductive Owner where
  /-- The tick that launched the step. -/
  | tick (r : SchedulerRef) (j : JobRef)
  /-- The list of finished calls. -/
  | call (n : Nat)

/-- **Where a thread stands still.** Gates are opened in the order of `due`,
then `index`, then `seq`. -/
structure Gate where
  due : Nat
  index : Nat
  seq : Nat
  who : String

def Gate.before (a b : Gate) : Bool :=
  a.due < b.due || (a.due == b.due && (a.index < b.index || (a.index == b.index && a.seq < b.seq)))

/-- **A thread.** -/
structure Thread where
  number : Nat
  owner : Owner
  frames : List Frame
  gate : Option Gate := none
  awaits : Option SchedulerRef := none

/-- Something to be done next. -/
inductive Task where
  | drive (r : SchedulerRef)
  | resume (thread : Nat)
deriving DecidableEq

/-! ## The stage -/

/-- What a job does when its step begins. -/
inductive Conduct where
  | scripted (b : Behaviour)
  /-- Beat for the heartbeat service with this tag. -/
  | beats (tag : Nat)

/-- What a service has been told to do. -/
structure ServiceConduct where
  sort : ServiceSort
  start : HookScript
  stop : HookScript

/-- **The state of a rehearsal.** -/
structure Stage where
  world : World := {}
  jobs : List (Handle × JobRef) := []
  triggers : List (Handle × FeedRef) := []
  senders : List (Handle × JobRef) := []
  schedulers : List (Handle × SchedulerRef) := []
  engines : List (Handle × EngineRef) := []
  /-- Receivers, each with the number of ticks it has seen. -/
  receivers : List (Handle × SchedulerRef × Nat) := []
  signals : List (Handle × SchedulerRef) := []
  /-- The first handle of each job. -/
  labels : List (JobRef × Handle) := []
  conducts : List (JobRef × Conduct) := []
  /-- How many steps each job has begun. -/
  begun : List (JobRef × Nat) := []
  queues : List (JobRef × CommandQueue CommandScript) := []
  services : List (Nat × ServiceConduct) := []
  beats : List (Nat × Nat) := []
  threads : List Thread := []
  agenda : List Task := []
  events : List Event := []
  finished : List (Nat × Answer) := []
  nextThread : Nat := 0
  nextSeq : Nat := 0
  nextCall : Nat := 1
  nextService : Nat := 0

namespace Stage

/-- The clock, in milliseconds. -/
def millis (st : Stage) : Nat := st.world.clock / nanosPerMilli

/-- The handle by which a job appears. -/
def label (st : Stage) (j : JobRef) : Handle := (st.labels.lookup j).getD ""

/-- The id by which a job appears in messages. -/
def jobId (st : Stage) (j : JobRef) : JobId := ⟨"<" ++ st.label j ++ ">"⟩

/-- The id by which all loops appear. -/
def loopId : LoopId := ⟨"<loop>"⟩

def reveal (st : Stage) (e : Event) : Stage := { st with events := st.events ++ [e] }

def withWorld (st : Stage) (w : World) : Stage := { st with world := w }

def tell (st : Stage) (ns : List Notice) : Stage := st.withWorld (st.world.tell ns)

/-! ## Handles -/

/-- Keep a job under a handle. -/
def keepJob (st : Stage) (id : Handle) (j : JobRef) : Stage :=
  { st with
    jobs := bind st.jobs id j
    labels := if (st.labels.lookup j).isSome then st.labels else st.labels ++ [(j, id)] }

/-- Let a trigger go. -/
def dropTrigger (st : Stage) (id : Handle) : Stage :=
  match st.triggers.lookup id with
  | some q => { st with world := st.world.dropTrigger q, triggers := unbind st.triggers id }
  | none => st

/-- Keep a trigger under a handle. -/
def keepTrigger (st : Stage) (id : Handle) (q : FeedRef) : Stage :=
  let st := st.dropTrigger id
  { st with triggers := bind st.triggers id q }

/-- Make a job as a script says. -/
def makeJob (st : Stage) (spec : JobScript) : JobRef × Stage :=
  let (j, w) := st.world.newJob spec.name
  let st := ({ st with world := w }).keepJob spec.id j
  let st := { st with conducts := st.conducts ++ [(j, .scripted spec.behaviour)] }
  match spec.behaviour with
  | .queue sender =>
    (j, { st with queues := st.queues ++ [(j, {})], senders := bind st.senders sender j })
  | _ => (j, st)

/-- Make the source that a script asks for; `none` stands for the one that
the scheduler brings along. -/
def makeSource (st : Stage) : SourceScript → Option Source × Stage
  | .builtIn => (none, st)
  | .manual id =>
    let (q, w) := st.world.newFeed
    (some (.manual q), (st.withWorld w).keepTrigger id q)
  | .interval period => (some (.interval (.start period st.world.clock)), st)
  | .script offers => (some (.script offers), st)

/-! ## Threads -/

/-- A new thread, first on the agenda. -/
def launch (st : Stage) (owner : Owner) (frames : List Frame) : Stage :=
  { st with
    threads := st.threads ++ [{ number := st.nextThread, owner, frames }]
    agenda := .resume st.nextThread :: st.agenda
    nextThread := st.nextThread + 1 }

/-- A new thread, last on the agenda. -/
def spawn (st : Stage) (owner : Owner) (frames : List Frame) : Stage :=
  { st with
    threads := st.threads ++ [{ number := st.nextThread, owner, frames }]
    agenda := st.agenda ++ [.resume st.nextThread]
    nextThread := st.nextThread + 1 }

/-- Threads for the steps of a wave, in order. -/
def launchWave (st : Stage) (r : SchedulerRef) (wave : List JobRef) : Stage :=
  wave.foldr (fun j st => st.launch (.tick r j) [.launch j]) st

def thread? (st : Stage) (number : Nat) : Option Thread :=
  st.threads.find? (·.number == number)

/-- Change a thread. -/
def update (st : Stage) (number : Nat) (g : Thread → Thread) : Stage :=
  { st with threads := st.threads.map fun t => if t.number = number then g t else t }

/-- A thread goes on with these frames, before anything else. -/
def goOn (st : Stage) (number : Nat) (frames : List Frame) : Stage :=
  let st := st.update number fun t => { t with frames, gate := none, awaits := none }
  { st with agenda := .resume number :: st.agenda }

/-- A thread stands still at a gate, due in `delay` milliseconds. -/
def park (st : Stage) (number : Nat) (who : String) (index delay : Nat) (frames : List Frame) :
    Stage :=
  let gate : Gate := { due := st.millis + delay, index, seq := st.nextSeq, who }
  { st.update number fun t => { t with frames, gate := some gate, awaits := none } with
    nextSeq := st.nextSeq + 1 }

/-- A thread stands still until a loop has ended. -/
def untilEnd (st : Stage) (number : Nat) (r : SchedulerRef) (frames : List Frame) : Stage :=
  st.update number fun t => { t with frames, gate := none, awaits := some r }

/-- A thread is over. -/
def close (st : Stage) (number : Nat) : Stage :=
  { st with threads := st.threads.filter (·.number != number) }

/-- The closed gates with their threads, the first to be opened first. -/
def gates (st : Stage) : List (Gate × Nat) :=
  (st.threads.filterMap fun t => t.gate.map (·, t.number)).mergeSort fun a b => a.1.before b.1

/-- Open a gate: its thread goes on when its turn comes. -/
def openGate (st : Stage) (number : Nat) : Stage :=
  let st := st.update number fun t => { t with gate := none }
  { st with agenda := st.agenda ++ [.resume number] }

/-! ## Who is held -/

/-- The jobs that a frame holds. -/
def frameJobs : Frame → List JobRef
  | .launch j | .queue j _ | .stepping j | .errand (.step j) => [j]
  | .errand (.load _ s) => s.keeps.toList
  | .body _ _ _ (.hook (.ok (.ok (some j)))) => [j]
  | _ => []

/-- The schedulers that a frame holds. -/
def frameSchedulers : Frame → List SchedulerRef
  | .errand (.stop r) => [r]
  | _ => []

/-- The engines that a frame holds. -/
def frameEngines : Frame → List EngineRef
  | .errand (.load e _) | .errand (.startEngine e _) | .errand (.stopEngine e) => [e]
  | _ => []

/-- What the handles and the threads hold. -/
def holdings (st : Stage) : Holdings where
  jobs := st.jobs.map (·.2) ++ st.threads.flatMap fun t => t.frames.flatMap frameJobs
  schedulers := st.schedulers.map (·.2) ++
    st.threads.flatMap fun t => t.frames.flatMap frameSchedulers
  engines := st.engines.map (·.2) ++ st.threads.flatMap fun t => t.frames.flatMap frameEngines

/-- Whether a loop has ended. -/
def hasEnded (st : Stage) (r : SchedulerRef) : Bool := (st.world.scheduler r).outcome.isSome

/-- The threads and drivers that can go on and are not on the agenda. -/
def awake (st : Stage) : List Task :=
  let threads := st.threads.filterMap fun t =>
    match t.awaits with
    | some r => if st.hasEnded r then some (.resume t.number) else none
    | none => none
  let drivers := (List.range st.world.schedulers.length).filterMap fun r =>
    if st.world.canPoll r then some (.drive r) else none
  (threads ++ drivers).filter fun t => !st.agenda.contains t

/-- **After every move**: what nobody holds is gone, and who can go on is put
on the agenda. -/
def tidy (st : Stage) : Stage :=
  let w := st.world.sweep st.holdings
  let st := { st with
    world := w
    queues := st.queues.map fun (j, q) => (j, if w.forest.has j then q else q.close) }
  { st with agenda := st.agenda ++ st.awake }

end Stage

end FrameLoop.Rehearsal

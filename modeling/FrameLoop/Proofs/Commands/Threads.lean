import FrameLoop.Proofs.Commands.History
import FrameLoop.Proofs.Forest.Sweep
import FrameLoop.Proofs.Run.Frame
import Mathlib.Data.List.Nodup

/-!
# Who is draining what

A queue is drained by a thread, and a thread runs a stack of frames of which only the topmost are
about a queue (`Owner.Runs`). So almost everything that a thread does concerns no queue at all.
This module says once what that means: a stage that is `Tame` stays so, and a stage `Rests` while
one of its threads is at work if the queues and what the other threads are draining stay as they
are. The primitives by which threads are put on, moved on and taken off are shown to do no more.
-/

namespace FrameLoop

open CommandQueue (Drain)

/-! ## Forests in which nobody is let go of -/

/-- **Nobody has come or gone** among the jobs that had been created. -/
structure Forest.Keeps (f f' : Forest) : Prop where
  next : f.next ≤ f'.next
  has : ∀ j < f.next, f'.has j = f.has j

namespace Forest

variable {f f' f'' : Forest}

theorem Keeps.refl (f : Forest) : f.Keeps f := ⟨Nat.le_refl _, fun _ _ => rfl⟩

theorem Keeps.of_eq (h : f' = f) : f.Keeps f' := h ▸ .refl f

theorem Keeps.trans (h : f.Keeps f') (h' : f'.Keeps f'') : f.Keeps f'' where
  next := Nat.le_trans h.next h'.next
  has j hj := (h'.has j (Nat.lt_of_lt_of_le hj h.next)).trans (h.has j hj)

theorem keeps_create (f : Forest) (name : String) : f.Keeps (f.create name).2 where
  next := Nat.le_succ _
  has j hj := by
    have old : j ≠ f.next := Nat.ne_of_lt hj
    simp [has_create, old]

theorem keeps_erase (f : Forest) (p c : JobRef) : f.Keeps (f.erase p c).2 where
  next := Nat.le_of_eq (next_erase p c).symm
  has j _ := has_erase p c j

theorem keeps_taken (f : Forest) (c : JobRef) : f.Keeps (f.taken c) where
  next := Nat.le_of_eq (next_taken c).symm
  has j _ := has_taken c j

theorem keeps_link (f : Forest) (p c : JobRef) : f.Keeps (f.link p c) :=
  ⟨Nat.le_refl _, fun j _ => has_link p c j⟩

theorem keeps_attach {p c : JobRef} {added : Bool} (h : f.attach p c = .ok (added, f')) :
    f.Keeps f' := by
  cases h ▸ f.attaches p c with
  | there => exact .refl f
  | moved => exact (f.keeps_taken c).trans (keeps_link _ p c)

/-- No change of a forest lets go of a job. -/
theorem Change.keeps {may : JobRef → JobRef → Prop} (h : Change may f f') : f.Keeps f' := by
  cases h with
  | same => exact .refl f
  | created name => exact f.keeps_create name
  | attached _ _ _ h => exact keeps_attach h
  | erased p c => exact f.keeps_erase p c

end Forest

namespace Rehearsal

variable {st st' st'' : Stage} {n m : Nat} {j k : JobRef} {frames rest : List Frame}

/-! ## What the frames of a thread are about -/

/-- Whether a frame is about no queue, nor about to be. -/
def Frame.isPlain : Frame → Bool
  | .launch _ | .queue _ _ | .command _ => false
  | _ => true

/-- **What a stack of frames is draining**: a queue, how far it has come, and the acts that the
command under way has still to do. -/
def draining? : List Frame → Option (JobRef × Drain × List Act)
  | .queue j d :: _ => some (j, d, [])
  | .command acts :: .queue j d :: _ => some (j, d, acts)
  | _ => none

/-- Whether a step that reports to this owner, and to nobody before it, is a step of the job. -/
def Owner.launched (j : JobRef) : Owner → Prop
  | .tick _ k => k = j
  | .call _ => True

/-- **The stacks of frames that a thread may run.** Only on top is a step begun or a queue
drained. -/
inductive Owner.Runs (o : Owner) : List Frame → Prop where
  | plain {frames : List Frame} (plain : ∀ f ∈ frames, f.isPlain = true) : Runs o frames
  | launch {j : JobRef} {rest : List Frame} (plain : ∀ f ∈ rest, f.isPlain = true)
    (own : rest = [] → o.launched j) : Runs o (.launch j :: rest)
  | queue {j : JobRef} {rest : List Frame} (d : Drain) (plain : ∀ f ∈ rest, f.isPlain = true)
    (own : rest = [] → o.launched j) : Runs o (.queue j d :: rest)
  | command {j : JobRef} {rest : List Frame} (acts : List Act) (d : Drain)
    (plain : ∀ f ∈ rest, f.isPlain = true) (own : rest = [] → o.launched j) :
    Runs o (.command acts :: .queue j d :: rest)

theorem draining?_of_plain (plain : ∀ f ∈ frames, f.isPlain = true) : draining? frames = none := by
  cases frames with
  | nil => rfl
  | cons f rest =>
    have top := plain f List.mem_cons_self
    cases f <;> first | rfl | cases top

/-- A stack whose topmost frame is plain is plain altogether. -/
theorem Owner.Runs.plain_of_cons {o : Owner} {f : Frame} (h : o.Runs (f :: rest))
    (top : f.isPlain = true) : ∀ g ∈ f :: rest, g.isPlain = true := by
  cases h with
  | plain plain => exact plain
  | launch | queue | command => cases top

namespace Stage

/-- **A thread drains a queue**, and has come so far. -/
def Drains (st : Stage) (n : Nat) (x : JobRef × Drain × List Act) : Prop :=
  ∃ t ∈ st.threads, t.number = n ∧ draining? t.frames = some x

/-! ## Tame stages -/

/-- **What holds of every stage**, as far as queues go. Threads have numbers of their own, no two
of them drain the same queue, and what they drain is there; the jobs with a queue are those that
drain one; and a queue is open as long as its job is there, and empty afterwards. -/
structure Tame (st : Stage) : Prop where
  numbers : (st.threads.map (·.number)).Nodup
  below : ∀ t ∈ st.threads, t.number < st.nextThread
  runs : ∀ t ∈ st.threads, t.owner.Runs t.frames
  alone : ∀ {m n j x y}, st.Drains m (j, x) → st.Drains n (j, y) → m = n
  known : ∀ {n j x}, st.Drains n (j, x) → (st.queues.lookup j).isSome = true
  conducts : ∀ {j sender}, st.conducts.lookup j = some (.scripted (.queue sender)) →
    (st.queues.lookup j).isSome = true
  conducted : ∀ {j q}, st.queues.lookup j = some q →
    ∃ sender, st.conducts.lookup j = some (.scripted (.queue sender))
  created : ∀ {j c}, st.conducts.lookup j = some c → j < st.world.forest.next
  isOpen : ∀ {j q}, st.queues.lookup j = some q → q.isOpen = st.world.forest.has j
  empty : ∀ {j q}, st.queues.lookup j = some q → q.isOpen = false → q.queued = []

theorem tame_empty : Tame {} where
  numbers := List.nodup_nil
  below := by simp
  runs := by simp
  alone := by rintro m n j x y ⟨t, ht, -⟩; cases ht
  known := by rintro n j x ⟨t, ht, -⟩; cases ht
  conducts := by rintro j sender h; cases h
  conducted := by rintro j q h; cases h
  created := by rintro j c h; cases h
  isOpen := by rintro j q h; cases h
  empty := by rintro j q h; cases h

/-- A job with a queue has been created. -/
theorem Tame.lt_next (tame : st.Tame) {q : CommandQueue CommandScript}
    (known : st.queues.lookup j = some q) : j < st.world.forest.next := by
  obtain ⟨sender, told⟩ := tame.conducted known
  exact tame.created told

/-- A thread is known by its number. -/
theorem Tame.thread_unique (tame : st.Tame) {t u : Thread} (ht : t ∈ st.threads)
    (hu : u ∈ st.threads) (same : t.number = u.number) : t = u :=
  List.inj_on_of_nodup_map tame.numbers ht hu same

theorem Tame.drains_unique (tame : st.Tame) {x y : JobRef × Drain × List Act}
    (hx : st.Drains n x) (hy : st.Drains n y) : x = y := by
  obtain ⟨t, ht, number, here⟩ := hx
  obtain ⟨u, hu, number', there⟩ := hy
  rw [tame.thread_unique ht hu (number.trans number'.symm), there] at here
  exact (Option.some.inj here).symm

theorem thread_of_thread? {t : Thread} (h : st.thread? n = some t) :
    t ∈ st.threads ∧ t.number = n :=
  ⟨List.mem_of_find?_eq_some h, by simpa using List.find?_some h⟩

/-! ## Stages at rest -/

/-- **Thread `n` has done something that is no queue's business.** Queues that were there are as
they were, and new ones are empty; the other threads drain what they were draining. -/
structure Rests (n : Nat) (st st' : Stage) : Prop where
  tame : st'.Tame
  forest : st.world.forest.Keeps st'.world.forest
  queue : ∀ {j q}, st.queues.lookup j = some q → st'.queues.lookup j = some q
  made : ∀ {j q}, st.queues.lookup j = none → st'.queues.lookup j = some q → q = {}
  nextThread : st.nextThread ≤ st'.nextThread
  owners : ∀ t' ∈ st'.threads, t'.number < st.nextThread →
    ∃ t ∈ st.threads, t.number = t'.number ∧ t.owner = t'.owner
  drains : ∀ {m x}, m ≠ n → (st'.Drains m x ↔ st.Drains m x)

/-- **Thread `n` has done so and drains nothing now.** -/
structure Leaves (n : Nat) (st st' : Stage) : Prop extends Rests n st st' where
  idle : ∀ {x}, ¬ st'.Drains n x

theorem Rests.refl (tame : st.Tame) (n : Nat) : Rests n st st where
  tame := tame
  forest := .refl _
  queue h := h
  made h h' := by rw [h] at h'; cases h'
  nextThread := Nat.le_refl _
  owners t ht _ := ⟨t, ht, rfl, rfl⟩
  drains _ := Iff.rfl

theorem Rests.trans (h : Rests n st st') (h' : Rests n st' st'') : Rests n st st'' where
  tame := h'.tame
  forest := h.forest.trans h'.forest
  queue known := h'.queue (h.queue known)
  made {j q} new known := by
    cases between : st'.queues.lookup j with
    | none => exact h'.made between known
    | some r =>
      obtain rfl := h.made new between
      exact Option.some.inj (known.symm.trans (h'.queue between))
  nextThread := Nat.le_trans h.nextThread h'.nextThread
  owners t'' ht'' old := by
    obtain ⟨t', ht', number, owner⟩ :=
      h'.owners t'' ht'' (Nat.lt_of_lt_of_le old h.nextThread)
    obtain ⟨t, ht, number', owner'⟩ := h.owners t' ht' (number ▸ old)
    exact ⟨t, ht, number'.trans number, owner'.trans owner⟩
  drains other := (h'.drains other).trans (h.drains other)

theorem Rests.leaves (h : Rests n st st') (h' : Leaves n st' st'') : Leaves n st st'' :=
  ⟨h.trans h'.toRests, h'.idle⟩

/-- What touches no thread leaves it idle. -/
theorem Leaves.rests (h : Leaves n st st') (h' : ∀ k, Rests k st' st'') : Leaves n st st'' where
  toRests := h.toRests.trans (h' n)
  idle hx := h.idle (((h' (n + 1)).drains (Nat.ne_of_lt (Nat.lt_succ_self n))).1 hx)

theorem drains_of_threads (threads : st'.threads = st.threads) {x : JobRef × Drain × List Act} :
    st'.Drains m x ↔ st.Drains m x := by
  unfold Drains
  rw [threads]

/-- **What writes no queue leaves a stage tame**, as long as its threads are in order and drain
queues that are there, each by one thread. -/
theorem Tame.of_threads (tame : st.Tame) (queues : st'.queues = st.queues)
    (conducts : st'.conducts = st.conducts) (forest : st.world.forest.Keeps st'.world.forest)
    (numbers : (st'.threads.map (·.number)).Nodup)
    (below : ∀ t ∈ st'.threads, t.number < st'.nextThread)
    (runs : ∀ t ∈ st'.threads, t.owner.Runs t.frames)
    (alone : ∀ {m n j x y}, st'.Drains m (j, x) → st'.Drains n (j, y) → m = n)
    (known : ∀ {n j x}, st'.Drains n (j, x) → (st.queues.lookup j).isSome = true) : st'.Tame where
  numbers := numbers
  below := below
  runs := runs
  alone := alone
  known := by rw [queues]; exact known
  conducts := by rw [conducts, queues]; exact tame.conducts
  conducted := by rw [conducts, queues]; exact tame.conducted
  created := by
    intro j c told
    rw [conducts] at told
    exact Nat.lt_of_lt_of_le (tame.created told) forest.next
  isOpen := by
    intro j q known
    rw [queues] at known
    exact (tame.isOpen known).trans (forest.has j (tame.lt_next known)).symm
  empty := by rw [queues]; exact tame.empty

/-- No queue is another or new where no queue is written. -/
theorem Rests.of_queues (tame : st'.Tame) (forest : st.world.forest.Keeps st'.world.forest)
    (queues : st'.queues = st.queues) (nextThread : st.nextThread ≤ st'.nextThread)
    (owners : ∀ t' ∈ st'.threads, t'.number < st.nextThread →
      ∃ t ∈ st.threads, t.number = t'.number ∧ t.owner = t'.owner)
    (drains : ∀ {m x}, m ≠ n → (st'.Drains m x ↔ st.Drains m x)) : Rests n st st' where
  tame := tame
  forest := forest
  queue := by rw [queues]; exact id
  made := by
    intro j q new known
    rw [queues, new] at known
    cases known
  nextThread := nextThread
  owners := owners
  drains := drains

/-- **What writes neither threads nor queues rests**, if nobody is let go of. -/
theorem Tame.rests (tame : st.Tame) (n : Nat) (threads : st'.threads = st.threads)
    (nextThread : st'.nextThread = st.nextThread) (queues : st'.queues = st.queues)
    (conducts : st'.conducts = st.conducts)
    (forest : st.world.forest.Keeps st'.world.forest) : Rests n st st' := by
  have drains : ∀ {m x}, st'.Drains m x ↔ st.Drains m x := drains_of_threads threads
  have tame' : st'.Tame := by
    refine tame.of_threads queues conducts forest (threads ▸ tame.numbers) ?_
      (threads ▸ tame.runs) (fun hx hy => tame.alone (drains.1 hx) (drains.1 hy))
      fun hx => tame.known (drains.1 hx)
    rw [threads, nextThread]
    exact tame.below
  refine .of_queues tame' forest queues (Nat.le_of_eq nextThread.symm) ?_ fun _ => drains
  rw [threads]
  exact fun t ht _ => ⟨t, ht, rfl, rfl⟩

theorem Tame.withWorld (tame : st.Tame) (n : Nat) {w : World}
    (h : st.world.forest.Keeps w.forest) : Rests n st (st.withWorld w) :=
  tame.rests n rfl rfl rfl rfl h

theorem Tame.reveal (tame : st.Tame) (n : Nat) (e : Event) : Rests n st (st.reveal e) :=
  tame.rests n rfl rfl rfl rfl (.refl _)

theorem Tame.tell (tame : st.Tame) (n : Nat) (ns : List Notice) : Rests n st (st.tell ns) :=
  tame.withWorld n (.refl _)

theorem Tame.agenda (tame : st.Tame) (n : Nat) (agenda : List Task) :
    Rests n st { st with agenda } :=
  tame.rests n rfl rfl rfl rfl (.refl _)

theorem Tame.begun (tame : st.Tame) (n : Nat) (begun : List (JobRef × Nat)) :
    Rests n st { st with begun } :=
  tame.rests n rfl rfl rfl rfl (.refl _)

/-! ## Moving a thread on -/

theorem mem_update {g : Thread → Thread} {t' : Thread} :
    t' ∈ (st.update n g).threads ↔
      ∃ t ∈ st.threads, (if t.number = n then g t else t) = t' :=
  List.mem_map

/-- A change of one thread that keeps its number and whom it reports to. -/
structure Retains (g : Thread → Thread) : Prop where
  number : ∀ t, (g t).number = t.number
  owner : ∀ t, (g t).owner = t.owner

theorem Retains.number_ite {g : Thread → Thread} (h : Retains g) (t : Thread) :
    (if t.number = n then g t else t).number = t.number := by
  split
  · exact h.number t
  · rfl

theorem Retains.owner_ite {g : Thread → Thread} (h : Retains g) (t : Thread) :
    (if t.number = n then g t else t).owner = t.owner := by
  split
  · exact h.owner t
  · rfl

theorem Retains.drains_of_ne {g : Thread → Thread} (h : Retains g)
    {x : JobRef × Drain × List Act} (other : m ≠ n) :
    (st.update n g).Drains m x ↔ st.Drains m x := by
  constructor
  · rintro ⟨t', ht', number, here⟩
    obtain ⟨t, ht, rfl⟩ := mem_update.1 ht'
    rw [h.number_ite] at number
    rw [if_neg (number ▸ other)] at here
    exact ⟨t, ht, number, here⟩
  · rintro ⟨t, ht, number, here⟩
    refine ⟨t, mem_update.2 ⟨t, ht, if_neg (number ▸ other)⟩, number, here⟩

theorem Retains.drains_self {g : Thread → Thread} (h : Retains g)
    {x : JobRef × Drain × List Act} :
    (st.update n g).Drains n x ↔
      ∃ t ∈ st.threads, t.number = n ∧ draining? (g t).frames = some x := by
  constructor
  · rintro ⟨t', ht', number, here⟩
    obtain ⟨t, ht, rfl⟩ := mem_update.1 ht'
    rw [h.number_ite] at number
    rw [if_pos number] at here
    exact ⟨t, ht, number, here⟩
  · rintro ⟨t, ht, number, here⟩
    exact ⟨g t, mem_update.2 ⟨t, ht, if_pos number⟩, (h.number t).trans number, here⟩

theorem Retains.numbers_update {g : Thread → Thread} (h : Retains g) :
    (st.update n g).threads.map (·.number) = st.threads.map (·.number) := by
  show (List.map _ _).map _ = _
  rw [List.map_map]
  exact List.map_congr_left fun t _ => h.number_ite t

/-- **A thread may be moved on** to any frames that it may run, unless they drain a queue that
another thread is draining. -/
theorem Tame.update (tame : st.Tame) {g : Thread → Thread} (h : Retains g)
    (runs : ∀ t ∈ st.threads, t.number = n → t.owner.Runs (g t).frames)
    (free : ∀ t ∈ st.threads, t.number = n → ∀ j x, draining? (g t).frames = some (j, x) →
      (st.queues.lookup j).isSome = true ∧ ∀ m y, st.Drains m (j, y) → m = n) :
    Rests n st (st.update n g) := by
  have apart : ∀ {m j x y}, m ≠ n → (st.update n g).Drains m (j, x) →
      ¬ (st.update n g).Drains n (j, y) := by
    intro m j x y other hx hy
    obtain ⟨t, ht, number, here⟩ := h.drains_self.1 hy
    exact other ((free t ht number j y here).2 m x ((h.drains_of_ne other).1 hx))
  have alone : ∀ {m m' j x y}, (st.update n g).Drains m (j, x) →
      (st.update n g).Drains m' (j, y) → m = m' := by
    intro m m' j x y hx hy
    by_cases hm : m = n
    · by_cases hm' : m' = n
      · rw [hm, hm']
      · exact absurd (hm ▸ hx) (apart hm' hy)
    · by_cases hm' : m' = n
      · exact absurd (hm' ▸ hy) (apart hm hx)
      · exact tame.alone ((h.drains_of_ne hm).1 hx) ((h.drains_of_ne hm').1 hy)
  have known : ∀ {m j x}, (st.update n g).Drains m (j, x) →
      (st.queues.lookup j).isSome = true := by
    intro m j x hx
    by_cases hm : m = n
    · subst hm
      obtain ⟨t, ht, number, here⟩ := h.drains_self.1 hx
      exact (free t ht number j x here).1
    · exact tame.known ((h.drains_of_ne hm).1 hx)
  have numbers : ((st.update n g).threads.map (·.number)).Nodup := by
    rw [h.numbers_update]
    exact tame.numbers
  have below : ∀ t' ∈ (st.update n g).threads, t'.number < (st.update n g).nextThread := by
    intro t' ht'
    obtain ⟨t, ht, rfl⟩ := mem_update.1 ht'
    rw [h.number_ite]
    exact tame.below t ht
  have runs' : ∀ t' ∈ (st.update n g).threads, t'.owner.Runs t'.frames := by
    intro t' ht'
    obtain ⟨t, ht, rfl⟩ := mem_update.1 ht'
    split
    · next here => exact h.owner t ▸ runs t ht here
    · exact tame.runs t ht
  have tame' : (st.update n g).Tame :=
    tame.of_threads rfl rfl (.refl _) numbers below runs' alone known
  refine .of_queues tame' (.refl _) rfl (Nat.le_refl _) (fun t' ht' _ => ?_) h.drains_of_ne
  obtain ⟨t, ht, rfl⟩ := mem_update.1 ht'
  exact ⟨t, ht, (h.number_ite t).symm, (h.owner_ite t).symm⟩

/-- **A thread that is moved on to frames that drain nothing** is idle. -/
theorem Tame.update_idle (tame : st.Tame) {g : Thread → Thread} (h : Retains g)
    (runs : ∀ t : Thread, t.owner.Runs (g t).frames) (idle : ∀ t, draining? (g t).frames = none) :
    Leaves n st (st.update n g) where
  toRests := tame.update h (fun t _ _ => runs t) fun t _ _ j x here => by
    rw [idle t] at here
    cases here
  idle := by
    intro x hx
    obtain ⟨t, -, -, here⟩ := h.drains_self.1 hx
    rw [idle t] at here
    cases here

theorem Leaves.agenda (h : Leaves n st st') (agenda : List Task) :
    Leaves n st { st' with agenda } :=
  h.rests fun k => h.tame.agenda k agenda

theorem Tame.goOn_idle (tame : st.Tame) (n : Nat) (runs : ∀ o : Owner, o.Runs frames)
    (idle : draining? frames = none) : Leaves n st (st.goOn n frames) := by
  have moved : Leaves n st (st.update n fun t =>
      { t with frames, gate := none, awaits := none }) :=
    tame.update_idle ⟨fun _ => rfl, fun _ => rfl⟩ (fun _ => runs _) fun _ => idle
  exact moved.agenda _

theorem Tame.goOn (tame : st.Tame) (n : Nat) (plain : ∀ f ∈ frames, f.isPlain = true) :
    Leaves n st (st.goOn n frames) :=
  tame.goOn_idle n (fun _ => .plain plain) (draining?_of_plain plain)

theorem Tame.untilEnd (tame : st.Tame) (n : Nat) (r : SchedulerRef)
    (plain : ∀ f ∈ frames, f.isPlain = true) : Leaves n st (st.untilEnd n r frames) :=
  tame.update_idle ⟨fun _ => rfl, fun _ => rfl⟩ (fun _ => .plain plain)
    fun _ => draining?_of_plain plain

theorem Tame.park (tame : st.Tame) (n : Nat) (who : String) (index delay : Nat)
    (plain : ∀ f ∈ frames, f.isPlain = true) :
    Leaves n st (st.park n who index delay frames) := by
  have moved : Leaves n st (st.update n fun t =>
      { t with
        frames
        gate := some { due := st.millis + delay, index, seq := st.nextSeq, who }
        awaits := none }) :=
    tame.update_idle ⟨fun _ => rfl, fun _ => rfl⟩ (fun _ => .plain plain)
      fun _ => draining?_of_plain plain
  exact moved.rests fun k => moved.tame.rests k rfl rfl rfl rfl (.refl _)

/-! ## Threads that come and go -/

theorem Tame.close (tame : st.Tame) (n : Nat) : Leaves n st (st.close n) := by
  have mem : ∀ {t}, t ∈ (st.close n).threads ↔ t ∈ st.threads ∧ t.number ≠ n := by
    intro t
    simp [Stage.close]
  have drains : ∀ {m x}, (st.close n).Drains m x ↔ st.Drains m x ∧ m ≠ n := by
    intro m x
    constructor
    · rintro ⟨t, ht, rfl, here⟩
      exact ⟨⟨t, (mem.1 ht).1, rfl, here⟩, (mem.1 ht).2⟩
    · rintro ⟨⟨t, ht, rfl, here⟩, other⟩
      exact ⟨t, mem.2 ⟨ht, other⟩, rfl, here⟩
  have tame' : (st.close n).Tame :=
    tame.of_threads rfl rfl (.refl _) (tame.numbers.sublist (List.filter_sublist.map _))
      (fun t ht => tame.below t (mem.1 ht).1) (fun t ht => tame.runs t (mem.1 ht).1)
      (fun hx hy => tame.alone (drains.1 hx).1 (drains.1 hy).1)
      fun hx => tame.known (drains.1 hx).1
  exact
    { toRests := .of_queues tame' (.refl _) rfl (Nat.le_refl _)
        (fun t ht _ => ⟨t, (mem.1 ht).1, rfl, rfl⟩) fun other => drains.trans (and_iff_left other)
      idle := fun hx => (drains.1 hx).2 rfl }

/-- **A new thread that drains nothing** changes nothing for the others. -/
theorem Tame.put (tame : st.Tame) (n : Nat) {owner : Owner} (runs : owner.Runs frames)
    (none_ : draining? frames = none) (agenda : List Task) :
    Rests n st
      { st with
        threads := st.threads ++ [{ number := st.nextThread, owner, frames }]
        agenda
        nextThread := st.nextThread + 1 } := by
  have drains : ∀ {m x}, (∃ t ∈ st.threads ++ [{ number := st.nextThread, owner, frames }],
      t.number = m ∧ draining? t.frames = some x) ↔ st.Drains m x := by
    intro m x
    constructor
    · rintro ⟨t, ht, number, here⟩
      obtain ht | ht := List.mem_append.1 ht
      · exact ⟨t, ht, number, here⟩
      · rw [List.mem_singleton.1 ht, none_] at here
        cases here
    · rintro ⟨t, ht, number, here⟩
      exact ⟨t, List.mem_append_left _ ht, number, here⟩
  have numbers : ((st.threads ++ [({ number := st.nextThread, owner, frames } : Thread)]).map
      (·.number)).Nodup := by
    rw [List.map_append, List.map_singleton]
    refine List.Nodup.append tame.numbers (List.nodup_singleton _) ?_
    intro number old new
    obtain ⟨t, ht, rfl⟩ := List.mem_map.1 old
    exact absurd (List.mem_singleton.1 new) (Nat.ne_of_lt (tame.below t ht))
  refine .of_queues (tame.of_threads rfl rfl (.refl _) numbers (fun t ht => ?_) (fun t ht => ?_)
    (fun hx hy => tame.alone (drains.1 hx) (drains.1 hy)) fun hx => tame.known (drains.1 hx))
    (.refl _) rfl (Nat.le_succ _) (fun t ht old => ?_) fun _ => drains
  · obtain ht | ht := List.mem_append.1 ht
    · exact Nat.lt_succ_of_lt (tame.below t ht)
    · rw [List.mem_singleton.1 ht]
      exact Nat.lt_succ_self _
  · obtain ht | ht := List.mem_append.1 ht
    · exact tame.runs t ht
    · rw [List.mem_singleton.1 ht]
      exact runs
  · obtain ht | ht := List.mem_append.1 ht
    · exact ⟨t, ht, rfl, rfl⟩
    · rw [List.mem_singleton.1 ht] at old
      exact absurd old (Nat.lt_irrefl _)

theorem Tame.launchWave (tame : st.Tame) (n : Nat) (r : SchedulerRef) (wave : List JobRef) :
    Rests n st (st.launchWave r wave) := by
  induction wave with
  | nil => exact .refl tame n
  | cons j wave ih =>
    refine ih.trans (ih.tame.put n ?_ rfl _)
    exact .launch (by simp) fun _ => rfl

/-! ## New jobs -/

/-- What a table holds under a key after one more entry. -/
theorem lookup_concat {α : Type} {table : List (JobRef × α)} {v w : α} :
    (table ++ [(k, v)]).lookup j = some w ↔
      table.lookup j = some w ∨ table.lookup j = none ∧ j = k ∧ v = w := by
  rw [List.lookup_append]
  cases table.lookup j with
  | some u => simp
  | none =>
    by_cases here : j = k
    · simp [here]
    · have other : (j == k) = false := by simpa using here
      simp [List.lookup_cons, here, other]

section Create

variable {name : String} {conduct : Conduct} {made : List (JobRef × CommandQueue CommandScript)}
  (threads : st'.threads = st.threads) (nextThread : st'.nextThread = st.nextThread)
  (forest : st'.world.forest = (st.world.forest.create name).2)
  (conducts : st'.conducts = st.conducts ++ [(st.world.forest.next, conduct)])
  (queues : st'.queues = st.queues ++ made)
  (fits : (made = [(st.world.forest.next, {})] ∧
      ∃ sender, conduct = .scripted (.queue sender)) ∨
    made = [] ∧ ∀ sender, conduct ≠ .scripted (.queue sender))

include queues in
theorem lookup_of_create {q : CommandQueue CommandScript} (known : st.queues.lookup j = some q) :
    st'.queues.lookup j = some q := by
  rw [queues, List.lookup_append, known]
  rfl

include queues fits in
/-- A queue is an old one, or the one that is made. -/
theorem create_cases {q : CommandQueue CommandScript} (known : st'.queues.lookup j = some q) :
    st.queues.lookup j = some q ∨ j = st.world.forest.next ∧ q = {} := by
  rw [queues] at known
  obtain ⟨rfl, -⟩ | ⟨rfl, -⟩ := fits
  · obtain known | ⟨-, here, new⟩ := lookup_concat.1 known
    · exact .inl known
    · exact .inr ⟨here, new.symm⟩
  · rw [List.append_nil] at known
    exact .inl known

include threads nextThread forest conducts queues fits

theorem Tame.of_create (tame : st.Tame) : st'.Tame := by
  have drains : ∀ {m x}, st'.Drains m x ↔ st.Drains m x := drains_of_threads threads
  have keeps : st.world.forest.Keeps st'.world.forest := forest ▸ Forest.keeps_create _ name
  have untold : st.conducts.lookup st.world.forest.next = none := by
    refine Option.eq_none_iff_forall_ne_some.2 fun c told => ?_
    exact Nat.lt_irrefl _ (tame.created told)
  constructor
  case numbers => rw [threads]; exact tame.numbers
  case below => rw [threads, nextThread]; exact tame.below
  case runs => rw [threads]; exact tame.runs
  case alone => exact fun hx hy => tame.alone (drains.1 hx) (drains.1 hy)
  case known =>
    intro n j x hx
    obtain ⟨q, known⟩ := Option.isSome_iff_exists.1 (tame.known (drains.1 hx))
    exact Option.isSome_iff_exists.2 ⟨q, lookup_of_create queues known⟩
  case conducts =>
    intro j sender told
    rw [conducts] at told
    obtain told | ⟨-, rfl, rfl⟩ := lookup_concat.1 told
    · obtain ⟨q, known⟩ := Option.isSome_iff_exists.1 (tame.conducts told)
      exact Option.isSome_iff_exists.2 ⟨q, lookup_of_create queues known⟩
    · obtain ⟨rfl, -⟩ | ⟨-, other⟩ := fits
      · rw [queues, List.lookup_append]
        simp
      · exact absurd rfl (other sender)
  case conducted =>
    intro j q known
    rw [conducts]
    obtain known | ⟨rfl, -⟩ := create_cases queues fits known
    · obtain ⟨sender, told⟩ := tame.conducted known
      exact ⟨sender, lookup_concat.2 (.inl told)⟩
    · obtain ⟨-, sender, told⟩ | ⟨rfl, -⟩ := fits
      · exact ⟨sender, lookup_concat.2 (.inr ⟨untold, rfl, told⟩)⟩
      · rw [queues, List.append_nil] at known
        exact absurd (tame.lt_next known) (Nat.lt_irrefl _)
  case created =>
    intro j c told
    rw [conducts] at told
    obtain told | ⟨-, rfl, -⟩ := lookup_concat.1 told
    · exact Nat.lt_of_lt_of_le (tame.created told) keeps.next
    · rw [forest]; exact Nat.lt_succ_self _
  case isOpen =>
    intro j q known
    obtain known | ⟨rfl, rfl⟩ := create_cases queues fits known
    · exact (tame.isOpen known).trans (keeps.has j (tame.lt_next known)).symm
    · simp [forest, Forest.has_create]
  case empty =>
    intro j q known shut
    obtain known | ⟨-, rfl⟩ := create_cases queues fits known
    · exact tame.empty known shut
    · rfl

/-- **A new job may come with a queue**, and has to if it is to drain one. -/
theorem Tame.create (tame : st.Tame) : Rests n st st' where
  tame := tame.of_create threads nextThread forest conducts queues fits
  forest := forest ▸ Forest.keeps_create _ name
  queue known := lookup_of_create queues known
  made {j q} new known := by
    obtain known | ⟨-, rfl⟩ := create_cases queues fits known
    · rw [new] at known; cases known
    · rfl
  nextThread := Nat.le_of_eq nextThread.symm
  owners := by
    rw [threads]
    exact fun t ht _ => ⟨t, ht, rfl, rfl⟩
  drains _ := drains_of_threads threads

end Create

theorem Tame.makeJob (tame : st.Tame) (n : Nat) (spec : JobScript) :
    Rests n st (st.makeJob spec).2 := by
  unfold Stage.makeJob
  dsimp only
  split
  · next sender same =>
    exact tame.create rfl rfl rfl rfl rfl (.inl ⟨rfl, sender, congrArg _ same⟩)
  · next other =>
    refine tame.create rfl rfl rfl rfl (List.append_nil _).symm (.inr ⟨rfl, ?_⟩)
    intro sender same
    exact other sender (Conduct.scripted.inj same)

end Stage

end Rehearsal

end FrameLoop

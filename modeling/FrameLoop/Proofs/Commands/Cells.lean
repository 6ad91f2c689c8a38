import FrameLoop.Proofs.Commands.Acts

/-!
# What can happen to the queues of a stage

Every queue of a stage makes a cell with the thread that is draining it, if there is one
(`Stage.cell?`). A stage `Steps` to another if each cell makes a turn, and what is new is empty.
Three things write a cell: a thread begins, goes on or ends draining; a queue is written; and a
queue is closed.
-/

namespace FrameLoop.Rehearsal.Stage

open CommandQueue (Drain)

variable {st st' st'' : Stage} {n m : Nat} {j k : JobRef} {frames rest : List Frame}
  {q q' : CommandQueue CommandScript}

/-! ## Cells -/

/-- **How far the step that is draining a queue has come**, if one is. -/
def work? (st : Stage) (j : JobRef) : Option (Drain × List Act) :=
  st.threads.findSome? fun t =>
    (draining? t.frames).bind fun x => if x.1 = j then some x.2 else none

/-- **The cell of a queue.** -/
def cell? (st : Stage) (j : JobRef) : Option Cell :=
  (st.queues.lookup j).map fun queue => { queue, work := st.work? j }

theorem Tame.work?_eq_some (tame : st.Tame) {x : Drain × List Act} :
    st.work? j = some x ↔ ∃ n, st.Drains n (j, x) := by
  have found : ∀ {y}, st.work? j = some y → ∃ n, st.Drains n (j, y) := by
    intro y h
    obtain ⟨t, ht, here⟩ := List.exists_of_findSome?_eq_some h
    obtain ⟨⟨k, z⟩, draining, same⟩ := Option.bind_eq_some_iff.1 here
    split at same
    · next hk =>
      obtain rfl : k = j := hk
      cases same
      exact ⟨t.number, t, ht, rfl, draining⟩
    · cases same
  refine ⟨found, ?_⟩
  rintro ⟨n, hn⟩
  cases h : st.work? j with
  | none =>
    obtain ⟨t, ht, -, draining⟩ := hn
    have absent := List.findSome?_eq_none_iff.1 h t ht
    simp [draining] at absent
  | some y =>
    obtain ⟨m, hm⟩ := found h
    obtain rfl := tame.alone hn hm
    cases tame.drains_unique hn hm
    rfl

theorem Tame.work?_eq_none (tame : st.Tame) :
    st.work? j = none ↔ ∀ n x, ¬ st.Drains n (j, x) := by
  rw [Option.eq_none_iff_forall_ne_some]
  constructor
  · intro h n x hx
    exact h x (tame.work?_eq_some.2 ⟨n, hx⟩)
  · intro h x hx
    obtain ⟨n, hn⟩ := tame.work?_eq_some.1 hx
    exact h n x hn

theorem Tame.work?_congr (tame : st.Tame) (tame' : st'.Tame)
    (same : ∀ m x, st'.Drains m (j, x) ↔ st.Drains m (j, x)) : st'.work? j = st.work? j := by
  refine Option.ext fun x => ?_
  rw [tame.work?_eq_some, tame'.work?_eq_some]
  exact exists_congr fun m => same m x

theorem cell?_of_lookup (known : st.queues.lookup j = some q) :
    st.cell? j = some ⟨q, st.work? j⟩ := by
  rw [cell?, known]
  rfl

theorem lookup_of_cell? {x : Cell} (h : st.cell? j = some x) :
    st.queues.lookup j = some x.queue ∧ st.work? j = x.work := by
  obtain ⟨q, known, rfl⟩ := Option.map_eq_some_iff.1 h
  exact ⟨known, rfl⟩

theorem cell?_eq_none : st.cell? j = none ↔ st.queues.lookup j = none := Option.map_eq_none_iff

/-! ## Steps of a stage -/

/-- **Each queue makes a turn**, with what is noted of it, and a queue that is new is empty. -/
structure Steps (st st' : Stage) (note : JobRef → List Entry) : Prop where
  tame : st'.Tame
  turn : ∀ {j x}, st.cell? j = some x → ∃ y, st'.cell? j = some y ∧ x.Turn (note j) y
  made : ∀ {j y}, st.cell? j = none → st'.cell? j = some y → y = { queue := {} }

/-- A queue that is new is empty, and nobody is draining it. -/
theorem Rests.made_cell (h : Rests n st st') (tame : st.Tame)
    (known : ∀ j x, st'.Drains n (j, x) → (st.queues.lookup j).isSome = true) {y : Cell}
    (absent : st.cell? j = none) (here : st'.cell? j = some y) : y = { queue := {} } := by
  obtain ⟨new, work⟩ := lookup_of_cell? here
  have idle : st'.work? j = none := by
    rw [h.tame.work?_eq_none]
    intro m x hx
    have old : (st.queues.lookup j).isSome = true := by
      by_cases hm : m = n
      · exact known j x (hm ▸ hx)
      · exact tame.known ((h.drains hm).1 hx)
    rw [cell?_eq_none.1 absent] at old
    cases old
  rw [work] at idle
  have empty := h.made (cell?_eq_none.1 absent) new
  obtain ⟨queue, work'⟩ := y
  subst empty idle
  rfl

/-- **Nothing happens to any queue**, and one that is new is empty. -/
structure Stays (st st' : Stage) : Prop where
  tame : st'.Tame
  cell : ∀ {j x}, st.cell? j = some x → st'.cell? j = some x
  made : ∀ {j y}, st.cell? j = none → st'.cell? j = some y → y = { queue := {} }

theorem Stays.refl (tame : st.Tame) : Stays st st where
  tame := tame
  cell h := h
  made h h' := by rw [h] at h'; cases h'

theorem Stays.steps (h : Stays st st') : Steps st st' fun _ => [] where
  tame := h.tame
  turn {_ x} here := ⟨x, h.cell here, .rests x⟩
  made := h.made

theorem Steps.stays {note : JobRef → List Entry} (h : Steps st st' note) (h' : Stays st' st'') :
    Steps st st'' note where
  tame := h'.tame
  turn here := by
    obtain ⟨y, after, turn⟩ := h.turn here
    exact ⟨y, h'.cell after, turn⟩
  made {j y} absent here := by
    cases between : st'.cell? j with
    | none => exact h'.made between here
    | some z =>
      obtain rfl := h.made absent between
      exact Option.some.inj (here.symm.trans (h'.cell between))

/-- **A thread has done something**, and what it drains is what it drained or something else that
`turn` tells. -/
theorem Rests.steps (h : Rests n st st') (tame : st.Tame) {note : JobRef → List Entry}
    (known : ∀ j x, st'.Drains n (j, x) → (st.queues.lookup j).isSome = true)
    (turn : ∀ j q, st.queues.lookup j = some q →
      Cell.Turn ⟨q, st.work? j⟩ (note j) ⟨q, st'.work? j⟩) : Steps st st' note where
  tame := h.tame
  turn {j x} here := by
    obtain ⟨known, work⟩ := lookup_of_cell? here
    refine ⟨_, cell?_of_lookup (h.queue known), ?_⟩
    have step := turn j x.queue known
    rwa [work] at step
  made := h.made_cell tame known

/-- What a thread does that drains nothing, before and after, is nothing to any queue. -/
theorem Leaves.stays (h : Leaves n st st') (tame : st.Tame) (idle : ∀ x, ¬ st.Drains n x) :
    Stays st st' where
  tame := h.tame
  cell {j x} here := by
    obtain ⟨known, work⟩ := lookup_of_cell? here
    have same : st'.work? j = st.work? j := by
      refine tame.work?_congr h.tame fun m x => ?_
      by_cases hm : m = n
      · subst hm
        exact iff_of_false h.idle (idle _)
      · exact h.drains hm
    rw [cell?_of_lookup (h.queue known), same, work]
  made := h.made_cell tame fun j x hx => absurd hx h.idle

/-- **A thread ends its step**: the queue that it was draining is idle. -/
theorem Leaves.steps_ended (h : Leaves n st st') (tame : st.Tame) {d : Drain} {acts : List Act}
    (here : st.Drains n (k, d, acts)) {note : JobRef → List Entry}
    (others : ∀ j, j ≠ k → note j = [])
    (turn : ∀ q, st.queues.lookup k = some q →
      Cell.Turn ⟨q, some (d, acts)⟩ (note k) ⟨q, none⟩) : Steps st st' note := by
  refine h.toRests.steps tame (fun j x hx => absurd hx h.idle) fun j q known => ?_
  by_cases hj : j = k
  · subst hj
    have before : st.work? j = some (d, acts) := tame.work?_eq_some.2 ⟨n, here⟩
    have after : st'.work? j = none := by
      rw [h.tame.work?_eq_none]
      intro m x hx
      by_cases hm : m = n
      · exact h.idle (hm ▸ hx)
      · exact hm (tame.alone ((h.drains hm).1 hx) here)
    rw [before, after]
    exact turn q known
  · have same : st'.work? j = st.work? j := by
      refine tame.work?_congr h.tame fun m x => ?_
      by_cases hm : m = n
      · subst hm
        refine iff_of_false h.idle fun hx => hj ?_
        exact congrArg Prod.fst (tame.drains_unique hx here)
      · exact h.drains hm
    rw [same, others j hj]
    exact .rests _

/-! ## A thread that drains goes on first -/

/-- **Thread `n` has moved**: what the others drain is as it was, and if it drains something itself
it is next. -/
structure Goes (n : Nat) (st st' : Stage) : Prop where
  others : ∀ {m x}, m ≠ n → (st'.Drains m x ↔ st.Drains m x)
  next : (∀ x, ¬ st'.Drains n x) ∨ ∃ tasks, st'.agenda = .resume n :: tasks

/-- **A thread has moved**, and this was a turn of each queue. -/
structure Moved (n : Nat) (st st' : Stage) (note : JobRef → List Entry) : Prop extends
  Steps st st' note, Goes n st st'

theorem Leaves.goes (h : Leaves n st st') : Goes n st st' := ⟨h.drains, .inl fun _ => h.idle⟩

/-- A thread that drains nothing, before and after its move. -/
theorem Leaves.moved (h : Leaves n st st') (tame : st.Tame) (idle : ∀ x, ¬ st.Drains n x) :
    Moved n st st' fun _ => [] :=
  ⟨(h.stays tame idle).steps, h.goes⟩

/-- A thread that goes on is next. -/
theorem goes_goOn (n : Nat) (frames : List Frame)
    (same : ∀ m x, st'.Drains m x ↔ st.Drains m x) : Goes n st (st'.goOn n frames) where
  others {m x} other := by
    have retains : Retains fun t => { t with frames, gate := none, awaits := none } :=
      ⟨fun _ => rfl, fun _ => rfl⟩
    exact (retains.drains_of_ne other).trans (same m x)
  next := .inr ⟨st'.agenda, rfl⟩

/-! ## A thread goes on draining -/

/-- **A thread goes on with a queue** that no other thread is draining: only the cell of this queue
is written. -/
theorem Tame.goOn_cells (tame : st.Tame) {t : Thread} (ht : t ∈ st.threads)
    (runs : t.owner.Runs frames) {x : Drain × List Act} (here : draining? frames = some (k, x))
    (known : st.queues.lookup k = some q) (free : ∀ m y, st.Drains m (k, y) → m = t.number)
    (mine : ∀ i y, st.Drains t.number (i, y) → i = k) :
    (st.goOn t.number frames).Tame ∧
      ∀ j, (st.goOn t.number frames).cell? j = if j = k then some ⟨q, some x⟩ else st.cell? j := by
  have retains : Retains fun t => { t with frames, gate := none, awaits := none } :=
    ⟨fun _ => rfl, fun _ => rfl⟩
  have moved : Rests t.number st (st.update t.number fun t =>
      { t with frames, gate := none, awaits := none }) := by
    refine tame.update retains (fun u hu same => ?_) fun u hu same i y draining => ?_
    · rw [tame.thread_unique hu ht same]
      exact runs
    · obtain ⟨rfl, rfl⟩ := Prod.mk.inj (Option.some.inj (here.symm.trans draining))
      exact ⟨Option.isSome_iff_exists.2 ⟨q, known⟩, free⟩
  have gone : Rests t.number st (st.goOn t.number frames) :=
    moved.trans (moved.tame.agenda _ _)
  have now : ∀ y, (st.goOn t.number frames).Drains t.number y ↔ y = (k, x) := by
    intro y
    have mine : (st.goOn t.number frames).Drains t.number y ↔ _ := retains.drains_self
    rw [mine]
    constructor
    · rintro ⟨u, -, -, draining⟩
      exact Option.some.inj (draining.symm.trans here)
    · rintro rfl
      exact ⟨t, ht, rfl, here⟩
  refine ⟨gone.tame, fun j => ?_⟩
  split
  · next hj =>
    rw [hj, cell?_of_lookup (gone.queue known),
      gone.tame.work?_eq_some.2 ⟨t.number, (now _).2 rfl⟩]
  · next hj =>
    have same : (st.goOn t.number frames).work? j = st.work? j := by
      refine tame.work?_congr gone.tame fun m y => ?_
      by_cases hm : m = t.number
      · subst hm
        refine iff_of_false (fun hy => hj ?_) fun hy => hj (mine j y hy)
        exact congrArg Prod.fst ((now _).1 hy)
      · exact gone.drains hm
    rw [cell?, same]
    rfl

/-- A step of a stage in which one cell is written. -/
theorem steps_of_cell {x y : Cell} {note : JobRef → List Entry} (tame' : st'.Tame)
    (before : st.cell? k = some x)
    (after : ∀ j, st'.cell? j = if j = k then some y else st.cell? j)
    (turn : x.Turn (note k) y) (others : ∀ j, j ≠ k → note j = []) : Steps st st' note where
  tame := tame'
  turn {j z} here := by
    rw [after]
    split
    · next hj =>
      subst hj
      rw [before] at here
      cases here
      exact ⟨y, rfl, turn⟩
    · next hj => exact ⟨z, here, others j hj ▸ .rests z⟩
  made {j z} absent here := by
    rw [after] at here
    split at here
    · next hj => rw [hj, before] at absent; cases absent
    · rw [absent] at here; cases here

/-- A step of a stage after which the step of one queue goes on, and nothing is noted of that. -/
theorem Steps.goes_on {x y : Cell} {note : JobRef → List Entry} (h : Steps st st' note)
    (tame'' : st''.Tame) (old : st.cell? k ≠ none) (before : st'.cell? k = some x)
    (after : ∀ j, st''.cell? j = if j = k then some y else st'.cell? j) (turn : x.Turn [] y) :
    Steps st st'' note where
  tame := tame''
  turn {j z} here := by
    obtain ⟨z', between, first⟩ := h.turn here
    rw [after]
    split
    · next hj =>
      subst hj
      rw [before] at between
      cases between
      have both := first.trans turn
      rw [List.append_nil] at both
      exact ⟨y, rfl, both⟩
    · exact ⟨z', between, first⟩
  made {j z} absent here := by
    rw [after] at here
    split at here
    · next hj => exact absurd (hj ▸ absent) old
    · exact h.made absent here

/-! ## A queue is written -/

theorem lookup_map (table : List (JobRef × CommandQueue CommandScript))
    (g : JobRef → CommandQueue CommandScript → CommandQueue CommandScript) (j : JobRef) :
    (table.map fun (k, old) => (k, g k old)).lookup j = (table.lookup j).map (g j) := by
  induction table with
  | nil => rfl
  | cons first table ih =>
    obtain ⟨k, old⟩ := first
    by_cases here : j = k
    · simp [here]
    · have other : (j == k) = false := by simpa using here
      simp only [List.map_cons, List.lookup_cons, other]
      exact ih

/-- Put a queue in its place. -/
def setQueue (st : Stage) (j : JobRef) (q : CommandQueue CommandScript) : Stage :=
  { st with queues := st.queues.map fun (k, old) => (k, if k = j then q else old) }

theorem lookup_setQueue (j : JobRef) (q : CommandQueue CommandScript) (k : JobRef) :
    (st.setQueue j q).queues.lookup k =
      (st.queues.lookup k).map fun old => if k = j then q else old :=
  lookup_map _ (fun k old => if k = j then q else old) k

theorem cell?_setQueue (known : st.queues.lookup k = some q) (q' : CommandQueue CommandScript)
    (j : JobRef) :
    (st.setQueue k q').cell? j = if j = k then some ⟨q', st.work? k⟩ else st.cell? j := by
  rw [cell?, lookup_setQueue]
  split
  · next hj => rw [hj, known]; rfl
  · rw [Option.map_id']
    rfl

/-- **Queues may be written**, each by itself, if they are open as long as their jobs are there, and
empty afterwards. -/
theorem Tame.mapQueues (tame : st.Tame)
    {g : JobRef → CommandQueue CommandScript → CommandQueue CommandScript}
    (threads : st'.threads = st.threads) (nextThread : st'.nextThread = st.nextThread)
    (conducts : st'.conducts = st.conducts)
    (next : st'.world.forest.next = st.world.forest.next)
    (queues : ∀ j, st'.queues.lookup j = (st.queues.lookup j).map (g j))
    (isOpen : ∀ {j q}, st.queues.lookup j = some q → (g j q).isOpen = st'.world.forest.has j)
    (empty : ∀ {j q}, st.queues.lookup j = some q → (g j q).isOpen = false →
      (g j q).queued = []) : st'.Tame := by
  have drains : ∀ {m x}, st'.Drains m x ↔ st.Drains m x := drains_of_threads threads
  have isSome : ∀ {j}, (st.queues.lookup j).isSome = true →
      (st'.queues.lookup j).isSome = true := by
    intro j h
    rwa [queues, Option.isSome_map]
  exact
    { numbers := threads ▸ tame.numbers
      below := by rw [threads, nextThread]; exact tame.below
      runs := threads ▸ tame.runs
      alone := fun hx hy => tame.alone (drains.1 hx) (drains.1 hy)
      known := fun hx => isSome (tame.known (drains.1 hx))
      conducts := fun told => isSome (tame.conducts (conducts ▸ told))
      conducted := by
        intro j q h
        rw [queues] at h
        obtain ⟨old, known, -⟩ := Option.map_eq_some_iff.1 h
        rw [conducts]
        exact tame.conducted known
      created := by rw [conducts, next]; exact tame.created
      isOpen := by
        intro j q h
        rw [queues] at h
        obtain ⟨old, known, rfl⟩ := Option.map_eq_some_iff.1 h
        exact isOpen known
      empty := by
        intro j q h shut
        rw [queues] at h
        obtain ⟨old, known, rfl⟩ := Option.map_eq_some_iff.1 h
        exact empty known shut }

/-- **A queue may be written** if it stays open, or stays closed and empty. -/
theorem Tame.setQueue (tame : st.Tame) (known : st.queues.lookup j = some q)
    (isOpen : q'.isOpen = q.isOpen) (empty : q'.isOpen = false → q'.queued = []) :
    (st.setQueue j q').Tame := by
  refine tame.mapQueues rfl rfl rfl rfl (lookup_setQueue j q') (fun {k old} here => ?_)
    fun {k old} here => ?_
  · split
    · next hk => rw [hk, isOpen]; exact tame.isOpen known
    · exact tame.isOpen here
  · split
    · exact empty
    · exact tame.empty here

/-! ## Acts -/

/-- What is noted of a queue when an act hands a command in. -/
def handed (st : Stage) (j : JobRef) : Act → List Entry
  | .enqueue sender c =>
    if st.senders.lookup sender = some j then
      match (st.enqueue j c).1 with
      | .flag true => [.accepted c]
      | .flag false => [.refused c]
      | _ => []
    else []
  | _ => []

/-- **Threads are as they were**: they drain what they drained, and report to whom they
reported. -/
structure Keeps (st st' : Stage) : Prop where
  nextThread : st.nextThread ≤ st'.nextThread
  owners : ∀ t' ∈ st'.threads, t'.number < st.nextThread →
    ∃ t ∈ st.threads, t.number = t'.number ∧ t.owner = t'.owner
  drains : ∀ {m x}, st'.Drains m x ↔ st.Drains m x

/-- What touches no thread keeps them all. -/
theorem keeps_of_rests (h : ∀ k, Rests k st st') : Keeps st st' where
  nextThread := (h 0).nextThread
  owners := (h 0).owners
  drains {m _} := (h (m + 1)).drains (Nat.ne_of_lt (Nat.lt_succ_self m))

/-- What touches neither threads nor queues is nothing to any queue. -/
theorem Tame.stays_of_rests (tame : st.Tame) (h : ∀ k, Rests k st st') : Stays st st' where
  tame := (h 0).tame
  cell {j x} here := by
    obtain ⟨known, work⟩ := lookup_of_cell? here
    have same := tame.work?_congr (h 0).tame fun m x =>
      (keeps_of_rests h).drains (m := m) (x := (j, x))
    rw [cell?_of_lookup ((h 0).queue known), same, work]
  made := (h 0).made_cell tame fun j x hx => tame.known ((keeps_of_rests h).drains.1 hx)

/-- Handing a command in writes one queue, if it is there. -/
theorem enqueue_eq (st : Stage) (j : JobRef) (c : CommandScript) :
    st.enqueue j c = match st.queues.lookup j with
      | some q => (.flag (q.enqueue c).1, st.setQueue j (q.enqueue c).2)
      | none => (.flag false, st) := by
  unfold enqueue
  cases known : st.queues.lookup j with
  | some q => rfl
  | none =>
    have same : (st.queues.map fun (k, old) => (k, if k = j then { isOpen := false } else old)) =
        st.queues := by
      rw [List.lookup_eq_none_iff] at known
      refine (List.map_congr_left fun p hp => ?_).trans (List.map_id _)
      have other : p.1 ≠ j := fun same => by simpa [same] using known p hp
      simp [other]
    simp only [Option.getD_none, CommandQueue.enqueue, if_false, Bool.false_eq_true, same]

/-- **Handing a command in is a turn of its queue**, accepted if the queue is open and refused if
it is closed. -/
theorem Tame.enqueue_steps (tame : st.Tame) {sender : Handle} {c : CommandScript}
    (bound : st.senders.lookup sender = some k) :
    Steps st (st.enqueue k c).2 (fun j => st.handed j (.enqueue sender c)) := by
  have others : ∀ j, j ≠ k → st.handed j (.enqueue sender c) = [] := by
    intro j hj
    exact if_neg fun same => hj (Option.some.inj (same.symm.trans bound))
  have mine : st.handed k (.enqueue sender c) = match (st.enqueue k c).1 with
      | .flag true => [.accepted c]
      | .flag false => [.refused c]
      | _ => [] := if_pos bound
  cases known : st.queues.lookup k with
  | none =>
    have same : st.enqueue k c = (.flag false, st) := by rw [enqueue_eq, known]
    rw [same]
    refine ⟨tame, fun {j x} here => ⟨x, here, ?_⟩, fun {j y} absent here => ?_⟩
    · have other : j ≠ k := by
        rintro rfl
        rw [(lookup_of_cell? here).1] at known
        cases known
      exact others j other ▸ .rests x
    · rw [absent] at here
      cases here
  | some q =>
    have same : st.enqueue k c = (.flag (q.enqueue c).1, st.setQueue k (q.enqueue c).2) := by
      rw [enqueue_eq, known]
    have isOpen := q.isOpen_enqueue c
    rw [same] at mine ⊢
    have tame' : (st.setQueue k (q.enqueue c).2).Tame := by
      refine tame.setQueue known isOpen fun shut => ?_
      rw [isOpen] at shut
      simpa [CommandQueue.enqueue, shut] using tame.empty known shut
    refine steps_of_cell tame' (cell?_of_lookup known) (cell?_setQueue known _) ?_ others
    rw [mine, CommandQueue.enqueue_fst]
    cases takes : q.isOpen with
    | true => exact .accepted ⟨q, st.work? k⟩ c takes
    | false =>
      have still : (q.enqueue c).2 = q := by simp [CommandQueue.enqueue, takes]
      rw [still]
      exact .refused _ c takes

/-- **What an act is to the queues**: a command handed in, or nothing. -/
theorem Tame.perform_steps (tame : st.Tame) (act : Act) :
    Steps st (st.perform act).2 (fun j => st.handed j act) ∧ Keeps st (st.perform act).2 := by
  by_cases hands : ∃ sender c, act = .enqueue sender c
  · obtain ⟨sender, c, rfl⟩ := hands
    have keeps : ∀ j, Keeps st (st.enqueue j c).2 := fun j =>
      ⟨Nat.le_refl _, fun t ht _ => ⟨t, ht, rfl, rfl⟩, Iff.rfl⟩
    cases bound : st.senders.lookup sender with
    | some j =>
      have done : st.perform (.enqueue sender c) = st.enqueue j c := by
        show st.withHandle _ _ _ = _
        rw [withHandle, bound]
      rw [done]
      exact ⟨tame.enqueue_steps bound, keeps j⟩
    | none =>
      have done : st.perform (.enqueue sender c) = (.noHandle, st) := by
        show st.withHandle _ _ _ = _
        rw [withHandle, bound]
      have silent : (fun j => st.handed j (.enqueue sender c)) = fun _ => [] := by
        funext j
        simp [handed, bound]
      rw [done, silent]
      exact ⟨(Stays.refl tame).steps, keeps_of_rests fun k => .refl tame k⟩
  · have other : ∀ sender c, act ≠ .enqueue sender c := fun sender c same =>
      hands ⟨sender, c, same⟩
    have silent : (fun j => st.handed j act) = fun _ => [] := by
      funext j
      unfold handed
      split
      · exact absurd rfl (other _ _)
      · rfl
    rw [silent]
    exact ⟨(tame.stays_of_rests fun k => tame.perform k other).steps,
      keeps_of_rests fun k => tame.perform k other⟩

end FrameLoop.Rehearsal.Stage

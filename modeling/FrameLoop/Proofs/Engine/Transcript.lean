import FrameLoop.Proofs.Engine.Affairs

/-!
# What is seen of a call

A call on an engine is seen by the hooks that it enters, by how each of them returns and by
what the call comes to: its `transcript`. Calls overlap in general; one that has its engine
to itself (`Sole`) keeps it until another call begins, and at every event it either rests or
goes on by a step of its own (`pursues_step`). So what a single call does can be told from
its transcript alone, whatever else goes on: ticks, sweeps, changes of the forest, other
engines.
-/

namespace FrameLoop

open Engine (Call Progress Result Stage)

/-- **A hook of a service.** -/
inductive Engine.Hook where
  | start (s : Service)
  | stop (s : Service)
deriving DecidableEq

namespace World

variable {w w' : World} {pre more es : List Event} {d : Event} {e : EngineRef} {c : CallRef}
  {stage : Stage} {p : Progress}

/-! ## What is seen of a call -/

/-- **What there is to see of a call**: a hook that it runs has returned, or its caller is
told how far it has come. -/
inductive Mark where
  | returned (result : HookResult)
  | told (p : Progress)

namespace Mark

/-- The hook that is entered. -/
def hook? : Mark → Option Engine.Hook
  | told (.enterStart _ s) => some (.start s)
  | told (.enterStop _ s) => some (.stop s)
  | _ => none

/-- How a hook has returned. -/
def result? : Mark → Option HookResult
  | returned result => some result
  | _ => none

/-- What the call has come to. -/
def end? : Mark → Option Result
  | told (.done result) => some result
  | _ => none

end Mark

/-- How the hook has returned that returns at an event. -/
def Event.result? : Event → Option HookResult
  | .hookReturned _ result => some result
  | _ => none

/-- What is seen of a call at an event. -/
def marks (w : World) (e : EngineRef) (c : CallRef) (d : Event) : List Mark :=
  match w.progress d with
  | some p =>
    if w.party? d = some (e, c) then d.result?.toList.map .returned ++ [.told p] else []
  | none => []

/-- **What is seen of a call** in a run that goes on from a world. -/
def transcript (e : EngineRef) (c : CallRef) : World → List Event → List Mark
  | _, [] => []
  | w, d :: es => w.marks e c d ++ transcript e c (w.step d).2 es

theorem transcript_concat (w : World) (es : List Event) (d : Event) :
    transcript e c w (es ++ [d]) = transcript e c w es ++ (w.runFrom es).marks e c d := by
  induction es generalizing w with
  | nil => simp [transcript, runFrom]
  | cons a es ih =>
    show w.marks e c a ++ transcript e c (w.step a).2 (es ++ [d]) = _
    rw [ih, ← List.append_assoc]
    rfl

theorem marks_of_told (told : w.Told e c p d) :
    w.marks e c d = d.result?.toList.map .returned ++ [.told p] := by
  rw [marks, told.progress]
  exact if_pos told.party

/-- Nothing is seen of a call of which nobody is told anything. -/
theorem marks_of_silent (silent : ∀ p, ¬ w.Told e c p d) : w.marks e c d = [] := by
  unfold marks
  split
  · next p progress => exact if_neg fun party => silent p ⟨party, progress⟩
  · rfl

/-- **What a transcript shows**: the hooks entered, how those have returned that have, and
what the call has come to, if it is over. -/
structure Shows (T : List Mark) (hooks : List Engine.Hook) (results : List HookResult)
    (ends : List Result) : Prop where
  hooks : T.filterMap Mark.hook? = hooks
  results : T.filterMap Mark.result? = results
  ends : T.filterMap Mark.end? = ends

theorem Shows.append {T U : List Mark} {hooks hooks' : List Engine.Hook}
    {results results' : List HookResult} {ends ends' : List Result}
    (h : Shows T hooks results ends) (h' : Shows U hooks' results' ends') :
    Shows (T ++ U) (hooks ++ hooks') (results ++ results') (ends ++ ends') where
  hooks := by rw [List.filterMap_append, h.hooks, h'.hooks]
  results := by rw [List.filterMap_append, h.results, h'.results]
  ends := by rw [List.filterMap_append, h.ends, h'.ends]

/-- A hook that has returned is seen. -/
theorem Shows.returned {T : List Mark} {hooks : List Engine.Hook} {results : List HookResult}
    {ends : List Result} (h : Shows T hooks results ends) (result : HookResult) :
    Shows (T ++ [.returned result]) hooks (results ++ [result]) ends := by
  have last : Shows [.returned result] [] [result] [] := ⟨rfl, rfl, rfl⟩
  simpa using h.append last

/-- A call that waits for a scheduler shows nothing new. -/
theorem Shows.awaits {T : List Mark} {hooks : List Engine.Hook} {results : List HookResult}
    {ends : List Result} (h : Shows T hooks results ends) (c : CallRef) (r : SchedulerRef) :
    Shows (T ++ [.told (.awaitEnd c r)]) hooks results ends := by
  have last : Shows [.told (.awaitEnd c r)] [] [] [] := ⟨rfl, rfl, rfl⟩
  simpa using h.append last

/-- What a call has come to is seen. -/
theorem Shows.done {T : List Mark} {hooks : List Engine.Hook} {results : List HookResult}
    (h : Shows T hooks results []) (result : Result) :
    Shows (T ++ [.told (.done result)]) hooks results [result] := by
  have last : Shows [.told (.done result)] [] [] [result] := ⟨rfl, rfl, rfl⟩
  simpa using h.append last

/-! ## A call by itself -/

/-- An event begins a call on an engine. -/
def Event.begins (e : EngineRef) : Event → Bool
  | .load i _ | .startEngine i _ | .stopEngine i => i == e
  | _ => false

/-- No call on an engine is under way. -/
def Free (w : World) (e : EngineRef) : Prop := ∀ k ∈ w.calls, k.engine ≠ e

/-- **A call has its engine to itself**: it belongs to the engine if it is under way, and no
other call on the engine is. -/
structure Sole (w : World) (e : EngineRef) (c : CallRef) : Prop where
  here : e < w.engines.length
  number : c < w.nextCall
  alone : ∀ k stage, ⟨k, e, stage⟩ ∈ w.calls → k = c
  home : ∀ i stage, ⟨c, i, stage⟩ ∈ w.calls → i = e

/-- A call stays under way where nothing is told to its caller, unless its hook panics. -/
theorem Affairs.stays (h : Affairs w d w') (silent : ∀ p, ¬ w.Told e c p d)
    (numbered : w.Numbered) (known : ⟨c, e, stage⟩ ∈ w.calls) :
    ⟨c, e, stage⟩ ∈ w'.calls ∨ d = .hookPanicked c := by
  cases h with
  | rests same | refused _ same => exact .inl (calls_of_affairs same ▸ known)
  | made _ _ _ _ calls | released _ _ _ calls => exact .inl (calls ▸ known)
  | panicked k _ _ calls _ which =>
    by_cases own : k = c
    · exact .inr (own ▸ which)
    · refine .inl (calls ▸ List.mem_filter.2 ⟨known, ?_⟩)
      exact bne_iff_ne.2 (Ne.symm own)
  | @conducted i k before _ _ p told conducts becomes _ begun new =>
    refine .inl ((becomes.calls _).2 (.inl ⟨known, fun own => ?_⟩))
    obtain rfl : c = k := own
    -- The caller of this call would be told.
    cases before with
    | none => exact absurd (numbered.fresh _ known) (new rfl ▸ Nat.lt_irrefl _)
    | some at_ =>
      obtain rfl : i = e := congrArg Call.engine (numbered.alike _ (begun at_ rfl) _ known rfl)
      exact silent p ⟨conducts.party numbered begun new, told⟩

/-- **What an event does to a call that has its engine to itself**, if it begins no other. -/
inductive Pursues (w : World) (d : Event) (w' : World) (e : EngineRef) (c : CallRef) : Prop where
  | rests (unseen : w.marks e c d = []) (state : (w'.engine e).state = (w.engine e).state)
    (calls : ∀ stage, ⟨c, e, stage⟩ ∈ w'.calls → ⟨c, e, stage⟩ ∈ w.calls)
    (stays : ∀ stage, ⟨c, e, stage⟩ ∈ w.calls →
      ⟨c, e, stage⟩ ∈ w'.calls ∨ d = .hookPanicked c ∧ stage.runsHook = true)
  | moves {stage : Stage} {after : Option Stage} {g : Engine} {p : Progress}
    (told : w.Told e c p d) (known : ⟨c, e, stage⟩ ∈ w.calls)
    (conducts : Conducts w e c d (some stage) after g p) (engine : w'.engine e = g)
    (calls : ∀ stage, ⟨c, e, stage⟩ ∈ w'.calls ↔ after = some stage)

/-- A call that is under way was so before, on the same engine, if it has not just begun. -/
theorem Affairs.home (h : Affairs w d w') (number : c < w.nextCall)
    (known : ⟨c, e, stage⟩ ∈ w'.calls) : ∃ before, ⟨c, e, before⟩ ∈ w.calls := by
  cases h with
  | rests same | refused _ same => exact ⟨stage, calls_of_affairs same ▸ known⟩
  | made _ _ _ _ calls | released _ _ _ calls => exact ⟨stage, calls ▸ known⟩
  | panicked _ _ _ calls => exact ⟨stage, (List.mem_filter.1 (calls ▸ known)).1⟩
  | @conducted i k before _ _ _ _ _ becomes _ begun new =>
    rcases (becomes.calls _).1 known with ⟨old, -⟩ | ⟨_, -, same⟩
    · exact ⟨stage, old⟩
    · cases same
      cases before with
      | none => exact absurd number (new rfl ▸ Nat.lt_irrefl _)
      | some at_ => exact ⟨at_, begun at_ rfl⟩

/-- A call that does something at an event has begun before, if the event begins none. -/
theorem Conducts.begun_of_quiet {before after : Option Stage} {g : Engine}
    (h : w.Conducts e c d before after g p) (quiet : d.begins e = false) :
    ∃ stage, before = some stage := by
  cases h with
  | registers | loads | begins | stops => simp [Event.begins] at quiet
  | loaded | drops | started | abandons | stopped | drained | abandoned => exact ⟨_, rfl⟩

/-- Nobody is told anything at an event that neither begins a call on the engine nor takes one
further. -/
theorem silent_of_quiet (quiet : d.begins e = false)
    (still : ∀ k, (∀ result, d ≠ .hookReturned k result) ∧ d ≠ .schedulerEnded k) (p : Progress) :
    ¬ w.Told e c p d := by
  intro told
  have party := told.party
  cases d with
  | load i s | startEngine i source | stopEngine i =>
    obtain ⟨rfl, -⟩ := Prod.mk.inj (Option.some.inj party)
    simp [Event.begins] at quiet
  | hookReturned k result => exact (still k).1 result rfl
  | schedulerEnded k => exact (still k).2 rfl
  | _ => cases party

/-- **A call that has its engine to itself goes on, or rests**, and has it to itself still. -/
theorem pursues_step (sole : Sole (run es) e c) (quiet : d.begins e = false) :
    Pursues (run es) d (run (es ++ [d])) e c ∧ Sole (run (es ++ [d])) e c := by
  have numbered := numbered_run es
  have affairs := affairs_step numbered d
  have on := affairs.on numbered e
  rw [← run_concat] at affairs on
  have remains (alone : ∀ k stage, ⟨k, e, stage⟩ ∈ (run (es ++ [d])).calls → k = c) :
      Sole (run (es ++ [d])) e c :=
    { here := Nat.lt_of_lt_of_le sole.here affairs.length_le
      number := Nat.lt_of_lt_of_le sole.number affairs.nextCall_le
      alone := alone
      home := fun i stage known => (affairs.home sole.number known).elim (sole.home i) }
  have rests (silent : ∀ p, ¬ (run es).Told e c p d)
      (state : ((run (es ++ [d])).engine e).state = ((run es).engine e).state)
      (calls : ∀ k stage, ⟨k, e, stage⟩ ∈ (run (es ++ [d])).calls →
        ⟨k, e, stage⟩ ∈ (run es).calls) :
      Pursues (run es) d (run (es ++ [d])) e c ∧ Sole (run (es ++ [d])) e c := by
    refine ⟨.rests (marks_of_silent silent) state (calls c) fun stage known => ?_,
      remains fun k stage known => sole.alone k stage (calls k stage known)⟩
    by_cases can : d.canHappen (run es) = true
    · refine (affairs.stays silent numbered known).imp_right ?_
      rintro rfl
      have found : (run es).call? c = some ⟨c, e, stage⟩ := numbered.call? known
      rw [Event.canHappen, found] at can
      exact ⟨rfl, can⟩
    · have still : (run es).step d = ([], run es) := if_neg can
      rw [run_concat, still]
      exact .inl known
  cases on with
  | apart engine calls silent =>
    refine rests (fun p told => ?_) (congrArg _ engine) calls
    exact silent_of_quiet quiet (silent c p told).2 p told
  | made r absent => exact absurd sole.here (absent ▸ Nat.lt_irrefl _)
  | released engine calls silent =>
    exact rests (silent c) (by rw [engine]) fun k stage known => absurd known (calls k stage)
  | @conducted k before after g p told conducts engine calls begun new =>
    obtain ⟨stage, rfl⟩ := conducts.begun_of_quiet quiet
    have known := begun stage rfl
    obtain rfl := sole.alone k stage known
    refine ⟨.moves told known conducts engine fun at_ => (calls k at_).trans (by simp), remains ?_⟩
    intro k' at_ later
    rcases (calls k' at_).1 later with ⟨old, -⟩ | ⟨same, -⟩
    · exact sole.alone k' at_ old
    · exact same

/-- A call that begins on an engine with no other call on it has the engine to itself. -/
theorem sole_of_begins {g : Engine} {after : Option Stage} (free : Free w e)
    (here : e < w.engines.length) (becomes : Becomes w w' e w.nextCall g after)
    (number : w.nextCall < w'.nextCall) : Sole w' e w.nextCall where
  here := by rwa [becomes.engines, List.length_set]
  number := number
  alone k stage known := by
    rcases becomes.mem_calls.1 known with ⟨old, -⟩ | ⟨same, -⟩
    · exact absurd rfl (free _ old)
    · exact same
  home i stage known := by
    rcases (becomes.calls _).1 known with ⟨-, other⟩ | ⟨_, -, same⟩
    · exact absurd rfl other
    · exact congrArg Call.engine same

/-- A call that has just begun is where it has come to. -/
theorem Becomes.begun {g : Engine} {after : Option Stage}
    (becomes : Becomes w w' e c g after) (new : ∀ stage, ⟨c, e, stage⟩ ∉ w.calls)
    (stage : Stage) : ⟨c, e, stage⟩ ∈ w'.calls ↔ after = some stage := by
  rw [becomes.mem_calls]
  constructor
  · rintro (⟨old, -⟩ | ⟨-, here⟩)
    · exact absurd old (new stage)
    · exact here
  · intro here
    exact .inr ⟨rfl, here⟩

end World

end FrameLoop

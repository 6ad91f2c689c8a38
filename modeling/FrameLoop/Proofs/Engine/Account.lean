import FrameLoop.Proofs.Engine.Services
import Mathlib.Data.List.Nodup

/-!
# What has been loaded and started

A load of a service returns `Ok`, the start hook of a service returns `Ok`: these are told at
events of a run, and what has been told by now is a fact about the run. `Accounted` relates it
to where the engine and its calls stand. `accounted_run` says that it holds after every run.

A service *comes late* if it is loaded while a start of the engine waits for the hook of
another. The engine is not running yet, so that the load starts nothing; and the start goes
on with the services that were there when it began.
-/

namespace FrameLoop

namespace World

open Engine (Call Progress Result Stage)

variable {w w' : World} {es : List Event} {d : Event} {e : EngineRef} {c : CallRef} {s t : Service}

/-! ## What is told of a service -/

/-- A call is at the start hook of a service. -/
def RunsStart (w : World) (e : EngineRef) (c : CallRef) (s : Service) : Prop :=
  ⟨c, e, .loading s⟩ ∈ w.calls ∨ ∃ rest, ⟨c, e, .starting (s :: rest)⟩ ∈ w.calls

/-- **The start hook of a service returns `Ok`.** -/
def StartOk (e : EngineRef) (s : Service) (w : World) (d : Event) : Prop :=
  ∃ c job, d = .hookReturned c (.ok job) ∧ w.RunsStart e c s

/-- **A call that loads a service returns `Ok`**: the event is the call itself, or the call
has run the start hook. -/
def LoadOk (e : EngineRef) (s : Service) (w : World) (d : Event) : Prop :=
  ∃ c, w.Told e c (.done (.loaded s.name)) d ∧ (d = .load e s ∨ ⟨c, e, .loading s⟩ ∈ w.calls)

/-- **A service comes late**: a call that loads it returns `Ok` at once, while a start of the
engine waits for a hook. -/
def ComesLate (e : EngineRef) (s : Service) (w : World) (d : Event) : Prop :=
  d = .load e s ∧ LoadOk e s w d ∧ ∃ c services, ⟨c, e, .starting services⟩ ∈ w.calls

/-- An event commits the engine to a service: that is loaded, or it is started. -/
def Commits (e : EngineRef) (s : Service) (w : World) (d : Event) : Prop :=
  LoadOk e s w d ∨ StartOk e s w d

/-- A load of the service has returned `Ok`. -/
def Loaded (e : EngineRef) (s : Service) (es : List Event) : Prop := Happened {} (LoadOk e s) es

/-- The start hook of the service has returned `Ok`. -/
def Started (e : EngineRef) (s : Service) (es : List Event) : Prop := Happened {} (StartOk e s) es

/-- The service has come late. -/
def CameLate (e : EngineRef) (s : Service) (es : List Event) : Prop :=
  Happened {} (ComesLate e s) es

/-- The engine is committed to the service: that has been loaded, or it has been started. -/
def Committed (e : EngineRef) (s : Service) (es : List Event) : Prop :=
  Loaded e s es ∨ Started e s es

/-- When the start hook of a service returns, the caller is told something. -/
theorem StartOk.told (h : StartOk e s w d) (numbered : w.Numbered) (can : d.canHappen w = true) :
    ∃ c job p, d = .hookReturned c (.ok job) ∧ w.RunsStart e c s ∧ w.Told e c p d := by
  obtain ⟨c, job, rfl, runs⟩ := h
  refine ⟨c, job, _, rfl, runs, ⟨?_, if_pos can⟩⟩
  obtain ⟨stage, known⟩ : ∃ stage, ⟨c, e, stage⟩ ∈ w.calls :=
    runs.elim (fun h => ⟨_, h⟩) fun ⟨_, h⟩ => ⟨_, h⟩
  have found : w.call? c = some ⟨c, e, stage⟩ := numbered.call? known
  rw [party?, found]
  rfl

/-- A call is at one stage. -/
theorem Numbered.stage_unique (numbered : w.Numbered) {at_ at_' : Stage}
    (h : ⟨c, e, at_⟩ ∈ w.calls) (h' : ⟨c, e, at_'⟩ ∈ w.calls) : at_ = at_' :=
  congrArg Call.stage (numbered.alike _ h _ h' rfl)

section Conducted

variable {before after : Option Stage} {g : Engine} {p : Progress} (numbered : w.Numbered)
  (told : w.Told e c p d) (conducts : Conducts w e c d before after g p)
  (begun : ∀ stage, before = some stage → ⟨c, e, stage⟩ ∈ w.calls)
include numbered told conducts begun

/-- **To which service an event commits the engine**: the one that is loaded at once, or the
one whose start hook returns. -/
theorem Conducts.commits (h : Commits e t w d) :
    (d = .load e t ∧ before = none ∧ (w.engine e).state ≠ .running) ∨
      (∃ job, d = .hookReturned c (.ok job)) ∧
        (before = some (.loading t) ∨ ∃ rest, before = some (.starting (t :: rest))) := by
  rcases h with ⟨c', told', own⟩ | started
  · obtain ⟨-, rfl, same⟩ := told.unique told'
    cases conducts with
    | @registers s _ accepts still =>
      left
      rcases own with own | known
      · exact ⟨own, rfl, still⟩
      · have number : w.nextCall = c' := congrArg Prod.snd (Option.some.inj told.party)
        exact absurd (numbered.fresh _ known) (number ▸ Nat.lt_irrefl _)
    | @loaded s job =>
      right
      rcases own with other | known
      · cases other
      · rw [numbered.stage_unique (begun _ rfl) known]
        exact ⟨⟨job, rfl⟩, .inl rfl⟩
    | loads | drops | drained | abandoned => cases same
    | begins _ next | started _ next =>
      obtain ⟨_, _, -, -, -, other⟩ | ⟨-, -, -, other⟩ := next.inversion <;>
        cases same.trans other
    | abandons _ winds => cases winds <;> cases same
    | stops next | stopped _ next =>
      obtain ⟨_, _, -, -, -, other⟩ | ⟨-, winds⟩ := next.inversion
      · cases same.trans other
      · cases winds <;> cases same
  · obtain ⟨c', job, p', rfl, runs, told'⟩ :=
      started.told numbered (canHappen_of_progress told.progress)
    obtain ⟨-, rfl, -⟩ := told.unique told'
    refine .inr ⟨⟨job, rfl⟩, ?_⟩
    cases before with
    | none => cases conducts
    | some stage =>
      refine runs.imp (fun known => ?_) fun ⟨rest, known⟩ => ⟨rest, ?_⟩
      · rw [numbered.stage_unique (begun stage rfl) known]
      · rw [numbered.stage_unique (begun stage rfl) known]

end Conducted

/-! ## The account of an engine -/

/-- The service has been seen to, as far as it ever will: it has been started, or it has
come late. -/
def SeenTo (e : EngineRef) (s : Service) (es : List Event) : Prop :=
  Started e s es ∨ CameLate e s es

theorem SeenTo.concat (h : SeenTo e s es) (d : Event) : SeenTo e s (es ++ [d]) :=
  h.imp (·.append [d]) (·.append [d])

/-- **What has been loaded and started on an engine.** A service to which the engine is committed
is there until the engine is let go, and no load runs its start hook any more; a start has yet
to come to a service, or has come to it, unless that came late; and a running engine has
started what was loaded in time. -/
structure Accounted (e : EngineRef) (es : List Event) : Prop where
  kept : ∀ s, Committed e s es →
    s ∈ ((run es).engine e).services ∨ ((run es).engine e).released = true
  fresh : ∀ c s, ⟨c, e, .loading s⟩ ∈ (run es).calls → ¬ Committed e s es
  waiting : ∀ c services, ⟨c, e, .starting services⟩ ∈ (run es).calls →
    ∀ s ∈ ((run es).engine e).services, s ∈ services ∨ SeenTo e s es
  complete : ((run es).engine e).state = .running →
    ∀ s, Loaded e s es → SeenTo e s es

/-- The engine is committed to a service by now if it was before, or by the last event. -/
theorem committed_concat : Committed e s (es ++ [d]) → Committed e s es ∨
    d.canHappen (run es) = true ∧ Commits e s (run es) d := by
  rintro (loaded | started)
  · rcases happened_concat.1 loaded with old | ⟨can, now⟩
    · exact .inl (.inl old)
    · exact .inr ⟨can, .inl now⟩
  · rcases happened_concat.1 started with old | ⟨can, now⟩
    · exact .inl (.inr old)
    · exact .inr ⟨can, .inr now⟩

/-- An event at which a call is at most refused commits the engine to nothing. -/
theorem not_commits (numbered : w.Numbered) (can : d.canHappen w = true)
    (silent : ∀ k p, w.Told e k p d → (∃ error, p = .done (.failed error)) ∧
      ∀ c, (∀ result, d ≠ .hookReturned c result) ∧ d ≠ .schedulerEnded c)
    (s : Service) : ¬ Commits e s w d := by
  rintro (⟨c, told, -⟩ | started)
  · obtain ⟨⟨error, other⟩, -⟩ := silent _ _ told
    cases other
  · obtain ⟨c, job, p, returns, -, told⟩ := started.told numbered can
    exact ((silent c p told).2 c).1 (.ok job) returns

namespace Accounted

variable (accounted : Accounted e es)
include accounted

/-- Nothing new, and no new start hooks, are accounted for. -/
theorem mono (services : ((run (es ++ [d])).engine e).services = ((run es).engine e).services)
    (released : ((run (es ++ [d])).engine e).released = ((run es).engine e).released)
    (state : ((run (es ++ [d])).engine e).state = .running → ((run es).engine e).state = .running)
    (calls : ∀ k stage, stage.starts = true → ⟨k, e, stage⟩ ∈ (run (es ++ [d])).calls →
      ⟨k, e, stage⟩ ∈ (run es).calls)
    (quiet : d.canHappen (run es) = true → ∀ s, ¬ Commits e s (run es) d) :
    Accounted e (es ++ [d]) := by
  have committed (s : Service) (h : Committed e s (es ++ [d])) : Committed e s es :=
    (committed_concat h).resolve_right fun now => quiet now.1 s now.2
  exact
    { kept := fun s h => by
        rw [services, released]
        exact accounted.kept s (committed s h)
      fresh := fun k s hk h => accounted.fresh k s (calls k _ rfl hk) (committed s h)
      waiting := fun k waiting hk s hs =>
        (accounted.waiting k waiting (calls k _ rfl hk) s (services ▸ hs)).imp_right (·.concat d)
      complete := fun running s h => by
        refine (accounted.complete (state running) s ?_).concat d
        exact (happened_concat.1 h).resolve_right fun now => quiet now.1 s (.inl now.2) }

section Held

variable (held : ((run es).engine e).released = false)
include held

/-- What an engine that is held is committed to is there. -/
theorem mem_of_committed (h : Committed e s es) : s ∈ ((run es).engine e).services :=
  (accounted.kept s h).resolve_right (by simp [held])

/-- The next service of the start that is under way is accounted for, and so is its end. -/
theorem startsNext {services : List Service} {after : Option Stage} {p : Progress}
    (next : ((run es).engine e).StartsNext c services after ((run (es ++ [d])).engine e) p)
    (still : ((run es).engine e).state ≠ .running)
    (calls : ∀ k stage, stage.starts = true → ⟨k, e, stage⟩ ∈ (run (es ++ [d])).calls →
      after = some stage)
    (commits : ∀ s, Commits e s (run es) d → s ∈ ((run es).engine e).services)
    (waiting : ∀ s ∈ ((run es).engine e).services, s ∈ services ∨ SeenTo e s (es ++ [d])) :
    Accounted e (es ++ [d]) := by
  have kept (s : Service) (h : Committed e s (es ++ [d])) : s ∈ ((run es).engine e).services :=
    (committed_concat h).elim (accounted.mem_of_committed held) fun now => commits s now.2
  obtain ⟨_, _, -, rfl, same, -⟩ | ⟨rfl, rfl, same, -⟩ := next.inversion
  · exact
      { kept := fun s h => .inl (same ▸ kept s h)
        fresh := fun k s hk => by cases calls k _ rfl hk
        waiting := fun k starting hk s hs => by
          obtain rfl : services = starting := by simpa using calls k _ rfl hk
          exact waiting s (same ▸ hs)
        complete := fun running => absurd (same ▸ running) still }
  · exact
      { kept := fun s h => .inl (same ▸ kept s h)
        fresh := fun k s hk => by cases calls k _ rfl hk
        waiting := fun k starting hk => by cases calls k _ rfl hk
        complete := fun _ s h =>
          (waiting s (kept s (.inl h))).resolve_left List.not_mem_nil }

/-- A service that is loaded at once is accounted for: it comes late to a start that is under
way. -/
theorem registers {g : Engine} (accepts : ((run es).engine e).accept s = some g)
    (still : ((run es).engine e).state ≠ .running)
    (told : (run es).Told e c (.done (.loaded s.name)) (.load e s))
    (engine : (run (es ++ [.load e s])).engine e = g)
    (calls : ∀ k stage, stage.starts = true → ⟨k, e, stage⟩ ∈ (run (es ++ [.load e s])).calls →
      ⟨k, e, stage⟩ ∈ (run es).calls)
    (commits : ∀ t, Commits e t (run es) (.load e s) → t = s) :
    Accounted e (es ++ [.load e s]) := by
  have accepted := Engine.accept_some accepts
  have now (t : Service) (h : Committed e t (es ++ [.load e s])) : Committed e t es ∨ t = s :=
    (committed_concat h).imp_right fun now => commits t now.2
  exact
    { kept := fun t h => by
        left
        rw [engine, accepted.services]
        rcases now t h with before | rfl
        · exact List.mem_append_left _ (accounted.mem_of_committed held before)
        · exact List.mem_append_right _ (List.mem_singleton_self t)
      fresh := fun k t hk h => by
        have known := calls k _ rfl hk
        rcases now t h with before | rfl
        · exact accounted.fresh k t known before
        · exact accepted.new t ((orderly_run es e).loading k t known) rfl
      waiting := fun k starting hk t ht => by
        have known := calls k _ rfl hk
        rw [engine, accepted.services, List.mem_append, List.mem_singleton] at ht
        rcases ht with ht | rfl
        · exact (accounted.waiting k starting known t ht).imp_right (·.concat _)
        · have late : ComesLate e t (run es) (.load e t) :=
            ⟨rfl, ⟨c, told, .inl rfl⟩, k, starting, known⟩
          exact .inr (.inr (happened_concat.2 (.inr ⟨canHappen_of_progress told.progress, late⟩)))
      complete := fun running => by
        rw [engine, accepted.state] at running
        exact absurd running still }

/-- A service whose start hook runs because it was loaded into a running engine has yet to be
accounted for. -/
theorem loads {g : Engine} (accepts : ((run es).engine e).accept s = some g)
    (running : ((run es).engine e).state = .running)
    (engine : (run (es ++ [.load e s])).engine e = g)
    (calls : ∀ k stage, ⟨k, e, stage⟩ ∈ (run (es ++ [.load e s])).calls →
      ⟨k, e, stage⟩ ∈ (run es).calls ∨ stage = .loading s)
    (quiet : ∀ t, ¬ Commits e t (run es) (.load e s)) : Accounted e (es ++ [.load e s]) := by
  have accepted := Engine.accept_some accepts
  have committed (t : Service) (h : Committed e t (es ++ [.load e s])) : Committed e t es :=
    (committed_concat h).resolve_right fun now => quiet t now.2
  have kept (t : Service) (h : Committed e t (es ++ [.load e s])) :=
    accounted.mem_of_committed held (committed t h)
  exact
    { kept := fun t h => by
        left
        rw [engine, accepted.services]
        exact List.mem_append_left _ (kept t h)
      fresh := fun k t hk h => by
        rcases calls k _ hk with known | same
        · exact accounted.fresh k t known (committed t h)
        · cases same
          exact accepted.new s (kept s h) rfl
      waiting := fun k starting hk => by
        rcases calls k _ hk with known | same
        · exact absurd running ((orderly_run es e).starting k starting known).1
        · cases same
      complete := fun _ t h => by
        refine (accounted.complete running t ?_).concat _
        exact (happened_concat.1 h).resolve_right fun now => quiet t (.inl now.2) }

/-- A service that has been started because it was loaded into a running engine is accounted
for. -/
theorem loaded {job : Option JobRef} (call : ⟨c, e, .loading s⟩ ∈ (run es).calls)
    (can : (Event.hookReturned c (.ok job)).canHappen (run es) = true)
    (engine : (run (es ++ [.hookReturned c (.ok job)])).engine e = (run es).engine e)
    (calls : ∀ k stage, ⟨k, e, stage⟩ ∈ (run (es ++ [.hookReturned c (.ok job)])).calls →
      ⟨k, e, stage⟩ ∈ (run es).calls ∧ k ≠ c)
    (commits : ∀ t, Commits e t (run es) (.hookReturned c (.ok job)) → t = s) :
    Accounted e (es ++ [.hookReturned c (.ok job)]) := by
  have startOk : StartOk e s (run es) (.hookReturned c (.ok job)) := ⟨c, job, rfl, .inl call⟩
  have now (t : Service) (h : Committed e t (es ++ [.hookReturned c (.ok job)])) :
      Committed e t es ∨ t = s :=
    (committed_concat h).imp_right fun now => commits t now.2
  exact
    { kept := fun t h => by
        left
        rw [engine]
        rcases now t h with before | rfl
        · exact accounted.mem_of_committed held before
        · exact (orderly_run es e).loading c t call
      fresh := fun k t hk h => by
        obtain ⟨known, other⟩ := calls k _ hk
        rcases now t h with before | rfl
        · exact accounted.fresh k t known before
        · exact other ((orderly_run es e).alone c k t t call known rfl)
      waiting := fun k starting hk t ht =>
        (accounted.waiting k starting (calls k _ hk).1 t (engine ▸ ht)).imp_right (·.concat _)
      complete := fun running t h => by
        rcases happened_concat.1 h with before | ⟨-, here⟩
        · exact (accounted.complete (engine ▸ running) t before).concat _
        · obtain rfl := commits t (.inl here)
          exact .inl (happened_concat.2 (.inr ⟨can, startOk⟩)) }

/-- The service whose hook has returned in a start is accounted for, and the start goes on to the
next. -/
theorem started {job : Option JobRef} {rest : List Service} {after : Option Stage} {p : Progress}
    (call : ⟨c, e, .starting (s :: rest)⟩ ∈ (run es).calls)
    (can : (Event.hookReturned c (.ok job)).canHappen (run es) = true)
    (next : ((run es).engine e).StartsNext c rest after
      ((run (es ++ [.hookReturned c (.ok job)])).engine e) p)
    (calls : ∀ k stage, ⟨k, e, stage⟩ ∈ (run (es ++ [.hookReturned c (.ok job)])).calls ↔
      ⟨k, e, stage⟩ ∈ (run es).calls ∧ k ≠ c ∨ k = c ∧ after = some stage)
    (commits : ∀ t, Commits e t (run es) (.hookReturned c (.ok job)) → t = s) :
    Accounted e (es ++ [.hookReturned c (.ok job)]) := by
  have orderly := orderly_run es e
  obtain ⟨still, known⟩ := orderly.starting c _ call
  have startOk : StartOk e s (run es) (.hookReturned c (.ok job)) :=
    ⟨c, job, rfl, .inr ⟨rest, call⟩⟩
  refine accounted.startsNext held next still
    (fun k stage starts hk => (orderly.starts_of_starting call calls k stage starts hk).2)
    (fun t here => ?_) fun t ht => ?_
  · rw [commits t here]
    exact known List.mem_cons_self
  · -- The first of those that were to come has been started, at this event.
    rcases accounted.waiting c _ call t ht with waits | seen
    · rcases List.mem_cons.1 waits with rfl | later
      · exact .inr (.inl (happened_concat.2 (.inr ⟨can, startOk⟩)))
      · exact .inl later
    · exact .inr (seen.concat _)

/-- A service whose start hook fails goes, and what is accounted for stays. -/
theorem drops {result : HookResult} (call : ⟨c, e, .loading s⟩ ∈ (run es).calls)
    (engine : (run (es ++ [.hookReturned c result])).engine e = ((run es).engine e).drop s.kind)
    (calls : ∀ k stage, ⟨k, e, stage⟩ ∈ (run (es ++ [.hookReturned c result])).calls →
      ⟨k, e, stage⟩ ∈ (run es).calls)
    (quiet : ∀ t, ¬ Commits e t (run es) (.hookReturned c result)) :
    Accounted e (es ++ [.hookReturned c result]) := by
  have orderly := orderly_run es e
  have committed (t : Service) (h : Committed e t (es ++ [.hookReturned c result])) :
      Committed e t es := (committed_concat h).resolve_right fun now => quiet t now.2
  have keeps (t : Service) (h : Committed e t (es ++ [.hookReturned c result])) :
      t ∈ ((run es).engine e).services ∧ t.kind ≠ s.kind := by
    have known := accounted.mem_of_committed held (committed t h)
    refine ⟨known, fun same => ?_⟩
    -- Kinds are told apart, so that it would be the service whose hook has yet to return.
    obtain rfl : t = s :=
      List.inj_on_of_nodup_map (Engine.kinds_services _) known (orderly.loading c s call) same
    exact accounted.fresh c t call (committed t h)
  exact
    { kept := fun t h => by
        left
        rw [engine, Engine.services_drop]
        exact List.mem_filter.2 ⟨(keeps t h).1, bne_iff_ne.2 (keeps t h).2⟩
      fresh := fun k t hk h => accounted.fresh k t (calls k _ hk) (committed t h)
      waiting := fun k starting hk => by
        cases (orderly.only k starting (calls k _ hk) c _ rfl call).2
      complete := fun running t h => by
        rw [engine] at running
        refine (accounted.complete running t ?_).concat _
        exact (happened_concat.1 h).resolve_right fun now => quiet t (.inl now.2) }

end Held

/-- **An engine stays accounted for when a call has done something.** -/
theorem conducted {before after : Option Stage} {g : Engine} {p : Progress}
    (held : ((run es).engine e).released = false) (told : (run es).Told e c p d)
    (conducts : (run es).Conducts e c d before after g p)
    (engine : (run (es ++ [d])).engine e = g)
    (calls : ∀ k stage, ⟨k, e, stage⟩ ∈ (run (es ++ [d])).calls ↔
      ⟨k, e, stage⟩ ∈ (run es).calls ∧ k ≠ c ∨ k = c ∧ after = some stage)
    (begun : ∀ stage, before = some stage → ⟨c, e, stage⟩ ∈ (run es).calls) :
    Accounted e (es ++ [d]) := by
  have orderly := orderly_run es e
  have can := canHappen_of_progress told.progress
  have commits (t : Service) := conducts.commits (t := t) (numbered_run es) told begun
  have quiet (unloaded : ∀ t, d ≠ .load e t) (failed : ∀ job, d ≠ .hookReturned c (.ok job))
      (t : Service) : ¬ Commits e t (run es) d := fun here => by
    rcases commits t here with ⟨same, -⟩ | ⟨⟨job, returns⟩, -⟩
    · exact unloaded t same
    · exact failed job returns
  have fewer := fewer_starts calls
  have eases (h : Eases ((run es).engine e) g after)
      (quiet : ∀ s, ¬ Commits e s (run es) d) : Accounted e (es ++ [d]) :=
    accounted.mono (engine ▸ h.services) (engine ▸ h.released) (engine ▸ h.state)
      (fewer h.after) fun _ => quiet
  cases conducts with
  | @registers s _ accepts still =>
    refine accounted.registers held accepts still told engine (fewer (by simp)) fun t here => ?_
    rcases commits t here with ⟨same, -⟩ | ⟨⟨job, returns⟩, -⟩
    · exact (Event.load.inj same).2.symm
    · cases returns
  | @loads s _ accepts running =>
    refine accounted.loads held accepts running engine (fun k stage hk => ?_) fun t here => ?_
    · rcases (calls k stage).1 hk with ⟨known, -⟩ | ⟨-, same⟩
      · exact .inl known
      · exact .inr (Option.some.inj same).symm
    · rcases commits t here with ⟨-, -, still⟩ | ⟨⟨job, returns⟩, -⟩
      · exact still running
      · cases returns
  | begins atRest next =>
    -- The start has found all services, so that each of them is still to come.
    obtain ⟨still, none⟩ := orderly.idle atRest
    exact accounted.startsNext held (engine ▸ next) still
      (fun k stage starts hk => (starts_of_none calls none k stage starts hk).2)
      (fun t here => absurd here (quiet (by simp) (by simp) t)) fun t ht => .inl ht
  | @loaded s job =>
    refine accounted.loaded held (begun _ rfl) can engine
      (fun _ _ => others_of_ended calls rfl) fun t here => ?_
    rcases commits t here with ⟨same, -⟩ | ⟨-, same | ⟨_, same⟩⟩
    · cases same
    · cases same
      rfl
    · cases same
  | @drops s cause =>
    exact accounted.drops held (begun _ rfl) engine
      (fun _ _ hk => (others_of_ended calls rfl hk).1) (quiet (by simp) (by simp))
  | @started s rest job _ _ _ next =>
    refine accounted.started held (begun _ rfl) can (engine ▸ next) calls fun t here => ?_
    rcases commits t here with ⟨same, -⟩ | ⟨-, same | ⟨_, same⟩⟩
    · cases same
    · cases same
    · cases same
      rfl
  | abandons cause winds => exact eases (winds.eases rfl) (quiet (by simp) (by simp))
  | stops next => exact eases next.eases (quiet (by simp) (by simp))
  | stopped result next =>
    refine eases next.eases fun t here => ?_
    rcases commits t here with ⟨same, -⟩ | ⟨-, same | ⟨_, same⟩⟩ <;> cases same
  | drained ended =>
    exact eases ⟨rfl, rfl, rfl, by simp, by simp⟩ (quiet (by simp) (by simp))
  | abandoned error ended =>
    exact eases ⟨rfl, rfl, rfl, id, by simp⟩ (quiet (by simp) (by simp))

/-- **An engine stays accounted for.** -/
theorem step (d : Event) : Accounted e (es ++ [d]) := by
  have numbered := numbered_run es
  have on := on_step es d e
  rw [← run_concat] at on
  cases on with
  | apart engine calls silent =>
    exact accounted.mono (congrArg _ engine) (congrArg _ engine) (engine ▸ id)
      (fun k stage _ => calls k stage) fun can => not_commits numbered can silent
  | made r absent engine calls silent =>
    have committed (s : Service) (h : Committed e s (es ++ [d])) : False := by
      rcases committed_concat h with old | ⟨can, now⟩
      · have kept := accounted.kept s old
        rw [show (run es).engine e = default by simp [World.engine, absent]] at kept
        exact kept.elim List.not_mem_nil Bool.false_ne_true
      · exact not_commits numbered can (fun k p told => absurd told (silent k p)) s now
    exact
      { kept := fun s h => (committed s h).elim
        fresh := fun k s hk => absurd hk (calls k _)
        waiting := fun k starting hk => absurd hk (calls k _)
        complete := fun _ s h => (committed s (.inl h)).elim }
  | released engine calls silent =>
    exact
      { kept := fun s h => .inr (by rw [engine])
        fresh := fun k s hk => absurd hk (calls k _)
        waiting := fun k starting hk => absurd hk (calls k _)
        complete := fun running s h => by
          rw [engine] at running
          refine (accounted.complete running s ?_).concat d
          refine (happened_concat.1 h).resolve_right fun now => ?_
          exact not_commits numbered now.1 (fun k p told => absurd told (silent k p)) s
            (.inl now.2) }
  | conducted told conducts engine calls begun new =>
    have held := (orderly_run es e).held_of_conducts begun new
    exact accounted.conducted held told conducts engine calls begun

end Accounted

/-- **Every engine is accounted for after every run.** -/
theorem accounted_run (es : List Event) (e : EngineRef) : Accounted e es := by
  induction es using List.reverseRecOn with
  | nil =>
    have none (s : Service) : ¬ Committed e s [] :=
      fun h => h.elim not_happened_nil not_happened_nil
    exact
      { kept := fun s h => absurd h (none s)
        fresh := fun _ s _ => none s
        waiting := fun _ _ hk => absurd hk List.not_mem_nil
        complete := fun _ s h => absurd (.inl h) (none s) }
  | append_singleton es d ih => exact ih.step d

end World

end FrameLoop

import FrameLoop.Proofs.Engine.Services
import Mathlib.Data.List.Nodup

/-!
# Who is registered with an engine

A load enters its service at once and may have to take it out again when the start hook has
failed, and in between there may be any number of other loads. What callers know of this is kept
along with a run: `admissions`, the loads that were accepted and have not failed. This account
does not read the registry of the engine. `registry_admits` says that the two always tell the
same.

**What this does not say.** A load whose hook panics is given up, and so is one whose caller
stops waiting. Neither has failed: the service stays.
-/

namespace FrameLoop

open Engine (Call Progress Result Stage)

namespace World

variable {w w' : World} {es : List Event} {d : Event} {e : EngineRef} {c : CallRef} {s : Service}
  {p : Progress}

/-! ## What callers are told -/

/-- Which caller of an engine is told something at an event, and what. -/
def answer? (w : World) (e : EngineRef) (d : Event) : Option (CallRef × Progress) :=
  match w.party? d, w.progress d with
  | some (i, c), some p => if i = e then some (c, p) else none
  | _, _ => none

theorem answer?_eq_some : w.answer? e d = some (c, p) ↔ w.Told e c p d := by
  constructor
  · intro answer
    unfold answer? at answer
    split at answer
    · next i k q party progress =>
      split at answer
      · next same =>
        obtain ⟨rfl, rfl⟩ := Prod.mk.inj (Option.some.inj answer)
        exact ⟨same ▸ party, progress⟩
      · cases answer
    · cases answer
  · intro told
    rw [answer?, told.party, told.progress]
    exact if_pos rfl

theorem answer?_eq_none (silent : ∀ k p, ¬ w.Told e k p d) : w.answer? e d = none := by
  cases answer : w.answer? e d with
  | none => rfl
  | some told => exact absurd (answer?_eq_some.1 answer) (silent told.1 told.2)

/-! ## What callers know -/

/-- What a run makes of something that is kept along with it. -/
def along {α : Type} (next : World → Event → α → α) : World → α → List Event → α
  | _, a, [] => a
  | w, a, d :: es => along next (w.step d).2 (next w d a) es

theorem along_concat {α : Type} (next : World → Event → α → α) (w : World) (a : α)
    (es : List Event) (d : Event) :
    along next w a (es ++ [d]) = next (w.runFrom es) d (along next w a es) := by
  induction es generalizing w a with
  | nil => rfl
  | cons b es ih => exact ih (w.step b).2 (next w b a)

/-- **A load that was accepted**: of which service, and the number of the call if that has to
run the start hook. -/
structure Admission where
  service : Service
  call : Option CallRef
deriving DecidableEq

/-- The load that is accepted at an event. -/
def accepted (w : World) (e : EngineRef) (d : Event) : List Admission :=
  match d, w.answer? e d with
  | .load _ s, some (_, .done (.loaded _)) => [⟨s, none⟩]
  | .load _ s, some (c, .enterStart _ _) => [⟨s, some c⟩]
  | _, _ => []

/-- The call that fails at an event. -/
def failure? (w : World) (e : EngineRef) (d : Event) : Option CallRef :=
  match w.answer? e d with
  | some (c, .done (.failed _)) => some c
  | _ => none

/-- What an event does to the admissions. -/
def admissionsNext (e : EngineRef) (w : World) (d : Event) (A : List Admission) : List Admission :=
  A.filter (fun a => a.call.all fun c => w.failure? e d != some c) ++ w.accepted e d

/-- **The loads that were accepted and have not failed**, in the order in which they were
accepted. -/
def admissions (e : EngineRef) (es : List Event) : List Admission :=
  along (admissionsNext e) {} [] es

theorem admissions_concat (e : EngineRef) (es : List Event) (d : Event) :
    admissions e (es ++ [d]) = admissionsNext e (run es) d (admissions e es) :=
  along_concat _ _ _ es d

/-! ## The account agrees -/

/-- **The admissions of an engine agree with it**, while it is held, and every call that an
admission tells of is the load of its service. -/
structure Agree (w : World) (e : EngineRef) (A : List Admission) : Prop where
  services : (w.engine e).released = false → (w.engine e).services = A.map (·.service)
  fresh : ∀ a ∈ A, ∀ c, a.call = some c → c < w.nextCall
  calls : ∀ a ∈ A, ∀ c stage, a.call = some c → ⟨c, e, stage⟩ ∈ w.calls →
    stage = .loading a.service
  loading : ∀ c s, ⟨c, e, .loading s⟩ ∈ w.calls → ⟨s, some c⟩ ∈ A

variable {A : List Admission}

/-- Nothing is taken from the admissions at an event at which no load fails. -/
theorem admissionsNext_of_unfailed
    (unfailed : ∀ a ∈ A, ∀ c, a.call = some c → w.failure? e d ≠ some c) :
    admissionsNext e w d A = A ++ w.accepted e d := by
  rw [admissionsNext, List.filter_eq_self.2]
  intro a known
  cases call : a.call with
  | none => rfl
  | some c => exact bne_iff_ne.2 (unfailed a known c call)

/-- The admissions agree still where the services are the same, and the calls of the admissions. -/
theorem Agree.rests (agree : Agree w e A)
    (services : (w'.engine e).services = (w.engine e).services)
    (held : (w'.engine e).released = false → (w.engine e).released = false)
    (next : w.nextCall ≤ w'.nextCall)
    (calls : ∀ a ∈ A, ∀ k stage, a.call = some k → ⟨k, e, stage⟩ ∈ w'.calls →
      ⟨k, e, stage⟩ ∈ w.calls)
    (loading : ∀ k s, ⟨k, e, .loading s⟩ ∈ w'.calls → ⟨k, e, .loading s⟩ ∈ w.calls) :
    Agree w' e A where
  services now := services.trans (agree.services (held now))
  fresh a known c call := Nat.lt_of_lt_of_le (agree.fresh a known c call) next
  calls a known c stage call here :=
    agree.calls a known c stage call (calls a known c stage call here)
  loading c s here := agree.loading c s (loading c s here)

/-- A call that fails is the one that is told something. -/
theorem eq_of_failure? {k : CallRef} (answer : w.answer? e d = some (c, p))
    (fails : w.failure? e d = some k) : c = k := by
  rw [failure?, answer] at fails
  split at fails
  · next told =>
    cases told
    exact Option.some.inj fails
  · cases fails

section Conducted

variable {before after : Option Stage} {g : Engine} (agree : Agree (run es) e A)
  (told : (run es).Told e c p d) (engine : (run (es ++ [d])).engine e = g)
  (calls : ∀ k stage, ⟨k, e, stage⟩ ∈ (run (es ++ [d])).calls ↔
    ⟨k, e, stage⟩ ∈ (run es).calls ∧ k ≠ c ∨ k = c ∧ after = some stage)
  (held : ((run es).engine e).released = false)
include agree told engine calls held

/-- Nothing is entered or taken out at an event of a call that leaves the services alone. -/
theorem Agree.passes (services : g.services = ((run es).engine e).services)
    (own : ∀ a ∈ A, a.call = some c → after = none ∧ (run es).failure? e d = none)
    (starts : ∀ s, after ≠ some (.loading s)) (none : (run es).accepted e d = []) :
    Agree (run (es ++ [d])) e (admissionsNext e (run es) d A) := by
  have unfailed : ∀ a ∈ A, ∀ k, a.call = some k → (run es).failure? e d ≠ some k := by
    intro a known k call fails
    obtain rfl := eq_of_failure? (answer?_eq_some.2 told) fails
    cases (own a known call).2.symm.trans fails
  rw [admissionsNext_of_unfailed unfailed, none, List.append_nil]
  refine agree.rests (by rw [engine, services]) (fun _ => held) (nextCall_le_concat es d)
    (fun a known k stage call here => ?_) fun k s here => ?_
  · rcases (calls k stage).1 here with ⟨old, -⟩ | ⟨rfl, here⟩
    · exact old
    · rw [(own a known call).1] at here
      cases here
  · rcases (calls k _).1 here with ⟨old, -⟩ | ⟨-, here⟩
    · exact old
    · exact absurd here (starts s)

/-- A load that is accepted enters its service, last. -/
theorem Agree.accepts (accepts : ((run es).engine e).accept s = some g) {call : Option CallRef}
    (admitted : (run es).accepted e d = [⟨s, call⟩]) (unfailed : (run es).failure? e d = none)
    (new : c = (run es).nextCall)
    (number : ∀ k, call = some k → k = c ∧ after = some (.loading s))
    (runs : ∀ stage, after = some stage → call = some c ∧ stage = .loading s) :
    Agree (run (es ++ [d])) e (admissionsNext e (run es) d A) := by
  have numbered := numbered_run (es ++ [d])
  have services := (Engine.accept_some accepts).services
  rw [admissionsNext_of_unfailed (by simp [unfailed]), admitted]
  exact
    { services := fun _ => by
        rw [engine, services, agree.services held, List.map_append, List.map_singleton]
      fresh := fun a known k mine => by
        rcases List.mem_append.1 known with old | last
        · exact Nat.lt_of_lt_of_le (agree.fresh a old k mine) (nextCall_le_concat es d)
        · obtain rfl := List.mem_singleton.1 last
          obtain ⟨rfl, here⟩ := number k mine
          exact numbered.fresh _ ((calls k _).2 (.inr ⟨rfl, here⟩))
      calls := fun a known k stage mine here => by
        rcases List.mem_append.1 known with old | last
        · rcases (calls k stage).1 here with ⟨before, -⟩ | ⟨rfl, -⟩
          · exact agree.calls a old k stage mine before
          · exact absurd (agree.fresh a old k mine) (new ▸ Nat.lt_irrefl _)
        · obtain rfl := List.mem_singleton.1 last
          obtain ⟨rfl, -⟩ := number k mine
          exact (runs stage (stage_of_call calls here)).2
      loading := fun k t here => by
        rcases (calls k _).1 here with ⟨old, -⟩ | ⟨rfl, here⟩
        · exact List.mem_append_left _ (agree.loading k t old)
        · obtain ⟨mine, same⟩ := runs _ here
          obtain rfl := Stage.loading.inj same
          exact List.mem_append_right _ (List.mem_singleton.2 (by rw [mine])) }

end Conducted

/-- No two admissions are of one kind. -/
theorem Agree.kinds (agree : Agree w e A) (held : (w.engine e).released = false) :
    (A.map (·.service.kind)).Nodup := by
  have kinds := (w.engine e).kinds_services
  rwa [agree.services held, List.map_map] at kinds

section Dropped

variable (agree : Agree (run es) e A) (call : ⟨c, e, .loading s⟩ ∈ (run es).calls)
  (held : ((run es).engine e).released = false)
include agree call held

/-- **The admission of a load that is under way is the one of its kind.** -/
theorem Agree.own {a : Admission} (known : a ∈ A) :
    a.call = some c ↔ a.service.kind = s.kind := by
  have loading := agree.loading c s call
  constructor
  · intro mine
    have same := agree.calls a known c _ mine call
    rw [Stage.loading.inj same]
  · intro kind
    have same := List.inj_on_of_nodup_map (agree.kinds held) known loading kind
    rw [same]

variable {cause : Cause}
  (told : (run es).Told e c (.done (.failed (.serviceStart s.name cause)))
    (.hookReturned c (.failed cause)))
include told

/-- **A load that fails takes out its own admission.** -/
theorem Agree.admissions_dropped :
    admissionsNext e (run es) (.hookReturned c (.failed cause)) A =
      A.filter (·.service.kind != s.kind) := by
  have fails : (run es).failure? e (.hookReturned c (.failed cause)) = some c := by
    rw [failure?, answer?_eq_some.2 told]
  have none : (run es).accepted e (.hookReturned c (.failed cause)) = [] := rfl
  rw [admissionsNext, fails, none, List.append_nil]
  refine List.filter_congr fun a known => ?_
  have own := agree.own call held known
  rw [Bool.eq_iff_iff, Option.all_eq_true, bne_iff_ne]
  refine Iff.trans ?_ (not_congr own)
  constructor
  · intro others mine
    exact bne_iff_ne.1 (others c mine) rfl
  · intro other k mine
    exact bne_iff_ne.2 fun same => other (Option.some.inj same ▸ mine)

/-- **All others are left**, in their order. -/
theorem Agree.admissions_split : ∃ front back, A = front ++ ⟨s, some c⟩ :: back ∧
    admissionsNext e (run es) (.hookReturned c (.failed cause)) A = front ++ back ∧
    ∀ a ∈ front ++ back, a.service.kind ≠ s.kind := by
  obtain ⟨front, back, split⟩ := List.append_of_mem (agree.loading c s call)
  have others : ∀ a ∈ front ++ back, a.service.kind ≠ s.kind := by
    have kinds := agree.kinds held
    rw [split, List.map_append, List.map_cons, List.nodup_middle, ← List.map_append] at kinds
    intro a known same
    exact (List.nodup_cons.1 kinds).1 (List.mem_map.2 ⟨a, known, same⟩)
  refine ⟨front, back, split, ?_, others⟩
  rw [agree.admissions_dropped call held told, split, List.filter_append,
    List.filter_cons_of_neg (by simp), ← List.filter_append, List.filter_eq_self.2]
  intro a known
  exact bne_iff_ne.2 (others a known)

/-- The admissions agree after a load has failed. -/
theorem Agree.drops
    (engine : (run (es ++ [.hookReturned c (.failed cause)])).engine e =
      ((run es).engine e).drop s.kind)
    (calls : ∀ k stage, ⟨k, e, stage⟩ ∈ (run (es ++ [.hookReturned c (.failed cause)])).calls →
      ⟨k, e, stage⟩ ∈ (run es).calls ∧ k ≠ c) :
    Agree (run (es ++ [.hookReturned c (.failed cause)])) e
      (admissionsNext e (run es) (.hookReturned c (.failed cause)) A) := by
  rw [agree.admissions_dropped call held told]
  exact
    { services := fun _ => by
        rw [engine, Engine.services_drop, agree.services held, List.filter_map]
        rfl
      fresh := fun a known k mine =>
        Nat.lt_of_lt_of_le (agree.fresh a (List.mem_filter.1 known).1 k mine)
          (nextCall_le_concat es _)
      calls := fun a known k stage mine here =>
        agree.calls a (List.mem_filter.1 known).1 k stage mine (calls k stage here).1
      loading := fun k t here => by
        obtain ⟨old, other⟩ := calls k _ here
        have known := agree.loading k t old
        refine List.mem_filter.2 ⟨known, bne_iff_ne.2 fun same => other ?_⟩
        exact Option.some.inj ((agree.own call held known).2 same) }

end Dropped

/-- The admissions stay as they are where a caller is refused. -/
theorem Agree.refused {error : EngineError} (agree : Agree (run es) e A)
    (told : (run es).Told e c (.done (.failed error)) d)
    (new : ∀ k, (∀ result, d ≠ .hookReturned k result) ∧ d ≠ .schedulerEnded k) :
    admissionsNext e (run es) d A = A := by
  have answer := answer?_eq_some.2 told
  have party := told.party
  have number : (run es).nextCall = c := by
    cases d with
    | load | startEngine | stopEngine => exact congrArg Prod.snd (Option.some.inj party)
    | hookReturned k result => exact absurd rfl ((new k).1 result)
    | schedulerEnded k => exact absurd rfl (new k).2
    | _ => cases party
  have unfailed : ∀ a ∈ A, ∀ k, a.call = some k → (run es).failure? e d ≠ some k := by
    intro a known k mine fails
    rw [← eq_of_failure? answer fails] at mine
    exact absurd (agree.fresh a known c mine) (number ▸ Nat.lt_irrefl _)
  have none : (run es).accepted e d = [] := by
    unfold accepted
    rw [answer]
    cases d <;> rfl
  rw [admissionsNext_of_unfailed unfailed, none, List.append_nil]

/-- The admissions stay as they are where nobody is told anything. -/
theorem admissionsNext_of_unanswered (A : List Admission) (silent : w.answer? e d = none) :
    admissionsNext e w d A = A := by
  have none : w.accepted e d = [] := by
    unfold accepted
    rw [silent]
    split <;> simp_all
  rw [admissionsNext_of_unfailed (by simp [failure?, silent]), none, List.append_nil]

/-- **The admissions agree after a call has done something.** -/
theorem Agree.conducted {before after : Option Stage} {g : Engine} (agree : Agree (run es) e A)
    (told : (run es).Told e c p d) (conducts : (run es).Conducts e c d before after g p)
    (engine : (run (es ++ [d])).engine e = g)
    (calls : ∀ k stage, ⟨k, e, stage⟩ ∈ (run (es ++ [d])).calls ↔
      ⟨k, e, stage⟩ ∈ (run es).calls ∧ k ≠ c ∨ k = c ∧ after = some stage)
    (begun : ∀ stage, before = some stage → ⟨c, e, stage⟩ ∈ (run es).calls)
    (held : ((run es).engine e).released = false) :
    Agree (run (es ++ [d])) e (admissionsNext e (run es) d A) := by
  have answer := answer?_eq_some.2 told
  -- A call that has begun and is not a load has no admission.
  have other (stage : Stage) (known : before = some stage) (unloading : ∀ s, stage ≠ .loading s) :
      ∀ a ∈ A, a.call = some c → after = none ∧ (run es).failure? e d = none := by
    intro a admitted mine
    exact absurd (agree.calls a admitted c stage mine (begun stage known)) (unloading _)
  have fresh (number : (run es).nextCall = c) :
      ∀ a ∈ A, a.call = some c → after = none ∧ (run es).failure? e d = none := by
    intro a admitted mine
    exact absurd (agree.fresh a admitted c mine) (number ▸ Nat.lt_irrefl _)
  have passes := agree.passes told engine calls held
  have unloaded (eases : Eases ((run es).engine e) g after) (s : Service) :
      after ≠ some (.loading s) := by
    intro here
    cases eases.after _ here
  cases conducts with
  | @registers s _ accepts still =>
    have admitted : (run es).accepted e (.load e s) = [⟨s, none⟩] := by
      unfold accepted
      rw [answer]
    refine agree.accepts told engine calls held accepts admitted ?_
      (congrArg Prod.snd (Option.some.inj told.party)).symm (by simp) (by simp)
    rw [failure?, answer]
  | @loads s _ accepts running =>
    have admitted : (run es).accepted e (.load e s) = [⟨s, some c⟩] := by
      unfold accepted
      rw [answer]
    refine agree.accepts told engine calls held accepts admitted ?_
      (congrArg Prod.snd (Option.some.inj told.party)).symm (fun k mine => ?_)
      fun stage here => ?_
    · rw [failure?, answer]
    · exact ⟨(Option.some.inj mine).symm, rfl⟩
    · exact ⟨rfl, (Option.some.inj here).symm⟩
  | begins idle next =>
    have number := congrArg Prod.snd (Option.some.inj told.party)
    obtain ⟨_, _, -, rfl, rfl, -⟩ | ⟨-, rfl, rfl, -⟩ := next.inversion
    · exact passes rfl (fresh number) (by simp) rfl
    · exact passes rfl (fresh number) (by simp) rfl
  | loaded job =>
    refine passes rfl (fun a _ _ => ⟨rfl, ?_⟩) (by simp) rfl
    rw [failure?, answer]
  | drops cause =>
    exact agree.drops (begun _ rfl) held told engine fun _ _ => others_of_ended calls rfl
  | started job next =>
    obtain ⟨_, _, -, rfl, rfl, -⟩ | ⟨-, rfl, rfl, -⟩ := next.inversion
    · exact passes rfl (other _ rfl (by simp)) (by simp) rfl
    · exact passes rfl (other _ rfl (by simp)) (by simp) rfl
  | abandons cause winds =>
    have eases := winds.eases rfl
    exact passes eases.services (other _ rfl (by simp)) (unloaded eases) rfl
  | stops next =>
    exact passes next.eases.services (fresh (congrArg Prod.snd (Option.some.inj told.party)))
      (unloaded next.eases) rfl
  | stopped result next =>
    exact passes next.eases.services (other _ rfl (by simp)) (unloaded next.eases) rfl
  | drained ended => exact passes rfl (other _ rfl (by simp)) (by simp) rfl
  | abandoned error ended => exact passes rfl (other _ rfl (by simp)) (by simp) rfl

/-- **The admissions agree after every event** if they did before. -/
theorem Agree.step (agree : Agree (run es) e A) (d : Event) :
    Agree (run (es ++ [d])) e (admissionsNext e (run es) d A) := by
  have on := on_step es d e
  rw [← run_concat] at on
  cases on with
  | apart engine calls silent =>
    have kept : admissionsNext e (run es) d A = A := by
      cases answer : (run es).answer? e d with
      | none => exact admissionsNext_of_unanswered A answer
      | some caller =>
        have told := answer?_eq_some.1 answer
        obtain ⟨⟨error, refused⟩, new⟩ := silent _ _ told
        exact agree.refused (refused ▸ told) new
    rw [kept]
    exact agree.rests (by rw [engine]) (by rw [engine]; exact id)
      (nextCall_le_concat es d) (fun _ _ k stage _ here => calls k stage here)
      fun k s here => calls k _ here
  | made r absent engine calls silent =>
    have before : (run es).engine e = default := by simp [World.engine, absent]
    have empty : A.map (·.service) = [] := (agree.services (by rw [before]; rfl)).symm.trans
      (by rw [before]; rfl)
    rw [admissionsNext_of_unanswered A (answer?_eq_none silent), List.map_eq_nil_iff.1 empty]
    exact
      { services := fun _ => by
          rw [engine]
          rfl
        fresh := by simp
        calls := by simp
        loading := fun c s here => absurd here (calls c _) }
  | released engine calls silent =>
    rw [admissionsNext_of_unanswered A (answer?_eq_none silent)]
    exact
      { services := fun now => by rw [engine] at now; cases now
        fresh := fun a known c mine =>
          Nat.lt_of_lt_of_le (agree.fresh a known c mine) (nextCall_le_concat es d)
        calls := fun a known c stage mine here => absurd here (calls c stage)
        loading := fun c s here => absurd here (calls c _) }
  | conducted told conducts engine calls begun new =>
    exact agree.conducted told conducts engine calls begun
      ((orderly_run es e).held_of_conducts begun new)

/-- **The admissions of every engine agree with it after every run.** -/
theorem agree_run (es : List Event) (e : EngineRef) : Agree (run es) e (admissions e es) := by
  induction es using List.reverseRecOn with
  | nil =>
    exact
      { services := fun _ => rfl
        fresh := fun _ known => absurd known List.not_mem_nil
        calls := fun _ known => absurd known List.not_mem_nil
        loading := fun _ _ known => absurd known List.not_mem_nil }
  | append_singleton es d ih =>
    rw [admissions_concat]
    exact ih.step d

/-! ## Who is registered -/

/-- A service is taken in if there is none of its kind. -/
theorem accept_of_new {g : Engine} (new : ∀ t ∈ g.services, t.kind ≠ s.kind) :
    ∃ g', g.accept s = some g' := by
  have absent : g.registry.entries s.kind = none := by
    refine Option.eq_none_iff_forall_ne_some.2 fun t found => ?_
    obtain ⟨known, same⟩ := Engine.service?_eq_some.1 found
    exact new t known same
  exact ⟨_, dif_pos absent⟩

/-- **A load that is accepted is the last admission.** -/
theorem admissions_load {g : Engine} (can : (Event.load e s).canHappen (run es) = true)
    (accepts : ((run es).engine e).accept s = some g) :
    ∃ call, admissions e (es ++ [.load e s]) = admissions e es ++ [⟨s, call⟩] := by
  have told : (run es).Told e (run es).nextCall ((run es).load e s).1 (.load e s) :=
    ⟨rfl, if_pos can⟩
  have answer := answer?_eq_some.2 told
  rw [World.load, accepts] at answer
  dsimp only at answer
  rw [admissions_concat]
  split at answer
  · have unfailed : (run es).failure? e (.load e s) = none := by rw [failure?, answer]
    refine ⟨some (run es).nextCall, ?_⟩
    rw [admissionsNext_of_unfailed (by simp [unfailed])]
    unfold accepted
    rw [answer]
  · have unfailed : (run es).failure? e (.load e s) = none := by rw [failure?, answer]
    refine ⟨none, ?_⟩
    rw [admissionsNext_of_unfailed (by simp [unfailed])]
    unfold accepted
    rw [answer]

/-- A load whose start hook fails returns its error, and no scheduler sees anything of it. -/
theorem hookReturned_of_loading {cause : Cause} (numbered : w.Numbered)
    (call : ⟨c, e, .loading s⟩ ∈ w.calls) :
    w.Told e c (.done (.failed (.serviceStart s.name cause))) (.hookReturned c (.failed cause)) ∧
      (w.step (.hookReturned c (.failed cause))).2.engine e = (w.engine e).drop s.kind ∧
      (w.step (.hookReturned c (.failed cause))).2.schedulers = w.schedulers := by
  have found : w.call? c = some ⟨c, e, .loading s⟩ := numbered.call? call
  have can : (Event.hookReturned c (.failed cause)).canHappen w = true := by
    rw [Event.canHappen, found]
    rfl
  have here := numbered.engine _ call
  have progress : w.progress (.hookReturned c (.failed cause)) =
      some (w.hookReturned c (.failed cause)).1 := if_pos can
  have stepped : (w.step (.hookReturned c (.failed cause))).2 =
      (w.hookReturned c (.failed cause)).2 := congrArg Prod.snd (if_pos can)
  rw [World.hookReturned, found] at progress stepped
  refine ⟨⟨?_, progress⟩, ?_, ?_⟩
  · rw [party?, found]
    rfl
  · rw [stepped]
    simp [World.engine, conclude, closeCall, setEngine, World.tell, here]
  · rw [stepped]
    simp

/-- **Who is registered with an engine**, as long as somebody holds it. The order of the registry
names no kind twice and names those that have an entry. It is the order in which loads were
accepted, and the services, which are the entries in this order, are the ones whose load was
accepted and has not failed; what is reported by kind and by name is the same. A load is refused as
a duplicate, and changes nothing, if one of its kind was accepted and has not failed, and else it
is accepted. A load whose start hook fails returns the error, takes out its own service and
leaves all others in their order. No scheduler hears of such a service, neither when it is loaded
nor when its hook fails, and its kind is free again. -/
theorem registry_admits (es : List Event) (e : EngineRef)
    (held : ((run es).engine e).released = false) :
    ((run es).engine e).registry.order.Nodup ∧
      (∀ kind, kind ∈ ((run es).engine e).registry.order ↔
        (((run es).engine e).registry.entries kind).isSome = true) ∧
      ((run es).engine e).registry.order = (admissions e es).map (·.service.kind) ∧
      ((run es).engine e).services = (admissions e es).map (·.service) ∧
      ((run es).engine e).names = (admissions e es).map (·.service.name) ∧
      (∀ kind s, ((run es).engine e).service? kind = some s ↔
        s.kind = kind ∧ ∃ a ∈ admissions e es, a.service = s) ∧
      (∀ s, (∃ a ∈ admissions e es, a.service.kind = s.kind) →
        (run es).load e s = (.done (.failed (.duplicateService s.name)), run es)) ∧
      (∀ s, (∀ a ∈ admissions e es, a.service.kind ≠ s.kind) →
        (Event.load e s).canHappen (run es) = true →
          (∃ call, admissions e (es ++ [.load e s]) = admissions e es ++ [⟨s, call⟩]) ∧
            (run (es ++ [.load e s])).schedulers = (run es).schedulers) ∧
      ∀ c s cause, ⟨c, e, .loading s⟩ ∈ (run es).calls →
        (run es).Told e c (.done (.failed (.serviceStart s.name cause)))
            (.hookReturned c (.failed cause)) ∧
          (∃ front back, admissions e es = front ++ ⟨s, some c⟩ :: back ∧
            admissions e (es ++ [.hookReturned c (.failed cause)]) = front ++ back ∧
            ((run (es ++ [.hookReturned c (.failed cause)])).engine e).services =
              (front ++ back).map (·.service)) ∧
          (run (es ++ [.hookReturned c (.failed cause)])).schedulers = (run es).schedulers ∧
          ∀ a ∈ admissions e (es ++ [.hookReturned c (.failed cause)]),
            a.service.kind ≠ s.kind := by
  have agree := agree_run es e
  have services := agree.services held
  refine ⟨Registry.nodup_order _, Registry.mem_order _, ?_, services, ?_, ?_, ?_, ?_, ?_⟩
  · have kinds := ((run es).engine e).registry.kinds_inOrder
    rw [← kinds, show ((run es).engine e).registry.inOrder = _ from services, List.map_map]
    rfl
  · rw [Engine.names, services, List.map_map]
    rfl
  · intro kind s
    rw [Engine.service?_eq_some, services, List.mem_map, and_comm]
  · rintro s ⟨a, known, same⟩
    have there : a.service ∈ ((run es).engine e).services := services ▸ List.mem_map_of_mem known
    have refuses : ((run es).engine e).accept s = none := by
      refine dif_neg fun absent => ?_
      rw [← same, Registry.mem_inOrder.1 there] at absent
      cases absent
    rw [World.load, refuses]
  · intro s new can
    obtain ⟨g, accepts⟩ : ∃ g, ((run es).engine e).accept s = some g := by
      refine accept_of_new fun t here => ?_
      rw [services] at here
      obtain ⟨a, known, rfl⟩ := List.mem_map.1 here
      exact new a known
    refine ⟨admissions_load can accepts, ?_⟩
    rw [run_concat_of_canHappen can]
    exact schedulers_load _ e s
  · intro c s cause call
    obtain ⟨told, engine, schedulers⟩ := hookReturned_of_loading (numbered_run es) call
    obtain ⟨front, back, split, rest, others⟩ := agree.admissions_split call held told
    rw [← admissions_concat] at rest
    refine ⟨told, ⟨front, back, split, rest, ?_⟩, ?_, rest ▸ others⟩
    · rw [← rest]
      refine (agree_run _ e).services ?_
      rw [run_concat, engine]
      exact held
    · rw [run_concat]
      exact schedulers

/-- A service whose start hook takes its time. -/
def slowService : Service := { tag := 1, kind := 1, name := "slow" }

/-- A service that is loaded meanwhile. -/
def nestedService : Service := { tag := 2, kind := 2, name := "nested" }

/-- A running engine into which two services are loaded, the second while the hook of the first
runs. -/
def nestedLoads : List Event :=
  [.newScheduler ⟨"loop"⟩ .zero .zero, .newEngine 0,
    .load 0 { tag := 0, kind := 0, name := "base" }, .startEngine 0 (.script []),
    .hookReturned 0 (.ok none), .load 0 slowService, .load 0 nestedService]

/-- The slow service cannot be loaded twice. When its hook fails the other two are left, and it
can be loaded again. -/
theorem registry_admits_of_nestedLoads :
    ((run nestedLoads).engine 0).released = false ∧
      ((run nestedLoads).engine 0).names = ["base", "slow", "nested"] ∧
      (run nestedLoads).load 0 slowService =
        (.done (.failed (.duplicateService "slow")), run nestedLoads) ∧
      ∀ cause, ((run (nestedLoads ++ [.hookReturned 1 (.failed cause)])).engine 0).names =
          ["base", "nested"] ∧
        ∃ call, admissions 0 (nestedLoads ++ [.hookReturned 1 (.failed cause)] ++
            [.load 0 slowService]) =
          admissions 0 (nestedLoads ++ [.hookReturned 1 (.failed cause)]) ++
            [⟨slowService, call⟩] := by
  have held : ((run nestedLoads).engine 0).released = false := rfl
  obtain ⟨-, -, -, -, names, -, refuses, -, fails⟩ := registry_admits nestedLoads 0 held
  refine ⟨held, names, refuses slowService ⟨⟨slowService, some 1⟩, by decide, rfl⟩, fun cause => ?_⟩
  have held' : ((run (nestedLoads ++ [.hookReturned 1 (.failed cause)])).engine 0).released =
    false := rfl
  obtain ⟨-, -, -, -, names', -, -, accepts, -⟩ := registry_admits _ 0 held'
  obtain ⟨-, -, -, free⟩ := fails 1 slowService cause (List.mem_cons_self ..)
  exact ⟨names', (accepts slowService free rfl).1⟩

end World

end FrameLoop

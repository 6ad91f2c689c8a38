import FrameLoop.Forest
import FrameLoop.Lifecycle

/-!
# Engines and services

An engine is one scheduler and the services around it. A service is known by
its *kind*: an engine holds at most one of a kind. Services are kept in the
order in which they were loaded; they start in that order and stop in the
opposite one.

Loading, starting and stopping run hooks, and a hook may take its time. So a
call on an engine is not one event but a sequence of them, and the calls under
way are data: a `Call` says how far it has come and what it still has to do.
Calls on one engine may overlap; each one goes on with the services it saw
when it began.
-/

namespace FrameLoop

/-- A scheduler, by its number in the order of creation. -/
abbrev SchedulerRef := Nat

/-- An engine, by its number in the order of creation. -/
abbrev EngineRef := Nat

/-- A call on an engine, by its number. -/
abbrev CallRef := Nat

/-- **A service.** -/
structure Service where
  /-- Which service it is, of all services ever made. -/
  tag : Nat
  /-- What sort of service it is; an engine has one of a sort. -/
  kind : Nat
  name : String
  /-- The job that the service keeps alive, if it keeps one. -/
  keeps : Option JobRef := none
deriving DecidableEq, Inhabited, Repr

/-- **How a hook ended**: with the job that the service contributes, if it
does, or with an error. -/
inductive HookResult where
  | ok (job : Option JobRef)
  | failed (cause : Cause)
deriving DecidableEq, Inhabited, Repr

/-- **The services of an engine**: a map from kinds to services, and the kinds in
the order in which they were entered. -/
structure Registry where
  entries : Nat → Option Service
  order : List Nat
  /-- No kind comes twice in the order, and those come that have an entry. -/
  nodup_order : order.Nodup
  mem_order : ∀ kind, kind ∈ order ↔ (entries kind).isSome = true
  /-- An entry is of the kind under which it is found. -/
  kind_entry : ∀ kind s, entries kind = some s → s.kind = kind

namespace Registry

def empty : Registry where
  entries _ := none
  order := []
  nodup_order := List.nodup_nil
  mem_order _ := by simp
  kind_entry := nofun

instance : Inhabited Registry := ⟨empty⟩

/-- **Enter a service** of which there is no kind yet. -/
def insert (R : Registry) (s : Service) (new : R.entries s.kind = none) : Registry where
  entries kind := if kind = s.kind then some s else R.entries kind
  order := R.order ++ [s.kind]
  nodup_order := by
    have absent : s.kind ∉ R.order := by simp [R.mem_order, new]
    refine List.nodup_append.2 ⟨R.nodup_order, by simp, fun kind known kind' last same => ?_⟩
    obtain rfl := List.mem_singleton.1 last
    exact absent (same ▸ known)
  mem_order kind := by
    rw [List.mem_append, List.mem_singleton, R.mem_order]
    by_cases same : kind = s.kind <;> simp [same]
  kind_entry kind t found := by
    split at found
    · next same => rw [← Option.some.inj found, same]
    · exact R.kind_entry kind t found

/-- **Let the service of a kind go.** -/
def remove (R : Registry) (kind : Nat) : Registry where
  entries k := if k = kind then none else R.entries k
  order := R.order.filter (· != kind)
  nodup_order := R.nodup_order.filter _
  mem_order k := by
    rw [List.mem_filter, R.mem_order]
    by_cases same : k = kind <;> simp [same]
  kind_entry k t found := by
    split at found
    · cases found
    · exact R.kind_entry k t found

/-- The services, in the order in which they were entered. -/
def inOrder (R : Registry) : List Service := R.order.filterMap R.entries

end Registry

/-- **An engine.** -/
structure Engine where
  scheduler : SchedulerRef
  registry : Registry := .empty
  state : EngineState := .stopped
  /-- Nobody holds the engine any more. -/
  released : Bool := false
deriving Inhabited

namespace Engine

/-! ## Services -/

/-- The services, in the order in which they were loaded. -/
def services (e : Engine) : List Service := e.registry.inOrder

/-- The service of a kind, if it is loaded. -/
def service? (e : Engine) (kind : Nat) : Option Service := e.registry.entries kind

/-- The names of the services, in the order in which they were loaded. -/
def names (e : Engine) : List String := e.services.map (·.name)

/-- **Take a service in**; refused if one of its kind is there. -/
def accept (e : Engine) (s : Service) : Option Engine :=
  if new : e.registry.entries s.kind = none then
    some { e with registry := e.registry.insert s new }
  else none

/-- Let the service of a kind go. -/
def drop (e : Engine) (kind : Nat) : Engine := { e with registry := e.registry.remove kind }

/-! ## Calls under way -/

/-- **How far a call has come.** -/
inductive Stage where
  /-- A service loaded into a running engine runs its start hook. -/
  | loading (s : Service)
  /-- The first service of the list runs its start hook; the rest come after. -/
  | starting (services : List Service)
  /-- A start hook failed; the call waits for the scheduler to end. -/
  | abandoning (e : EngineError)
  /-- The first service of the list runs its stop hook; the rest come after. -/
  | stopping (services : List Service)
  /-- All stop hooks have run; the call waits for the scheduler to end. -/
  | draining
deriving Inhabited, Repr

/-- The services that a call at this stage still holds. -/
def Stage.services : Stage → List Service
  | loading s => [s]
  | starting services | stopping services => services
  | abandoning _ | draining => []

/-- A call under way. -/
structure Call where
  number : CallRef
  engine : EngineRef
  stage : Stage
deriving Inhabited, Repr

/-- **What a call comes to.** -/
inductive Result where
  | loaded (name : String)
  | started
  | stopped
  | failed (e : EngineError)
deriving DecidableEq, Repr

/-- **What has to happen next for a call to go on.** -/
inductive Progress where
  /-- The start hook of a service is to be run. -/
  | enterStart (call : CallRef) (s : Service)
  /-- The stop hook of a service is to be run. -/
  | enterStop (call : CallRef) (s : Service)
  /-- The scheduler has to end first. -/
  | awaitEnd (call : CallRef) (r : SchedulerRef)
  /-- Nothing; the call is over. -/
  | done (result : Result)
deriving Repr

end Engine

end FrameLoop

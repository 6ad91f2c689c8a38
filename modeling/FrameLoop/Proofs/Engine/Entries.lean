import FrameLoop.Engine
import Mathlib.Data.List.Basic

/-!
# The services of an engine

An engine finds a service by its kind and lists all of them in the order in which they were
loaded. Both are read off one registry, which keeps a map and an order in step. Here is what
becomes of the list where the registry is changed: a service that is taken in comes last
(`Engine.Accepts`), and letting one go leaves the others as they are (`Engine.services_drop`).
-/

namespace FrameLoop

namespace Registry

variable {R : Registry} {s : Service} {kind : Nat}

theorem mem_inOrder : s ∈ R.inOrder ↔ R.entries s.kind = some s := by
  constructor
  · intro known
    obtain ⟨kind, -, found⟩ := List.mem_filterMap.1 known
    rwa [R.kind_entry kind s found]
  · intro found
    have known : s.kind ∈ R.order := (R.mem_order s.kind).2 (by rw [found]; rfl)
    exact List.mem_filterMap.2 ⟨s.kind, known, found⟩

/-- **The order is that of the kinds of the services.** -/
theorem kinds_inOrder (R : Registry) : R.inOrder.map (·.kind) = R.order := by
  rw [inOrder, List.map_filterMap]
  refine (List.filterMap_congr fun kind known => ?_).trans List.filterMap_some
  obtain ⟨s, found⟩ := Option.isSome_iff_exists.1 ((R.mem_order kind).1 known)
  rw [found, Option.map_some, R.kind_entry kind s found]

/-- A service that is entered comes last. -/
theorem inOrder_insert (new : R.entries s.kind = none) :
    (R.insert s new).inOrder = R.inOrder ++ [s] := by
  have before : R.order.filterMap (R.insert s new).entries = R.order.filterMap R.entries := by
    refine List.filterMap_congr fun kind known => if_neg fun same => ?_
    have there := (R.mem_order kind).1 known
    rw [same, new] at there
    cases there
  have last : (R.insert s new).entries s.kind = some s := if_pos rfl
  rw [inOrder, show (R.insert s new).order = R.order ++ [s.kind] from rfl, List.filterMap_append,
    before, List.filterMap_cons_some last, List.filterMap_nil, inOrder]

/-- The services of all other kinds are left. -/
theorem inOrder_remove (R : Registry) (kind : Nat) :
    (R.remove kind).inOrder = R.inOrder.filter (·.kind != kind) := by
  rw [inOrder, inOrder, List.filter_filterMap, show (R.remove kind).order =
    R.order.filter (· != kind) from rfl, List.filterMap_filter]
  refine List.filterMap_congr fun k _ => ?_
  show (if k != kind then (if k = kind then none else R.entries k) else none) = _
  cases found : R.entries k with
  | none => simp
  | some s =>
    rw [Option.filter_some, R.kind_entry k s found]
    by_cases same : k = kind <;> simp [same]

end Registry

namespace Engine

variable {g g' : Engine} {s : Service}

/-- The services are of different kinds. -/
theorem kinds_services (g : Engine) : (g.services.map (·.kind)).Nodup :=
  g.registry.kinds_inOrder ▸ g.registry.nodup_order

/-- A service is found if it is one of those of its kind, of which there is one at most. -/
theorem service?_eq_some {kind : Nat} :
    g.service? kind = some s ↔ s ∈ g.services ∧ s.kind = kind := by
  constructor
  · intro found
    obtain rfl := g.registry.kind_entry kind s found
    exact ⟨Registry.mem_inOrder.2 found, rfl⟩
  · rintro ⟨known, rfl⟩
    exact Registry.mem_inOrder.1 known

/-- **What is taken in** is of a kind of its own, and comes last. -/
structure Accepts (g : Engine) (s : Service) (g' : Engine) : Prop where
  new : ∀ t ∈ g.services, t.kind ≠ s.kind
  services : g'.services = g.services ++ [s]
  scheduler : g'.scheduler = g.scheduler
  state : g'.state = g.state
  released : g'.released = g.released

theorem accept_some (h : g.accept s = some g') : Accepts g s g' := by
  unfold accept at h
  split at h
  · next new =>
    obtain rfl := Option.some.inj h
    refine ⟨fun t known same => ?_, Registry.inOrder_insert new, rfl, rfl, rfl⟩
    rw [← same, Registry.mem_inOrder.1 known] at new
    cases new
  · cases h

theorem services_drop (g : Engine) (kind : Nat) :
    (g.drop kind).services = g.services.filter (·.kind != kind) :=
  g.registry.inOrder_remove kind

end Engine

end FrameLoop

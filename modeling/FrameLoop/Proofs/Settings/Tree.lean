import FrameLoop.Settings.Node
import Mathlib.Data.List.Nodup

/-!
# Trees of settings

A path leads from table to table down to a node (`Node.at?`). What it means to lay one tree over
another is said table by table (`Overlays`): two tables are united entry by entry, and of anything
else the upper one counts. What stands at a path afterwards follows from that:

* where the upper tree has a node, it is that one, laid over what the lower tree has
  (`Overlays.at?_of_some`);
* where it has none and nothing of it is in the way, it is what the lower tree has
  (`Overlays.at?_of_clear`);
* where neither has one there is none (`Overlays.at?_of_none`).

In the way is a node on the path that is no table: it covers the whole of a lower table.

This is about trees in which no table has two entries of one name (`Tidy`). Of two such entries
looking up finds the first, and `Node.overlay` counts the last.
-/

namespace FrameLoop.Settings.Node

variable {lower upper v : Node} {below entries : List (String × Node)} {k : String}
  {p : List String}

/-! ## Paths -/

/-- **The node that a path leads to**, through tables. -/
def at? (v : Node) : List String → Option Node
  | [] => some v
  | k :: rest =>
    match v with
    | table entries => (entries.lookup k).bind (·.at? rest)
    | _ => none

@[simp] theorem at?_nil : v.at? [] = some v := by
  cases v <;> rfl

@[simp] theorem at?_table : (table entries).at? (k :: p) = (entries.lookup k).bind (·.at? p) := rfl

/-- Whether a node is a table. -/
def isTable : Node → Bool
  | table _ => true
  | _ => false

theorem at?_of_not_table (h : v.isTable = false) : v.at? (k :: p) = none := by
  cases v with
  | table entries => cases h
  | _ => rfl

theorem eq_table (h : v.isTable = true) : ∃ entries, v = table entries := by
  cases v with
  | table entries => exact ⟨entries, rfl⟩
  | _ => cases h

/-! ## Tidy trees -/

mutual

/-- **No table names two entries alike.** -/
def Tidy : Node → Prop
  | table entries => (entries.map (·.1)).Nodup ∧ TidyAll entries
  | _ => True

/-- The nodes of entries are tidy. -/
def TidyAll : List (String × Node) → Prop
  | [] => True
  | (_, v) :: rest => v.Tidy ∧ TidyAll rest

end

theorem tidyAll_iff : TidyAll entries ↔ ∀ e ∈ entries, e.2.Tidy := by
  induction entries with
  | nil => simp [TidyAll]
  | cons e rest ih => rw [TidyAll, ih, List.forall_mem_cons]

theorem Tidy.lookup (tidy : (table entries).Tidy) (h : entries.lookup k = some v) : v.Tidy := by
  obtain ⟨before, after, rfl, -⟩ := List.lookup_eq_some_iff.1 h
  rw [Tidy, tidyAll_iff] at tidy
  exact tidy.2 (k, v) (List.mem_append_right _ List.mem_cons_self)

theorem mem_names : (entries.lookup k).isSome = true ↔ k ∈ entries.map (·.1) := by
  rw [List.lookup_isSome_iff, List.mem_map]
  refine exists_congr fun e => and_congr_right fun _ => ?_
  rw [beq_iff_eq, eq_comm]

/-! ## Laying over -/

/-- A node laid over what is below it, if there is anything. -/
def atop (overlay : Node → Node → Node) (v : Node) : Option Node → Node
  | some old => overlay old v
  | none => v

/-- **What it is to lay one tree over another.** -/
structure Overlays (overlay : Node → Node → Node) : Prop where
  /-- Unless both are tables the upper one counts. -/
  of_single : ∀ lower upper : Node, lower.isTable = false ∨ upper.isTable = false →
    overlay lower upper = upper
  /-- Two tables are united entry by entry. -/
  of_tables : ∀ below entries : List (String × Node), ∃ united,
    overlay (table below) (table entries) = table united ∧
      ((entries.map (·.1)).Nodup → ∀ k, united.lookup k =
        ((entries.lookup k).map (atop overlay · (below.lookup k))).or (below.lookup k))
  tidy : ∀ lower upper : Node, lower.Tidy → upper.Tidy → (overlay lower upper).Tidy

/-- A reading by which no table can be read. -/
def Flat {α : Type} (read : Node → Option α) : Prop := ∀ v, v.isTable = true → read v = none

/-- Reading whatever is no table, as it is. -/
def single? (v : Node) : Option Node := if v.isTable then none else some v

theorem flat_single? : Flat single? := fun _ table => if_pos table

theorem single?_eq_some {w : Node} : v.single? = some w ↔ v = w ∧ v.isTable = false := by
  cases table : v.isTable <;> simp [single?, table]

/-- Two that read the same agree on what is no table. -/
theorem eq_some_of_single {one other : Option Node} (same : one.map single? = other.map single?)
    (single : v.isTable = false) (h : one = some v) : other = some v := by
  rw [h, Option.map_some, single?_eq_some.2 ⟨rfl, single⟩, eq_comm, Option.map_eq_some_iff] at same
  obtain ⟨w, rfl, alike⟩ := same
  rw [(single?_eq_some.1 alike).1]

/-- **Nothing of a tree is in the way of a path**: what stands on it, short of its end, are
tables. -/
def Clear (v : Node) (p : List String) : Prop :=
  ∀ s k, s ++ [k] <+: p → ∀ w, v.at? s = some w → w.isTable = true

theorem Clear.isTable (clear : v.Clear (k :: p)) : v.isTable = true :=
  clear [] k ⟨p, rfl⟩ v at?_nil

theorem Clear.lookup (clear : (table entries).Clear (k :: p)) (found : entries.lookup k = some v) :
    v.Clear p := by
  rintro s l ⟨rest, rfl⟩ w there
  refine clear (k :: s) l ⟨rest, rfl⟩ w ?_
  rw [at?_table, found]
  exact there

theorem clear_nil (v : Node) : v.Clear [] := fun s k on => by
  rw [List.prefix_nil] at on
  cases List.append_ne_nil_of_right_ne_nil s (List.cons_ne_nil k []) on

theorem Clear.cons (clear : ∀ v, entries.lookup k = some v → v.Clear p) :
    (table entries).Clear (k :: p) := by
  rintro s l ⟨rest, on⟩ w there
  cases s with
  | nil =>
    obtain rfl := Option.some.inj (at?_nil.symm.trans there)
    rfl
  | cons m s =>
    obtain ⟨rfl, rfl⟩ := List.cons.inj on
    obtain ⟨v, found, here⟩ := Option.bind_eq_some_iff.1 (at?_table.symm.trans there)
    exact clear v found s l ⟨rest, rfl⟩ w here

theorem clear_singleton (root : v.isTable = true) (k : String) : v.Clear [k] := by
  obtain ⟨entries, rfl⟩ := eq_table root
  exact .cons fun w _ => clear_nil w

theorem clear_pair {s : String} (root : v.isTable = true)
    (below : ∀ w ∈ v.at? [s], w.isTable = true) (k : String) : v.Clear [s, k] := by
  obtain ⟨entries, rfl⟩ := eq_table root
  refine .cons fun w found => clear_singleton (below w ?_) k
  rw [at?_table, found]
  exact at?_nil

namespace Overlays

variable {overlay : Node → Node → Node} (laws : Overlays overlay)
include laws

/-- A table laid over anything is a table, and nothing else becomes one. -/
theorem isTable_eq (lower upper : Node) : (overlay lower upper).isTable = upper.isTable := by
  cases table : upper.isTable with
  | false => rw [laws.of_single lower upper (.inr table), table]
  | true =>
    cases under : lower.isTable with
    | false => rw [laws.of_single lower upper (.inl under), table]
    | true =>
      obtain ⟨entries, rfl⟩ := eq_table table
      obtain ⟨below, rfl⟩ := eq_table under
      obtain ⟨united, same, -⟩ := laws.of_tables below entries
      rw [same]
      rfl

theorem isTable_atop (v : Node) (old : Option Node) : (atop overlay v old).isTable = v.isTable := by
  cases old with
  | none => rfl
  | some old => exact laws.isTable_eq old v

/-- What can be read of a node does not depend on what is below it. -/
theorem read_atop {α : Type} {read : Node → Option α} (flat : Flat read) (v : Node)
    (old : Option Node) : read (atop overlay v old) = read v := by
  cases table : v.isTable with
  | true => rw [flat v table, flat _ ((laws.isTable_atop v old).trans table)]
  | false =>
    cases old with
    | none => rfl
    | some old => rw [atop, laws.of_single old v (.inr table)]

/-- What stands at the end of a step into a table that has been laid over another. -/
theorem at?_tables (below entries : List (String × Node)) (tidy : (table entries).Tidy) (k : String)
    (p : List String) :
    (overlay (table below) (table entries)).at? (k :: p) =
      (((entries.lookup k).map (atop overlay · (below.lookup k))).or (below.lookup k)).bind
        (·.at? p) := by
  obtain ⟨united, same, found⟩ := laws.of_tables below entries
  rw [same, at?_table, found tidy.1]

/-- **Where the upper tree has a node it is that one**, laid over what the lower tree has. -/
theorem at?_of_some (tidy : upper.Tidy) (h : upper.at? p = some v) :
    (overlay lower upper).at? p = some (atop overlay v (lower.at? p)) := by
  induction p generalizing lower upper with
  | nil =>
    obtain rfl := Option.some.inj (at?_nil.symm.trans h)
    rw [at?_nil, at?_nil]
    rfl
  | cons k p ih =>
    cases table : upper.isTable with
    | false =>
      rw [at?_of_not_table table] at h
      cases h
    | true =>
      obtain ⟨entries, rfl⟩ := eq_table table
      cases under : lower.isTable with
      | false =>
        rw [laws.of_single _ _ (.inl under), h, at?_of_not_table under]
        rfl
      | true =>
        obtain ⟨below, rfl⟩ := eq_table under
        obtain ⟨w, found, rest⟩ := Option.bind_eq_some_iff.1 (at?_table.symm.trans h)
        rw [laws.at?_tables below entries tidy, at?_table, found]
        cases old : below.lookup k with
        | none => exact rest
        | some u => exact ih (tidy.lookup found) rest

/-- **Where neither tree has a node there is none.** -/
theorem at?_of_none (tidy : upper.Tidy) (low : lower.at? p = none)
    (high : upper.at? p = none) : (overlay lower upper).at? p = none := by
  induction p generalizing lower upper with
  | nil => cases at?_nil.symm.trans high
  | cons k p ih =>
    cases table : upper.isTable with
    | false => rw [laws.of_single _ _ (.inr table), high]
    | true =>
      cases under : lower.isTable with
      | false => rw [laws.of_single _ _ (.inl under), high]
      | true =>
        obtain ⟨entries, rfl⟩ := eq_table table
        obtain ⟨below, rfl⟩ := eq_table under
        rw [at?_table] at low high
        rw [laws.at?_tables below entries tidy]
        cases found : entries.lookup k with
        | none => exact low
        | some w =>
          rw [found] at high
          cases old : below.lookup k with
          | none => exact high
          | some u =>
            rw [old] at low
            exact ih (tidy.lookup found) low high

/-- **Where the upper tree has no node and nothing of it is in the way**, it is what the lower
tree has. -/
theorem at?_of_clear (tidy : upper.Tidy) (clear : upper.Clear p)
    (high : upper.at? p = none) : (overlay lower upper).at? p = lower.at? p := by
  induction p generalizing lower upper with
  | nil => cases at?_nil.symm.trans high
  | cons k p ih =>
    obtain ⟨entries, rfl⟩ := eq_table clear.isTable
    cases under : lower.isTable with
    | false => rw [laws.of_single _ _ (.inl under), high, at?_of_not_table under]
    | true =>
      obtain ⟨below, rfl⟩ := eq_table under
      rw [at?_table] at high
      rw [laws.at?_tables below entries tidy, at?_table]
      cases found : entries.lookup k with
      | none => rfl
      | some w =>
        rw [found] at high
        cases old : below.lookup k with
        | none => exact high
        | some u => exact ih (tidy.lookup found) (clear.lookup found) high

end Overlays

/-! ## Putting an entry into a table -/

/-- What is found in a table in which the entry of one name has been replaced. -/
theorem lookup_replace (entries : List (String × Node)) (k : String) (v : Node) (l : String) :
    (entries.map fun e => if e.1 == k then (k, v) else e).lookup l =
      (entries.lookup l).map fun old => if l = k then v else old := by
  induction entries with
  | nil => rfl
  | cons e rest ih =>
    obtain ⟨name, old⟩ := e
    rw [List.map_cons]
    by_cases here : name = k
    · subst here
      by_cases same : l = name
      · simp [same]
      · have other : (l == name) = false := by simpa using same
        simp only [BEq.rfl, if_true, List.lookup_cons, other, ih]
    · have kept : (name == k) = false := by simpa using here
      simp only [kept, Bool.false_eq_true, if_false, List.lookup_cons, ih]
      split
      · next same =>
        obtain rfl := eq_of_beq same
        simp [here]
      · rfl

/-- **An entry that is put into a table is found there**, and all others are as before. -/
theorem lookup_put (entries : List (String × Node)) (k : String) (v : Node) (l : String) :
    (put entries k v).lookup l = if l = k then some v else entries.lookup l := by
  unfold put
  split
  · next there =>
    obtain ⟨old, found⟩ := Option.isSome_iff_exists.1 there
    rw [lookup_replace]
    split
    · next same => rw [same, found]; rfl
    · exact Option.map_id'
  · next absent =>
    rw [List.lookup_append]
    split
    · next same =>
      have none : entries.lookup l = none := by
        rw [same]
        exact Option.not_isSome_iff_eq_none.1 absent
      rw [none, same, Option.none_or, List.lookup_cons_self]
    · next other =>
      have missed : [(k, v)].lookup l = none := by simpa using other
      rw [missed, Option.or_none]

/-- The names in a table after an entry has been put into it. -/
theorem names_put (entries : List (String × Node)) (k : String) (v : Node) :
    (put entries k v).map (·.1) =
      if k ∈ entries.map (·.1) then entries.map (·.1) else entries.map (·.1) ++ [k] := by
  unfold put
  split
  · next there =>
    rw [if_pos (mem_names.1 there), List.map_map]
    refine List.map_congr_left fun e _ => ?_
    show (if e.1 == k then (k, v) else e).1 = e.1
    split
    · next same => exact (eq_of_beq same).symm
    · rfl
  · next absent =>
    rw [if_neg fun old => absent (mem_names.2 old), List.map_append]
    rfl

theorem Tidy.put (tidy : (table entries).Tidy) (k : String) (new : v.Tidy) :
    (table (put entries k v)).Tidy := by
  rw [Tidy, tidyAll_iff] at tidy ⊢
  refine ⟨?_, ?_⟩
  · rw [names_put]
    split
    · exact tidy.1
    · next absent =>
      refine List.nodup_append.2 ⟨tidy.1, List.nodup_singleton k, ?_⟩
      rintro name old _ last rfl
      exact absent (List.mem_singleton.1 last ▸ old)
  · intro e he
    unfold Node.put at he
    split at he
    · obtain ⟨old, there, rfl⟩ := List.mem_map.1 he
      split
      · exact new
      · exact tidy.2 old there
    · rcases List.mem_append.1 he with old | last
      · exact tidy.2 e old
      · rw [List.mem_singleton.1 last]
        exact new

/-! ## The way at hand -/

theorem overlay_of_single (lower upper : Node)
    (single : lower.isTable = false ∨ upper.isTable = false) : lower.overlay upper = upper := by
  cases upper with
  | table entries =>
    cases lower with
    | table below => simp [isTable] at single
    | _ => rw [overlay]; exact nofun
  | _ => unfold overlay; rfl

theorem overlay_table (below entries : List (String × Node)) :
    (table below).overlay (table entries) = table (overlayAll below entries) := by
  rw [overlay]

theorem overlayAll_cons (below : List (String × Node)) (k : String) (v : Node)
    (rest : List (String × Node)) :
    overlayAll below ((k, v) :: rest) =
      overlayAll (put below k (atop overlay v (below.lookup k))) rest := by
  rw [overlayAll]
  cases below.lookup k <;> rfl

/-- **What is found in a table that has been laid over another.** -/
theorem lookup_overlayAll (below : List (String × Node)) (distinct : (entries.map (·.1)).Nodup)
    (l : String) :
    (overlayAll below entries).lookup l =
      ((entries.lookup l).map (atop overlay · (below.lookup l))).or (below.lookup l) := by
  induction entries generalizing below with
  | nil => rw [overlayAll]; rfl
  | cons e rest ih =>
    obtain ⟨k, v⟩ := e
    obtain ⟨new, distinct⟩ := List.nodup_cons.1 distinct
    rw [overlayAll_cons, ih _ distinct, lookup_put]
    by_cases same : l = k
    · subst same
      have none : rest.lookup l = none := by
        rw [← Option.not_isSome_iff_eq_none, mem_names]
        exact new
      simp [none]
    · have other : (l == k) = false := by simpa using same
      simp only [if_neg same, List.lookup_cons, other]

/-- **Tidy trees laid over one another are a tidy tree.** -/
theorem Tidy.overlay (lower upper : Node) :
    lower.Tidy → upper.Tidy → (lower.overlay upper).Tidy := by
  refine Node.overlay.induct (fun lower upper => lower.Tidy → upper.Tidy →
      (lower.overlay upper).Tidy)
    (fun below entries => (table below).Tidy → TidyAll entries →
      (table (overlayAll below entries)).Tidy) ?tables ?leaf ?single ?none ?entry lower upper
  case tables =>
    intro entries below united low high
    rw [overlay_table]
    exact united low high.2
  case leaf =>
    intro lower entries other _ high
    rw [overlay_of_single]
    · exact high
    · left
      rw [← Bool.not_eq_true]
      intro table
      obtain ⟨below, rfl⟩ := eq_table table
      exact other below rfl
  case single =>
    intro upper lower other _ high
    rw [overlay_of_single]
    · exact high
    · right
      rw [← Bool.not_eq_true]
      intro table
      obtain ⟨entries, rfl⟩ := eq_table table
      exact other entries rfl
  case none =>
    intro below low _
    rw [Node.overlayAll]
    exact low
  case entry =>
    intro below k v rest
    dsimp only
    intro one more low high
    rw [overlayAll_cons]
    refine more (low.put k ?_) high.2
    cases found : below.lookup k with
    | none => exact high.1
    | some old => exact one old (low.lookup found) high.1

/-- **`Node.overlay` lays one tree over another.** -/
theorem overlays : Overlays Node.overlay where
  of_single := overlay_of_single
  of_tables below entries :=
    ⟨_, overlay_table below entries, fun distinct k => lookup_overlayAll below distinct k⟩
  tidy := Tidy.overlay

theorem flat_number? : Flat number? := fun v table => by
  obtain ⟨entries, rfl⟩ := eq_table table
  rfl

theorem flat_text? : Flat text? := fun v table => by
  obtain ⟨entries, rfl⟩ := eq_table table
  rfl

end FrameLoop.Settings.Node

import FrameLoop.Settings

/-!
# Settings before they have types

Where settings come from they are a tree: tables of named nodes, lists, and
single values. Several sources are laid over one another as trees
(`Settings.Node.overlay`): tables are united entry by entry, and of anything else
the upper one counts. Only what remains is given its type, so a value of the
wrong type does no harm where it is covered by another.
-/

namespace FrameLoop

namespace Settings

/-- **A value without a type.** -/
inductive Node where
  | text (s : String)
  | truth (b : Bool)
  | whole (n : Int)
  | real (x : Binary64)
  | list (items : List Node)
  | table (entries : List (String × Node))
deriving Inhabited

namespace Node

mutual

/-- Whether two trees are the same. -/
def decEq : (a b : Node) → Decidable (a = b)
  | .text s, .text t => decidable_of_iff (s = t) (by simp)
  | .truth b, .truth c => decidable_of_iff (b = c) (by simp)
  | .whole n, .whole m => decidable_of_iff (n = m) (by simp)
  | .real x, .real y => decidable_of_iff (x = y) (by simp)
  | .list items, .list others =>
    match decEqItems items others with
    | .isTrue same => .isTrue (by rw [same])
    | .isFalse other => .isFalse (by simpa using other)
  | .table entries, .table others =>
    match decEqEntries entries others with
    | .isTrue same => .isTrue (by rw [same])
    | .isFalse other => .isFalse (by simpa using other)
  | .text _, .truth _ | .text _, .whole _ | .text _, .real _ | .text _, .list _
  | .text _, .table _ | .truth _, .text _ | .truth _, .whole _ | .truth _, .real _
  | .truth _, .list _ | .truth _, .table _ | .whole _, .text _ | .whole _, .truth _
  | .whole _, .real _ | .whole _, .list _ | .whole _, .table _ | .real _, .text _
  | .real _, .truth _ | .real _, .whole _ | .real _, .list _ | .real _, .table _
  | .list _, .text _ | .list _, .truth _ | .list _, .whole _ | .list _, .real _
  | .list _, .table _ | .table _, .text _ | .table _, .truth _ | .table _, .whole _
  | .table _, .real _ | .table _, .list _ => .isFalse nofun

/-- Whether two lists of trees are the same. -/
def decEqItems : (a b : List Node) → Decidable (a = b)
  | [], [] => .isTrue rfl
  | [], _ :: _ | _ :: _, [] => .isFalse nofun
  | v :: items, w :: others =>
    match decEq v w, decEqItems items others with
    | .isTrue first, .isTrue rest => .isTrue (by rw [first, rest])
    | .isFalse other, _ => .isFalse (by simp [other])
    | _, .isFalse other => .isFalse (by simp [other])

/-- Whether two tables have the same entries in the same order. -/
def decEqEntries : (a b : List (String × Node)) → Decidable (a = b)
  | [], [] => .isTrue rfl
  | [], _ :: _ | _ :: _, [] => .isFalse nofun
  | (k, v) :: entries, (l, w) :: others =>
    match instDecidableEqString k l, decEq v w, decEqEntries entries others with
    | .isTrue name, .isTrue value, .isTrue rest => .isTrue (by rw [name, value, rest])
    | .isFalse other, _, _ => .isFalse (by simp [other])
    | _, .isFalse other, _ => .isFalse (by simp [other])
    | _, _, .isFalse other => .isFalse (by simp [other])

end

instance : DecidableEq Node := decEq

/-- Put an entry into a table, in the place of the one with its name. -/
def put (entries : List (String × Node)) (k : String) (v : Node) : List (String × Node) :=
  if (entries.lookup k).isSome then entries.map fun e => if e.1 == k then (k, v) else e
  else entries ++ [(k, v)]

mutual

/-- **One tree laid over another.** -/
def overlay (lower : Node) : Node → Node
  | table entries =>
    match lower with
    | table below => table (overlayAll below entries)
    | _ => table entries
  | upper => upper

/-- Entries laid over those of a table. -/
def overlayAll (below : List (String × Node)) : List (String × Node) → List (String × Node)
  | [] => below
  | (k, v) :: rest =>
    let v := match below.lookup k with
      | some old => overlay old v
      | none => v
    overlayAll (put below k v) rest

end

/-! ## Types -/

def text? : Node → Option String
  | text s => some s
  | _ => none

/-- A number; a whole one is rounded. -/
def number? : Node → Option Binary64
  | whole n => some (.ofInt n)
  | real x => some x
  | _ => none

/-- The values given for fields: by name in a table, by place in a list. Names
that are no fields are passed over, so are places beyond the last. -/
def given? (fields : List String) : Node → Option (List (String × Node))
  | table entries => some entries
  | list items => some (fields.zip items)
  | _ => none

/-- A field with a default. -/
def field {α : Type} (given : List (String × Node)) (name : String) (default : α)
    (read : Node → Option α) : Option α :=
  match given.lookup name with
  | some v => read v
  | none => some default

end Node

end Settings

end FrameLoop

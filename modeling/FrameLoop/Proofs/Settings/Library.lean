import FrameLoop.Proofs.Settings.Tree
import FrameLoop.Settings.Layers

/-!
# The libraries by which settings are read

What is proved of settings is proved for all libraries that do what is documented
(`Library.Lawful`). An absolute path stands for the one file there is, and a relative one for the
first that is met on the way up from where the program runs. Two trees are laid over one another
table by table. A variable sets the node that its name leads to. A table gives the values of
fields by their names, and is neither a number nor a text.

What a document or the value of a variable stands for is left open, but that an empty document
is an empty table and that no table in a value has two entries of one name. So is what a number
is and what a text.

The libraries at hand are lawful (`Library.lawful_standard`).
-/

namespace FrameLoop

/-! ## Looking for a file -/

theorem Place.mem_upward_self (home : Place) : home ∈ home.upward :=
  List.mem_map.2 ⟨0, List.mem_range.2 (Nat.succ_pos _), List.take_length⟩

/-- What is found does not depend on more than the places where it is looked for. -/
theorem Directory.search_congr {d d' : Directory} {home : Place} {path : String}
    (same : ∀ here ∈ home.upward, d'.text? home here path = d.text? home here path) :
    d'.search home path = d.search home path := by
  unfold search
  split
  · exact same home home.mem_upward_self
  · revert same
    generalize home.upward = places
    intro same
    induction places with
    | nil => rfl
    | cons here places ih =>
      rw [List.findSome?_cons, List.findSome?_cons, same here List.mem_cons_self,
        ih fun above h => same above (List.mem_cons_of_mem _ h)]

namespace Settings

/-- **What the libraries are documented to do.** -/
structure Library.Lawful (l : Library) : Prop where
  find_absolute : ∀ here d path, Place.isAbsolute path = true →
    l.find? here d path = d.text? here here path
  find_relative : ∀ here d path, Place.isAbsolute path = false →
    l.find? here d path = here.upward.findSome? (d.text? here · path)
  document_empty : l.document? "" = some (.table [])
  target_eq : ∀ mark ignored separator name,
    l.target? mark ignored separator name = Environment.path? mark ignored separator name
  tidy_value : ∀ raw, (l.value raw).Tidy
  overlays : Node.Overlays l.overlay
  given_table : ∀ fields entries, l.given? fields (.table entries) = some entries
  flat_number : Node.Flat l.number?
  flat_text : Node.Flat l.text?

/-- A file is searched for. -/
theorem Library.Lawful.find_eq {l : Library} (lawful : l.Lawful) (here : Place) (d : Directory)
    (path : String) : l.find? here d path = d.search here path := by
  unfold Directory.search
  split
  · next absolute => exact lawful.find_absolute here d path absolute
  · next relative => exact lawful.find_relative here d path (Bool.not_eq_true _ ▸ relative)

/-! ## The grammar of values -/

namespace Environment

theorem tidy_bare (s : List Char) : (bare s).Tidy := by
  unfold bare
  dsimp only
  split
  · trivial
  · split <;> trivial

/-- A value that is read is tidy if its tables are. -/
theorem tidy_value?_succ {fuel : Nat} {s rest : List Char} {v : Node}
    (tables : ∀ s es rest, entries? fuel s = some (es, rest) → (Node.table es).Tidy)
    (h : value? (fuel + 1) s = some (v, rest)) : v.Tidy := by
  unfold value? at h
  split at h
  · cases h; trivial
  · cases h; trivial
  · obtain ⟨⟨es, r⟩, read, h⟩ := Option.bind_eq_some_iff.1 h
    cases h
    exact tables _ _ _ read
  · obtain ⟨⟨items, r⟩, -, h⟩ := Option.bind_eq_some_iff.1 h
    cases h
    trivial
  · obtain ⟨⟨w, r⟩, read, h⟩ := Option.bind_eq_some_iff.1 h
    obtain ⟨_, -, read⟩ := Option.map_eq_some_iff.1 read
    cases read
    cases h
    trivial
  · cases h; trivial
  · cases h
  · cases h
    exact tidy_bare _

/-- An entry that is read is left out if one behind it has its name. -/
theorem tidy_entries?_succ {fuel : Nat} {s rest : List Char} {es : List (String × Node)}
    (values : ∀ s v rest, value? fuel s = some (v, rest) → v.Tidy)
    (tables : ∀ s es rest, entries? fuel s = some (es, rest) → (Node.table es).Tidy)
    (h : entries? (fuel + 1) s = some (es, rest)) : (Node.table es).Tidy := by
  unfold entries? at h
  split at h
  · cases h
    exact ⟨List.nodup_nil, trivial⟩
  · obtain ⟨⟨k, r⟩, -, h⟩ := Option.bind_eq_some_iff.1 h
    dsimp only at h
    split at h
    · obtain ⟨⟨v, r'⟩, read, h⟩ := Option.bind_eq_some_iff.1 h
      have first := values _ _ _ read
      dsimp only at h
      split at h
      · obtain ⟨⟨es', r''⟩, others, h⟩ := Option.bind_eq_some_iff.1 h
        have rest := tables _ _ _ others
        obtain ⟨rfl, -⟩ := Prod.mk.inj (Option.some.inj h)
        split
        · exact rest
        · next absent =>
          exact ⟨List.nodup_cons.2 ⟨fun old => absent (Node.mem_names.2 old), rest.1⟩,
            first, rest.2⟩
      · cases h
        exact ⟨List.nodup_singleton k, first, trivial⟩
      · cases h
    · cases h

/-- **Of two entries with one name the grammar keeps one**, at every depth. -/
theorem tidy_read (fuel : Nat) :
    (∀ s v rest, value? fuel s = some (v, rest) → v.Tidy) ∧
    (∀ s es rest, entries? fuel s = some (es, rest) → (Node.table es).Tidy) := by
  induction fuel with
  | zero => exact ⟨nofun, nofun⟩
  | succ fuel ih =>
    obtain ⟨values, tables⟩ := ih
    exact ⟨fun _ _ _ => tidy_value?_succ tables, fun _ _ _ => tidy_entries?_succ values tables⟩

theorem tidy_value (raw : String) : (value raw).Tidy := by
  unfold value
  dsimp only
  split
  · next read => exact (tidy_read _).1 _ _ _ read
  · trivial

end Environment

/-! ## The libraries at hand -/

/-- **The libraries at hand do what is documented.** -/
theorem Library.lawful_standard : Library.standard.Lawful where
  find_absolute _ _ _ absolute := if_pos absolute
  find_relative _ _ _ relative := if_neg (by rw [relative]; exact Bool.false_ne_true)
  document_empty := by decide +kernel
  target_eq _ _ _ _ := rfl
  tidy_value := Environment.tidy_value
  overlays := Node.overlays
  given_table _ _ := rfl
  flat_number := Node.flat_number?
  flat_text := Node.flat_text?

end Settings

end FrameLoop

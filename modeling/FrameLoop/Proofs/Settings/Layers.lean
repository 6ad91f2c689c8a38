import FrameLoop.Proofs.Settings.Variables

/-!
# Settings in layers

Each of the three settings is, on its own, what the variables set, else what the file says,
else its default; and loading fails only over a value that would be used
(`load_layered`). So whatever else is changed does not show: other keys, the order of the
variables, or what the file says where a variable sets something else.

This is so where a file can be read, where no two variables set the same node or one of them
something beneath it, and where the two sections are tables (`Orderly`). It is needed: a
section may also be a list, which gives its values by their places, and a variable that sets
a section to a single value covers all that the file says there.

This holds of all libraries that do what is documented (`Library.Lawful`). The text of an error is
not part of it. What does not fit has one error here, whichever value it was.
-/

namespace FrameLoop.Settings

variable {l : Library} {file v : Node} {environment environment' : List (String × String)}
  {α : Type} {read : Node → Option α} {s : String}

/-! ## Reading a tree key by key -/

/-- The tables in which settings stand. -/
def sections : List String := ["scheduler", "logging"]

def frameDelayKey : List String := ["scheduler", "frame_delay_ms"]

def wakeupIntervalKey : List String := ["scheduler", "wakeup_interval_ms"]

def filterKey : List String := ["logging", "filter"]

/-- The ways to the settings. -/
def keys : List (List String) := [frameDelayKey, wakeupIntervalKey, filterKey]

/-- **A setting from the value that is used for it**: its default if there is none, and
nothing if the value has the wrong type. -/
def chosen (read : Node → Option α) (default : α) (used : Option Node) : Option α :=
  (used.map read).getD (some default)

theorem chosen_eq_none (default : α) (used : Option Node) :
    chosen read default used = none ↔ ∃ v, used = some v ∧ read v = none := by
  cases used with
  | none => exact ⟨nofun, nofun⟩
  | some v => exact ⟨fun h => ⟨v, rfl, h⟩, fun ⟨w, same, h⟩ => Option.some.inj same ▸ h⟩

/-- **Settings from the values used for each of them.** -/
def ofUsed? (l : Library) (used : List String → Option Node) : Option Settings := do
  let defaults : Settings := {}
  let frameDelayMs ← chosen l.number? defaults.scheduler.frameDelayMs (used frameDelayKey)
  let wakeupIntervalMs ←
    chosen l.number? defaults.scheduler.wakeupIntervalMs (used wakeupIntervalKey)
  let filter ← chosen l.text? defaults.logging.filter (used filterKey)
  some { scheduler := { frameDelayMs, wakeupIntervalMs }, logging := { filter } }

/-- A field of a table is what stands one step down. -/
theorem field_table (given : List (String × Node)) (k : String) (default : α) :
    Node.field given k default read = chosen read default ((Node.table given).at? [k]) := by
  rw [Node.at?_table, Node.field]
  cases given.lookup k with
  | none => rfl
  | some v => rw [Option.bind_some, Node.at?_nil]; rfl

/-- The sections of a tree, where they are there, are tables. -/
def Sectioned (v : Node) : Prop := ∀ s ∈ sections, ∀ w ∈ v.at? [s], w.isTable = true

theorem field_scheduler (lawful : l.Lawful) (given : List (String × Node))
    (below : ∀ w ∈ (Node.table given).at? ["scheduler"], w.isTable = true) :
    Node.field given "scheduler" {} l.scheduler? =
      (do
        let defaults : Settings := {}
        let frameDelayMs ← chosen l.number? defaults.scheduler.frameDelayMs
          ((Node.table given).at? frameDelayKey)
        let wakeupIntervalMs ← chosen l.number? defaults.scheduler.wakeupIntervalMs
          ((Node.table given).at? wakeupIntervalKey)
        some { frameDelayMs, wakeupIntervalMs }) := by
  rw [Node.at?_table] at below
  rw [Node.field, frameDelayKey, wakeupIntervalKey, Node.at?_table, Node.at?_table]
  cases found : given.lookup "scheduler" with
  | none => rfl
  | some w =>
    obtain ⟨entries, rfl⟩ := Node.eq_table (below w (by rw [found]; exact Node.at?_nil))
    simp only [Library.scheduler?, lawful.given_table, field_table]
    rfl

theorem field_logging (lawful : l.Lawful) (given : List (String × Node))
    (below : ∀ w ∈ (Node.table given).at? ["logging"], w.isTable = true) :
    Node.field given "logging" {} l.logging? =
      (do
        let defaults : Settings := {}
        let filter ← chosen l.text? defaults.logging.filter
          ((Node.table given).at? filterKey)
        some { filter }) := by
  rw [Node.at?_table] at below
  rw [Node.field, filterKey, Node.at?_table]
  cases found : given.lookup "logging" with
  | none => rfl
  | some w =>
    obtain ⟨entries, rfl⟩ := Node.eq_table (below w (by rw [found]; exact Node.at?_nil))
    simp only [Library.logging?, lawful.given_table, field_table]
    rfl

/-- **Where sections are tables, a tree is read key by key.** -/
theorem Library.Lawful.ofNode?_eq (lawful : l.Lawful) (root : v.isTable = true)
    (below : Sectioned v) : l.ofNode? v = ofUsed? l v.at? := by
  obtain ⟨given, rfl⟩ := Node.eq_table root
  have scheduler := field_scheduler lawful given (below _ List.mem_cons_self)
  have logging := field_logging lawful given
    (below _ (List.mem_cons_of_mem _ List.mem_cons_self))
  simp only [ofNode?, lawful.given_table, scheduler, logging, ofUsed?, Option.bind_eq_bind,
    Option.bind_assoc, Option.bind_some]

theorem ofUsed?_congr (lawful : l.Lawful) {used used' : List String → Option Node}
    (same : ∀ p ∈ keys, ∀ (α : Type) (read : Node → Option α), Node.Flat read →
      (used p).map read = (used' p).map read) :
    ofUsed? l used = ofUsed? l used' := by
  simp only [keys, List.forall_mem_cons] at same
  obtain ⟨delay, interval, filter, -⟩ := same
  simp only [ofUsed?, chosen, delay _ _ lawful.flat_number, interval _ _ lawful.flat_number,
    filter _ _ lawful.flat_text]

theorem ofUsed?_eq_some {used : List String → Option Node} {settings : Settings} :
    ofUsed? l used = some settings ↔
      chosen l.number? ({} : Settings).scheduler.frameDelayMs (used frameDelayKey) =
        some settings.scheduler.frameDelayMs ∧
      chosen l.number? ({} : Settings).scheduler.wakeupIntervalMs (used wakeupIntervalKey) =
        some settings.scheduler.wakeupIntervalMs ∧
      chosen l.text? ({} : Settings).logging.filter (used filterKey) =
        some settings.logging.filter := by
  constructor
  · intro h
    obtain ⟨delay, hdelay, h⟩ := Option.bind_eq_some_iff.1 h
    obtain ⟨interval, hinterval, h⟩ := Option.bind_eq_some_iff.1 h
    obtain ⟨filter, hfilter, h⟩ := Option.bind_eq_some_iff.1 h
    cases h
    exact ⟨hdelay, hinterval, hfilter⟩
  · rintro ⟨delay, interval, filter⟩
    simp only [ofUsed?, delay, interval, filter]
    rfl

theorem ofUsed?_eq_none {used : List String → Option Node} :
    ofUsed? l used = none ↔
      (∃ v, used frameDelayKey = some v ∧ l.number? v = none) ∨
      (∃ v, used wakeupIntervalKey = some v ∧ l.number? v = none) ∨
      ∃ v, used filterKey = some v ∧ l.text? v = none := by
  rw [← chosen_eq_none ({} : Settings).scheduler.frameDelayMs (used frameDelayKey),
    ← chosen_eq_none ({} : Settings).scheduler.wakeupIntervalMs (used wakeupIntervalKey),
    ← chosen_eq_none ({} : Settings).logging.filter (used filterKey)]
  unfold ofUsed?
  dsimp only
  generalize chosen l.number? _ (used frameDelayKey) = delay
  generalize chosen l.number? _ (used wakeupIntervalKey) = interval
  generalize chosen l.text? _ (used filterKey) = filter
  cases delay <;> cases interval <;> cases filter <;> simp

/-! ## Two layers -/

/-- **The value used at a path**: what the variables set, else what the file says. -/
def used (l : Library) (file : Node) (environment : List (String × String)) (p : List String) :
    Option Node :=
  (l.set? environment p).or (file.at? p)

/-- **Layers that can be read key by key**: no two variables set the same node or one of them
something beneath it, and both sections, where they are there, are tables in both layers. -/
structure Orderly (l : Library) (file : Node) (environment : List (String × String)) : Prop where
  separate : Separate environment
  upper : Sectioned (l.ofVariables environment)
  lower : Sectioned file

/-- Sections are tables in the upper layer where no variable sets one to anything else. -/
theorem sectioned_of_says (lawful : l.Lawful) (apart : Separate environment)
    (tables : ∀ s ∈ sections, ∀ x ∈ environment, ∀ v ∈ l.says? x [s], v.isTable = true) :
    Sectioned (l.ofVariables environment) := by
  intro s hs w there
  by_contra single
  rw [Bool.not_eq_true] at single
  have same := lawful.at?_ofVariables Node.flat_single? apart (List.cons_ne_nil s [])
  obtain ⟨x, hx, said⟩ :=
    List.exists_of_findSome?_eq_some (Node.eq_some_of_single same single there)
  exact Bool.false_ne_true (single.symm.trans (tables s hs x hx w said))

namespace Orderly

variable (lawful : l.Lawful)
include lawful

theorem perm (orderly : Orderly l file environment) (same : environment.Perm environment') :
    Orderly l file environment' := by
  have separate : Separate environment' := orderly.separate.perm same fun h => symm h
  refine ⟨separate, fun s hs w there => ?_, orderly.lower⟩
  by_contra single
  rw [Bool.not_eq_true] at single
  have inner := List.cons_ne_nil s []
  have alike : ((l.ofVariables environment').at? [s]).map Node.single? =
      ((l.ofVariables environment).at? [s]).map Node.single? := by
    rw [lawful.at?_ofVariables Node.flat_single? separate inner,
      lawful.at?_ofVariables Node.flat_single? orderly.separate inner,
      Library.set?_perm Node.flat_single? orderly.separate same]
  have table := orderly.upper s hs w (Node.eq_some_of_single alike single there)
  exact Bool.false_ne_true (single.symm.trans table)

/-- The layers together have their sections as tables. -/
theorem sectioned (orderly : Orderly l file environment) :
    Sectioned (l.overlay file (l.ofVariables environment)) := by
  intro s hs w there
  cases upper : (l.ofVariables environment).at? [s] with
  | some v =>
    rw [lawful.overlays.at?_of_some (lawful.tidy_ofVariables environment) upper] at there
    rw [← Option.some.inj there, lawful.overlays.isTable_atop]
    exact orderly.upper s hs v upper
  | none =>
    have clear := Node.clear_singleton (lawful.isTable_ofVariables environment) s
    rw [lawful.overlays.at?_of_clear (lawful.tidy_ofVariables environment) clear upper] at there
    exact orderly.lower s hs w there

/-- **What can be read at a key in both layers together** is what can be read of the value
used there. -/
theorem at?_layers (orderly : Orderly l file environment) (flat : Node.Flat read)
    (hs : s ∈ sections) (k : String) :
    ((l.overlay file (l.ofVariables environment)).at? [s, k]).map read =
      (used l file environment [s, k]).map read := by
  have same := lawful.at?_ofVariables flat orderly.separate (List.cons_ne_nil s [k])
  rw [used, Option.map_or, ← same]
  cases upper : (l.ofVariables environment).at? [s, k] with
  | some v =>
    rw [lawful.overlays.at?_of_some (lawful.tidy_ofVariables environment) upper, Option.map_some,
      lawful.overlays.read_atop flat]
    rfl
  | none =>
    have clear := Node.clear_pair (lawful.isTable_ofVariables environment) (orderly.upper s hs) k
    rw [lawful.overlays.at?_of_clear (lawful.tidy_ofVariables environment) clear upper]
    rfl

/-- **Layers are read key by key.** -/
theorem ofNode?_eq (orderly : Orderly l file environment) :
    l.ofNode? (l.overlay file (l.ofVariables environment)) =
      ofUsed? l (used l file environment) := by
  have root : (l.overlay file (l.ofVariables environment)).isTable = true :=
    (lawful.overlays.isTable_eq _ _).trans (lawful.isTable_ofVariables environment)
  rw [lawful.ofNode?_eq root (orderly.sectioned lawful)]
  refine ofUsed?_congr lawful fun p hp _ read flat => ?_
  simp only [keys, List.mem_cons, List.not_mem_nil, or_false] at hp
  rcases hp with rfl | rfl | rfl
  · exact orderly.at?_layers lawful flat (by decide) _
  · exact orderly.at?_layers lawful flat (by decide) _
  · exact orderly.at?_layers lawful flat (by decide) _

end Orderly

/-! ## Loading -/

/-- A file that is not there is an empty one. -/
theorem Library.Lawful.ofFile_getD (lawful : l.Lawful) (text : Option String) :
    l.ofFile (some (text.getD "")) = l.ofFile text := by
  cases text with
  | none => rw [Option.getD_none, ofFile, ofFile, lawful.document_empty]
  | some text => rfl

theorem Library.Lawful.ofLayers_getD (lawful : l.Lawful) (text : Option String)
    (environment : List (String × String)) :
    l.ofLayers (some (text.getD "")) environment = l.ofLayers text environment := by
  rw [ofLayers, lawful.ofFile_getD]
  rfl

theorem location_eq (explicit : Option String) (around : Surroundings) :
    location explicit around =
      (explicit.or (around.environment.lookup fileVariable)).getD
        (around.home.getD "." ++ "/.framepace/framepace.toml") := by
  unfold location
  cases explicit <;> cases around.environment.lookup fileVariable <;> rfl

/-- What is answered when settings have, or have not, got their types. -/
def answer : Option Settings → Except SettingsError Settings
  | some settings => .ok settings
  | none => .error ⟨"a setting has the wrong type"⟩

theorem answer_eq_ok {result : Option Settings} {settings : Settings} :
    answer result = .ok settings ↔ result = some settings := by
  cases result with
  | none => exact ⟨nofun, nofun⟩
  | some _ => rw [answer, Except.ok.injEq, Option.some.injEq]

theorem answer_eq_error {result : Option Settings} :
    (∃ e, answer result = .error e) ↔ result = none := by
  cases result with
  | none => exact ⟨fun _ => rfl, fun _ => ⟨_, rfl⟩⟩
  | some _ => exact ⟨nofun, nofun⟩

section Load

variable {explicit : Option String} {around : Surroundings} {d : Directory} (lawful : l.Lawful)
include lawful

/-- **What is loaded**: the file that is found, and what variables set. -/
theorem Library.Lawful.load_eq (explicit : Option String) (around : Surroundings)
    (d : Directory) :
    l.load explicit around d =
      l.ofLayers (some ((d.search around.place (location explicit around)).getD ""))
        around.environment := by
  rw [load, lawful.find_eq, lawful.ofLayers_getD]

theorem load_error
    (malformed : l.document? ((d.search around.place (location explicit around)).getD "") = none) :
    ∃ e, l.load explicit around d = .error e := by
  rw [lawful.load_eq, Library.ofLayers, Library.ofFile, malformed]
  exact ⟨_, rfl⟩

/-- **What is loaded, key by key.** -/
theorem load_eq_answer
    (parsed : l.document? ((d.search around.place (location explicit around)).getD "") = some file)
    (orderly : Orderly l file around.environment) :
    l.load explicit around d = answer (ofUsed? l (used l file around.environment)) := by
  rw [← orderly.ofNode?_eq lawful, lawful.load_eq, Library.ofLayers, Library.ofFile, parsed]
  rfl

end Load

/-- Where no name is there twice, the order does not matter to looking one up. -/
theorem lookup_perm (distinct : (environment.map (·.1)).Nodup)
    (same : environment.Perm environment') (k : String) :
    environment.lookup k = environment'.lookup k := by
  induction same with
  | nil => rfl
  | cons x _ ih =>
    obtain ⟨name, raw⟩ := x
    rw [List.lookup_cons, List.lookup_cons, ih (List.nodup_cons.1 distinct).2]
  | swap x y l =>
    obtain ⟨name, raw⟩ := x
    obtain ⟨name', raw'⟩ := y
    have apart : name' ≠ name := fun alike =>
      (List.nodup_cons.1 distinct).1 (List.mem_cons.2 (.inl alike))
    simp only [List.lookup_cons]
    cases one : k == name with
    | false => rfl
    | true =>
      cases other : k == name' with
      | false => rfl
      | true => exact absurd ((eq_of_beq other).symm.trans (eq_of_beq one)) apart
  | trans one _ ih ih' => exact (ih distinct).trans (ih' ((one.map _).nodup_iff.1 distinct))

/-- Variables that name a file. -/
def pointer : Surroundings where
  environment := [("FRAMEPACE_CONFIG", "c")]

/-- A directory with the file that they name. -/
def holding (text : String) : Directory where
  entries := [("c", some text)]

theorem search_holding (text : String) : (holding text).search pointer.place "c" = some text := by
  with_unfolding_all rfl

/-- What is loaded where the one variable names a file that is there. -/
theorem load_holding {text : String} {file : Node} (parsed : Toml.document? text = some file)
    (lower : Sectioned file) :
    load none pointer (holding text) =
      answer (ofUsed? .standard (used .standard file pointer.environment)) := by
  have separate : Separate pointer.environment := List.pairwise_singleton ..
  have upper : Sectioned (Library.standard.ofVariables pointer.environment) :=
    sectioned_of_says Library.lawful_standard separate (by decide)
  refine load_eq_answer Library.lawful_standard ?_ ⟨separate, upper, lower⟩
  rw [show location none pointer = "c" from rfl, search_holding, Option.getD_some]
  exact parsed

/-- Variables that name a file and set two settings, and a user who is at home elsewhere. -/
def shell : Surroundings where
  environment := [("FRAMEPACE_SCHEDULER__FRAME_DELAY_MS", "20"), ("FRAMEPACE_CONFIG", "c"),
    ("FRAMEPACE_LOGGING__FILTER", "warn")]
  home := some "/home/user"
  place := ["work", "run"]

/-- Files in several places: above the one in which the program runs, at home, and elsewhere. -/
def shelf (atHome : String) : Directory where
  entries := [("/home/user/.framepace/framepace.toml", some atHome),
    ("../c", some "scheduler.frame_delay_ms=true"), ("/etc/plain", some "log=1"),
    ("/etc/malformed", some "=")]

/-- What is found there: the file above before any other of its name, and each of the others where
its path leads. -/
theorem search_shelf :
    (shelf "scheduler.wakeup_interval_ms=5").search shell.place "c" =
      some "scheduler.frame_delay_ms=true" ∧
    (shelf "scheduler.wakeup_interval_ms=5").search shell.place
      "/home/user/.framepace/framepace.toml" = some "scheduler.wakeup_interval_ms=5" ∧
    (shelf "scheduler.wakeup_interval_ms=5").search shell.place "/etc/malformed" = some "=" ∧
    (shelf "=").search shell.place "/etc/plain" = some "log=1" ∧
    (shelf "=").search shell.place "../c" = some "scheduler.frame_delay_ms=true" ∧
    (shelf "=").search shell.place "absent" = none := by
  decide +kernel

/-- What is at home is not on the way to the file above. -/
theorem text?_shelf {here : Place} (above : here ∈ shell.place.upward) :
    (shelf "=").text? shell.place here "c" =
      (shelf "scheduler.wakeup_interval_ms=5").text? shell.place here "c" := by
  revert here
  decide +kernel

/-- What the files say. -/
theorem document?_shelf :
    Toml.document? "scheduler.frame_delay_ms=true" =
      some (.table [("scheduler", .table [("frame_delay_ms", .truth true)])]) ∧
    Toml.document? "scheduler.wakeup_interval_ms=5" =
      some (.table [("scheduler", .table [("wakeup_interval_ms", .whole 5)])]) ∧
    Toml.document? "log=1" = some (.table [("log", .whole 1)]) ∧
    Toml.document? "" = some (.table []) ∧ Toml.document? "=" = none :=
  ⟨by decide +kernel, by decide +kernel, by decide +kernel, by decide +kernel, by decide +kernel⟩

/-- The variables are orderly over a file that is. -/
theorem orderly_shell {file : Node} (lower : Sectioned file) :
    Orderly .standard file shell.environment := by
  have separate : Separate shell.environment := by
    unfold Separate Apart
    decide
  exact ⟨separate, sectioned_of_says Library.lawful_standard separate (by decide), lower⟩

/-- And so are none at all. -/
theorem orderly_nil {file : Node} (lower : Sectioned file) : Orderly .standard file [] :=
  ⟨List.Pairwise.nil, by unfold Sectioned; decide, lower⟩

end FrameLoop.Settings

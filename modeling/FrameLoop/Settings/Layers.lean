import FrameLoop.Directory
import FrameLoop.Error
import FrameLoop.Settings.Environment
import FrameLoop.Toml.Document

/-!
# Loading settings

Settings are laid in two layers: a file at the bottom and environment
variables over it; whatever neither says has its default. Which file it is
depends on what the caller says, then on a variable, then on where the user is
at home (`Settings.location`). A file that is not there, or is no file, is an
empty one; a file that cannot be read as a document is an error whatever the
variables say. A value of the wrong type is one only where it remains
uncovered.

Where a file is looked for, what a document, a variable and a value stand for,
and how one tree is laid over another, is a matter of the libraries that do
it, a `Settings.Library`. `Settings.Library.standard` has those that are at
hand, and `Settings.load` loads with them.
-/

namespace FrameLoop

/-- The surroundings in which settings are loaded: variables by name in their
order, the home directory of the user if it is known, and the directory in
which the program runs. -/
structure Surroundings where
  environment : List (String × String) := []
  home : Option String := none
  place : Place := ["work"]
deriving Inhabited

namespace Settings

/-- The variable that names the settings file. -/
def fileVariable : String := "FRAMEPACE_CONFIG"

/-- **Where the settings file is.** -/
def location (explicit : Option String) (around : Surroundings) : String :=
  match explicit, around.environment.lookup fileVariable with
  | some path, _ => path
  | none, some path => path
  | none, none => around.home.getD "." ++ "/.framepace/framepace.toml"

/-- **The libraries by which settings are read.** -/
structure Library where
  /-- The text of the file that a path stands for in a directory. -/
  find? : Place → Directory → String → Option String
  /-- The tree that a document stands for. -/
  document? : String → Option Node
  /-- The way to the node that a variable of some name sets, given the mark of
  the program, the names that are ignored, and what parts two levels. -/
  target? : String → List String → String → String → Option (List String)
  /-- The value of a variable. -/
  value : String → Node
  /-- One tree laid over another. -/
  overlay : Node → Node → Node
  /-- The values that are given for some fields. -/
  given? : List String → Node → Option (List (String × Node))
  number? : Node → Option Binary64
  text? : Node → Option String

/-- The tree with nothing but one node in it. -/
def nest (v : Node) : List String → Node
  | [] => v
  | k :: rest => .table [(k, nest v rest)]

namespace Library

variable (l : Library)

/-! ## The two layers -/

/-- The way to the node that a variable sets. The variable that names the
settings file is no setting. -/
def path? (name : String) : Option (List String) := l.target? "FRAMEPACE_" ["config"] "__" name

/-- What a variable makes of a tree. -/
def layOver (tree : Node) (x : String × String) : Node :=
  match l.path? x.1 with
  | some path => l.overlay tree (nest (l.value x.2) path)
  | none => tree

/-- **The layer that variables make**, one laid over the other in their
order. -/
def ofVariables (environment : List (String × String)) : Node :=
  environment.foldl l.layOver (.table [])

/-- **The layer that a file makes.** -/
def ofFile (text : Option String) : Except SettingsError Node :=
  match text with
  | none => .ok (.table [])
  | some text =>
    match l.document? text with
    | some tree => .ok tree
    | none => .error ⟨"the settings file is no TOML document"⟩

/-! ## Types -/

/-- Settings of a scheduler, with their types. -/
def scheduler? (v : Node) : Option SchedulerSettings := do
  let given ← l.given? ["frame_delay_ms", "wakeup_interval_ms"] v
  let defaults : SchedulerSettings := {}
  let frameDelayMs ← Node.field given "frame_delay_ms" defaults.frameDelayMs l.number?
  let wakeupIntervalMs ← Node.field given "wakeup_interval_ms" defaults.wakeupIntervalMs l.number?
  some { frameDelayMs, wakeupIntervalMs }

/-- Settings of the log, with their types. -/
def logging? (v : Node) : Option LoggingSettings := do
  let given ← l.given? ["filter"] v
  let filter ← Node.field given "filter" defaultFilter l.text?
  some { filter }

/-- **Settings with their types**; `none` where a type does not fit. -/
def ofNode? (v : Node) : Option Settings := do
  let given ← l.given? ["scheduler", "logging"] v
  let scheduler ← Node.field given "scheduler" {} l.scheduler?
  let logging ← Node.field given "logging" {} l.logging?
  some { scheduler, logging }

/-! ## Loading -/

/-- **Settings from a file's text and variables.** -/
def ofLayers (text : Option String) (environment : List (String × String)) :
    Except SettingsError Settings := do
  let file ← l.ofFile text
  match l.ofNode? (l.overlay file (l.ofVariables environment)) with
  | some s => .ok s
  | none => .error ⟨"a setting has the wrong type"⟩

/-- **Load settings.** -/
def load (explicit : Option String) (around : Surroundings) (d : Directory) :
    Except SettingsError Settings :=
  l.ofLayers (l.find? around.place d (location explicit around)) around.environment

end Library

/-- **The libraries that are at hand.** -/
def Library.standard : Library where
  find? place d path := d.search place path
  document? := Toml.document?
  target? := Environment.path?
  value := Environment.value
  overlay := Node.overlay
  given? := Node.given?
  number? := Node.number?
  text? := Node.text?

/-- **Load settings** with the libraries at hand. -/
def load : Option String → Surroundings → Directory → Except SettingsError Settings :=
  Library.standard.load

end Settings

end FrameLoop

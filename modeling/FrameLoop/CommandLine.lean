import FrameLoop.Binary64.Decimal

/-!
# The command line

One command, `run`, with four options. An option is given by its full name,
with its value after an equals sign or as the next argument; a next argument
that looks like an option is no value. No option may be given twice. Arguments
are looked at from left to right, and the first that decides the outcome does:
a request for help before an unknown option is a request for help.
-/

namespace FrameLoop

/-- **What a run is asked to do.** -/
structure RunOptions where
  /-- Where the settings are. -/
  config : Option String := none
  /-- A frame delay that replaces the one in the settings. -/
  frameDelayMs : Option Binary64 := none
  /-- After how many seconds to stop. -/
  durationSecs : Option Nat := none
  /-- On which of its calls a job is to abort the loop. -/
  abortAfter : Option Nat := none
deriving DecidableEq, Inhabited, Repr

/-- **What the command line asks for.** -/
inductive Request where
  | run (options : RunOptions)
  | help
  | version
  /-- Nothing that can be done. -/
  | unusable
deriving DecidableEq, Repr

namespace CommandLine

/-- A whole number of 64 bits; a plus may stand before it. -/
def natural? (s : String) : Option Nat :=
  let ds := match s.toList with
    | '+' :: r => r
    | r => r
  if ds.isEmpty || !ds.all Char.isDigit then none
  else if Digits.decimal ds < UInt64.size then some (Digits.decimal ds) else none

/-- Set an option; refused if it is set already or the value does not fit. -/
def set? {α : Type} (old : Option α) (value : Option α) : Option (Option α) :=
  match old, value with
  | none, some v => some (some v)
  | _, _ => none

/-- **Set an option by its name.** -/
def RunOptions.set? (o : RunOptions) (name value : String) : Option RunOptions :=
  match name with
  | "config" => (CommandLine.set? o.config (some value)).map fun v => { o with config := v }
  | "frame-delay-ms" =>
    (CommandLine.set? o.frameDelayMs (Binary64.ofText? value.toList)).map
      fun v => { o with frameDelayMs := v }
  | "duration-secs" =>
    (CommandLine.set? o.durationSecs (natural? value)).map fun v => { o with durationSecs := v }
  | "abort-after" =>
    (CommandLine.set? o.abortAfter (natural? value)).map fun v => { o with abortAfter := v }
  | _ => none

/-- Whether an argument looks like an option. -/
def looksLikeOption (arg : String) : Bool := arg.startsWith "-" && arg != "-"

/-- The name of a long option and the value after its equals sign. -/
def splitLong (arg : List Char) : String × Option String :=
  let name := String.ofList (arg.takeWhile (· != '='))
  match arg.dropWhile (· != '=') with
  | _ :: value => (name, some (String.ofList value))
  | [] => (name, none)

/-- The options after `run`. -/
def options (o : RunOptions) : List String → Request
  | [] => .run o
  | arg :: rest =>
    match arg.toList with
    | ['-', '-'] => if rest.isEmpty then .run o else .unusable
    | '-' :: '-' :: long =>
      match splitLong long with
      | ("help", none) => .help
      | (name, some value) =>
        match RunOptions.set? o name value with
        | some o => options o rest
        | none => .unusable
      | (name, none) =>
        match rest with
        | value :: rest =>
          if looksLikeOption value then .unusable
          else
            match RunOptions.set? o name value with
            | some o => options o rest
            | none => .unusable
        | [] => .unusable
    | '-' :: 'h' :: _ => .help
    | _ => .unusable

/-- **What a command line asks for.** -/
def parse : List String → Request
  | "run" :: rest => options {} rest
  | ["help"] | ["help", "run"] | ["help", "help"] => .help
  | arg :: _ =>
    match arg.toList with
    | '-' :: '-' :: long =>
      match splitLong long with
      | ("help", none) => .help
      | ("version", none) => .version
      | _ => .unusable
    | '-' :: 'h' :: _ => .help
    | '-' :: 'V' :: _ => .version
    | _ => .unusable
  | [] => .unusable

/-! ## Texts -/

/-- What the program says of its version. -/
def versionText : String := "framepace 0.1.0\n"

/-- How to use the program. -/
def usageText : String :=
  "Frame-paced cooperative job scheduler.\n\n" ++
  "Usage: framepace run [--config <PATH>] [--frame-delay-ms <MS>] [--duration-secs <SECS>]\n" ++
  "                     [--abort-after <N>]\n"

end CommandLine

end FrameLoop

import FrameLoop.Json.Reader
import FrameLoop.Json.Record
import FrameLoop.Json.Writer
import FrameLoop.Lifecycle
import FrameLoop.Names
import FrameLoop.Settings
import FrameLoop.TickStats

/-!
# Values exchanged as JSON

How the states, ids and counters read as JSON and are written as JSON. Which
words, fields and forms there are is said here. How a text becomes a JSON
value, a value a word, a number or a record, and a text a point in time, is a
matter of the libraries that do it, an `Exchange`; `Exchange.standard` has the
ones that are at hand.

Reading takes more forms than writing makes: records by name or by place,
nanoseconds that make up further seconds, times with any offset. Each type has
one written form.
-/

namespace FrameLoop

/-- **The libraries by which values are exchanged.** -/
structure Exchange where
  /-- The value that a text stands for. -/
  read : String → Option Json
  /-- The text of a value without blanks. -/
  compact : Json → String
  /-- The text of a value with one item a line. -/
  pretty : Json → String
  /-- One of some words. -/
  word : List String → Json → Option String
  text : Json → Option String
  /-- A whole number of 64 bits. -/
  natural : Json → Option Nat
  /-- A record with some fields, taken apart. -/
  record : List String → Json → Option Json.Record
  duration : Json → Option Duration
  /-- The point in time that a text stands for. -/
  readTime : String → Option Timestamp
  /-- The text of a point in time. -/
  timeText : Timestamp → String

/-! ## Written forms -/

def JobOutcome.toJson (o : JobOutcome) : Json := .ofText o.word

def SchedulerState.toJson (s : SchedulerState) : Json := .ofText s.word

def EngineState.toJson (s : EngineState) : Json := .ofText s.word

def JobId.toJson (id : JobId) : Json := .ofText id.text

def LoopId.toJson (id : LoopId) : Json := .ofText id.text

def Duration.toJson (d : Duration) : Json :=
  .ofFields [("secs", .ofNat d.secs), ("nanos", .ofNat d.subsec)]

/-- The fields of counters, in order. -/
def TickStats.fields : List String :=
  ["ticks", "last_tick_duration", "last_cycle_delta", "jobs_last_tick", "sub_cycles_last_tick",
    "started_at"]

namespace Exchange

variable (x : Exchange)

/-- **Counters as JSON.** -/
def ofCounters (s : TickStats) : Json :=
  .ofFields
    [("ticks", .ofNat s.ticks), ("last_tick_duration", s.lastTickDuration.toJson),
      ("last_cycle_delta", s.lastCycleDelta.toJson), ("jobs_last_tick", .ofNat s.jobsLastTick),
      ("sub_cycles_last_tick", .ofNat s.subCyclesLastTick),
      ("started_at", match s.startedAt with | some t => .ofText (x.timeText t) | none => .null)]

/-! ## Reading -/

def outcome? (v : Json) : Option JobOutcome :=
  (x.word (JobOutcome.all.map (·.word)) v).bind JobOutcome.ofWord?

def schedulerState? (v : Json) : Option SchedulerState :=
  (x.word (SchedulerState.all.map (·.word)) v).bind SchedulerState.ofWord?

def engineState? (v : Json) : Option EngineState :=
  (x.word (EngineState.all.map (·.word)) v).bind EngineState.ofWord?

def jobId? (v : Json) : Option JobId := (x.text v).map JobId.mk

def loopId? (v : Json) : Option LoopId := (x.text v).map LoopId.mk

def time? (v : Json) : Option Timestamp := (x.text v).bind x.readTime

/-- **Counters from JSON.** Only the time of the start may be left out. -/
def counters? (v : Json) : Option TickStats := do
  let r ← x.record TickStats.fields v
  let ticks ← r.required "ticks" x.natural
  let lastTickDuration ← r.required "last_tick_duration" x.duration
  let lastCycleDelta ← r.required "last_cycle_delta" x.duration
  let jobsLastTick ← r.required "jobs_last_tick" x.natural
  let subCyclesLastTick ← r.required "sub_cycles_last_tick" x.natural
  let startedAt ← r.nullable "started_at" x.time?
  some { ticks, lastTickDuration, lastCycleDelta, jobsLastTick, subCyclesLastTick, startedAt }

/-- **The value that a text stands for**, read as one of a type. -/
def decode? {α : Type} (read : Json → Option α) (text : String) : Option α :=
  (x.read text).bind read

end Exchange

/-! ## The libraries at hand -/

/-- A duration from JSON. The seconds fit into 64 bits, the nanoseconds into 32; together they
have to be in range. -/
def Duration.ofJson? (v : Json) : Option Duration := do
  let r ← Json.Record.ofJson? ["secs", "nanos"] true v
  let secs ← r.required "secs" (Json.natBelow? UInt64.size)
  let nanos ← r.required "nanos" (Json.natBelow? UInt32.size)
  ofParts? secs nanos

/-- **The libraries that are at hand.** -/
def Exchange.standard : Exchange where
  read := Json.read?
  compact := Json.compact
  pretty := Json.pretty
  word _ := Json.word?
  text := Json.text?
  natural := Json.natBelow? UInt64.size
  record fields := Json.Record.ofJson? fields false
  duration := Duration.ofJson?
  readTime := Timestamp.ofText?
  timeText := Timestamp.text

def JobOutcome.ofJson? : Json → Option JobOutcome := Exchange.standard.outcome?

def SchedulerState.ofJson? : Json → Option SchedulerState := Exchange.standard.schedulerState?

def EngineState.ofJson? : Json → Option EngineState := Exchange.standard.engineState?

def JobId.ofJson? : Json → Option JobId := Exchange.standard.jobId?

def LoopId.ofJson? : Json → Option LoopId := Exchange.standard.loopId?

def TickStats.ofJson? : Json → Option TickStats := Exchange.standard.counters?

def TickStats.toJson : TickStats → Json := Exchange.standard.ofCounters

/-- The value that a text stands for, read as one of a type. -/
def Json.decode? {α : Type} : (Json → Option α) → String → Option α := Exchange.standard.decode?

/-! ## Settings -/

namespace SchedulerSettings

def ofJson? (v : Json) : Option SchedulerSettings := do
  let r ← Json.Record.ofJson? ["frame_delay_ms", "wakeup_interval_ms"] false v
  let defaults : SchedulerSettings := {}
  let frameDelayMs ← r.withDefault "frame_delay_ms" defaults.frameDelayMs Json.binary?
  let wakeupIntervalMs ← r.withDefault "wakeup_interval_ms" defaults.wakeupIntervalMs Json.binary?
  some { frameDelayMs, wakeupIntervalMs }

end SchedulerSettings

namespace LoggingSettings

def ofJson? (v : Json) : Option LoggingSettings := do
  let r ← Json.Record.ofJson? ["filter"] false v
  let filter ← r.withDefault "filter" defaultFilter Json.text?
  some { filter }

end LoggingSettings

namespace Settings

/-- **Settings from JSON.** Everything has a default. -/
def ofJson? (v : Json) : Option Settings := do
  let r ← Json.Record.ofJson? ["scheduler", "logging"] false v
  let scheduler ← r.withDefault "scheduler" {} SchedulerSettings.ofJson?
  let logging ← r.withDefault "logging" {} LoggingSettings.ofJson?
  some { scheduler, logging }

end Settings

end FrameLoop

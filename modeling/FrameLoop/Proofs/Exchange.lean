import FrameLoop.Exchange
import FrameLoop.Proofs.Json.Record
import FrameLoop.Proofs.Timestamp

/-!
# What is exchanged is read back as it was

Every outcome, state and id is read back from the text that it is written as, and so are all
counters that can be read at all, in either layout (`written_reads_back`). So what has been read
from a text, in whatever form the text had it, is written in one form, and writing it once more
changes nothing.

**What is taken for granted** is what the libraries are documented to do (`Exchange.Lawful`): a
text is read as the value that it is written for; a word, a whole number, a text, a duration and
a record are read from the form they are written in; and a point in time is written as a text
with its fields in universal time, and such a text is read as the point in time that its fields
stand for. Nothing is supposed about other forms, but that no number is read beyond 64 bits
and no point in time beyond what can be written. The libraries at hand are lawful
(`Exchange.lawful_standard`).

Counters need not come from a text: those beyond 64 bits, or a start with two seconds of
nanoseconds, can be held and not be read back. What has been read `Fits`. Settings are read and
never written, so they have no part in this.
-/

namespace FrameLoop

open Json (natBelow? natBelow?_ofNat natBelow?_lt whole_ofNat whole_ofFields)
open Json.Record (required_eq)

variable {v : Json} {x : Exchange} {α : Type} {read : Json → Option α} {write : α → Json}

/-- **What the libraries are documented to do.** -/
structure Exchange.Lawful (x : Exchange) : Prop where
  read_compact : ∀ v : Json, v.Whole → x.read (x.compact v) = some v
  read_pretty : ∀ v : Json, v.Whole → x.read (x.pretty v) = some v
  word_ofText : ∀ words, ∀ w ∈ words, x.word words (.ofText w) = some w
  text_ofText : ∀ s, x.text (.ofText s) = some s
  natural_ofNat : ∀ n < UInt64.size, x.natural (.ofNat n) = some n
  natural_lt : ∀ v, ∀ n ∈ x.natural v, n < UInt64.size
  /-- A record is read from an object that has all its fields, each once. -/
  record_ofFields : ∀ given : List (String × Json), (given.map (·.1)).Nodup →
    x.record (given.map (·.1)) (.ofFields given) = some ⟨given, false⟩
  duration_toJson : ∀ d : Duration, x.duration d.toJson = some d
  /-- A point in time is written with its fields in universal time. -/
  timeText_eq : ∀ t : Timestamp, t.Proper → x.timeText t = t.fields.text
  /-- A text with the fields of a point in time is read as that. -/
  readTime_text : ∀ f : Timestamp.Fields, f.InBounds → x.readTime f.text = f.timestamp?
  readTime_proper : ∀ s, ∀ t ∈ x.readTime s, t.Proper

/-! ## Durations -/

namespace Duration

theorem secs_lt (d : Duration) : d.secs < UInt64.size :=
  Nat.div_lt_of_lt_mul (by rw [Nat.mul_comm]; exact d.inRange)

theorem subsec_lt (d : Duration) : d.subsec < UInt32.size :=
  (Nat.mod_lt _ (by decide)).trans (by decide)

theorem ofParts?_parts (d : Duration) : ofParts? d.secs d.subsec = some d := by
  have parts : d.secs * nanosPerSecond + d.subsec = d.nanos := Nat.div_add_mod' d.nanos _
  rw [ofParts?, parts]
  exact dif_pos d.inRange

theorem whole_toJson (d : Duration) : d.toJson.Whole :=
  whole_ofFields (List.forall_mem_cons.2
    ⟨whole_ofNat _, List.forall_mem_singleton.2 (whole_ofNat _)⟩)

/-- The two numbers a duration is written as. -/
def given (d : Duration) : List (String × Json) :=
  [("secs", .ofNat d.secs), ("nanos", .ofNat d.subsec)]

theorem required_secs (d : Duration) :
    Json.Record.required ⟨d.given, false⟩ "secs" (natBelow? UInt64.size) = some d.secs := by
  rw [required_eq (v := .ofNat d.secs), natBelow?_ofNat d.secs_lt le_rfl]
  simp [Json.Record.get?, given]

theorem required_nanos (d : Duration) :
    Json.Record.required ⟨d.given, false⟩ "nanos" (natBelow? UInt32.size) = some d.subsec := by
  rw [required_eq (v := .ofNat d.subsec), natBelow?_ofNat d.subsec_lt (by decide)]
  simp [Json.Record.get?, given, List.lookup_cons]

/-- **A duration is read back**, in seconds and what is beyond them. -/
theorem ofJson?_toJson (d : Duration) : ofJson? d.toJson = some d := by
  have record : Json.Record.ofJson? ["secs", "nanos"] true (.ofFields d.given) =
      some ⟨d.given, false⟩ :=
    Json.Record.ofJson?_ofFields true (by simp [given]) (by simp [given])
  have written : d.toJson = .ofFields d.given := rfl
  rw [ofJson?, written, record, Option.bind_eq_bind, Option.bind_some, required_secs,
    Option.bind_eq_bind, Option.bind_some, required_nanos, Option.bind_some, ofParts?_parts]

end Duration

/-! ## Counters -/

namespace TickStats

/-- **Counters that can be read**: numbers of 64 bits, and a start that can be written. -/
structure Fits (s : TickStats) : Prop where
  ticks_lt : s.ticks < UInt64.size
  jobs_lt : s.jobsLastTick < UInt64.size
  subCycles_lt : s.subCyclesLastTick < UInt64.size
  proper : ∀ t ∈ s.startedAt, t.Proper

/-- The fields as they are written. -/
def given (x : Exchange) (s : TickStats) : List (String × Json) :=
  [("ticks", .ofNat s.ticks), ("last_tick_duration", s.lastTickDuration.toJson),
    ("last_cycle_delta", s.lastCycleDelta.toJson), ("jobs_last_tick", .ofNat s.jobsLastTick),
    ("sub_cycles_last_tick", .ofNat s.subCyclesLastTick),
    ("started_at", (s.startedAt.map fun t => .ofText (x.timeText t)).getD .null)]

theorem names_given (x : Exchange) (s : TickStats) : (s.given x).map (·.1) = fields := rfl

end TickStats

namespace Exchange

theorem ofCounters_eq (x : Exchange) (s : TickStats) : x.ofCounters s = .ofFields (s.given x) := by
  unfold ofCounters TickStats.given
  cases s.startedAt with
  | none => rfl
  | some t => rfl

theorem whole_ofCounters (x : Exchange) (s : TickStats) : (x.ofCounters s).Whole := by
  rw [ofCounters_eq]
  refine whole_ofFields fun f hf => ?_
  simp only [TickStats.given, List.mem_cons, List.not_mem_nil, or_false] at hf
  rcases hf with rfl | rfl | rfl | rfl | rfl | rfl
  · exact whole_ofNat _
  · exact s.lastTickDuration.whole_toJson
  · exact s.lastCycleDelta.whole_toJson
  · exact whole_ofNat _
  · exact whole_ofNat _
  · cases s.startedAt with
    | none => exact trivial
    | some t => exact rfl

namespace Lawful

variable (lawful : x.Lawful)
include lawful

/-- **What has been read fits.** -/
theorem fits {s : TickStats} (read : x.counters? v = some s) : s.Fits := by
  obtain ⟨r, -, read⟩ := Option.bind_eq_some_iff.1 read
  obtain ⟨ticks, hticks, read⟩ := Option.bind_eq_some_iff.1 read
  obtain ⟨duration, -, read⟩ := Option.bind_eq_some_iff.1 read
  obtain ⟨delta, -, read⟩ := Option.bind_eq_some_iff.1 read
  obtain ⟨jobs, hjobs, read⟩ := Option.bind_eq_some_iff.1 read
  obtain ⟨subCycles, hsubCycles, read⟩ := Option.bind_eq_some_iff.1 read
  obtain ⟨start, hstart, read⟩ := Option.bind_eq_some_iff.1 read
  obtain ⟨_, -, hticks⟩ := Option.bind_eq_some_iff.1 hticks
  obtain ⟨_, -, hjobs⟩ := Option.bind_eq_some_iff.1 hjobs
  obtain ⟨_, -, hsubCycles⟩ := Option.bind_eq_some_iff.1 hsubCycles
  cases read
  refine ⟨lawful.natural_lt _ _ hticks, lawful.natural_lt _ _ hjobs,
    lawful.natural_lt _ _ hsubCycles, fun t ht => ?_⟩
  unfold Json.Record.nullable at hstart
  split at hstart
  · cases hstart
    cases ht
  · obtain ⟨u, hu, same⟩ := Option.map_eq_some_iff.1 hstart
    cases same
    cases ht
    obtain ⟨text, -, timed⟩ := Option.bind_eq_some_iff.1 hu
    exact lawful.readTime_proper _ _ timed
  · split at hstart
    · cases hstart
    · cases hstart
      cases ht

/-- **A point in time is read back**: its fields are written, and read as what they stand for. -/
theorem time?_timeText {t : Timestamp} (proper : t.Proper) :
    x.time? (.ofText (x.timeText t)) = some t := by
  rw [time?, lawful.text_ofText, Option.bind_some, lawful.timeText_eq t proper,
    lawful.readTime_text _ proper.inBounds, Timestamp.timestamp?_fields proper]

theorem nullable_startedAt {s : TickStats} (fits : s.Fits) :
    Json.Record.nullable ⟨s.given x, false⟩ "started_at" x.time? = some s.startedAt := by
  have there : Json.Record.get? ⟨s.given x, false⟩ "started_at" =
      some ((s.startedAt.map fun t => .ofText (x.timeText t)).getD .null) := by
    simp [Json.Record.get?, TickStats.given, List.lookup_cons]
  unfold Json.Record.nullable
  rw [there]
  cases start : s.startedAt with
  | none => rfl
  | some t =>
    show (x.time? (.ofText (x.timeText t))).map some = _
    rw [lawful.time?_timeText (fits.proper t start)]
    rfl

/-- **Counters that fit are read back.** -/
theorem counters?_ofCounters {s : TickStats} (fits : s.Fits) :
    x.counters? (x.ofCounters s) = some s := by
  have record : x.record TickStats.fields (.ofFields (s.given x)) = some ⟨s.given x, false⟩ :=
    lawful.record_ofFields (s.given x) (by rw [TickStats.names_given]; decide)
  have natural : ∀ (k : String) (n : Nat), n < UInt64.size →
      Json.Record.get? ⟨s.given x, false⟩ k = some (.ofNat n) →
      Json.Record.required ⟨s.given x, false⟩ k x.natural = some n :=
    fun k n below there => (required_eq there).trans (lawful.natural_ofNat n below)
  have duration : ∀ (k : String) (d : Duration),
      Json.Record.get? ⟨s.given x, false⟩ k = some d.toJson →
      Json.Record.required ⟨s.given x, false⟩ k x.duration = some d :=
    fun k d there => (required_eq there).trans (lawful.duration_toJson d)
  have ticks := natural "ticks" _ fits.ticks_lt (by simp [Json.Record.get?, TickStats.given])
  have lastTick := duration "last_tick_duration" s.lastTickDuration
    (by simp [Json.Record.get?, TickStats.given, List.lookup_cons])
  have lastCycle := duration "last_cycle_delta" s.lastCycleDelta
    (by simp [Json.Record.get?, TickStats.given, List.lookup_cons])
  have jobs := natural "jobs_last_tick" _ fits.jobs_lt
    (by simp [Json.Record.get?, TickStats.given, List.lookup_cons])
  have subCycles := natural "sub_cycles_last_tick" _ fits.subCycles_lt
    (by simp [Json.Record.get?, TickStats.given, List.lookup_cons])
  simp only [counters?, ofCounters_eq, record, ticks, lastTick, lastCycle, jobs, subCycles,
    lawful.nullable_startedAt fits, Option.bind_eq_bind, Option.bind_some]

/-! ## Words and ids -/

theorem outcome?_toJson (o : JobOutcome) : x.outcome? o.toJson = some o := by
  have known : o.word ∈ JobOutcome.all.map (·.word) := by cases o <;> decide
  rw [outcome?, JobOutcome.toJson, lawful.word_ofText _ _ known]
  exact JobOutcome.ofWord?_word o

theorem schedulerState?_toJson (s : SchedulerState) : x.schedulerState? s.toJson = some s := by
  have known : s.word ∈ SchedulerState.all.map (·.word) := by cases s <;> decide
  rw [schedulerState?, SchedulerState.toJson, lawful.word_ofText _ _ known]
  exact SchedulerState.ofWord?_word s

theorem engineState?_toJson (s : EngineState) : x.engineState? s.toJson = some s := by
  have known : s.word ∈ EngineState.all.map (·.word) := by cases s <;> decide
  rw [engineState?, EngineState.toJson, lawful.word_ofText _ _ known]
  exact EngineState.ofWord?_word s

theorem jobId?_toJson (id : JobId) : x.jobId? id.toJson = some id := by
  rw [jobId?, JobId.toJson, lawful.text_ofText]
  rfl

theorem loopId?_toJson (id : LoopId) : x.loopId? id.toJson = some id := by
  rw [loopId?, LoopId.toJson, lawful.text_ofText]
  rfl

end Lawful

/-! ## Reading what was written -/

/-- **A value is read back from what it is written as**, in either layout. -/
def ReadsBack (x : Exchange) (read : Json → Option α) (write : α → Json) (a : α) : Prop :=
  ∀ layout ∈ [x.compact, x.pretty], x.decode? read (layout (write a)) = some a

/-- **What is written for what has been read is in normal form**: it is read as the same value,
and no other text is written for that the next time. -/
def Normalizes (x : Exchange) (read : Json → Option α) (write : α → Json) : Prop :=
  ∀ text a, x.decode? read text = some a → ∀ layout ∈ [x.compact, x.pretty],
    x.decode? read (layout (write a)) = some a ∧
      ∀ b, x.decode? read (layout (write a)) = some b → layout (write b) = layout (write a)

/-- A whole value that is read back as a value is so as a text. -/
theorem Lawful.readsBack (lawful : x.Lawful) {a : α} (whole : (write a).Whole)
    (back : read (write a) = some a) : x.ReadsBack read write a := by
  intro layout here
  have same : x.read (layout (write a)) = some (write a) := by
    simp only [List.mem_cons, List.not_mem_nil, or_false] at here
    rcases here with rfl | rfl
    · exact lawful.read_compact _ whole
    · exact lawful.read_pretty _ whole
  rw [decode?, same, Option.bind_some, back]

/-- It is enough that all that is read is read back. -/
theorem normalizes (back : ∀ v a, read v = some a → x.ReadsBack read write a) :
    x.Normalizes read write := by
  intro text a decoded layout here
  obtain ⟨v, -, decoded⟩ := Option.bind_eq_some_iff.1 decoded
  have again := back v a decoded layout here
  refine ⟨again, fun b other => ?_⟩
  rw [again] at other
  cases other
  rfl

end Exchange

/-- **What is written is read back, and what has been read is written in one form**: outcomes,
states, ids, and counters that fit. -/
theorem written_reads_back (x : Exchange) (lawful : x.Lawful) :
    ((∀ o, x.ReadsBack x.outcome? JobOutcome.toJson o) ∧
      (∀ s, x.ReadsBack x.schedulerState? SchedulerState.toJson s) ∧
      (∀ s, x.ReadsBack x.engineState? EngineState.toJson s) ∧
      (∀ id, x.ReadsBack x.jobId? JobId.toJson id) ∧
      (∀ id, x.ReadsBack x.loopId? LoopId.toJson id) ∧
      ∀ s : TickStats, s.Fits → x.ReadsBack x.counters? x.ofCounters s) ∧
    x.Normalizes x.outcome? JobOutcome.toJson ∧
      x.Normalizes x.schedulerState? SchedulerState.toJson ∧
      x.Normalizes x.engineState? EngineState.toJson ∧
      x.Normalizes x.jobId? JobId.toJson ∧
      x.Normalizes x.loopId? LoopId.toJson ∧
      x.Normalizes x.counters? x.ofCounters := by
  have outcome (o : JobOutcome) : x.ReadsBack x.outcome? JobOutcome.toJson o :=
    lawful.readsBack rfl (lawful.outcome?_toJson o)
  have scheduler (s : SchedulerState) : x.ReadsBack x.schedulerState? SchedulerState.toJson s :=
    lawful.readsBack rfl (lawful.schedulerState?_toJson s)
  have engine (s : EngineState) : x.ReadsBack x.engineState? EngineState.toJson s :=
    lawful.readsBack rfl (lawful.engineState?_toJson s)
  have job (id : JobId) : x.ReadsBack x.jobId? JobId.toJson id :=
    lawful.readsBack rfl (lawful.jobId?_toJson id)
  have loop (id : LoopId) : x.ReadsBack x.loopId? LoopId.toJson id :=
    lawful.readsBack rfl (lawful.loopId?_toJson id)
  have counters (s : TickStats) (fits : s.Fits) : x.ReadsBack x.counters? x.ofCounters s :=
    lawful.readsBack (x.whole_ofCounters s) (lawful.counters?_ofCounters fits)
  refine ⟨⟨outcome, scheduler, engine, job, loop, counters⟩, ?_, ?_, ?_, ?_, ?_, ?_⟩
  · exact Exchange.normalizes fun _ o _ => outcome o
  · exact Exchange.normalizes fun _ s _ => scheduler s
  · exact Exchange.normalizes fun _ s _ => engine s
  · exact Exchange.normalizes fun _ id _ => job id
  · exact Exchange.normalizes fun _ id _ => loop id
  · exact Exchange.normalizes fun _ s decoded => counters s (lawful.fits decoded)

/-! ## The libraries at hand -/

/-- **The libraries at hand do what is documented.** -/
theorem Exchange.lawful_standard : Exchange.standard.Lawful where
  read_compact _ := Json.read?_compact
  read_pretty _ := Json.read?_pretty
  word_ofText _ _ _ := rfl
  text_ofText _ := rfl
  natural_ofNat _ below := natBelow?_ofNat below le_rfl
  natural_lt _ _ := natBelow?_lt
  record_ofFields _ := Json.Record.ofJson?_ofFields false fun _ => List.mem_map_of_mem
  duration_toJson := Duration.ofJson?_toJson
  timeText_eq _ _ := rfl
  readTime_text f bounds := by
    rw [show standard.readTime = Timestamp.ofText? from rfl, Timestamp.ofText?_fields bounds]
  readTime_proper _ _ := Timestamp.proper_of_ofText?

/-- Counters in a list, with seconds in their nanoseconds and a leap second at an offset that is
in the year after. -/
def countersText : String :=
  "[3, [1, 2500000000], \x7b\"nanos\": 7, \"secs\": 0\x7d, 2, 1, " ++
    "\"2017-01-01t00:59:60.12345600+01:00\"]"

/-- The counters are written with the start in its own year and six places. An outcome may be the
key of an object, and states and ids may have escapes; they are written without. Everything is
read back from what is written. -/
theorem written_reads_back_of_forms :
    let x := Exchange.standard
    (∃ s : TickStats, x.decode? x.counters? countersText = some s ∧
        x.compact (x.ofCounters s) = "\x7b\"ticks\":3,\"last_tick_duration\":" ++
          "\x7b\"secs\":3,\"nanos\":500000000\x7d,\"last_cycle_delta\":" ++
          "\x7b\"secs\":0,\"nanos\":7\x7d,\"jobs_last_tick\":2,\"sub_cycles_last_tick\":1," ++
          "\"started_at\":\"2016-12-31T23:59:60.123456Z\"\x7d" ∧
        x.ReadsBack x.counters? x.ofCounters s ∧
        x.decode? x.counters? (x.pretty (x.ofCounters s)) = some s) ∧
      (x.decode? x.outcome? "\x7b \"detach\" : null \x7d" = some .detach ∧
        x.decode? x.outcome? (x.compact JobOutcome.detach.toJson) = some .detach ∧
        x.decode? x.outcome? (x.compact JobOutcome.abort.toJson) = some .abort) ∧
      (x.decode? x.schedulerState? "\"sto\\u0070ped\"" = some .stopped ∧
        x.decode? x.schedulerState? (x.compact SchedulerState.stopped.toJson) = some .stopped ∧
        x.decode? x.schedulerState? (x.pretty SchedulerState.idle.toJson) = some .idle) ∧
      (x.decode? x.engineState? " \"running\"" = some .running ∧
        x.decode? x.engineState? (x.compact EngineState.running.toJson) = some .running ∧
        x.decode? x.engineState? (x.pretty EngineState.stopped.toJson) = some .stopped) ∧
      (x.decode? x.jobId? "\"a\\/b\\u00e9\"" = some ⟨"a/bé"⟩ ∧
        x.decode? x.jobId? (x.compact (JobId.toJson ⟨"a/bé"⟩)) = some ⟨"a/bé"⟩ ∧
        x.decode? x.jobId? (x.pretty (JobId.toJson ⟨"\""⟩)) = some ⟨"\""⟩) ∧
      x.decode? x.loopId? "\"\\ud83d\\ude00\"" = some ⟨"😀"⟩ ∧
        x.decode? x.loopId? (x.compact (LoopId.toJson ⟨"😀"⟩)) = some ⟨"😀"⟩ ∧
        x.decode? x.loopId? (x.pretty (LoopId.toJson ⟨"\n"⟩)) = some ⟨"\n"⟩ := by
  intro x
  have written : (x.decode? x.counters? countersText).map (fun s => x.compact (x.ofCounters s)) =
      some ("\x7b\"ticks\":3,\"last_tick_duration\":" ++
        "\x7b\"secs\":3,\"nanos\":500000000\x7d,\"last_cycle_delta\":" ++
        "\x7b\"secs\":0,\"nanos\":7\x7d,\"jobs_last_tick\":2,\"sub_cycles_last_tick\":1," ++
        "\"started_at\":\"2016-12-31T23:59:60.123456Z\"\x7d") := by
    decide +kernel
  obtain ⟨s, read, compact⟩ := Option.map_eq_some_iff.1 written
  obtain ⟨⟨outcome, scheduler, engine, job, loop, counters⟩, outcomes, schedulers, engines, jobs,
    loops, normal⟩ := written_reads_back x Exchange.lawful_standard
  have fits : s.Fits := by
    obtain ⟨v, -, read⟩ := Option.bind_eq_some_iff.1 read
    exact Exchange.lawful_standard.fits read
  have compactly : x.compact ∈ [x.compact, x.pretty] := List.mem_cons_self
  have prettily : x.pretty ∈ [x.compact, x.pretty] := List.mem_cons_of_mem _ List.mem_cons_self
  refine ⟨⟨s, read, compact, counters s fits, (normal _ s read _ prettily).1⟩, ?_, ?_, ?_, ?_, ?_⟩
  · have detach : x.decode? x.outcome? "\x7b \"detach\" : null \x7d" = some .detach := by
      decide +kernel
    exact ⟨detach, (outcomes _ _ detach _ compactly).1, outcome .abort _ compactly⟩
  · have stopped : x.decode? x.schedulerState? "\"sto\\u0070ped\"" = some .stopped := by
      decide +kernel
    exact ⟨stopped, (schedulers _ _ stopped _ compactly).1, scheduler .idle _ prettily⟩
  · have running : x.decode? x.engineState? " \"running\"" = some .running := by decide +kernel
    exact ⟨running, (engines _ _ running _ compactly).1, engine .stopped _ prettily⟩
  · have escaped : x.decode? x.jobId? "\"a\\/b\\u00e9\"" = some ⟨"a/bé"⟩ := by decide +kernel
    exact ⟨escaped, (jobs _ _ escaped _ compactly).1, job _ _ prettily⟩
  · have halves : x.decode? x.loopId? "\"\\ud83d\\ude00\"" = some ⟨"😀"⟩ := by decide +kernel
    exact ⟨halves, (loops _ _ halves _ compactly).1, loop _ _ prettily⟩

end FrameLoop

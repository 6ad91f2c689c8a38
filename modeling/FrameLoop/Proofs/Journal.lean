import FrameLoop.Proofs.Run.Frame
import Mathlib.Data.List.ModifyLast

/-!
# The journal of a loop

A run says what happens; it does not say what a loop makes of it. This module
is the other side: what somebody writes down who watches one scheduler and
knows nothing of its driver. He sees when a tick starts and what is registered
then, which steps are handed out to be run, and, when one of them returns, how
it ended, who the job's children are at that instant and what the log is told
(`World.observe`). A return is written down only of a step that was handed out
and has not returned.

The journal is kept in the order of events, and two readings of it are used:

* `Journal.out`: the steps that are out, which is what the barrier is about;
* `Journal.ticks`: the same entries sorted by tick and wave, which is what the
  launch set of a tick and its faults are about.

Nothing here reads `Tick`, the driver's own record of the tick in flight. That
the two agree is a law, and it is in `Proofs.Journal.Agreement`.
-/

namespace FrameLoop

/-! ## Entries -/

/-- **A step that has returned**: whose it was, how it ended, who the job's
children were at that instant, and what the log was told at it. The name is
missing if the job is. -/
structure Return where
  job : JobRef
  name? : Option String
  verdict : Verdict
  children : List JobRef
  told : List Notice
deriving DecidableEq

namespace Return

/-- The name of the job. -/
def name (b : Return) : String := b.name?.getD ""

/-- The fault that the step made, if it made one. -/
def error? (b : Return) : Option SchedulerError := b.verdict.fault? b.name

/-- Whether the step made a fault. -/
def isFault (b : Return) : Bool := b.error?.isSome

end Return

/-- **What there is to write down.** -/
inductive Entry where
  /-- A tick starts, while these jobs are registered. -/
  | began (registry : List JobRef)
  /-- The steps of these jobs are handed out, as one wave. -/
  | launched (wave : List JobRef)
  /-- A step has returned. -/
  | returned (b : Return)
deriving DecidableEq

/-- **A journal**, the oldest entry first. -/
abbrev Journal := List Entry

/-- What is written down when these steps are handed out: handing out nothing
leaves no trace. -/
def Journal.handOut : List JobRef → Journal
  | [] => []
  | j :: rest => [.launched (j :: rest)]

/-- Only a wave is handed out. -/
theorem Journal.mem_handOut {wave : List JobRef} {x : Entry} (h : x ∈ handOut wave) :
    x = .launched wave := by
  cases wave with
  | nil => cases h
  | cons j rest => exact List.mem_singleton.1 h

/-! ## What is out -/

/-- The steps that are out after an entry, given those before it. -/
def Entry.out (out : List JobRef) : Entry → List JobRef
  | .began _ => out
  | .launched wave => out ++ wave
  | .returned b => out.erase b.job

/-- **The steps that are out**, each by its job. -/
def Journal.out (J : Journal) : List JobRef := J.foldl Entry.out []

@[simp] theorem Journal.out_concat (J : Journal) (e : Entry) :
    Journal.out (J ++ [e]) = e.out (Journal.out J) := by
  simp [Journal.out, List.foldl_append]

/-! ## Ticks and waves -/

/-- **A wave**: the steps that were launched together, and those that have
returned, in the order in which they did. -/
structure Wave where
  launched : List JobRef
  returns : List Return := []
deriving DecidableEq

namespace Wave

/-- Whether a step of the wave has made a fault. -/
def faulty (c : Wave) : Bool := c.returns.any (·.isFault)

/-- One more step has returned. -/
def settle (b : Return) (c : Wave) : Wave := { c with returns := c.returns ++ [b] }

/-- **Every step of the wave has returned**, once. -/
def Drained (c : Wave) : Prop := (c.returns.map (·.job)).Perm c.launched

/-- A job is due after the wave if it was a child of one of its jobs, at the
instant at which that job's step returned without a fault. -/
def Leads (c : Wave) (j : JobRef) : Prop :=
  ∃ b ∈ c.returns, b.isFault = false ∧ j ∈ b.children

end Wave

/-- **A tick**: what was registered when it started, and its waves. -/
structure TickRecord where
  registry : List JobRef
  waves : List Wave := []
deriving DecidableEq

namespace TickRecord

/-- One more wave has been launched. -/
def launch (wave : List JobRef) (t : TickRecord) : TickRecord :=
  { t with waves := t.waves ++ [{ launched := wave }] }

/-- A step of the last wave has returned. -/
def settle (b : Return) (t : TickRecord) : TickRecord :=
  { t with waves := t.waves.modifyLast (Wave.settle b) }

/-- What was launched in the `k`-th wave, counted from zero; nothing if there
was none. -/
def launchedAt (t : TickRecord) (k : Nat) : List JobRef :=
  ((t.waves[k]?).map (·.launched)).getD []

/-- Everything that was launched, wave by wave. -/
def launched (t : TickRecord) : List JobRef := t.waves.flatMap (·.launched)

/-- All steps that have returned, in the order in which they did. -/
def returns (t : TickRecord) : List Return := t.waves.flatMap (·.returns)

/-- The first return that is a fault. -/
def firstFault? (t : TickRecord) : Option Return := t.returns.find? (·.isFault)

/-- Whether a step of the tick has made a fault. -/
def faulty (t : TickRecord) : Bool := t.firstFault?.isSome

end TickRecord

/-- Where an entry goes. -/
def Entry.sort (ticks : List TickRecord) : Entry → List TickRecord
  | .began registry => ticks ++ [{ registry }]
  | .launched wave => ticks.modifyLast (TickRecord.launch wave)
  | .returned b => ticks.modifyLast (TickRecord.settle b)

/-- **The journal by ticks and waves**, the first tick first. -/
def Journal.ticks (J : Journal) : List TickRecord := J.foldl Entry.sort []

@[simp] theorem Journal.ticks_concat (J : Journal) (e : Entry) :
    Journal.ticks (J ++ [e]) = e.sort (Journal.ticks J) := by
  simp [Journal.ticks, List.foldl_append]

/-- A return goes to the last tick. -/
theorem Journal.ticks_returned {J : Journal} {past : List TickRecord} {t : TickRecord}
    (last : Journal.ticks J = past ++ [t]) (b : Return) :
    Journal.ticks (J ++ [.returned b]) = past ++ [t.settle b] := by
  rw [ticks_concat, last, Entry.sort, List.modifyLast_concat]

/-! ## Watching -/

namespace World

/-- Whether a driver that looks up now starts a tick: it waits for a wake-up,
it sees no request to stop, and the source has a reading that the pacer makes
a tick of. -/
def startsTick (w : World) (r : SchedulerRef) : Bool :=
  match (w.scheduler r).driver with
  | .waiting loop =>
    !(w.scheduler r).seesStop loop &&
      match (loop.source.next w.feeds (loop.askedAt w.clock)).1 with
      | .reading t => (loop.pacer.evaluate t (w.scheduler r).frameDelay).1
      | .pending | .exhausted | .broken _ => false
  | .absent | .ticking .. | .ended => false

/-- What is seen of an event before it can launch anything. `J` is what has
been written down so far: a step returns only if it is out. -/
def notice (w : World) (r : SchedulerRef) (J : Journal) (e : Event) : Journal :=
  match e with
  | .poll k => if k = r ∧ w.startsTick r then [.began (w.scheduler r).registry] else []
  | .returned k j v =>
    if k = r ∧ j ∈ J.out then
      [.returned
        { job := j
          name? := (w.forest.node? j).map (·.name)
          verdict := v
          children := w.forest.children j
          told := (w.step e).2.notices.drop w.notices.length }]
    else []
  | _ => []

/-- **What somebody who watches a scheduler writes down of an event.** -/
def observe (w : World) (r : SchedulerRef) (J : Journal) (e : Event) : Journal :=
  w.notice r J e ++ if e.drives r then Journal.handOut (w.step e).1 else []

section

variable (w : World) (r : SchedulerRef) (J : Journal) (e : Event)

/-- **What is noticed of an event**: nothing, that a tick begins, or that a step that was
out returns. -/
theorem notice_cases :
    w.notice r J e = [] ∨
      (e = .poll r ∧ w.startsTick r = true ∧
        w.notice r J e = [.began (w.scheduler r).registry]) ∨
      ∃ b v, e = .returned r b.job v ∧ b.job ∈ J.out ∧ w.notice r J e = [.returned b] := by
  cases e with
  | poll k =>
    by_cases seen : k = r ∧ w.startsTick r = true
    · exact .inr (.inl ⟨congrArg Event.poll seen.1, seen.2, if_pos seen⟩)
    · exact .inl (if_neg seen)
  | returned k j v =>
    by_cases seen : k = r ∧ j ∈ J.out
    · exact .inr (.inr ⟨_, v, by rw [seen.1], seen.2, if_pos seen⟩)
    · exact .inl (if_neg seen)
  | _ => exact .inl rfl

/-- Behind it stands a wave that is handed out, or nothing. -/
theorem exists_wave : ∃ wave, w.observe r J e = w.notice r J e ++ Journal.handOut wave := by
  unfold observe
  split
  · exact ⟨_, rfl⟩
  · exact ⟨[], rfl⟩

end

/-- **What is seen of an event**, entry by entry. -/
theorem mem_observe {w : World} {r : SchedulerRef} {J : Journal} {e : Event} {x : Entry}
    (seen : x ∈ w.observe r J e) :
    (e = .poll r ∧ w.startsTick r = true ∧ x = .began (w.scheduler r).registry) ∨
      (∃ b v, e = .returned r b.job v ∧ b.job ∈ J.out ∧ x = .returned b) ∨
        ∃ wave, x = .launched wave := by
  obtain ⟨wave, split⟩ := w.exists_wave r J e
  rw [split, List.mem_append] at seen
  obtain noticed | handed := seen
  · obtain none | ⟨isPoll, starts, began⟩ | ⟨b, v, isReturn, out, returned⟩ :=
      w.notice_cases r J e
    · rw [none] at noticed
      cases noticed
    · rw [began] at noticed
      exact .inl ⟨isPoll, starts, List.mem_singleton.1 noticed⟩
    · rw [returned] at noticed
      exact .inr (.inl ⟨b, v, isReturn, out, List.mem_singleton.1 noticed⟩)
  · exact .inr (.inr ⟨wave, Journal.mem_handOut handed⟩)

/-- A world and what has been written down about one of its schedulers. -/
structure Watch where
  world : World := {}
  journal : Journal := []

/-- One more event. -/
def Watch.next (r : SchedulerRef) (x : Watch) (e : Event) : Watch where
  world := (x.world.step e).2
  journal := x.journal ++ x.world.observe r x.journal e

/-- **A run that is watched**, from nothing. -/
def watch (r : SchedulerRef) (es : List Event) : Watch := es.foldl (Watch.next r) {}

/-- **The journal of a scheduler after a run.** -/
def journal (r : SchedulerRef) (es : List Event) : Journal := (watch r es).journal

@[simp] theorem watch_concat (r : SchedulerRef) (es : List Event) (e : Event) :
    watch r (es ++ [e]) = (watch r es).next r e := by
  simp [watch, List.foldl_append]

/-- Watching changes nothing. -/
@[simp] theorem world_watch (r : SchedulerRef) (es : List Event) : (watch r es).world = run es := by
  induction es using List.reverseRecOn with
  | nil => rfl
  | append_singleton es e ih => rw [watch_concat, run_concat, ← ih]; rfl

@[simp] theorem journal_nil (r : SchedulerRef) : journal r [] = [] := rfl

/-- What one more event adds to the journal. -/
theorem journal_concat (r : SchedulerRef) (es : List Event) (e : Event) :
    journal r (es ++ [e]) = journal r es ++ (run es).observe r (journal r es) e := by
  rw [journal, watch_concat, ← world_watch r es]
  rfl

/-- A journal is only ever added to. -/
theorem journal_append (r : SchedulerRef) (es more : List Event) :
    ∃ added, journal r (es ++ more) = journal r es ++ added := by
  induction more using List.reverseRecOn with
  | nil => exact ⟨[], by simp⟩
  | append_singleton more e ih =>
    obtain ⟨added, h⟩ := ih
    exact ⟨_, by rw [← List.append_assoc, journal_concat, h, List.append_assoc]⟩

/-- **What holds of the world and the journal at first and is kept by every
event holds after every run.** -/
theorem watch_keeps {r : SchedulerRef} {P : World → Journal → Prop} (start : P {} [])
    (keep : ∀ w J e, P w J → P (w.step e).2 (J ++ w.observe r J e)) (es : List Event) :
    P (run es) (journal r es) := by
  induction es using List.reverseRecOn with
  | nil => exact start
  | append_singleton es e ih => rw [run_concat, journal_concat]; exact keep _ _ e ih

end World

end FrameLoop

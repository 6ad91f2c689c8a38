import FrameLoop.Proofs.Journal.Agreement
import FrameLoop.Proofs.Run.Held

/-!
# What is written down of a step that returns

A step that makes a fault is to blame for it by name: `Return.Blames` says which
error that is. The log is told of each fault as it happens, of the first one of
a tick in one way and of the later ones in another (`Return.Reported`). Whoever
is out is there, so the name is never missing.
-/

namespace FrameLoop

namespace Return

/-- **The error that a fault makes**: it names the job, and an error or a panic
comes along whole. -/
inductive Blames (b : Return) : SchedulerError → Prop where
  | aborted {name : String} (named : b.name? = some name)
    (verdict : b.verdict = .outcome .abort) : Blames b (.jobAborted name)
  | failed {name : String} {cause : Cause} (named : b.name? = some name)
    (verdict : b.verdict = .failed cause) : Blames b (.jobFailed name cause)
  | panicked {name : String} {p : Panic} (named : b.name? = some name)
    (verdict : b.verdict = .panicked p) : Blames b (.jobPanicked name p.message)

/-- The error carries the messages of the step's own error, all of them and in
their order. -/
theorem Blames.chain {b : Return} {e : SchedulerError} (h : b.Blames e) {cause : Cause}
    (failed : b.verdict = .failed cause) : e.chain = cause.chain := by
  cases h with
  | aborted _ verdict => rw [verdict] at failed; cases failed
  | failed _ verdict => rw [verdict] at failed; cases failed; rfl
  | panicked _ verdict => rw [verdict] at failed; cases failed

/-- What the log is to be told of a fault, given the steps of the tick that have
returned before. -/
def notice (earlier : List Return) (b : Return) (e : SchedulerError) : Notice :=
  if earlier.any (·.isFault) then .additionalFault b.name e else .jobFault b.name e

/-- **The job has a name, and the log was told** if the step made a fault. -/
structure Reported (earlier : List Return) (b : Return) : Prop where
  named : ∃ name, b.name? = some name
  told : ∀ e, b.error? = some e → b.notice earlier e ∈ b.told

/-- A fault of a job with a name is blamed on it. -/
theorem Reported.blames {earlier : List Return} {b : Return} (h : b.Reported earlier)
    {e : SchedulerError} (error : b.error? = some e) : b.Blames e := by
  obtain ⟨name, named⟩ := h.named
  have known : b.name = name := by rw [Return.name, named]; rfl
  rw [Return.error?, known] at error
  cases verdict : b.verdict with
  | outcome o =>
    rw [verdict] at error
    cases o with
    | abort => cases error; exact .aborted named verdict
    | resume | detach => cases error
  | failed cause => rw [verdict] at error; cases error; exact .failed named verdict
  | panicked p => rw [verdict] at error; cases error; exact .panicked named verdict

end Return

/-- Every step of a tick that has returned is reported. -/
def TickRecord.Reported (t : TickRecord) : Prop :=
  ∀ pre b post, t.returns = pre ++ b :: post → b.Reported pre

/-- A tick that has only begun has nothing to report. -/
theorem TickRecord.reported_began (registry : List JobRef) : Reported { registry } := by
  intro pre b post split
  simp [returns] at split

theorem TickRecord.Reported.launch {t : TickRecord} (h : t.Reported) (wave : List JobRef) :
    (t.launch wave).Reported := by
  intro pre b post split
  rw [returns_launch] at split
  exact h pre b post split

/-- One more step that is reported keeps a tick reported. -/
theorem TickRecord.Reported.settle {t : TickRecord} (h : t.Reported) {b : Return}
    (reported : b.Reported t.returns) : (t.settle b).Reported := by
  intro pre d post split
  by_cases none : t.waves = []
  · rw [settle_of_nil none] at split
    exact h pre d post split
  · rw [returns_settle none] at split
    obtain ⟨rfl, rfl, -⟩ | ⟨rest, -, earlier⟩ := split_concat split.symm
    · exact reported
    · exact h pre d rest earlier

/-! ## The log is told -/

/-- A tick is faulty if a step that has returned is a fault. -/
theorem TickRecord.faulty_eq_any (t : TickRecord) : t.faulty = t.returns.any (·.isFault) := by
  rw [faulty, firstFault?, Bool.eq_iff_iff, List.find?_isSome, List.any_eq_true]

/-- **What the driver tells of a fault is what is to be told.** -/
theorem Tick.Tracks.notice_mem {k : Tick} {t : TickRecord} (h : k.Tracks t) {b : Return}
    {e : SchedulerError} (error : b.error? = some e) :
    b.notice t.returns e ∈ Scheduler.tellsOf k b.name b.verdict := by
  have same : Scheduler.faultNotice k b.name e = b.notice t.returns e := by
    rw [Scheduler.faultNotice, Return.notice, ← t.faulty_eq_any, h.faulty]
    cases k.fault <;> rfl
  rw [Return.error?] at error
  rw [← same]
  cases verdict : b.verdict with
  | outcome o =>
    rw [verdict] at error
    cases o with
    | abort => simp [Scheduler.tellsOf, error]
    | resume | detach => cases error
  | failed cause => rw [verdict] at error; simp [Scheduler.tellsOf, error]
  | panicked p => rw [verdict] at error; simp [Scheduler.tellsOf, error]

namespace World

variable {w : World} {r : SchedulerRef} {J : Journal}

/-- **Whoever is out is there.** -/
theorem has_of_out (held : w.Held) (agrees : (w.scheduler r).Agrees J) {j : JobRef}
    (out : j ∈ J.out) : w.forest.has j = true := by
  obtain ⟨loop, k, past, t, driver, pending, tracks, -⟩ := agrees.ticking_of_out out
  obtain none | ⟨cs, c, waves⟩ := t.waves_cases
  · exact absurd none (tracks.waves_ne_nil (List.ne_nil_of_mem pending))
  · have running : j ∈ c.launched :=
      (tracks.pending_last waves).subset (List.mem_append_right _ pending)
    refine held.there r j ?_
    rw [Scheduler.holds_of_ticking driver, Tick.holds, tracks.waves, waves]
    simp [running]

/-- **A step that returns is reported.** -/
theorem reported_returnOf (held : w.Held) (agrees : (w.scheduler r).Agrees J) {j : JobRef}
    (v : Verdict) (out : j ∈ J.out) {past : List TickRecord} {t : TickRecord}
    (last : J.ticks = past ++ [t]) : (w.returnOf r j v).Reported t.returns := by
  obtain ⟨loop, k, before, u, driver, pending, tracks, now⟩ := agrees.ticking_of_out out
  obtain ⟨-, rfl⟩ := List.append_singleton_inj.1 (now.symm.trans last)
  constructor
  · obtain ⟨n, found⟩ := Option.isSome_iff_exists.1 (has_of_out held agrees out)
    exact ⟨n.name, by rw [returnOf, found]; rfl⟩
  · intro e error
    have told : (w.returnOf r j v).told =
        Scheduler.tellsOf k (w.forest.name j) v ++ (w.settle r j v).notices.drop
          (Scheduler.tellsOf k (w.forest.name j) v).length := by
      rw [returnOf, settle, Scheduler.returned_of_pending driver pending]
      simp
    rw [told]
    exact List.mem_append_left _ (tracks.notice_mem error)

end World

end FrameLoop

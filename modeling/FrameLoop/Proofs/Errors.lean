import FrameLoop.Proofs.Forest.Acyclic
import FrameLoop.Proofs.Journal.Order
import FrameLoop.Proofs.Journal.Turns
import FrameLoop.Proofs.Tick.LaunchSet

/-!
# Two kinds of errors

An error goes back to the caller of an operation, or it ends a loop and goes to everybody
who waits for the end. The two kinds never meet (`errors_apart`).

The first kind says that an operation was refused. There are three reasons for it
(`World.Refused`), and a refusal comes before anything has been changed: schedulers and
links are what they were. For taking a job out this rests on the links of the forest. A job
that has a parent is among its parent's children, so it can be taken from there; what is
refused is a job that has no parent and is not registered either.

The second kind is settled at the end of a loop. A loop that gives up between two ticks has
nobody to blame but itself. One that ends with a tick has the error of a step of that tick,
and the error bears the name of the job (`Blamed`).

**What this does not say.** A loop that is refused its start lets go of the source that it
was given, and with it the source's feed is closed; that is not undone.
-/

namespace FrameLoop

open Scheduler (TickTurn)

/-- The error of an answer, if it is one. -/
def refused? {α : Type} : Except SchedulerError α → Option SchedulerError
  | .ok _ => none
  | .error e => some e

/-- The error of a scheduler with which a call on an engine is over, if it is one. -/
def Engine.Progress.refused? : Engine.Progress → Option SchedulerError
  | .done (.failed err) => err.inner?
  | _ => none

/-! ## Taking a job out -/

namespace Scheduler

/-- **A job that has no parent and is not registered cannot be taken out**, and nothing
is written for it. -/
theorem remove_absent {s : Scheduler} {f : Forest} {j : JobRef} (top : f.parent j = none)
    (absent : j ∉ s.registry) : s.remove f j = (false, s, f) := by
  unfold remove unregister
  rw [top]
  dsimp only
  rw [if_neg absent]

/-- **Nothing else cannot be taken out.** -/
theorem absent_of_remove {s : Scheduler} {f : Forest} (linked : f.Linked) {j : JobRef}
    (kept : (s.remove f j).1 = false) : f.parent j = none ∧ j ∉ s.registry := by
  unfold remove at kept
  split at kept
  · next p parent =>
    -- The child of a parent is found there.
    have child := (linked.mem_children p j).2 parent
    unfold Forest.erase at kept
    rw [if_pos child] at kept
    cases kept
  · next top =>
    refine ⟨top, ?_⟩
    intro registered
    unfold unregister at kept
    rw [if_pos registered] at kept
    cases kept

end Scheduler

/-- The one error of an attachment. -/
theorem Forest.attach_error {f : Forest} {p c : JobRef} {err : SchedulerError}
    (h : f.attach p c = .error err) : err = .cyclicDependency (f.name c) := by
  cases h ▸ f.attaches p c
  rfl

namespace World

variable {w : World} {r : SchedulerRef} {J : Journal}

/-! ## Refusals -/

/-- **The error that goes back to the caller** of what happens, if it is refused by a
scheduler or by a job. -/
def refusal (w : World) : Event → Option SchedulerError
  | .attach p c => refused? (w.attach p c).1
  | .unschedule id r j => refused? (w.unschedule id r j).1
  | .start r source => refused? (w.start r source).1
  | .startEngine n source => (w.startEngine n source).1.refused?
  | _ => none

/-- **Why an operation is refused**, and with which error. -/
inductive Refused (w : World) : Event → SchedulerError → Prop where
  /-- A job would come beneath itself. -/
  | cyclic {p c : JobRef} (within : w.forest.Within p c) :
    Refused w (.attach p c) (.cyclicDependency (w.forest.name c))
  /-- There is nowhere to take the job from. -/
  | notFound {id : JobId} {r : SchedulerRef} {j : JobRef} (top : w.forest.parent j = none)
    (absent : j ∉ (w.scheduler r).registry) : Refused w (.unschedule id r j) (.jobNotFound id)
  | started {r : SchedulerRef} {source : Source} (busy : (w.scheduler r).state ≠ .idle) :
    Refused w (.start r source) .alreadyStarted
  | engineStarted {n : EngineRef} {source : Source}
    (busy : (w.scheduler (w.engine n).scheduler).state ≠ .idle) :
    Refused w (.startEngine n source) .alreadyStarted

/-- An engine whose scheduler starts is not refused. -/
theorem startEngine_of_idle {n : EngineRef} (source : Source)
    (idle : (w.scheduler (w.engine n).scheduler).state = .idle) :
    w.refusal (.startEngine n source) = none := by
  have starts : (w.start (w.engine n).scheduler source).1 = .ok () := by rw [starts_of_idle idle]
  show (w.startEngine n source).1.refused? = none
  unfold startEngine
  split
  · next failed =>
    rw [failed] at starts
    cases starts
  · dsimp only
    unfold startNext
    split <;> rfl

/-- **The reasons are all there are.** -/
theorem refused_of_refusal (linked : w.forest.Linked) (acyclic : w.forest.Acyclic) {e : Event}
    {err : SchedulerError} (h : w.refusal e = some err) : Refused w e err := by
  cases e with
  | attach p c =>
    unfold refusal attach at h
    dsimp only at h
    split at h
    · cases h
    · next d failed =>
      obtain rfl : d = err := Option.some.inj h
      obtain rfl := Forest.attach_error failed
      exact .cyclic ((acyclic.attach_refused p c).1 failed)
  | unschedule id r j =>
    unfold refusal unschedule at h
    dsimp only at h
    split at h
    · cases h
    · next kept =>
      cases h
      obtain ⟨top, absent⟩ := Scheduler.absent_of_remove linked (by simpa using kept)
      exact .notFound top absent
  | start r source =>
    by_cases idle : (w.scheduler r).state = .idle
    · rw [refusal, starts_of_idle idle] at h
      cases h
    · rw [refusal, start_of_busy idle] at h
      cases h
      exact .started idle
  | startEngine n source =>
    by_cases idle : (w.scheduler (w.engine n).scheduler).state = .idle
    · rw [startEngine_of_idle source idle] at h
      cases h
    · rw [refusal, startEngine_of_busy idle] at h
      cases h
      exact .engineStarted idle
  | _ => cases h

namespace Refused

variable {e : Event} {err : SchedulerError}

/-- A refusal is no end of a loop. -/
theorem isFatal (h : Refused w e err) : err.isFatal = false := by
  cases h <;> rfl

/-- **What is refused changes no scheduler and no link.** -/
theorem unchanged (h : Refused w e err) (acyclic : w.forest.Acyclic) :
    (w.step e).2.schedulers = w.schedulers ∧ (w.step e).2.forest = w.forest := by
  unfold step
  split
  · cases h with
    | @cyclic p c within =>
      rw [act, attach, (acyclic.attach_refused p c).2 within]
      exact ⟨rfl, rfl⟩
    | @notFound id r j top absent =>
      rw [act, unschedule, Scheduler.remove_absent top absent]
      exact ⟨rfl, rfl⟩
    | started busy =>
      rw [act, start_of_busy busy]
      exact ⟨w.schedulers_dropSource _, w.forest_dropSource _⟩
    | engineStarted busy =>
      rw [act, startEngine_of_busy busy]
      exact ⟨w.schedulers_dropSource _, w.forest_dropSource _⟩
  · exact ⟨rfl, rfl⟩

end Refused

/-! ## Where a return comes from -/

/-- A return that is noticed is that of a step that was out. -/
theorem returned_mem_observe (agrees : (w.scheduler r).Agrees J) {e : Event} {b : Return}
    (seen : Entry.returned b ∈ w.observe r J e) :
    ∃ j v, e = .returned r j v ∧ j ∈ J.out ∧ b = w.returnOf r j v := by
  obtain ⟨-, -, ⟨⟩⟩ | ⟨b, v, rfl, out, ⟨⟩⟩ | ⟨_, ⟨⟩⟩ := mem_observe seen
  refine ⟨b.job, v, rfl, out, ?_⟩
  rw [observe_returned (step_of_out agrees out v), if_pos out, List.mem_append] at seen
  obtain noticed | handed := seen
  · exact Entry.returned.inj (List.mem_singleton.1 noticed)
  · cases Journal.mem_handOut handed

/-- **Every return in a journal is that of a step that was out.** -/
theorem returned_mem_journal {es : List Event} {b : Return}
    (seen : Entry.returned b ∈ journal r es) :
    ∃ pre j v post, es = pre ++ .returned r j v :: post ∧ j ∈ (journal r pre).out ∧
      b = (run pre).returnOf r j v := by
  induction es using List.reverseRecOn with
  | nil => cases seen
  | append_singleton es e ih =>
    rw [journal_concat, List.mem_append] at seen
    rcases seen with before | now
    · obtain ⟨pre, j, v, post, rfl, out, same⟩ := ih before
      exact ⟨pre, j, v, post ++ [e], by simp, out, same⟩
    · obtain ⟨j, v, rfl, out, same⟩ := returned_mem_observe (agrees_run es r) now
      exact ⟨es, j, v, [], rfl, out, same⟩

/-- What has returned in a tick is in the journal. -/
theorem returned_mem_of_ticks {t : TickRecord} (ht : t ∈ Journal.ticks J) {b : Return}
    (hb : b ∈ t.returns) : Entry.returned b ∈ J := by
  induction J using List.reverseRecOn generalizing t with
  | nil => cases ht
  | append_singleton J e ih =>
    rw [List.mem_append, List.mem_singleton]
    obtain ⟨registry, -, after⟩ | ⟨-, after⟩ | ⟨past, u, u', last, grows, after⟩ :=
      Journal.ticks_concat_cases J e
    · rw [after, List.mem_append, List.mem_singleton] at ht
      rcases ht with old | rfl
      · exact .inl (ih old hb)
      · cases hb
    · rw [after] at ht
      cases ht
    · rw [after, List.mem_append, List.mem_singleton] at ht
      rcases ht with old | rfl
      · exact .inl (ih (by rw [last]; exact List.mem_append_left _ old) hb)
      · have mine : u ∈ Journal.ticks J := by rw [last]; simp
        cases grows with
        | launched wave =>
          rw [TickRecord.returns_launch] at hb
          exact .inl (ih mine hb)
        | returned d =>
          by_cases none : u.waves = []
          · rw [TickRecord.settle_of_nil none] at hb
            exact .inl (ih mine hb)
          · rw [TickRecord.returns_settle none, List.mem_append, List.mem_singleton] at hb
            rcases hb with earlier | rfl
            · exact .inl (ih mine earlier)
            · exact .inr rfl

/-- Who has returned in a tick was launched in it. -/
theorem launched_of_returned {es : List Event} {before after : List TickRecord} {t : TickRecord}
    (split : (journal r es).ticks = before ++ t :: after) {b : Return} (hb : b ∈ t.returns) :
    b.job ∈ t.launched := by
  have job : b.job ∈ t.returns.map (·.job) := List.mem_map_of_mem hb
  obtain ⟨-, -, ⟨spent, -⟩ | ⟨-, loop, k, -, tracks, -⟩⟩ := tick_cases r es split
  · exact (TickRecord.returned_perm spent.1).subset job
  · exact tracks.pending.subset (List.mem_append_left _ job)

end World

/-! ## The end of a loop -/

/-- **An error with which a loop may end**, given what has been written down of it: its
own, or that of the step of the last tick that made its fault first. -/
inductive Journal.Ends (J : Journal) (err : SchedulerError) : Prop where
  | alone (internal : err.isInternal = true)
  | step {past : List TickRecord} {t : TickRecord} {b : Return} (last : J.ticks = past ++ [t])
    (first : t.firstFault? = some b) (error : b.error? = some err)

/-- **A turn settles no other error.** -/
theorem Scheduler.TickTurn.fault {s s' : Scheduler} {J J' : Journal} (h : TickTurn s J s' J')
    (before : ∀ err, s.outcome = some (.faulted err) → J.Ends err) {err : SchedulerError}
    (settled : s'.outcome = some (.faulted err)) : J'.Ends err := by
  cases h with
  | rests ticks _ _ outcome =>
    cases before err (outcome.symm.trans settled) with
    | alone internal => exact .alone internal
    | step last first error => exact .step (ticks.trans last) first error
  | ends exit blameless _ _ _ _ outcome =>
    cases exit with
    | stopped | exhausted => cases outcome.symm.trans settled
    | faulted e =>
      cases outcome.symm.trans settled
      exact .alone (blameless _ rfl)
  | runs _ _ _ outcome => cases outcome.symm.trans settled
  | drains ticks _ _ _ _ _ outcome =>
    obtain ⟨e, fault, same⟩ := Option.map_eq_some_iff.1 (outcome.symm.trans settled)
    cases same
    obtain ⟨b, first, error⟩ := Option.bind_eq_some_iff.1 fault
    exact .step ticks first error

namespace World

/-- **After every run a settled error has its cause.** -/
theorem ends_run (r : SchedulerRef) (es : List Event) :
    ∀ err, ((run es).scheduler r).outcome = some (.faulted err) → (journal r es).Ends err := by
  induction es using List.reverseRecOn with
  | nil =>
    intro err settled
    cases settled
  | append_singleton es e ih => exact fun err settled => (tickTurn_concat r es e).fault ih settled

/-- **A job is to blame for an error**: its step was launched in the last tick of the loop,
was out, and has returned with that error, which names the job. -/
structure Blamed (r : SchedulerRef) (es : List Event) (err : SchedulerError) (j : JobRef) :
    Prop where
  launched : ∃ past t, (journal r es).ticks = past ++ [t] ∧ j ∈ t.launched
  returned : ∃ pre v post, es = pre ++ .returned r j v :: post ∧ j ∈ (journal r pre).out ∧
    (run pre).forest.has j = true ∧ v.fault? ((run pre).forest.name j) = some err ∧
    err.jobName? = some ((run pre).forest.name j)

/-- The error of a fault names the job. -/
theorem jobName_of_fault {v : Verdict} {name : String} {err : SchedulerError}
    (h : v.fault? name = some err) : err.jobName? = some name := by
  cases v with
  | outcome o =>
    cases o with
    | abort => cases h; rfl
    | resume | detach => cases h
  | failed cause => cases h; rfl
  | panicked p => cases h; rfl

theorem blamed_of_step {r : SchedulerRef} {es : List Event} {past : List TickRecord}
    {t : TickRecord} {b : Return} {err : SchedulerError}
    (last : (journal r es).ticks = past ++ [t]) (first : t.firstFault? = some b)
    (error : b.error? = some err) : Blamed r es err b.job := by
  have hb : b ∈ t.returns := List.mem_of_find?_eq_some first
  have seen := returned_mem_of_ticks (by rw [last]; simp : t ∈ (journal r es).ticks) hb
  obtain ⟨pre, j, v, post, here, out, rfl⟩ := returned_mem_journal seen
  have fault : v.fault? ((run pre).forest.name j) = some err := error
  exact
    { launched := ⟨past, t, last, launched_of_returned last hb⟩
      returned := ⟨pre, v, post, here, out, has_of_out (held_run pre) (agrees_run pre r) out,
        fault, jobName_of_fault fault⟩ }

/-- **Local and fatal errors never mix.** Of every run:

* an error that goes back to the caller of an operation is not fatal, and has one of the
  reasons there are; the operation has left every scheduler as it was, with its state,
  registry, counters and outcome, and every link of the forest;
* an error that is settled as the outcome of a loop is fatal, and is the loop's own or that
  of a job that was launched in its last tick, by name. -/
theorem errors_apart (es : List Event) :
    (∀ e err, (run es).refusal e = some err →
      err.isFatal = false ∧ Refused (run es) e err ∧
        (run (es ++ [e])).schedulers = (run es).schedulers ∧
        (run (es ++ [e])).forest = (run es).forest) ∧
      ∀ r err, ((run es).scheduler r).outcome = some (.faulted err) →
        err.isFatal = true ∧ ((∃ message, err = .internal message) ∨ ∃ j, Blamed r es err j) := by
  constructor
  · intro e err refusal
    have refused := refused_of_refusal (held_run es).linked (acyclic_run es) refusal
    rw [run_concat]
    exact ⟨refused.isFatal, refused, refused.unchanged (acyclic_run es)⟩
  · intro r err settled
    cases ends_run r es err settled with
    | alone internal =>
      refine ⟨by rw [SchedulerError.isFatal, internal, Bool.or_true], .inl ?_⟩
      cases err with
      | internal message => exact ⟨message, rfl⟩
      | _ => cases internal
    | step last first error =>
      have blamed := blamed_of_step last first error
      obtain ⟨pre, v, post, -, -, -, -, named⟩ := blamed.returned
      exact ⟨by rw [SchedulerError.isFatal, named]; rfl, .inr ⟨_, blamed⟩⟩

/-- A tick is in flight whose job has a child, beside a job that is registered nowhere and a
feed and an engine that are not in use. -/
def strictRun : List Event :=
  [.newJob "parent", .newJob "child", .newJob "stray", .attach 0 1,
    .newScheduler ⟨"loop"⟩ .zero .zero, .newEngine 0, .newFeed, .schedule 0 0,
    .start 0 (.script [.reading ⟨0⟩, .reading ⟨1⟩]), .poll 0]

/-- Four operations that are refused now. -/
def strictCalls : List (Event × SchedulerError) :=
  [(.attach 1 0, .cyclicDependency "parent"), (.unschedule ⟨"id"⟩ 0 2, .jobNotFound ⟨"id"⟩),
    (.start 0 (.manual 0), .alreadyStarted), (.startEngine 0 (.manual 0), .alreadyStarted)]

/-- The tick goes on, and the child fails. -/
def strictEnd : List Event :=
  [.returned 0 0 (.outcome .resume), .returned 0 1 (.failed ⟨"broken", []⟩)]

/-- None of the four has changed anything, and the loop ends with the error of the child. -/
theorem errors_apart_of_strictRun :
    (∀ c ∈ strictCalls, (run strictRun).refusal c.1 = some c.2 ∧ c.2.isFatal = false ∧
      (run (strictRun ++ [c.1])).schedulers = (run strictRun).schedulers ∧
      (run (strictRun ++ [c.1])).forest = (run strictRun).forest) ∧
      ((run (strictRun ++ strictEnd)).scheduler 0).outcome =
        some (.faulted (.jobFailed "child" ⟨"broken", []⟩)) ∧
      ∃ j, Blamed 0 (strictRun ++ strictEnd) (.jobFailed "child" ⟨"broken", []⟩) j := by
  have settled : ((run (strictRun ++ strictEnd)).scheduler 0).outcome =
      some (.faulted (.jobFailed "child" ⟨"broken", []⟩)) := by
    decide
  refine ⟨?_, settled, ?_⟩
  · intro c hc
    have refusal : ∀ c ∈ strictCalls, (run strictRun).refusal c.1 = some c.2 := by decide
    obtain ⟨harmless, -, kept⟩ := (errors_apart strictRun).1 c.1 c.2 (refusal c hc)
    exact ⟨refusal c hc, harmless, kept⟩
  · obtain ⟨-, alone | blamed⟩ := (errors_apart (strictRun ++ strictEnd)).2 0 _ settled
    · obtain ⟨message, other⟩ := alone
      cases other
    · exact blamed

end World

end FrameLoop

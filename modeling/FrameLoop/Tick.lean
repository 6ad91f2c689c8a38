import FrameLoop.Forest
import FrameLoop.Lifecycle

/-!
# One tick

A tick runs jobs in waves. The first wave is what is registered when the tick
starts; each later wave is what was found below the jobs of the wave before,
as each of them returned. A job runs at most once a tick, so a wave leaves out
what has been launched already, and a wave waits until everything in the one
before has returned.

A `Tick` is the tick in flight: the waves launched so far, who of the last one
is still out, what has been found for the next one, and the first fault. The
launched waves are kept, all of them, because they *are* what the tick has
done: who may still be launched, how many steps there were and how many
sub-cycles are read off them.
-/

namespace FrameLoop

/-- **How a step ended.** -/
inductive Verdict where
  | outcome (o : JobOutcome)
  | failed (cause : Cause)
  | panicked (p : Panic)
deriving DecidableEq, Inhabited, Repr

/-- The fault that a step of the job `name` makes by ending so, if it is one. -/
def Verdict.fault? (name : String) : Verdict → Option SchedulerError
  | .outcome .abort => some (.jobAborted name)
  | .failed cause => some (.jobFailed name cause)
  | .panicked p => some (.jobPanicked name p.message)
  | .outcome .resume | .outcome .detach => none

/-- **A tick in flight.** -/
structure Tick where
  /-- When it started, in nanoseconds. -/
  started : Nat
  /-- The waves launched so far, the first one first. -/
  waves : List (List JobRef) := []
  /-- Who of the last wave has not returned. -/
  pending : List JobRef := []
  /-- The children of those who have, in the order found. -/
  found : List JobRef := []
  /-- The first fault. -/
  fault : Option SchedulerError := none
deriving Inhabited, Repr

namespace Tick

/-- Everything launched in this tick. -/
def launched (t : Tick) : List JobRef := t.waves.flatten

/-- What is new in a list of jobs, each job once, at its first place. -/
def unseen (seen : List JobRef) : List JobRef → List JobRef
  | [] => []
  | j :: rest => if j ∈ seen then unseen seen rest else j :: unseen (j :: seen) rest

/-- The jobs in a list that this tick has not launched. -/
def fresh (t : Tick) (jobs : List JobRef) : List JobRef := unseen t.launched jobs

/-- Launch one more wave. -/
def launch (t : Tick) (wave : List JobRef) : Tick :=
  { t with waves := t.waves ++ [wave], pending := wave, found := [] }

/-- **The next wave**: what has been found and is new; nothing after a fault. -/
def nextWave (t : Tick) : List JobRef := if t.fault.isSome then [] else t.fresh t.found

/-- A step of the last wave has returned. `children` are the job's children at
that moment; they count unless the step made a fault, and the first fault is
kept. -/
def settle (t : Tick) (j : JobRef) (children : List JobRef) : Option SchedulerError → Tick
  | none => { t with pending := t.pending.erase j, found := t.found ++ children }
  | some e => { t with pending := t.pending.erase j, fault := some (t.fault.getD e) }

/-- The jobs that the tick keeps alive: its last wave and what it has found. -/
def holds (t : Tick) : List JobRef := t.waves.getLastD [] ++ t.found

/-- What is new is not among what was there. -/
theorem not_mem_of_mem_unseen {seen jobs : List JobRef} {j : JobRef}
    (h : j ∈ unseen seen jobs) : j ∉ seen := by
  induction jobs generalizing seen with
  | nil => simp [unseen] at h
  | cons k rest ih =>
    unfold unseen at h
    split at h
    · exact ih h
    · next hk =>
      rcases List.mem_cons.1 h with rfl | h
      · exact hk
      · exact fun hs => ih h (List.mem_cons_of_mem _ hs)

/-- What is new holds no job twice. -/
theorem nodup_unseen (seen jobs : List JobRef) : (unseen seen jobs).Nodup := by
  induction jobs generalizing seen with
  | nil => simp [unseen]
  | cons k rest ih =>
    unfold unseen
    split
    · exact ih seen
    · exact List.nodup_cons.2 ⟨fun h => not_mem_of_mem_unseen h (by simp), ih _⟩

/-- A job is new exactly if it is in the list and was not there before. -/
theorem mem_unseen {seen jobs : List JobRef} {j : JobRef} :
    j ∈ unseen seen jobs ↔ j ∈ jobs ∧ j ∉ seen := by
  induction jobs generalizing seen with
  | nil => simp [unseen]
  | cons k rest ih =>
    unfold unseen
    split
    · next hk =>
      rw [ih]
      constructor
      · exact fun h => ⟨List.mem_cons_of_mem _ h.1, h.2⟩
      · intro h
        rcases List.mem_cons.1 h.1 with rfl | hm
        · exact absurd hk h.2
        · exact ⟨hm, h.2⟩
    · next hk =>
      by_cases hj : j = k
      · subst hj; simp [hk]
      · simp [ih, hj]

end Tick

end FrameLoop

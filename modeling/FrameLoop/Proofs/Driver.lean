import FrameLoop.Proofs.Journal

/-!
# The moves of a driver

A driver moves when it looks up and when a step of its tick returns. This
module takes both moves apart, once, so that every law about loops is a case
analysis over what is said here.

* `Proceeds`: what becomes of a tick of which nothing is out. It has one more
  wave, or it has drained and the loop waits again, or it has drained with a
  fault and the loop ends.
* `looksUp`: what a driver makes of looking up. It rests, declines a wake-up,
  ends, or starts a tick; and `World.startsTick` says when it is the last.
* `returned_of_pending`: what a return makes of the tick in flight; and `returns`, what it makes
  of the scheduler, whether or not the step was out.
-/

namespace FrameLoop

/-- A driver that is there and in no tick waits. -/
theorem Driver.waiting_of_still {d : Driver} (active : d.isActive = true) (still : d.tick? = none) :
    ∃ loop, d = .waiting loop := by
  cases d with
  | waiting loop => exact ⟨loop, rfl⟩
  | ticking _ _ => cases still
  | absent | ended => cases active

namespace Tick

/-! ## A step of a tick returns -/

@[simp] theorem waves_settle (t : Tick) (j : JobRef) (children : List JobRef)
    (fault : Option SchedulerError) : (t.settle j children fault).waves = t.waves := by
  cases fault <;> rfl

@[simp] theorem pending_settle (t : Tick) (j : JobRef) (children : List JobRef)
    (fault : Option SchedulerError) :
    (t.settle j children fault).pending = t.pending.erase j := by
  cases fault <;> rfl

/-- What is found then was found before or is a child of the job. -/
theorem mem_found_settle {t : Tick} {j x : JobRef} {children : List JobRef}
    {fault : Option SchedulerError} (h : x ∈ (t.settle j children fault).found) :
    x ∈ t.found ∨ x ∈ children := by
  cases fault with
  | some e => exact .inl h
  | none => exact List.mem_append.1 h

end Tick

namespace Scheduler

/-! ## Ending -/

theorem finish_driver (s : Scheduler) (exit : Exit) : (s.finish exit).1.driver = .ended := by
  unfold finish
  split <;> rfl

/-- The end of a loop that has not ended before. -/
theorem finish_of_live {s : Scheduler} (live : s.state.isTerminal = false) (exit : Exit) :
    (s.finish exit).1 = { s with
      state := exit.state
      shutdown := none
      outcome := some (s.outcome.getD exit.completion)
      driver := .ended } := by
  unfold finish
  rw [if_neg (by simp [live])]

theorem registry_finish (s : Scheduler) (exit : Exit) :
    (s.finish exit).1.registry = s.registry := by
  unfold finish
  split <;> rfl

theorem stats_finish (s : Scheduler) (exit : Exit) : (s.finish exit).1.stats = s.stats := by
  unfold finish
  split <;> rfl

theorem frameDelay_finish (s : Scheduler) (exit : Exit) :
    (s.finish exit).1.frameDelay = s.frameDelay := by
  unfold finish
  split <;> rfl

/-! ## A tick of which nothing is out -/

/-- The scheduler once the counters of a drained tick are published. -/
def counted (s : Scheduler) (loop : Loop) (t : Tick) (now : Nat) : Scheduler :=
  { s with stats := s.stats.add (entry loop t now) }

/-- **What becomes of a tick of which nothing is out.** -/
inductive Proceeds (s : Scheduler) (loop : Loop) (t : Tick) (now : Nat) : Move → Prop where
  | wave (more : t.nextWave ≠ []) (told : List Notice) :
    Proceeds s loop t now
      { scheduler := { s with driver := .ticking loop (t.launch t.nextWave) }
        launched := t.nextWave
        notices := told }
  | drained (spent : t.nextWave = []) (sound : t.fault = none) (told : List Notice) :
    Proceeds s loop t now
      { scheduler :=
          { s.counted loop t now with
            driver := .waiting { loop with lastStart := some t.started, roused := none } }
        notices := told }
  | faulted {e : SchedulerError} (fault : t.fault = some e) (told : List Notice) :
    Proceeds s loop t now
      { scheduler := ((s.counted loop t now).finish (.faulted e)).1
        notices := told }

/-- **A tick proceeds in one of the ways there are.** -/
theorem proceeds (s : Scheduler) (loop : Loop) (t : Tick) (now : Nat) :
    Proceeds s loop t now (s.proceed loop t now) := by
  unfold proceed
  split
  · next spent =>
    unfold drain
    dsimp only
    split
    · next e fault => exact .faulted fault _
    · next sound => exact .drained spent sound _
  · next more => exact .wave more []

/-- A tick that proceeds leaves the registry as it is. -/
theorem Proceeds.registry {s : Scheduler} {loop : Loop} {t : Tick} {now : Nat} {m : Move}
    (h : Proceeds s loop t now m) : m.scheduler.registry = s.registry := by
  cases h with
  | wave more => rfl
  | drained spent sound => rfl
  | faulted fault => exact registry_finish _ _

/-- And the frame delay. -/
theorem Proceeds.frameDelay {s : Scheduler} {loop : Loop} {t : Tick} {now : Nat} {m : Move}
    (h : Proceeds s loop t now m) : m.scheduler.frameDelay = s.frameDelay := by
  cases h with
  | wave more => rfl
  | drained spent sound => rfl
  | faulted fault => exact frameDelay_finish _ _

/-! ## A step returns -/

/-- The scheduler and the forest after a step that ended so: a job that
detaches has left its place. -/
def depart (s : Scheduler) (f : Forest) (j : JobRef) : Verdict → Scheduler × Forest
  | .outcome .detach => (s.remove f j).2
  | .outcome .resume | .outcome .abort | .failed _ | .panicked _ => (s, f)

/-- What the log is told of a step that ended so. -/
def tellsOf (t : Tick) (name : String) (v : Verdict) : List Notice :=
  match v with
  | .outcome .detach => [.jobDetached name]
  | v => ((v.fault? name).map (faultNotice t name)).toList

/-- Leaving a place takes the job out of the registry at most. -/
theorem depart_cases (s : Scheduler) (f : Forest) (j : JobRef) (v : Verdict) :
    ∃ registry, registry.Sublist s.registry ∧ (s.depart f j v).1 = { s with registry } := by
  have stays : ∃ registry, registry.Sublist s.registry ∧ s = { s with registry } :=
    ⟨s.registry, .refl _, rfl⟩
  unfold depart
  split
  · unfold remove
    split
    · exact stays
    · unfold unregister
      split
      · exact ⟨s.registry.erase j, List.erase_sublist, rfl⟩
      · exact stays
  · exact stays
  · exact stays
  · exact stays
  · exact stays

/-- **A step of the tick in flight returns**: the job leaves if it detaches,
and the tick proceeds if nothing else is out. -/
theorem returned_of_pending {s : Scheduler} {loop : Loop} {t : Tick} {j : JobRef}
    (h : s.driver = .ticking loop t) (out : j ∈ t.pending) (f : Forest) (v : Verdict) (now : Nat) :
    let settled := t.settle j (f.children j) (v.fault? (f.name j))
    let left := (s.depart f j v).1
    let move : Move :=
      if settled.pending.isEmpty then left.proceed loop settled now
      else { scheduler := { left with driver := .ticking loop settled } }
    s.returned f j v now =
      ({ move with notices := tellsOf t (f.name j) v ++ move.notices }, (s.depart f j v).2) := by
  unfold returned
  rw [h]
  dsimp only
  rw [if_pos out]
  cases v with
  | outcome o => cases o <;> rfl
  | failed cause => rfl
  | panicked p => rfl

/-- All that a return does to the registry is that the job may leave. -/
theorem registry_returned_of_pending {s : Scheduler} {loop : Loop} {t : Tick} {j : JobRef}
    (h : s.driver = .ticking loop t) (out : j ∈ t.pending) (f : Forest) (v : Verdict) (now : Nat) :
    (s.returned f j v now).1.scheduler.registry = (s.depart f j v).1.registry := by
  rw [returned_of_pending h out]
  dsimp only
  split
  · exact (proceeds _ _ _ _).registry
  · rfl

/-- A step that is not out changes nothing. -/
theorem returned_of_not_pending {s : Scheduler} {j : JobRef}
    (h : ∀ loop t, s.driver = .ticking loop t → j ∉ t.pending) (f : Forest) (v : Verdict)
    (now : Nat) : s.returned f j v now = ({ scheduler := s }, f) := by
  unfold returned
  split
  · next loop t driver => rw [if_neg (h loop t driver)]
  · rfl

/-- **What becomes of a scheduler when a step returns.** -/
inductive Returns (s : Scheduler) (f : Forest) (j : JobRef) (v : Verdict) (now : Nat) :
    Move → Prop where
  /-- The step was not out. -/
  | nothing : Returns s f j v now { scheduler := s }
  /-- Other steps of the wave still are. -/
  | waits {loop : Loop} {t : Tick} {registry : List JobRef} (driver : s.driver = .ticking loop t)
    (out : j ∈ t.pending) (sub : registry.Sublist s.registry) (told : List Notice) :
    Returns s f j v now
      { scheduler :=
          { s with
            registry
            driver := .ticking loop (t.settle j (f.children j) (v.fault? (f.name j))) }
        notices := told }
  /-- It was the last one. -/
  | proceeds {loop : Loop} {t : Tick} {registry : List JobRef} {m : Move}
    (driver : s.driver = .ticking loop t) (out : j ∈ t.pending)
    (sub : registry.Sublist s.registry)
    (goesOn : Proceeds { s with registry } loop
      (t.settle j (f.children j) (v.fault? (f.name j))) now m)
    (told : List Notice) :
    Returns s f j v now { m with notices := told }

/-- **A step returns in one of the ways there are.** -/
theorem returns (s : Scheduler) (f : Forest) (j : JobRef) (v : Verdict) (now : Nat) :
    Returns s f j v now (s.returned f j v now).1 := by
  by_cases out : ∃ loop t, s.driver = .ticking loop t ∧ j ∈ t.pending
  · obtain ⟨loop, t, driver, pending⟩ := out
    obtain ⟨registry, sub, left⟩ := s.depart_cases f j v
    rw [returned_of_pending driver pending]
    dsimp only
    rw [left]
    split
    · exact .proceeds driver pending sub (Scheduler.proceeds _ loop _ now) _
    · exact .waits driver pending sub _
  · have none : ∀ loop t, s.driver = .ticking loop t → j ∉ t.pending :=
      fun loop t driver pending => out ⟨loop, t, driver, pending⟩
    rw [returned_of_not_pending none]
    exact .nothing

/-- A step that returns takes its job out of the registry at most. -/
theorem Returns.registry {s : Scheduler} {f : Forest} {j : JobRef} {v : Verdict} {now : Nat}
    {m : Move} (h : Returns s f j v now m) : m.scheduler.registry.Sublist s.registry := by
  cases h with
  | nothing => exact .refl _
  | waits _ _ sub => exact sub
  | proceeds _ _ sub goesOn => exact goesOn.registry ▸ sub

/-- It leaves the frame delay as it is. -/
theorem Returns.frameDelay {s : Scheduler} {f : Forest} {j : JobRef} {v : Verdict} {now : Nat}
    {m : Move} (h : Returns s f j v now m) : m.scheduler.frameDelay = s.frameDelay := by
  cases h with
  | nothing | waits => rfl
  | proceeds _ _ _ goesOn => exact goesOn.frameDelay

end Scheduler

namespace World

open Scheduler (Move Proceeds)

/-! ## Looking up -/

/-- What the source of a loop offers now. -/
def offer (w : World) (loop : Loop) : Offer :=
  (loop.source.next w.feeds (loop.askedAt w.clock)).1

/-- **The reading that a driver takes to its pacer** if it looks up now: it waits for
a wake-up, it sees no request to stop, and the source has a reading. -/
def taken (w : World) (r : SchedulerRef) : Option Instant :=
  match (w.scheduler r).driver with
  | .waiting loop =>
    if (w.scheduler r).seesStop loop then none
    else
      match w.offer loop with
      | .reading t => some t
      | .pending | .exhausted | .broken _ => none
  | .absent | .ticking .. | .ended => none

theorem taken_of_unseen (w : World) {r : SchedulerRef} {loop : Loop}
    (waiting : (w.scheduler r).driver = .waiting loop)
    (unseen : (w.scheduler r).seesStop loop = false) :
    w.taken r =
      match w.offer loop with
      | .reading t => some t
      | .pending | .exhausted | .broken _ => none := by
  rw [taken, waiting]
  exact if_neg (by simp [unseen])

/-- A loop that has taken a reading to its pacer. -/
def paced (w : World) (r : SchedulerRef) (loop : Loop) (t : Instant) : Loop :=
  { loop with
    source := (loop.source.next w.feeds (loop.askedAt w.clock)).2.1
    pacer := (loop.pacer.evaluate t (w.scheduler r).frameDelay).2 }

/-- Why a driver that looks up gives up, if it does. -/
def exit? (w : World) (r : SchedulerRef) (loop : Loop) : Option Scheduler.Exit :=
  if (w.scheduler r).seesStop loop then some .stopped
  else
    match w.offer loop with
    | .exhausted => some .exhausted
    | .broken message => some (.faulted (.internal message))
    | .pending | .reading _ => none

/-- **What a driver makes of looking up**, unless it starts a tick. -/
inductive LooksUp (w : World) (r : SchedulerRef) : Move → Prop where
  | rests (untaken : w.taken r = none) : LooksUp w r { scheduler := w.scheduler r }
  | declines {loop : Loop} {t : Instant} (waiting : (w.scheduler r).driver = .waiting loop)
    (taken : w.taken r = some t) :
    LooksUp w r
      { scheduler :=
          { w.scheduler r with driver := .waiting { w.paced r loop t with roused := none } } }
  | ends {loop : Loop} {exit : Scheduler.Exit} (waiting : (w.scheduler r).driver = .waiting loop)
    (gives : w.exit? r loop = some exit) (told : List Notice) :
    LooksUp w r { scheduler := ((w.scheduler r).finish exit).1, notices := told }

/-- **A driver that looks up starts a tick or does something else**, and it
starts one exactly if `startsTick` says so. -/
theorem looksUp (w : World) (r : SchedulerRef) :
    (w.startsTick r = false ∧ LooksUp w r (w.lookUp r)) ∨
      (w.startsTick r = true ∧
        ∃ loop t, (w.scheduler r).driver = .waiting loop ∧ w.taken r = some t ∧
          w.lookUp r = (w.scheduler r).startTick (w.paced r loop t) w.clock) := by
  unfold lookUp startsTick
  cases driver : (w.scheduler r).driver with
  | absent | ticking _ _ | ended => exact .inl ⟨rfl, .rests (by rw [taken, driver])⟩
  | waiting loop =>
    dsimp only
    cases asked : (w.scheduler r).seesStop loop with
    | true =>
      rw [if_pos rfl]
      exact .inl ⟨rfl, .ends driver (by rw [exit?, asked, if_pos rfl]) _⟩
    | false =>
      rw [if_neg Bool.false_ne_true]
      unfold Scheduler.wake
      have gives : w.exit? r loop = _ := if_neg (by simp [asked])
      have takes := w.taken_of_unseen driver asked
      cases offered : (loop.source.next w.feeds (loop.askedAt w.clock)).1 with
      | pending => exact .inl ⟨by simp, .rests (by rw [takes, offer, offered])⟩
      | exhausted => exact .inl ⟨by simp, .ends driver (by rw [gives, offer, offered]) _⟩
      | broken message => exact .inl ⟨by simp, .ends driver (by rw [gives, offer, offered]) _⟩
      | reading t =>
        have taken : w.taken r = some t := by rw [takes, offer, offered]
        dsimp only
        cases due : (loop.pacer.evaluate t (w.scheduler r).frameDelay).1 with
        | true =>
          rw [if_pos rfl]
          exact .inr ⟨by simp, loop, t, rfl, taken, rfl⟩
        | false =>
          rw [if_neg Bool.false_ne_true]
          exact .inl ⟨by simp, .declines driver taken⟩

theorem lookUp_of_exit {w : World} {r : SchedulerRef} {loop : Loop} {exit : Scheduler.Exit}
    (waiting : (w.scheduler r).driver = .waiting loop) (gives : w.exit? r loop = some exit) :
    (w.lookUp r).scheduler = ((w.scheduler r).finish exit).1 := by
  unfold exit? offer at gives
  unfold lookUp
  rw [waiting]
  dsimp only
  split at gives
  · next asked =>
    rw [if_pos asked]
    cases gives
    rfl
  · next unasked =>
    rw [if_neg unasked]
    unfold Scheduler.wake
    split at gives
    · next offered => rw [offered]; cases gives; rfl
    · next offered => rw [offered]; cases gives; rfl
    · cases gives
    · cases gives

/-- Looking up leaves the registry as it is. -/
theorem registry_lookUp (w : World) (r : SchedulerRef) :
    (w.lookUp r).scheduler.registry = (w.scheduler r).registry := by
  obtain ⟨-, other⟩ | ⟨-, loop, t, -, -, starts⟩ := w.looksUp r
  · generalize w.lookUp r = m at other
    cases other with
    | rests => rfl
    | declines => rfl
    | ends => exact Scheduler.registry_finish _ _
  · rw [starts]
    exact (Scheduler.proceeds _ _ _ _).registry

/-- And the frame delay. -/
theorem frameDelay_lookUp (w : World) (r : SchedulerRef) :
    (w.lookUp r).scheduler.frameDelay = (w.scheduler r).frameDelay := by
  obtain ⟨-, other⟩ | ⟨-, loop, t, -, -, starts⟩ := w.looksUp r
  · generalize w.lookUp r = m at other
    cases other with
    | rests => rfl
    | declines => rfl
    | ends => exact Scheduler.frameDelay_finish _ _
  · rw [starts]
    exact (Scheduler.proceeds _ _ _ _).frameDelay

end World

end FrameLoop

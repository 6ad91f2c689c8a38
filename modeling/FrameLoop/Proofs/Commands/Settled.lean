import FrameLoop.Proofs.Commands.Moves

/-!
# What settles is made of moves

`Stage.settle` does one thing of the agenda after the other. It knows of no lock, and needs none: a
thread that drains a queue goes on before anything else does, so nobody comes upon a queue that is
being drained (`Stage.InTurn`). Hence every stage that a script reaches is reached by moves
(`leads_follow`), and what is shown of all lists of moves holds of it.
-/

namespace FrameLoop.Rehearsal.Stage

variable {st st' st'' : Stage} {n : Nat}

/-- **Some moves lead from one stage to another.** -/
def Leads (st st' : Stage) : Prop := ∃ ms : List Move, st' = ms.foldl move st

theorem Leads.refl (st : Stage) : Leads st st := ⟨[], rfl⟩

theorem Leads.trans (h : Leads st st') (h' : Leads st' st'') : Leads st st'' := by
  obtain ⟨ms, rfl⟩ := h
  obtain ⟨ms', rfl⟩ := h'
  exact ⟨ms ++ ms', List.foldl_append.symm⟩

theorem leads_move (st : Stage) (m : Move) : Leads st (st.move m) := ⟨[m], rfl⟩

/-- Moves keep a stage tame. -/
theorem Leads.tame (h : Leads st st') (tame : st.Tame) : st'.Tame := by
  obtain ⟨ms, rfl⟩ := h
  induction ms generalizing st with
  | nil => exact tame
  | cons m ms ih => exact ih (tame.move_steps m).tame

/-! ## A thread that drains goes on first -/

/-- **No thread drains anything.** -/
def Undrained (st : Stage) : Prop := ∀ n x, ¬ st.Drains n x

/-- **A thread that drains something is next**, and so there is one at most. -/
def InTurn (st : Stage) : Prop := ∀ n x, st.Drains n x → ∃ tasks, st.agenda = .resume n :: tasks

theorem Undrained.inTurn (h : st.Undrained) : st.InTurn := fun n x hx => absurd hx (h n x)

theorem InTurn.undrained (h : st.InTurn) (spent : st.agenda = []) : st.Undrained := by
  intro n x hx
  obtain ⟨tasks, next⟩ := h n x hx
  rw [spent] at next
  cases next

/-- What is put behind everything that is to be done changes nothing. -/
theorem InTurn.tidy (h : st.InTurn) : st.tidy.InTurn := by
  intro n x hx
  obtain ⟨tasks, next⟩ := h n x hx
  exact ⟨tasks ++ _, by rw [Stage.tidy]; dsimp only; rw [next]; rfl⟩

/-- Where nothing happens to any queue, none comes to be drained. -/
theorem Stays.undrained (h : Stays st st') (tame : st.Tame) (undrained : st.Undrained) :
    st'.Undrained := by
  rintro n ⟨j, x⟩ hx
  have working := h.tame.work?_eq_some.2 ⟨n, hx⟩
  obtain ⟨q, known⟩ := Option.isSome_iff_exists.1 (h.tame.known hx)
  have after := cell?_of_lookup known
  rw [working] at after
  cases before : st.cell? j with
  | none => cases h.made before after
  | some y =>
    obtain ⟨-, work⟩ := lookup_of_cell? before
    rw [tame.work?_eq_none.2 fun m z => undrained m (j, z)] at work
    cases (h.cell before).symm.trans after
    cases work

/-- A thread that would have to wait is not next. -/
theorem free_of_only (tame : st.Tame) {t : Thread} (ht : t ∈ st.threads)
    (only : ∀ {m x}, st.Drains m x → m = t.number) : st.waits t = false := by
  unfold waits
  split
  · next j rest top =>
    split
    · rw [Option.isSome_eq_false_iff, Option.isNone_iff_eq_none, tame.work?_eq_none]
      intro m x hx
      obtain rfl := only hx
      exact tame.not_drains ht (by rw [top]; rfl) _ hx
    · rfl
  · rfl

/-- **A thread that is resumed moves**, and is next again if it drains something, as long as no
other drains anything. -/
theorem inTurn_resume (tame : st.Tame) (only : ∀ {m x}, st.Drains m x → m = n) :
    (Stage.doTask st (.resume n)).InTurn ∧ Leads st (Stage.doTask st (.resume n)) := by
  cases found : st.thread? n with
  | none =>
    have same : Stage.doTask st (.resume n) = st := by simp only [Stage.doTask, found]
    rw [same]
    refine ⟨fun m x hx => ?_, .refl st⟩
    obtain rfl := only hx
    obtain ⟨t, ht, number, -⟩ := hx
    have absent := List.find?_eq_none.1 found t ht
    simp [number] at absent
  | some t =>
    obtain ⟨ht, rfl⟩ := thread_of_thread? found
    have free := free_of_only tame ht only
    have moved := tame.moveThread_moved ht free
    have done : Stage.doTask st (.resume t.number) = st.moveThread t := by
      simp only [Stage.doTask, found]
    have move : st.move (.task (.resume t.number)) = st.moveThread t := by
      simp only [Stage.move, found, free, Bool.false_eq_true, if_false]
    rw [done]
    refine ⟨fun m x hx => ?_, move ▸ leads_move st _⟩
    by_cases hm : m = t.number
    · subst hm
      obtain idle | next := moved.next
      · exact absurd hx (idle x)
      · exact next
    · exact absurd (only ((moved.others hm).1 hx)) hm

/-- **The first thing on the agenda is done by a move**, and whoever drains something then is next
again. -/
theorem InTurn.doTask (tame : st.Tame) (h : st.InTurn) {task : Task} {tasks : List Task}
    (agenda : st.agenda = task :: tasks) :
    (Stage.doTask { st with agenda := tasks } task).InTurn ∧
      Leads st (Stage.doTask { st with agenda := tasks } task) := by
  have only : ∀ {m x}, Drains { st with agenda := tasks } m x → task = .resume m := by
    intro m x hx
    obtain ⟨rest, next⟩ := h m x hx
    rw [agenda] at next
    exact (List.cons.inj next).1
  have tame₁ := (tame.agenda 0 tasks).tame
  have first := leads_move st (.agenda tasks)
  cases task with
  | drive r =>
    have undrained : Undrained { st with agenda := tasks } := fun m x hx => by cases only hx
    exact ⟨((tame₁.drive_stays r).undrained tame₁ undrained).inTurn,
      first.trans (leads_move _ (.task (.drive r)))⟩
  | resume n =>
    have mine : ∀ {m x}, Drains { st with agenda := tasks } m x → m = n := by
      intro m x hx
      cases only hx
      rfl
    exact (inTurn_resume tame₁ mine).imp_right first.trans

/-! ## Settling -/

/-- **Settling is made of moves**, and once it is over no thread drains anything. -/
theorem leads_settle (hold : Bool) (fuel : Nat) (tame : st.Tame) (h : st.InTurn) :
    Leads st (settle hold fuel st).2 ∧
      ((settle hold fuel st).1 = true → (settle hold fuel st).2.Undrained) := by
  induction fuel generalizing st with
  | zero => exact ⟨.refl st, fun done => by cases done⟩
  | succ fuel ih =>
    cases agenda : st.agenda with
    | cons task tasks =>
      obtain ⟨inTurn, led⟩ := h.doTask tame agenda
      have tidied := led.trans (leads_move _ .tidy)
      obtain ⟨rest, undrained⟩ := ih (tidied.tame tame) inTurn.tidy
      rw [settle, agenda]
      exact ⟨tidied.trans rest, undrained⟩
    | nil =>
      have undrained := h.undrained agenda
      rw [settle, agenda]
      dsimp only
      split
      · exact ⟨.refl st, fun _ => undrained⟩
      · split
        · next n _ =>
          have opened := tame.openGate_stays n
          obtain ⟨rest, undrained⟩ := ih opened.tame (opened.undrained tame undrained).inTurn
          exact ⟨(leads_move st (.openGate n)).trans rest, undrained⟩
        · exact ⟨.refl st, fun _ => undrained⟩

/-- Letting time pass is made of moves. -/
theorem leads_advance (hold : Bool) (millis : Nat) (tame : st.Tame) (h : st.Undrained) :
    Leads st (advance hold millis st).2 ∧
      ((advance hold millis st).1 = true → (advance hold millis st).2.Undrained) := by
  induction millis generalizing st with
  | zero => exact ⟨.refl st, fun _ => h⟩
  | succ millis ih =>
    have passed : Leads st (st.withWorld { st.world with
        clock := st.world.clock + nanosPerMilli }).tidy :=
      (leads_move st (.pass nanosPerMilli)).trans (leads_move _ .tidy)
    have inTurn : (st.withWorld { st.world with
        clock := st.world.clock + nanosPerMilli }).InTurn := fun m x hx => absurd hx (h m x)
    obtain ⟨led, undrained⟩ := leads_settle hold patience (passed.tame tame) inTurn.tidy
    have led := passed.trans led
    unfold advance
    dsimp only
    split
    · next st₁ settled =>
      rw [settled] at led undrained
      obtain ⟨rest, undrained⟩ := ih (led.tame tame) (undrained rfl)
      exact ⟨led.trans rest, undrained⟩
    · next st₁ settled =>
      rw [settled] at led
      exact ⟨led, fun done => by cases done⟩

/-- After what a cue does itself the stage settles, and what has been seen is reported. -/
theorem leads_report (passed : Bool) (answer : Answer) {st₁ : Stage} {hold : Bool}
    {report : Report} (tame : st.Tame) (led : Leads st st₁) (h : passed = true → st₁.Undrained)
    (reported : (match settle hold patience st₁.tidy with
      | (settled, st) => if passed && settled then some (st.takeReport answer) else none) =
        some (report, st')) : Leads st st' ∧ st'.Undrained := by
  have tidied : Leads st st₁.tidy := led.trans (leads_move _ .tidy)
  cases passed with
  | false => cases reported
  | true =>
    obtain ⟨rest, undrained⟩ :=
      leads_settle hold patience (tidied.tame tame) (Undrained.inTurn (h rfl)).tidy
    cases settled : settle hold patience st₁.tidy with
    | mk ok st₂ =>
      rw [settled] at rest undrained reported
      cases ok with
      | false => cases reported
      | true =>
        cases reported
        exact ⟨(tidied.trans rest).trans (leads_move st₂ .report), undrained rfl⟩

/-- **What a cue does is made of moves**: every stage that a rehearsal reaches is one that moves
lead to. -/
theorem leads_follow {cue : Cue} {report : Report} (tame : st.Tame) (h : st.Undrained)
    (followed : st.follow cue = some (report, st')) : Leads st st' ∧ st'.Undrained := by
  have performed (a : Act) : Leads st (st.perform a).2 ∧ (st.perform a).2.Undrained :=
    ⟨leads_move st (.act a), fun m x hx => h m x ((tame.perform_steps a).2.drains.1 hx)⟩
  unfold follow at followed
  split at followed
  next passed answer st₁ done =>
    suffices all : Leads st st₁ ∧ (passed = true → st₁.Undrained) from
      leads_report passed answer tame all.1 all.2 followed
    split at done
    · cases done
      exact leads_advance cue.hold _ tame h
    · cases done
      exact ⟨.refl st, fun _ => h⟩
    · next who _ =>
      cases done
      split
      · next n _ =>
        exact ⟨leads_move st (.openGate n), fun _ => (tame.openGate_stays n).undrained tame h⟩
      · exact ⟨.refl st, fun _ => h⟩
    · cases done
      exact ⟨(performed _).1, fun _ => (performed _).2⟩

end FrameLoop.Rehearsal.Stage

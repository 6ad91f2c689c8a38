import FrameLoop.Rehearsal.Thread
import Mathlib.Data.List.Basic

/-!
# What becomes of the commands of a queue

A step that drains a queue is interrupted at every turn: by commands that are handed in from
elsewhere, and by the commands that it runs, which may hand in more, to the same queue even. A
queue is therefore looked at together with the step that is draining it, if one is (`Cell`), and
`Cell.Turn` lists what can happen to the two, each with what is noted of it. The notes add up to a
`History`: what was accepted, and for each step what it found, what it started, what came in
meanwhile and what it left.

`Law` ties the history to the queue, and `Law.turn` keeps it at every turn. How a step ends is a
function of the commands that it found (`drained`).
-/

namespace FrameLoop

open CommandQueue (Drain)

namespace CommandQueue

variable {α : Type} {q r : CommandQueue α} {d e : Drain} {c : α}

/-- Taking a command uses one up, and leaves the queue open if it was. -/
theorem drain_of_take (h : q.take d = some (c, r, e)) :
    d.left = e.left + 1 ∧ e.applied = d.applied + 1 ∧ r.isOpen = q.isOpen := by
  unfold take at h
  split at h
  · next left rest more _ =>
    simp only [Option.some.injEq, Prod.mk.injEq] at h
    obtain ⟨-, rfl, rfl⟩ := h
    exact ⟨more, rfl, rfl⟩
  · cases h

/-- **A step has nothing to take exactly if it has none left**, as long as there are at least as
many queued. -/
theorem take_eq_none_iff (enough : d.left ≤ q.queued.length) : q.take d = none ↔ d.left = 0 := by
  unfold take
  split
  · next more _ => simp [more]
  · next other =>
    refine iff_of_true rfl ?_
    cases left : d.left with
    | zero => rfl
    | succ n =>
      cases queued : q.queued with
      | nil => rw [left, queued] at enough; cases enough
      | cons c rest => exact absurd queued (other n c rest left)

theorem isOpen_enqueue (q : CommandQueue α) (c : α) : (q.enqueue c).2.isOpen = q.isOpen := by
  unfold enqueue
  split <;> rfl

end CommandQueue

namespace Rehearsal

variable {acts : List Act} {c : CommandScript} {commands ahead : List CommandScript}

/-! ## What a step is to do -/

def Act.panic? : Act → Option Panic
  | .panic p => some p
  | _ => none

theorem Act.panic_cases (act : Act) : (∃ p, act = .panic p) ∨ act.panic? = none := by
  unfold panic?
  split
  · exact .inl ⟨_, rfl⟩
  · exact .inr rfl

/-- **How a command panics**: by the first of its acts that is a panic. -/
def CommandScript.panic? (c : CommandScript) : Option Panic := c.acts.findSome? Act.panic?

/-- **What a step does with the commands that it found**: those that it starts, up to the first
that panics, and how it ends. -/
def drained : List CommandScript → List CommandScript × Verdict
  | [] => ([], .outcome .resume)
  | c :: rest =>
    match c.panic? with
    | some p => ([c], .panicked p)
    | none => (c :: (drained rest).1, (drained rest).2)

/-- What a step still does when the command that it is running has these acts left, and these
commands are ahead. -/
def carryOn (acts : List Act) (ahead : List CommandScript) : List CommandScript × Verdict :=
  match acts.findSome? Act.panic? with
  | some p => ([], .panicked p)
  | none => drained ahead

theorem drained_cons (c : CommandScript) (ahead : List CommandScript) :
    drained (c :: ahead) = (c :: (carryOn c.acts ahead).1, (carryOn c.acts ahead).2) := by
  rw [drained, carryOn, CommandScript.panic?]
  split <;> simp_all

@[simp] theorem carryOn_nil (ahead : List CommandScript) : carryOn [] ahead = drained ahead := rfl

theorem carryOn_cons_of_calm {act : Act} (calm : act.panic? = none) :
    carryOn (act :: acts) ahead = carryOn acts ahead := by
  simp only [carryOn, List.findSome?_cons, calm]

@[simp] theorem carryOn_panic (p : Panic) :
    carryOn (.panic p :: acts) ahead = ([], .panicked p) := rfl

/-- **A step either starts everything that it found and resumes, or it panics with the first
command that does**, and has started nothing behind it. -/
theorem drained_cases (commands : List CommandScript) :
    ((∀ c ∈ commands, c.panic? = none) ∧ drained commands = (commands, .outcome .resume)) ∨
      ∃ before c behind p, commands = before ++ c :: behind ∧ (∀ b ∈ before, b.panic? = none) ∧
        c.panic? = some p ∧ drained commands = (before ++ [c], .panicked p) := by
  induction commands with
  | nil => exact .inl ⟨by simp, rfl⟩
  | cons first rest ih =>
    cases here : first.panic? with
    | some p => exact .inr ⟨[], first, rest, p, rfl, by simp, here, by simp [drained, here]⟩
    | none =>
      obtain ⟨calm, whole⟩ | ⟨before, c, behind, p, rfl, calm, panics, part⟩ := ih
      · refine .inl ⟨?_, by simp [drained, here, whole]⟩
        intro c hc
        obtain rfl | hc := List.mem_cons.1 hc
        · exact here
        · exact calm c hc
      · refine .inr ⟨first :: before, c, behind, p, rfl, ?_, panics, by simp [drained, here, part]⟩
        intro b hb
        obtain rfl | hb := List.mem_cons.1 hb
        · exact here
        · exact calm b hb

/-! ## What is noted -/

/-- **Something noted of a queue.** -/
inductive Entry where
  | accepted (c : CommandScript)
  | refused (c : CommandScript)
  /-- A step began, and found these commands. -/
  | began (found : List CommandScript)
  | started (c : CommandScript)
  /-- The step ended, and left these commands. -/
  | ended (v : Verdict) (left : List CommandScript)

/-- **A step under way.** -/
structure Batch where
  /-- What was queued when it began. -/
  found : List CommandScript
  /-- What it has started. -/
  started : List CommandScript := []
  /-- What has been accepted since it began. -/
  joined : List CommandScript := []

/-- **A step that has ended.** -/
structure PastStep extends Batch where
  verdict : Verdict
  /-- What was queued when it ended. -/
  left : List CommandScript

/-- **The history of a queue**: what was accepted, the steps that have ended, and the one under
way. -/
structure History where
  accepted : List CommandScript := []
  past : List PastStep := []
  current : Option Batch := none

/-- Whether an entry leaves the step under way that was. -/
def Entry.goesOn : Entry → Bool
  | .accepted _ | .refused _ | .started _ => true
  | .began _ | .ended .. => false

namespace History

/-- All commands that have been started, by whatever step. -/
def started (H : History) : List CommandScript :=
  H.past.flatMap (·.started) ++ (H.current.map (·.started)).getD []

/-- Something more is noted. -/
def add (H : History) : Entry → History
  | .accepted c =>
    { H with
      accepted := H.accepted ++ [c]
      current := H.current.map fun b => { b with joined := b.joined ++ [c] } }
  | .refused _ => H
  | .began found => { H with current := some { found } }
  | .started c =>
    { H with current := H.current.map fun b => { b with started := b.started ++ [c] } }
  | .ended v left =>
    { H with
      past := H.past ++ (H.current.map fun b => { b with verdict := v, left }).toList
      current := none }

/-- **A step goes on** until it ends: what it found stays, and so does the past. -/
theorem foldl_goesOn {es : List Entry} (H : History) (h : ∀ e ∈ es, e.goesOn = true) :
    (es.foldl add H).past = H.past ∧
      (es.foldl add H).current.map (·.found) = H.current.map (·.found) := by
  induction es generalizing H with
  | nil => exact ⟨rfl, rfl⟩
  | cons e es ih =>
    obtain ⟨past, current⟩ := ih (H.add e) fun e' he' => h e' (List.mem_cons_of_mem e he')
    rw [List.foldl_cons, past, current]
    cases e with
    | accepted c | started c => exact ⟨rfl, by simp only [add, Option.map_map]; rfl⟩
    | refused c => exact ⟨rfl, rfl⟩
    | began found => cases h _ List.mem_cons_self
    | ended v left => cases h _ List.mem_cons_self

end History

/-! ## The turns of a queue -/

/-- **A queue and the step that is draining it**, with the acts that the command under way has
still to do. -/
structure Cell where
  queue : CommandQueue CommandScript
  work : Option (Drain × List Act) := none

/-- **What can happen to a queue and its step**, with what is noted of it. -/
inductive Cell.Turn : Cell → List Entry → Cell → Prop where
  | rests (x : Cell) : Turn x [] x
  | accepted (x : Cell) (c : CommandScript) (takes : x.queue.isOpen = true) :
    Turn x [.accepted c] { x with queue := (x.queue.enqueue c).2 }
  | refused (x : Cell) (c : CommandScript) (closed : x.queue.isOpen = false) :
    Turn x [.refused c] x
  | began (q : CommandQueue CommandScript) :
    Turn ⟨q, none⟩ [.began q.queued] ⟨q, some (q.beginStep, [])⟩
  | started {q r : CommandQueue CommandScript} {d e : Drain} {c : CommandScript}
    (taken : q.take d = some (c, r, e)) : Turn ⟨q, some (d, [])⟩ [.started c] ⟨r, some (e, c.acts)⟩
  | acted (q : CommandQueue CommandScript) (d : Drain) {act : Act} (acts : List Act)
    (calm : act.panic? = none) : Turn ⟨q, some (d, act :: acts)⟩ [] ⟨q, some (d, acts)⟩
  | resumed {q : CommandQueue CommandScript} {d : Drain} (spent : q.take d = none) :
    Turn ⟨q, some (d, [])⟩ [.ended (.outcome .resume) q.queued] ⟨q, none⟩
  | panicked (q : CommandQueue CommandScript) (d : Drain) (p : Panic) (acts : List Act) :
    Turn ⟨q, some (d, .panic p :: acts)⟩ [.ended (.panicked p) q.queued] ⟨q, none⟩
  | closed (q : CommandQueue CommandScript) : Turn ⟨q, none⟩ [] ⟨q.close, none⟩
  | trans {x y z : Cell} {es fs : List Entry} (first : Turn x es y) (then_ : Turn y fs z) :
    Turn x (es ++ fs) z

/-! ## The law -/

/-- **A step that has ended did what it was to do**: it started its share of what it found, and
left the rest, with what came in meanwhile behind it. -/
structure PastStep.Done (s : PastStep) : Prop where
  drained : drained s.found = (s.started, s.verdict)
  left : s.found ++ s.joined = s.started ++ s.left

/-- **How far a step under way has come.** What is ahead is first in the queue, and the step will
do with it what it was to do from the start. -/
structure Batch.Going (b : Batch) (q : CommandQueue CommandScript) (d : Drain) (acts : List Act)
    (ahead : List CommandScript) : Prop where
  found : b.found = b.started ++ ahead
  queued : q.queued = ahead ++ b.joined
  left : d.left = ahead.length
  applied : d.applied = b.started.length
  drained : drained b.found = (b.started ++ (carryOn acts ahead).1, (carryOn acts ahead).2)

/-- **The law of a queue.** While it is open, what was accepted is what was started and then what
is queued; once it is closed nothing is queued. Every step that has ended is done, and the step
under way is the one that drains the queue. -/
structure Law (x : Cell) (H : History) : Prop where
  conserved : x.queue.isOpen = true → H.accepted = H.started ++ x.queue.queued
  closed : x.queue.isOpen = false → x.queue.queued = []
  past : ∀ s ∈ H.past, s.Done
  idle : x.work = none → H.current = none
  busy : ∀ d acts, x.work = some (d, acts) →
    ∃ b ahead, H.current = some b ∧ b.Going x.queue d acts ahead

/-- A queue that nobody has used yet. -/
theorem law_new : Law ⟨{}, none⟩ {} where
  conserved _ := rfl
  closed := by simp
  past := by simp
  idle _ := rfl
  busy := by simp

/-! ## Every turn keeps the law -/

section Keeps

variable {H : History} {q r : CommandQueue CommandScript} {d e : Drain} {b : Batch}

theorem Batch.Going.accepted (h : b.Going q d acts ahead) (c : CommandScript)
    (takes : q.isOpen = true) :
    Batch.Going { b with joined := b.joined ++ [c] } (q.enqueue c).2 d acts ahead where
  found := h.found
  queued := by rw [CommandQueue.queued_enqueue c takes, h.queued, List.append_assoc]
  left := h.left
  applied := h.applied
  drained := h.drained

/-- A step that begins has everything ahead of it. -/
theorem Batch.going_began (q : CommandQueue CommandScript) :
    Batch.Going { found := q.queued } q q.beginStep [] q.queued where
  found := rfl
  queued := (List.append_nil _).symm
  left := rfl
  applied := rfl
  drained := rfl

/-- **The command that a step takes is the first one ahead of it.** -/
theorem Batch.Going.started (h : b.Going q d [] ahead) (taken : q.take d = some (c, r, e)) :
    ∃ behind, Batch.Going { b with started := b.started ++ [c] } r e c.acts behind := by
  obtain ⟨left, applied, -⟩ := CommandQueue.drain_of_take taken
  have queued := CommandQueue.queued_of_take taken
  rw [h.queued] at queued
  rw [h.left] at left
  cases ahead with
  | nil => cases left
  | cons first behind =>
    obtain ⟨rfl, rest⟩ := List.cons.inj queued
    refine ⟨behind, ?_, rest.symm, (Nat.succ.inj left).symm, ?_, ?_⟩
    · simp [h.found]
    · rw [applied, h.applied, List.length_append, List.length_singleton]
    · rw [h.drained, carryOn_nil, drained_cons]
      simp

theorem Batch.Going.acted {act : Act} (h : b.Going q d (act :: acts) ahead)
    (calm : act.panic? = none) : b.Going q d acts ahead where
  found := h.found
  queued := h.queued
  left := h.left
  applied := h.applied
  drained := by rw [h.drained, carryOn_cons_of_calm calm]

/-- A step that has nothing to take is done. -/
theorem Batch.Going.resumed (h : b.Going q d [] ahead) (spent : q.take d = none) :
    PastStep.Done { b with verdict := .outcome .resume, left := q.queued } := by
  have enough : d.left ≤ q.queued.length := by
    rw [h.left, h.queued, List.length_append]
    exact Nat.le_add_right _ _
  rw [CommandQueue.take_eq_none_iff enough, h.left, List.length_eq_zero_iff] at spent
  subst spent
  exact ⟨by simpa [Rehearsal.drained] using h.drained, by simp [h.found, h.queued]⟩

/-- A step whose command panics is done. -/
theorem Batch.Going.panicked {p : Panic} (h : b.Going q d (.panic p :: acts) ahead) :
    PastStep.Done { b with verdict := .panicked p, left := q.queued } where
  drained := by simpa using h.drained
  left := by simp [h.found, h.queued]

@[simp] theorem History.started_accepted (H : History) (c : CommandScript) :
    (H.add (.accepted c)).started = H.started := by
  simp only [History.started, History.add]
  cases H.current <;> rfl

/-- While a step is under way the law asks for one batch that says how far it has come. -/
theorem Law.of_going (conserved : q.isOpen = true → H.accepted = H.started ++ q.queued)
    (closed : q.isOpen = false → q.queued = []) (past : ∀ s ∈ H.past, s.Done)
    (here : H.current = some b) (going : b.Going q d acts ahead) :
    Law ⟨q, some (d, acts)⟩ H where
  conserved := conserved
  closed := closed
  past := past
  idle := by simp
  busy d' acts' w := by
    simp only [Option.some.injEq, Prod.mk.injEq] at w
    obtain ⟨rfl, rfl⟩ := w
    exact ⟨b, ahead, here, going⟩

/-- A command that is accepted is the last one queued, and joins the step under way. -/
theorem Law.accepted {x : Cell} (h : Law x H) (c : CommandScript)
    (takes : x.queue.isOpen = true) :
    Law { x with queue := (x.queue.enqueue c).2 } (H.add (.accepted c)) where
  conserved _ := by
    rw [History.started_accepted, CommandQueue.queued_enqueue c takes, ← List.append_assoc,
      ← h.conserved takes]
    rfl
  closed := by simp [CommandQueue.isOpen_enqueue, takes]
  past := h.past
  idle w := by simp [History.add, h.idle w]
  busy d acts w := by
    obtain ⟨b, ahead, here, going⟩ := h.busy d acts w
    exact ⟨_, ahead, by simp only [History.add, here]; rfl, going.accepted c takes⟩

/-- A step that begins finds all that is queued. -/
theorem Law.began (h : Law ⟨q, none⟩ H) :
    Law ⟨q, some (q.beginStep, [])⟩ (H.add (.began q.queued)) := by
  have none_ := h.idle rfl
  refine .of_going (fun takes => ?_) h.closed h.past rfl (Batch.going_began q)
  simpa [History.add, History.started, none_] using h.conserved takes

/-- A command that is taken moves from what is queued to what has been started. -/
theorem Law.took (h : Law ⟨q, some (d, [])⟩ H) (taken : q.take d = some (c, r, e)) :
    Law ⟨r, some (e, c.acts)⟩ (H.add (.started c)) := by
  obtain ⟨b, ahead, here, going⟩ := h.busy d [] rfl
  obtain ⟨behind, next⟩ := going.started taken
  have queued := CommandQueue.queued_of_take taken
  obtain ⟨-, -, same⟩ := CommandQueue.drain_of_take taken
  refine .of_going (fun takes => ?_) (fun shut => ?_) h.past
    (by simp only [History.add, here]; rfl) next
  · have before := h.conserved (same ▸ takes)
    rw [queued] at before
    simpa [History.add, History.started, here] using before
  · have empty := h.closed (same ▸ shut)
    rw [queued] at empty
    cases empty

/-- The step under way ends and joins the past. -/
theorem Law.ended {work : Option (Drain × List Act)} {v : Verdict} (h : Law ⟨q, work⟩ H)
    (here : H.current = some b) (done : PastStep.Done { b with verdict := v, left := q.queued }) :
    Law ⟨q, none⟩ (H.add (.ended v q.queued)) where
  conserved takes := by simpa [History.add, History.started, here] using h.conserved takes
  closed := h.closed
  past s hs := by
    simp only [History.add, here, Option.map_some, Option.toList_some, List.mem_append,
      List.mem_singleton] at hs
    obtain hs | rfl := hs
    · exact h.past s hs
    · exact done
  idle _ := rfl
  busy := by simp

/-- **Every turn keeps the law.** -/
theorem Law.turn {x y : Cell} {es : List Entry} (turn : x.Turn es y) :
    ∀ {H : History}, Law x H → Law y (es.foldl History.add H) := by
  induction turn with
  | rests x => exact id
  | accepted x c takes => exact fun h => h.accepted c takes
  | refused x c closed => exact id
  | began q => exact Law.began
  | started taken => exact fun h => h.took taken
  | acted q d acts calm =>
    intro H h
    obtain ⟨b, ahead, here, going⟩ := h.busy d _ rfl
    exact .of_going h.conserved h.closed h.past here (going.acted calm)
  | resumed spent =>
    intro H h
    obtain ⟨b, ahead, here, going⟩ := h.busy _ _ rfl
    exact h.ended here (going.resumed spent)
  | panicked q d p acts =>
    intro H h
    obtain ⟨b, ahead, here, going⟩ := h.busy _ _ rfl
    exact h.ended here going.panicked
  | closed q =>
    intro H h
    exact ⟨by simp [CommandQueue.close], fun _ => rfl, h.past, fun _ => h.idle rfl, by simp⟩
  | trans _ _ first second =>
    intro H h
    rw [List.foldl_append]
    exact second (first h)

end Keeps

end Rehearsal

end FrameLoop

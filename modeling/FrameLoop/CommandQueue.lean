/-!
# Commands kept for the next tick

Code outside the loop hands in commands; a job of the loop applies them during
its step, in the order in which they came. A step applies the commands that
were there when it began and no others, so a command that hands in further
commands leaves them to the next step. A command that panics ends the step;
what is behind it stays.

The queue is *open* as long as its job is alive. Nothing can be handed in
afterwards.
-/

namespace FrameLoop

/-- **A queue of commands**, oldest first. -/
structure CommandQueue (α : Type) where
  queued : List α := []
  isOpen : Bool := true
deriving Inhabited, Repr

/-- How far a step of the queue has come: how many commands it may still
apply and how many it has applied. -/
structure CommandQueue.Drain where
  left : Nat
  applied : Nat := 0
deriving DecidableEq, Inhabited, Repr

namespace CommandQueue

variable {α : Type}

/-- Hand in a command; refused once the queue is closed. -/
def enqueue (q : CommandQueue α) (c : α) : Bool × CommandQueue α :=
  if q.isOpen then (true, { q with queued := q.queued ++ [c] }) else (false, q)

/-- Begin a step: it is to apply what is queued now. -/
def beginStep (q : CommandQueue α) : Drain := { left := q.queued.length }

/-- The next command of a step, if the step has any left. -/
def take (q : CommandQueue α) (d : Drain) : Option (α × CommandQueue α × Drain) :=
  match d.left, q.queued with
  | left + 1, c :: rest =>
    some (c, { q with queued := rest }, { left, applied := d.applied + 1 })
  | _, _ => none

/-- The job is gone, and with it what was queued. -/
def close (q : CommandQueue α) : CommandQueue α := { q with queued := [], isOpen := false }

/-- Commands are handed in exactly while the queue is open. -/
theorem enqueue_fst (q : CommandQueue α) (c : α) : (q.enqueue c).1 = q.isOpen := by
  unfold enqueue; split <;> simp_all

/-- What is handed in goes behind everything that is queued. -/
theorem queued_enqueue {q : CommandQueue α} (c : α) (h : q.isOpen = true) :
    (q.enqueue c).2.queued = q.queued ++ [c] := by
  simp [enqueue, h]

/-- A command taken is the oldest. -/
theorem queued_of_take {q r : CommandQueue α} {d e : Drain} {c : α}
    (h : q.take d = some (c, r, e)) : q.queued = c :: r.queued := by
  unfold take at h
  split at h
  · next hq => simp only [Option.some.injEq, Prod.mk.injEq] at h; rw [hq, ← h.1, ← h.2.1]
  · contradiction

end CommandQueue

end FrameLoop

import FrameLoop.Proofs.Commands.Ends
import FrameLoop.Proofs.Commands.Settled

/-!
# Commands after every run

Commands come in from outside, from steps and hooks, and from other commands while their queue is
being drained, and a command may panic in the middle of it. `commands_in_order` says what holds of a
queue after any list of moves whatever. No command is lost, none is started twice, and none out of
order. A step finds what is queued when it begins, and starts just that; or it is ended by the first
command that panics, and leaves what is behind it to a later step. Commands are accepted as long as
the job is there.

**What this does not say.** A job is let go of where a move says so (`Move.tidy`), and a queue is
open until then; a rehearsal tidies up after every move. A command does its acts one after the other
and comes to its end, so that a command that hangs is not among those considered. That two steps of
one queue do not overlap is the work of the lock that `Stage.waits` stands for; `leads_follow` shows
that a rehearsal never comes upon it.
-/

namespace FrameLoop.Rehearsal.Stage

/-- **A queue keeps its commands, each once and in order, after every run.** While the job is there,
what was accepted is what was started followed by what is queued. Every step that has ended started
all that it found and resumed, or started its share up to a command that panicked, and left the rest
in order; the step under way has started the first part of what it found and has the rest ahead of
it, first in the queue. Commands are accepted exactly while the job is there. A step that begins
while no other is under way finds what is queued, also after a panic. And a step under way ends if
its thread is moved on, and is then reported with its verdict. -/
theorem commands_in_order (ms : List Move) {j : JobRef} {q : CommandQueue CommandScript}
    (made : (after ms).queues.lookup j = some q) :
    let st := after ms
    let H := history j ms
    (st.world.forest.has j = true → H.accepted = H.started ++ q.queued) ∧
      (∀ s ∈ H.past, s.Resumed ∨ ∃ before c behind p, s.Panicked before c behind p) ∧
      (∀ b, H.current = some b →
        ∃ ahead, b.found = b.started ++ ahead ∧ q.queued = ahead ++ b.joined) ∧
      (∀ c, (st.enqueue j c).1 = .flag (st.world.forest.has j)) ∧
      (∀ n t rest, st.thread? n = some t → t.frames = .launch j :: rest → H.current = none →
        (history j (ms ++ [.task (.resume n)])).current = some { found := q.queued }) ∧
      ∀ n t x, st.thread? n = some t → draining? t.frames = some (j, x) →
        ∃ b, H.current = some b ∧ Ends ms n j b.found ∧
          ((history j (ms ++ [.task (.resume n)])).current = none →
            ∃ s, (history j (ms ++ [.task (.resume n)])).past = H.past ++ [s] ∧
              Reports st (after (ms ++ [.task (.resume n)])) t j s.verdict) := by
  intro st H
  obtain ⟨tame, law, -⟩ := law_after ms j
  have law := law _ (cell?_of_lookup made)
  refine ⟨fun alive => law.conserved ((tame.isOpen made).trans alive),
    fun s hs => (law.past s hs).cases, fun b current => ?_, fun c => ?_,
    fun n t rest at_ top idle => begins made at_ top idle, fun n t x at_ here => ?_⟩
  · cases work : st.work? j with
    | none =>
      have idle := law.idle work
      rw [current] at idle
      cases idle
    | some x =>
      obtain ⟨b', ahead, current', going⟩ := law.busy x.1 x.2 work
      obtain rfl := Option.some.inj (current.symm.trans current')
      exact ⟨ahead, going.found, going.queued⟩
  · rw [enqueue_eq, made]
    exact congrArg _ ((q.enqueue_fst c).trans (tame.isOpen made))
  · obtain ⟨ht, number⟩ := thread_of_thread? at_
    have working := tame.work?_eq_some.2 ⟨n, t, ht, number, here⟩
    obtain ⟨b, ahead, current, -⟩ := law.busy x.1 x.2 working
    have found : H.current.map (·.found) = some b.found := by rw [current]; rfl
    refine ⟨b, current, ?_, reports_of_ended at_ here current⟩
    obtain ⟨d, acts⟩ := x
    unfold draining? at here
    split at here
    · next top => cases here; exact ends_of_queue at_ top found
    · next top => cases here; exact ends_of_command ends_of_queue at_ top found
    · cases here

/-- Moves in which a command hands another one in and the next command panics; then another step of
the same job is about to begin. -/
def panickingMoves : List Move :=
  [.act (.job ⟨"writes", "writes", .queue "sender"⟩),
    .act (.enqueue "sender" ⟨.text "first", [.enqueue "sender" ⟨.text "inner", []⟩]⟩),
    .act (.enqueue "sender" ⟨.text "bad", [.panic ⟨some "boom"⟩]⟩),
    .act (.enqueue "sender" ⟨.text "last", []⟩), .act (.step "writes")] ++
  List.replicate 7 (.task (.resume 0)) ++ [.act (.step "writes"), .task (.resume 1)]

/-- The panic ends the step, and the next step finds what it left and what came in. -/
theorem commands_in_order_of_panickingMoves :
    ∃ q, (after panickingMoves).queues.lookup 0 = some q ∧
      (history 0 panickingMoves).accepted = (history 0 panickingMoves).started ++ q.queued ∧
      (history 0 panickingMoves).started.map (·.tag) = [.text "first", .text "bad"] ∧
      q.queued.map (·.tag) = [.text "last", .text "inner"] ∧
      (history 0 panickingMoves).past.map (·.verdict) = [.panicked ⟨some "boom"⟩] ∧
      (history 0 (panickingMoves ++ [.task (.resume 1)])).current = some { found := q.queued } := by
  have there : ((after panickingMoves).queues.lookup 0).isSome = true := by decide
  obtain ⟨q, made⟩ := Option.isSome_iff_exists.1 there
  obtain ⟨conserved, -, -, -, begins, -⟩ := commands_in_order panickingMoves made
  have left : ((after panickingMoves).queueOf 0).queued.map (·.tag) =
      [.text "last", .text "inner"] := by decide
  rw [queueOf_eq made] at left
  have about : (after panickingMoves).thread? 1 =
      some { number := 1, owner := .call 2, frames := [.launch 0, .stepping 0] } := by rfl
  exact ⟨q, made, conserved (by decide), by decide, left, by decide, begins 1 _ _ about rfl rfl⟩

end FrameLoop.Rehearsal.Stage

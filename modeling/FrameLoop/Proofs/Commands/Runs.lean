import FrameLoop.Proofs.Commands.Moves

/-!
# Runs

A run is a list of moves from an empty stage, and the notes of a run add up to the history of each
queue. The law of a queue holds after every run (`law_after`): by induction on the moves, each of
which is a turn of the queue. Of the steps that have ended it says that each has either started all
that it found and resumed, or was ended by the first command that panicked.
-/

namespace FrameLoop.Rehearsal

/-! ## Steps that have ended -/

namespace PastStep

/-- **A step that started everything that it found**, and left what came in meanwhile. -/
structure Resumed (s : PastStep) : Prop where
  calm : ∀ c ∈ s.found, c.panic? = none
  started : s.started = s.found
  left : s.left = s.joined
  verdict : s.verdict = .outcome .resume

/-- **A step that was ended by a command**: it started that command last, and left everything
behind it, with what came in meanwhile behind that. -/
structure Panicked (s : PastStep) (before : List CommandScript) (c : CommandScript)
    (behind : List CommandScript) (p : Panic) : Prop where
  found : s.found = before ++ c :: behind
  calm : ∀ b ∈ before, b.panic? = none
  panics : c.panic? = some p
  started : s.started = before ++ [c]
  left : s.left = behind ++ s.joined
  verdict : s.verdict = .panicked p

theorem Done.cases {s : PastStep} (h : s.Done) :
    s.Resumed ∨ ∃ before c behind p, s.Panicked before c behind p := by
  obtain ⟨calm, whole⟩ | ⟨before, c, behind, p, found, calm, panics, part⟩ := drained_cases s.found
  · obtain ⟨started, verdict⟩ := Prod.mk.inj (h.drained.symm.trans whole)
    have left := h.left
    rw [started] at left
    exact .inl ⟨calm, started, (List.append_cancel_left left).symm, verdict⟩
  · obtain ⟨started, verdict⟩ := Prod.mk.inj (h.drained.symm.trans part)
    have left := h.left
    rw [started, found, List.append_assoc, List.append_assoc] at left
    have left := List.append_cancel_left left
    exact .inr ⟨before, c, behind, p, found, calm, panics, started,
      (List.cons.inj left).2.symm, verdict⟩

end PastStep

namespace Stage

variable {n : Nat} {j : JobRef} {rest : List Frame} {q : CommandQueue CommandScript}
  {ms : List Move}

/-! ## Runs -/

/-- **The stage after these moves**, from an empty one. -/
def after (ms : List Move) : Stage := ms.foldl move {}

/-- What is noted of a queue during these moves. -/
def noted (j : JobRef) : Stage → List Move → List Entry
  | _, [] => []
  | st, m :: ms => st.note j m ++ noted j (st.move m) ms

/-- **The history of a queue** after these moves. -/
def history (j : JobRef) (ms : List Move) : History := (noted j {} ms).foldl History.add {}

theorem after_concat (ms : List Move) (m : Move) : after (ms ++ [m]) = (after ms).move m := by
  rw [after, List.foldl_append]
  rfl

theorem noted_concat (j : JobRef) (st : Stage) (ms : List Move) (m : Move) :
    noted j st (ms ++ [m]) = noted j st ms ++ (ms.foldl move st).note j m := by
  induction ms generalizing st with
  | nil => simp [noted]
  | cons first ms ih => simp [noted, ih]

theorem history_concat (j : JobRef) (ms : List Move) (m : Move) :
    history j (ms ++ [m]) = ((after ms).note j m).foldl History.add (history j ms) := by
  rw [history, noted_concat, List.foldl_append]
  rfl

/-- **The law of every queue holds after every run**, and nothing is noted before a queue is
there. -/
theorem law_after (ms : List Move) (j : JobRef) :
    (after ms).Tame ∧ (∀ x, (after ms).cell? j = some x → Law x (history j ms)) ∧
      ((after ms).cell? j = none → history j ms = {}) := by
  induction ms using List.reverseRecOn with
  | nil => exact ⟨tame_empty, (fun x h => nomatch h), fun _ => rfl⟩
  | append_singleton ms m ih =>
    obtain ⟨tame, law, none_⟩ := ih
    have steps := tame.move_steps m
    rw [after_concat, history_concat]
    cases before : (after ms).cell? j with
    | some x =>
      have known : ((after ms).queues.lookup j).isSome = true := by
        rw [(lookup_of_cell? before).1]
        rfl
      obtain ⟨y, here, turn⟩ := steps.turn before
      rw [note, if_pos known]
      refine ⟨steps.tame, fun z hz => ?_, fun absent => ?_⟩
      · obtain rfl := Option.some.inj (here.symm.trans hz)
        exact (law x before).turn turn
      · rw [here] at absent
        cases absent
    | none =>
      have unknown : ((after ms).queues.lookup j).isSome = false := by
        rw [cell?_eq_none.1 before]
        rfl
      rw [note, unknown, none_ before]
      refine ⟨steps.tame, fun y hy => ?_, fun _ => rfl⟩
      obtain rfl := steps.made before hy
      exact law_new

theorem tame_after (ms : List Move) : (after ms).Tame := (law_after ms 0).1

/-! ## A step begins -/

/-- **A step begins** with what is queued, if no other is under way. -/
theorem begins {t : Thread} (made : (after ms).queues.lookup j = some q)
    (at_ : (after ms).thread? n = some t) (top : t.frames = .launch j :: rest)
    (idle : (history j ms).current = none) :
    (history j (ms ++ [.task (.resume n)])).current = some { found := q.queued } := by
  have tame := tame_after ms
  obtain ⟨sender, told⟩ := tame.conducted made
  have unused : (after ms).work? j = none := by
    cases work : (after ms).work? j with
    | none => rfl
    | some x =>
      obtain ⟨b, ahead, current, -⟩ :=
        ((law_after ms j).2.1 _ (cell?_of_lookup made)).busy x.1 x.2 work
      rw [idle] at current
      cases current
  have free : (after ms).waits t = false := by simp [waits, top, told, unused]
  have noted : (after ms).note j (.task (.resume n)) = [.began q.queued] := by
    rw [note, if_pos (by rw [made]; rfl), noteMove, at_]
    simp only [free, Bool.false_eq_true, if_false, top, noteFrames, told, if_true, queueOf_eq made]
  rw [history_concat, noted]
  rfl

end Stage

end FrameLoop.Rehearsal

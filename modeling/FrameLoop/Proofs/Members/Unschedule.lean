import FrameLoop.Proofs.Errors
import FrameLoop.Proofs.Members
import FrameLoop.Proofs.Tick.Detach

/-!
# Taking a job out

`World.unschedule` takes a job from its parent, or from the registry if it has none. What
that comes to is said by `unschedule_exact`. A job that belongs to the scheduler is always
taken from somewhere, and what is refused changes nothing. Afterwards the job has no parent;
and unless it is registered still, it belongs to the scheduler no more, and no tick that
starts later launches it before somebody gives it a place again. A tick that is in flight may
have found the job already, and runs it then.

The function asks for the parent only, so it does not see two things. A registered job that
has a parent is taken from the parent and stays registered (`registered_child_stays`). And a
child is taken from its parent even if it belongs to another scheduler, or to none
(`foreign_child_taken`).

What carries the second half is that a job comes into a tick from the registry or from the
children of a job that returns (`TickRecord.Offers`), and a job without a place is in
neither.
-/

namespace FrameLoop

/-! ## Where a tick finds a job -/

/-- **An entry from which a job may come into a tick.** -/
def Entry.Offers (j : JobRef) : Entry → Prop
  | .began registry => j ∈ registry
  | .launched _ => False
  | .returned b => j ∈ b.children

/-- **A tick that a job may have come into.** -/
def TickRecord.Offers (j : JobRef) (t : TickRecord) : Prop :=
  j ∈ t.registry ∨ ∃ b ∈ t.returns, j ∈ b.children

variable {j : JobRef}

/-- A tick launches only whom it has been offered. -/
theorem TickRecord.Exact.offers {t : TickRecord} (exact : t.Exact) (launched : j ∈ t.launched) :
    t.Offers j := by
  rcases exact.origin launched with registered | ⟨c, wave, b, ret, -, child⟩
  · exact .inl registered
  · exact .inr ⟨b, List.mem_flatMap.2 ⟨c, wave, ret⟩, child⟩

/-- What a tick that has grown is offered it was before, or is with the last entry. -/
theorem TickRecord.Grows.offers {t t' : TickRecord} {e : Entry} (grows : t.Grows e t')
    (h : t'.Offers j) : t.Offers j ∨ e.Offers j := by
  cases grows with
  | launched wave =>
    rw [Offers, returns_launch] at h
    exact .inl h
  | returned b =>
    by_cases none : t.waves = []
    · rw [settle_of_nil none] at h
      exact .inl h
    · rw [Offers, returns_settle none, registry_settle] at h
      rcases h with registered | ⟨d, ret, child⟩
      · exact .inl (.inl registered)
      · rcases List.mem_append.1 ret with old | new
        · exact .inl (.inr ⟨d, old, child⟩)
        · obtain rfl := List.mem_singleton.1 new
          exact .inr child

/-- **What a later tick is offered stands in an entry that was added.** -/
theorem Journal.offers_of_ticks {J K : Journal} {before after : List TickRecord} {t : TickRecord}
    (split : Journal.ticks (J ++ K) = before ++ t :: after)
    (later : J.ticks.length ≤ before.length) (h : t.Offers j) : ∃ e ∈ K, e.Offers j := by
  induction K using List.reverseRecOn generalizing t after with
  | nil =>
    rw [List.append_nil] at split
    rw [split, List.length_append, List.length_cons] at later
    omega
  | append_singleton K e ih =>
    have earlier {after : List TickRecord} {u : TickRecord}
        (split : Journal.ticks (J ++ K) = before ++ u :: after) (h : u.Offers j) :
        ∃ e' ∈ K ++ [e], e'.Offers j := by
      obtain ⟨e', here, offers⟩ := ih split h
      exact ⟨e', List.mem_append_left _ here, offers⟩
    have last : e ∈ K ++ [e] := List.mem_append_right _ (List.mem_singleton_self e)
    rw [← List.append_assoc] at split
    obtain ⟨registry, rfl, begun⟩ | ⟨-, none⟩ | ⟨past, u, u', was, grows, now⟩ :=
      ticks_concat_cases (J ++ K) e
    · rw [begun] at split
      rcases split_concat split.symm with ⟨-, rfl, -⟩ | ⟨rest, -, old⟩
      · rcases h with registered | ⟨b, ret, -⟩
        · exact ⟨_, last, registered⟩
        · cases ret
      · exact earlier old h
    · rw [none] at split
      cases before <;> cases split
    · rw [now] at split
      rcases split_concat split.symm with ⟨rfl, rfl, -⟩ | ⟨rest, -, old⟩
      · rcases grows.offers h with old | new
        · exact earlier was old
        · exact ⟨e, last, new⟩
      · have before : Journal.ticks (J ++ K) = before ++ t :: (rest ++ [u]) := by
          rw [was, old]
          simp
        exact earlier before h

/-! ## A job without a place -/

namespace World

variable {w : World} {r : SchedulerRef} {J : Journal}

/-- What is noted of a tick that begins is the registry. -/
theorem registry_of_began {e : Event} {registry : List JobRef}
    (seen : Entry.began registry ∈ w.observe r J e) : registry = (w.scheduler r).registry := by
  obtain ⟨-, -, ⟨⟩⟩ | ⟨_, _, -, -, ⟨⟩⟩ | ⟨_, ⟨⟩⟩ := mem_observe seen
  rfl

namespace Placeless

theorem not_member (h : w.Placeless r j) : ¬ w.Member r j := by
  rintro ⟨x, registered, within⟩
  obtain rfl := Forest.eq_of_within_of_top h.top within
  exact h.unregistered registered

/-- A job without a place is offered to no tick. -/
theorem not_offers (h : w.Placeless r j) (linked : w.forest.Linked)
    (agrees : (w.scheduler r).Agrees J) {e : Event} {x : Entry} (seen : x ∈ w.observe r J e) :
    ¬ x.Offers j := by
  cases x with
  | began registry =>
    obtain rfl := registry_of_began seen
    exact h.unregistered
  | launched wave => exact not_false
  | returned b =>
    obtain ⟨k, v, -, -, rfl⟩ := returned_mem_observe agrees seen
    intro child
    cases h.top.symm.trans ((linked.mem_children k j).1 child)

/-- **As long as nobody gives the job a place** it has none, and is offered to no tick. -/
theorem run {es more : List Event} (h : (run es).Placeless r j)
    (unplaced : unplaced r j (run es) more = true) :
    (World.run (es ++ more)).Placeless r j ∧
      ∃ added, journal r (es ++ more) = journal r es ++ added ∧ ∀ x ∈ added, ¬ x.Offers j := by
  induction more using List.reverseRecOn with
  | nil => exact ⟨by rwa [List.append_nil], [], by simp, by simp⟩
  | append_singleton more e ih =>
    rw [unplaced_concat, Bool.and_eq_true, bne_iff_ne, ← run_append] at unplaced
    obtain ⟨now, added, grown, unoffered⟩ := ih unplaced.1
    rw [← List.append_assoc, run_concat, journal_concat, grown, List.append_assoc]
    refine ⟨now.step unplaced.2, _, rfl, ?_⟩
    rw [List.forall_mem_append]
    refine ⟨unoffered, fun x seen => ?_⟩
    rw [← grown] at seen
    exact now.not_offers (held_run _).linked (agrees_run _ r) seen

/-- **No tick that starts later launches the job.** -/
theorem not_launched {es more : List Event} (h : (World.run es).Placeless r j)
    (unplaced : unplaced r j (World.run es) more = true) {before after : List TickRecord}
    {t : TickRecord} (split : (journal r (es ++ more)).ticks = before ++ t :: after)
    (later : (journal r es).ticks.length ≤ before.length) : j ∉ t.launched := by
  intro launched
  have offers := (tick_cases r _ split).1.offers launched
  obtain ⟨-, added, grown, unoffered⟩ := h.run unplaced
  rw [grown] at split
  obtain ⟨x, here, offered⟩ := Journal.offers_of_ticks split later offers
  exact unoffered x here offered

end Placeless

/-! ## Taking a job out -/

variable {id : JobId}

/-- **What is refused changes nothing.** -/
theorem unschedule_absent (top : w.forest.parent j = none) (absent : j ∉ (w.scheduler r).registry) :
    w.unschedule id r j = (.error (.jobNotFound id), w) := by
  rw [unschedule, Scheduler.remove_absent top absent]
  rfl

/-- **A job that is registered or has a parent is taken from there.** -/
theorem unschedule_present (id : JobId) (linked : w.forest.Linked)
    (place : j ∈ (w.scheduler r).registry ∨ w.forest.parent j ≠ none) :
    (w.unschedule id r j).1 = .ok () ∧
      (w.unschedule id r j).2.schedulers =
        w.schedulers.set r ((w.scheduler r).remove w.forest j).2.1 ∧
      (w.unschedule id r j).2.forest = ((w.scheduler r).remove w.forest j).2.2 := by
  have taken : ((w.scheduler r).remove w.forest j).1 = true := by
    by_contra kept
    obtain ⟨top, absent⟩ := Scheduler.absent_of_remove linked (by simpa using kept)
    exact place.elim absent fun attached => attached top
  rw [unschedule]
  dsimp only
  rw [if_pos taken]
  exact ⟨rfl, w.schedulers_setScheduler r _, rfl⟩

theorem unschedule_ok_iff (linked : w.forest.Linked) :
    (w.unschedule id r j).1 = .ok () ↔
      j ∈ (w.scheduler r).registry ∨ w.forest.parent j ≠ none := by
  constructor
  · intro done
    by_contra nowhere
    rw [not_or, not_not] at nowhere
    rw [unschedule_absent nowhere.2 nowhere.1] at done
    cases done
  · intro place
    exact (unschedule_present id linked place).1

/-- A job that belongs to a scheduler is registered there or has a parent that does. -/
theorem Member.cases (h : w.Member r j) :
    j ∈ (w.scheduler r).registry ∨ ∃ p, w.forest.parent j = some p ∧ w.Member r p := by
  obtain ⟨x, registered, within⟩ := h
  cases within.cases_head with
  | inl same => exact .inl (same ▸ registered)
  | inr up =>
    obtain ⟨p, parent, above⟩ := up
    exact .inr ⟨p, parent, x, registered, above⟩

/-- **Where everybody is after a job has been taken out**: its parent is gone, and the
registry has lost it if it had none. Nobody else is anywhere else. -/
theorem unschedule_places (id : JobId) (held : w.Held) (here : r < w.schedulers.length)
    (place : j ∈ (w.scheduler r).registry ∨ w.forest.parent j ≠ none) :
    let left := (w.unschedule id r j).2
    (∀ k, left.forest.parent k = if k = j then none else w.forest.parent k) ∧
      (∀ k, k ∈ (left.scheduler r).registry ↔
        k ∈ (w.scheduler r).registry ∧ (k = j → w.forest.parent j ≠ none)) ∧
      ∀ q, q ≠ r → left.scheduler q = w.scheduler q := by
  intro left
  obtain ⟨-, schedulers, forest⟩ := unschedule_present id held.linked place
  have own : left.scheduler r = ((w.scheduler r).remove w.forest j).2.1 := by
    rw [scheduler, schedulers]
    simp [here]
  refine ⟨?_, ?_, ?_⟩
  · intro k
    rw [forest, Forest.parent, held.linked.node?_remove, Forest.parent]
    cases w.forest.node? k with
    | none => exact (ite_self none).symm
    | some n => rfl
  · intro k
    rw [own, Scheduler.registry_remove]
    split
    · next top =>
      rw [(held.nodup r).mem_erase_iff]
      simp [top, and_comm]
    · next attached => simp [attached]
  · intro q other
    rw [scheduler, schedulers]
    simp [scheduler, Ne.symm other]

/-- **Taking a job out.** It succeeds if the job is registered or has a parent. That is so
of every job that belongs to the scheduler, and of no other unless that has a parent
elsewhere. If it does not succeed, the job is reported as not found and the world is what it
was. If it does, the job has no parent, it is registered still only if it was and had a
parent, too, and all other jobs and schedulers are where they were. If it is not registered
any more, it does not belong to the scheduler, is not contained, and no tick of the
scheduler that starts later launches it, as long as nobody registers it or attaches it. -/
theorem unschedule_exact {es : List Event}
    (can : (Event.unschedule id r j).canHappen (run es) = true) :
    let w := run es
    let left := run (es ++ [.unschedule id r j])
    ((w.unschedule id r j).1 = .ok () ↔
        j ∈ (w.scheduler r).registry ∨ w.forest.parent j ≠ none) ∧
      (w.Member r j → (w.unschedule id r j).1 = .ok ()) ∧
      ((w.forest.parent j ≠ none → w.Member r j) →
        ((w.unschedule id r j).1 = .ok () ↔ w.Member r j)) ∧
      ((w.unschedule id r j).1 ≠ .ok () →
        (w.unschedule id r j).1 = .error (.jobNotFound id) ∧ left = w) ∧
      ((w.unschedule id r j).1 = .ok () →
        (∀ k, left.forest.parent k = if k = j then none else w.forest.parent k) ∧
        (∀ k, k ∈ (left.scheduler r).registry ↔
          k ∈ (w.scheduler r).registry ∧ (k = j → w.forest.parent j ≠ none)) ∧
        (∀ q, q ≠ r → left.scheduler q = w.scheduler q) ∧
        (j ∉ (left.scheduler r).registry →
          ¬ left.Member r j ∧ left.contains r j = false ∧
            ∀ more, unplaced r j left more = true →
              let later := journal r (es ++ [.unschedule id r j] ++ more)
              ∀ before t after, later.ticks = before ++ t :: after →
                (journal r (es ++ [.unschedule id r j])).ticks.length ≤ before.length →
                  j ∉ t.launched)) := by
  intro w left
  have held : w.Held := held_run es
  have there : w.hasScheduler r = true := by
    rw [Event.canHappen, Bool.and_eq_true] at can
    exact can.1
  have success : (w.unschedule id r j).1 = .ok () ↔
      j ∈ (w.scheduler r).registry ∨ w.forest.parent j ≠ none := unschedule_ok_iff held.linked
  have leaves : left = (w.unschedule id r j).2 := run_concat_of_canHappen can
  have taken (member : w.Member r j) : (w.unschedule id r j).1 = .ok () := by
    refine success.2 (member.cases.imp_right ?_)
    rintro ⟨p, parent, -⟩ top
    cases parent.symm.trans top
  refine ⟨success, taken, ?_, ?_, ?_⟩
  · intro own
    refine ⟨fun done => ?_, taken⟩
    rcases success.1 done with registered | attached
    · exact ⟨j, registered, .refl⟩
    · exact own attached
  · intro refused
    rw [Ne, success, not_or, not_not] at refused
    rw [leaves, unschedule_absent refused.2 refused.1]
    exact ⟨rfl, rfl⟩
  · intro done
    obtain ⟨parents, registry, others⟩ :=
      unschedule_places id held (length_of_hasScheduler there) (success.1 done)
    rw [← leaves] at parents registry others
    refine ⟨parents, registry, others, ?_⟩
    intro unregistered
    have gone : left.Placeless r j := ⟨unregistered, by rw [parents, if_pos rfl]⟩
    refine ⟨gone.not_member, ?_, ?_⟩
    · by_contra contained
      rw [Bool.not_eq_false] at contained
      exact gone.not_member (.of_contains (acyclic_run _) contained)
    · intro more unplaced later before t after split late
      exact gone.not_launched unplaced split late

/-- What happens after the child has been taken out: its step returns, and the next tick
runs the parent. -/
def nextTick : List Event :=
  [.returned 0 1 (.outcome .resume), .poll 0, .returned 0 0 (.outcome .resume)]

/-- The child is taken out while the tick runs it. The next tick runs the parent only. -/
theorem unschedule_exact_of_familyRun :
    ((run familyRun).unschedule ⟨"child"⟩ 0 1).1 = .ok () ∧
      (run (familyRun ++ [.unschedule ⟨"child"⟩ 0 1])).contains 0 1 = false ∧
      ∃ first second, (journal 0 (familyRun ++ [.unschedule ⟨"child"⟩ 0 1] ++ nextTick)).ticks =
        [first] ++ second :: [] ∧ first.launched = [0, 1] ∧ 1 ∉ second.launched := by
  have can : (Event.unschedule ⟨"child"⟩ 0 1).canHappen (run familyRun) = true := by decide
  obtain ⟨-, member, -, -, leaves⟩ := unschedule_exact can
  have done := member ⟨0, by decide, .single (by decide : (run familyRun).forest.parent 1 = some 0)⟩
  obtain ⟨-, -, -, gone⟩ := leaves done
  obtain ⟨-, outside, final⟩ := gone (by decide)
  have launches : (journal 0 (familyRun ++ [.unschedule ⟨"child"⟩ 0 1] ++ nextTick)).ticks.map
      (·.launched) = [[0, 1], [0]] := by
    decide
  obtain ⟨first, rest, split, both, more⟩ := List.map_eq_cons_iff.1 launches
  obtain ⟨second, none, rfl, -, nothing⟩ := List.map_eq_cons_iff.1 more
  obtain rfl := List.map_eq_nil_iff.1 nothing
  have begun : (journal 0 (familyRun ++ [.unschedule ⟨"child"⟩ 0 1])).ticks.length = 1 := by decide
  exact ⟨done, outside, first, second, split, both,
    final nextTick (by decide) [first] second [] split (Nat.le_of_eq begun)⟩

/-- **A registered child stays registered when it is taken out.** It is contained then, and
the next tick launches it. -/
theorem registered_child_stays :
    ((run adoptedRun).unschedule ⟨"child"⟩ 0 1).1 = .ok () ∧
      (run (adoptedRun ++ [.unschedule ⟨"child"⟩ 0 1])).contains 0 1 = true ∧
      1 ∈ ((run (adoptedRun ++ [.unschedule ⟨"child"⟩ 0 1])).scheduler 0).registry ∧
      unplaced 0 1 (run (adoptedRun ++ [.unschedule ⟨"child"⟩ 0 1])) [.poll 0] = true ∧
      (journal 0 (adoptedRun ++ [.unschedule ⟨"child"⟩ 0 1, .poll 0])).ticks.map (·.launched) =
        [[1]] := by
  rw [unschedule_ok_iff (held_run adoptedRun).linked]
  decide

/-- A run after which there are two schedulers, and a tree is registered with the second. -/
def strangersRun : List Event :=
  [.newJob "parent", .newJob "child", .attach 0 1, .newScheduler ⟨"first"⟩ .zero .zero,
    .newScheduler ⟨"second"⟩ .zero .zero, .schedule 1 0]

/-- **A scheduler that has no jobs takes a child from its parent**, and so from the scheduler
to which they belong. -/
theorem foreign_child_taken :
    ((run strangersRun).scheduler 0).registry = [] ∧ (run strangersRun).contains 1 1 = true ∧
      ((run strangersRun).unschedule ⟨"child"⟩ 0 1).1 = .ok () ∧
      (run (strangersRun ++ [.unschedule ⟨"child"⟩ 0 1])).contains 1 1 = false ∧
      (run (strangersRun ++ [.unschedule ⟨"child"⟩ 0 1])).forest.children 0 = [] := by
  rw [unschedule_ok_iff (held_run strangersRun).linked]
  decide

end World

end FrameLoop

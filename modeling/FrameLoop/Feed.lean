import FrameLoop.Duration

/-!
# Wake-ups delivered by hand

A `Feed` is the line between the triggers that hosts hold and the one source
that listens at the other end. Readings leave in the order in which they were
put in. Whether the line is still of use to either side is counted, not
guessed: it is *exhausted* only when it is empty and no trigger is left, and a
trigger is *connected* exactly while somebody listens. Closing the line throws
away what is still queued.
-/

namespace FrameLoop

/-- **A line of wake-ups**: the readings not yet taken, oldest first, how many
triggers feed it, and whether the source still listens. -/
structure Feed where
  queued : List Instant := []
  triggers : Nat := 1
  listening : Bool := true
deriving DecidableEq, Inhabited, Repr

/-- What asking a source for its next wake-up may give. -/
inductive Offer where
  /-- Nothing yet; ask again later. -/
  | pending
  /-- Nothing now and nothing ever. -/
  | exhausted
  /-- The source itself broke, with this message. -/
  | broken (message : String)
  /-- A wake-up with its clock reading. -/
  | reading (t : Instant)
deriving DecidableEq, Repr

namespace Feed

/-- Put a reading in. Refused, with the line unchanged, once nobody listens. -/
def fire (f : Feed) (t : Instant) : Bool × Feed :=
  if f.listening then (true, { f with queued := f.queued ++ [t] }) else (false, f)

/-- The next wake-up for the listening side, and the line after it. -/
def next (f : Feed) : Offer × Feed :=
  match f.queued with
  | t :: rest => (.reading t, { f with queued := rest })
  | [] => (if f.triggers = 0 then .exhausted else .pending, f)

/-- One more trigger feeds the line. -/
def addTrigger (f : Feed) : Feed := { f with triggers := f.triggers + 1 }

/-- One trigger less feeds the line. -/
def dropTrigger (f : Feed) : Feed := { f with triggers := f.triggers - 1 }

/-- The listening side is gone. -/
def close (f : Feed) : Feed := { f with queued := [], listening := false }

/-- Firing succeeds exactly while somebody listens. -/
theorem fire_fst (f : Feed) (t : Instant) : (f.fire t).1 = f.listening := by
  unfold fire; split <;> simp_all

/-- Firing lets nobody in or out. -/
@[simp] theorem listening_fire (f : Feed) (t : Instant) : (f.fire t).2.listening = f.listening := by
  unfold fire; split <;> rfl

/-- A reading goes behind everything that is queued. -/
theorem queued_fire {f : Feed} (t : Instant) (h : f.listening = true) :
    (f.fire t).2.queued = f.queued ++ [t] := by
  simp [fire, h]

/-- A wake-up taken is the oldest. -/
theorem next_of_queued {f : Feed} {t : Instant} {rest : List Instant} (h : f.queued = t :: rest) :
    f.next = (.reading t, { f with queued := rest }) := by
  simp [next, h]

end Feed

/-! ## Triggers by number

A bench of triggers for one feed: numbers are given out in order and a number
is not given out again after its trigger was dropped. -/

/-- **A feed with numbered triggers.** `live[i]` says whether trigger `i` is
still held; `source` is gone once the listening side was dropped. -/
structure TriggerBench where
  feed : Feed := {}
  live : List Bool := [true]
deriving Inhabited, Repr

namespace TriggerBench

/-- What can be asked of the bench. -/
inductive Action where
  | next
  | dropSource
  | fire (trigger : Nat) (t : Instant)
  | connected (trigger : Nat)
  | clone (trigger : Nat)
  | drop (trigger : Nat)

/-- What the bench answers. -/
inductive Answer where
  | offer (o : Offer)
  | noSource
  | noTrigger
  | flag (b : Bool)
  | index (n : Nat)
  | done

/-- One action on the bench. -/
def act (b : TriggerBench) : Action → Answer × TriggerBench
  | .next =>
    if b.feed.listening then (.offer b.feed.next.1, { b with feed := b.feed.next.2 })
    else (.noSource, b)
  | .dropSource => (.done, { b with feed := b.feed.close })
  | .fire i t =>
    if b.live.getD i false then (.flag (b.feed.fire t).1, { b with feed := (b.feed.fire t).2 })
    else (.noTrigger, b)
  | .connected i =>
    if b.live.getD i false then (.flag b.feed.listening, b) else (.noTrigger, b)
  | .clone i =>
    if b.live.getD i false then
      (.index b.live.length, { feed := b.feed.addTrigger, live := b.live ++ [true] })
    else (.noTrigger, b)
  | .drop i =>
    if b.live.getD i false then
      (.done, { feed := b.feed.dropTrigger, live := b.live.set i false })
    else (.noTrigger, b)

/-- The answers to a list of actions. -/
def run (b : TriggerBench) : List Action → List Answer
  | [] => []
  | a :: rest => (b.act a).1 :: run (b.act a).2 rest

end TriggerBench

end FrameLoop

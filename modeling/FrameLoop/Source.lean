import FrameLoop.Interval

/-!
# Where wake-ups come from

A source is asked for its next wake-up and makes an `Offer`. Two kinds are
built in, the listening end of a `Feed` and an `Interval`. A source of the host's
own is, in any run, the list of what it offers one after another: that it has
nothing yet is a look-up that does not happen, and what else it does while it is
asked, a stop request for example, are events of their own.
-/

namespace FrameLoop

/-- A feed, by its number in the order of creation. -/
abbrev FeedRef := Nat

/-- **A source of wake-ups.** -/
inductive Source where
  /-- The listening end of a feed. -/
  | manual (feed : FeedRef)
  /-- Wake-ups at a fixed rate. -/
  | interval (i : Interval)
  /-- Offers prepared beforehand. -/
  | script (offers : List Offer)
deriving Inhabited, Repr

namespace Source

/-- The feed a source listens to. -/
def feed? : Source → Option FeedRef
  | manual q => some q
  | _ => none

/-- What the source offers at `now`, given the feeds, with the source and the
feeds after it. -/
def next (feeds : List Feed) (now : Nat) : Source → Offer × Source × List Feed
  | manual q =>
    let f := feeds.getD q { listening := false, triggers := 0 }
    (f.next.1, manual q, feeds.set q f.next.2)
  | interval i => ((i.next now).1, interval (i.next now).2, feeds)
  | script [] => (.exhausted, script [], feeds)
  | script (o :: rest) => (o, script rest, feeds)

/-- Whether asking at `now` would give something. -/
def ready (feeds : List Feed) (now : Nat) (s : Source) : Bool := (s.next feeds now).1 != .pending

end Source

end FrameLoop

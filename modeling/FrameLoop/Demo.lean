import FrameLoop.Notice

/-!
# The demonstration

Three jobs to show a loop at work. The heartbeat counts its steps and tells
the log of every sixtieth. The warm-up runs once and detaches. The fault
injector resumes until a given step and aborts from then on.
-/

namespace FrameLoop.Demo

/-- How many beats lie between two lines of the log. -/
def beatsPerNotice : Nat := 60

def heartbeatName : String := "heartbeat"

def warmupName : String := "warmup"

def faultInjectorName : String := "fault-injector"

/-- What the log is told of the beat with this number. -/
def beatNotices (beat : Nat) : List Notice :=
  if beat % beatsPerNotice = 0 then [.heartbeat beat] else []

/-- How the `call`-th step of a fault injector ends, the steps being counted
from one: it aborts from the `after`-th on, and from the first at the latest. -/
def faultInjector (after call : Nat) : JobOutcome := if after ≤ call then .abort else .resume

end FrameLoop.Demo

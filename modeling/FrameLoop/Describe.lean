import FrameLoop.Quoted
import FrameLoop.World.Services

/-!
# Readable descriptions

One line about a scheduler, a job or an engine, for people who debug. The
caller says how a job's id reads.
-/

namespace FrameLoop.World

/-- Named values between braces. -/
def braced (name : String) (fields : List (String × String)) (rest : String) : String :=
  name ++ " \x7b " ++ ", ".intercalate (fields.map fun (k, v) => k ++ ": " ++ v) ++ rest ++ " \x7d"

/-- What there is to say about a scheduler. -/
def describeScheduler (w : World) (r : SchedulerRef) : String :=
  let s := w.scheduler r
  braced "Scheduler"
    [("loop_id", "LoopId(" ++ Quoted.text s.loopId.text ++ ")"), ("state", s.state.title),
      ("jobs", toString (w.jobCount r)), ("frame_delay", s.frameDelay.text)] ""

/-- What there is to say about a job. -/
def describeJob (w : World) (id : JobId) (j : JobRef) : String :=
  braced "Job"
    [("id", "JobId(" ++ Quoted.text id.text ++ ")"), ("name", Quoted.text (w.forest.name j)),
      ("children", toString (w.forest.children j).length)] ", .."

/-- What there is to say about an engine. -/
def describeEngine (w : World) (e : EngineRef) : String :=
  let g := w.engine e
  braced "Engine"
    [("state", g.state.title), ("services", Quoted.list g.names),
      ("scheduler", w.describeScheduler g.scheduler)] ""

end FrameLoop.World

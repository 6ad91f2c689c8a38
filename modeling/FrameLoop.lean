import FrameLoop.CommandLine.Outcome
import FrameLoop.Exchange
import FrameLoop.Main
import FrameLoop.Proofs.Forest
import FrameLoop.Proofs.Lifecycle
import FrameLoop.Proofs.Pacer.Cells
import FrameLoop.Proofs.Stop
import FrameLoop.Proofs.Tick.Barrier
import FrameLoop.Proofs.Tick.Detach
import FrameLoop.Proofs.Tick.Fault
import FrameLoop.Proofs.Tick.LaunchSet
import FrameLoop.Proofs.Wakeups
import FrameLoop.Rehearsal.Session
import FrameLoop.Proofs.Forest.Levels
import FrameLoop.Proofs.Forest.Pruned
import FrameLoop.Proofs.Tick.Levels
import FrameLoop.Proofs.Tick.Undisturbed
import FrameLoop.Proofs.Tick.Order
import FrameLoop.Proofs.Engine.Calls
import FrameLoop.Proofs.Engine.Affairs
import FrameLoop.Proofs.Engine.Services
import FrameLoop.Proofs.Engine.Started
import FrameLoop.Proofs.Engine.Teardown
import FrameLoop.Proofs.Engine.Hooks
import FrameLoop.Proofs.Engine.Registry
import FrameLoop.Proofs.Engine.Live
import FrameLoop.Proofs.Commands
import FrameLoop.Proofs.Tick.Stats
import FrameLoop.Proofs.Errors
import FrameLoop.Proofs.Wakeups.Lifetime
import FrameLoop.Proofs.Wakeups.Rate
import FrameLoop.Proofs.Members.Count
import FrameLoop.Proofs.Members.Unschedule
import FrameLoop.Proofs.Settings.Layers
import FrameLoop.Proofs.Forest.Attach
import FrameLoop.Proofs.Forest.Walks
import FrameLoop.Proofs.Pacer.Reference
import FrameLoop.Proofs.Tick.Termination
import FrameLoop.Proofs.Binary64
import FrameLoop.Proofs.Calendar
import FrameLoop.Proofs.Digits
import FrameLoop.Proofs.Exchange
import FrameLoop.Proofs.Millis
import FrameLoop.Proofs.Settings.Overlong
import FrameLoop.Proofs.Demo

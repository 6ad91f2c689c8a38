import FrameLoop.Demo.Play
import FrameLoop.Proofs.Demo.Stage
import FrameLoop.Proofs.Engine.Affairs
import Mathlib.Tactic

/-!
# The demonstration on a host

The program starts the engine, and from then on two go their own ways. The start of the engine has
the hook of the heartbeat to run, which brings a job along (`brings`). And the host lets time pass,
wakes the driver, lets it look up and reports its steps (`Hosts`). A run is `Hosted` if the two
come in some order: the driver may look up before there is a heartbeat, or between any two things
that the start does. A wake-up may be noticed late, and the steps of a tick return as they like.

**The law** (`Hosted.paced`): each such run is a demonstration on a source at a fixed rate. So it
is on its course (`Paced.onCourse`), the tick that is asked for being the same on every host.

**What a host may change** is who is registered when. A tick that begins before the heartbeat is
there goes without it, so how many jobs a tick has is for the host to say.
-/

namespace FrameLoop

namespace World

variable {r : SchedulerRef} {e : EngineRef} {c : CallRef} {s : Service} {j : JobRef}

/-- A job that is registered comes last, if there is anything of it to be seen. -/
theorem scheduler_schedule (w : World) (r : SchedulerRef) (j : JobRef) :
    (w.schedule r j).2.scheduler r = w.scheduler r ∨
      j ∉ (w.scheduler r).registry ∧ (w.schedule r j).2.scheduler r =
        { w.scheduler r with registry := (w.scheduler r).registry ++ [j] } := by
  by_cases here : r < w.schedulers.length
  · unfold schedule
    dsimp only
    split
    · exact .inl rfl
    · rw [scheduler_tell, scheduler_setScheduler_self _ here, Scheduler.schedule]
      split
      · exact .inl rfl
      · next fresh => exact .inr ⟨fun known => fresh (.inr known), rfl⟩
  · have same : (w.schedule r j).2.schedulers.length = w.schedulers.length := length_schedule w r j
    rw [scheduler_of_length_le (Nat.le_of_not_lt here),
      scheduler_of_length_le (same ▸ Nat.le_of_not_lt here)]
    exact .inl rfl

/-- **A start hook that returns with a job** offers it to the scheduler, and that is all. -/
theorem run_hookReturned_of_starting {es : List Event} {rest : List Service}
    (call : (run es).call? c = some ⟨c, e, .starting (s :: rest)⟩)
    (mine : ((run es).engine e).scheduler = r) :
    ((run (es ++ [.hookReturned c (.ok (some j))])).scheduler r = (run es).scheduler r ∨
      j ∉ ((run es).scheduler r).registry ∧
        (run (es ++ [.hookReturned c (.ok (some j))])).scheduler r =
          { (run es).scheduler r with registry := ((run es).scheduler r).registry ++ [j] }) ∧
      (run (es ++ [.hookReturned c (.ok (some j))])).forest = (run es).forest := by
  rw [run_concat, step]
  split
  · refine ⟨?_, forest_hookReturned _ c _⟩
    have offers : ((run es).hookReturned c (.ok (some j))).2.scheduler r =
        ((run es).schedule r j).2.scheduler r := by
      subst mine
      rw [hookReturned, call]
      exact scheduler_congr (schedulers_startNext _ c e rest) _
    rw [act, offers]
    exact scheduler_schedule _ r j
  · exact ⟨.inl rfl, rfl⟩

end World

namespace Demo

open World (Event journal evaluations deliveries)

/-- The jobs of a play, in the order in which they are made. -/
def players : Cast := { heartbeat := 2, warmup := 0, injector := 1 }

namespace Play

variable {after : Nat} {frameDelay wakeup : Duration} {ns : List Notice} {left es : List Event}
  {e : Event}

/-! ## The opening -/

/-- **How a play begins**, up to its start: a scheduler, an engine around it with the heartbeat
as a service, the warm-up and the injector. -/
def prelude (frameDelay wakeup : Duration) (ns : List Notice) : List Event :=
  [.tell ns, .newScheduler ⟨"demo"⟩ frameDelay wakeup, .newEngine 0, .load 0 heartbeat,
    .newJob warmupName, .schedule 0 0, .newJob faultInjectorName, .schedule 0 1]

/-- **Up to the start**, which sets the driver going. -/
def started (frameDelay wakeup : Duration) (ns : List Notice) : List Event :=
  prelude frameDelay wakeup ns ++ [.startEngine 0 (.interval (.start wakeup 0))]

/-- **What the start has still to do**: the heartbeat's hook brings its job along. -/
def brings (frameDelay : Duration) : List Event :=
  [.tell [.heartbeatOnline frameDelay.saturated], .newJob heartbeatName,
    .hookReturned 0 (.ok (some 2))]

/-! ## Runs on a host -/

/-- **What a host does.** Time passes, the log is told something, the driver is woken or looks up,
and a step returns as it is to end. -/
inductive Hosts (after : Nat) (es : List Event) : Event → Prop where
  | passes (nanos : Nat) : Hosts after es (.pass nanos)
  | tells (ns : List Notice) : Hosts after es (.tell ns)
  | rouses : Hosts after es (.rouse 0)
  | polls : Hosts after es (.poll 0)
  | returns (j : JobRef) : Hosts after es (.returned 0 j
      (players.verdict after ((journal 0 es).launched.count players.injector) j))

/-- **The program on a host**, and what the start of the engine has left to do. -/
inductive Hosted (after : Nat) (frameDelay wakeup : Duration) (ns : List Notice) :
    List Event → List Event → Prop where
  | begins : Hosted after frameDelay wakeup ns (brings frameDelay) (started frameDelay wakeup ns)
  | starts {e : Event} {left es : List Event}
    (before : Hosted after frameDelay wakeup ns (e :: left) es) :
    Hosted after frameDelay wakeup ns left (es ++ [e])
  | host {e : Event} {left es : List Event} (before : Hosted after frameDelay wakeup ns left es)
    (hosts : Hosts after es e) : Hosted after frameDelay wakeup ns left (es ++ [e])

theorem Hosts.returned {j : JobRef} {v : Verdict}
    (verdict : players.verdict after ((journal 0 es).launched.count players.injector) j = v) :
    Hosts after es (.returned 0 j v) :=
  verdict ▸ .returns j

/-- A host has nothing to do with engines and calls. -/
theorem Hosts.affairs (hosts : Hosts after es e) :
    (World.run (es ++ [e])).affairs = (World.run es).affairs := by
  rw [World.run_concat, World.step]
  split
  · cases hosts with
    | passes | tells => rfl
    | rouses => exact World.affairs_rouse _ 0
    | polls => exact World.affairs_poll _ 0
    | returns j => exact World.affairs_setScheduler _ 0 _
  · rfl

theorem Hosts.paced {i : Interval} {d : Duration} (hosts : Hosts after es e)
    (h : players.Paced after 0 i d es) : players.Paced after 0 i d (es ++ [e]) := by
  cases hosts with
  | passes nanos => exact h.pass nanos
  | tells ns => exact h.tell ns
  | rouses => exact h.rouse
  | polls => exact h.poll
  | returns j => exact h.returned rfl

namespace Hosted

/-- What is left to do is the end of what there was. -/
theorem suffix (h : Hosted after frameDelay wakeup ns left es) : left <:+ brings frameDelay := by
  induction h with
  | begins => exact List.suffix_rfl
  | starts _ ih => exact (List.suffix_cons _ _).trans ih
  | host _ _ ih => exact ih

/-- What the start does next is one of three things, the last of which ends it. -/
theorem next_cases (h : Hosted after frameDelay wakeup ns (e :: left) es) :
    e = .tell [.heartbeatOnline frameDelay.saturated] ∨ e = .newJob heartbeatName ∨
      e = .hookReturned 0 (.ok (some 2)) ∧ left = [] := by
  have suffix := h.suffix
  simp only [brings, List.suffix_cons_iff, List.cons.injEq, List.suffix_nil] at suffix
  rcases suffix with ⟨rfl, -⟩ | ⟨rfl, -⟩ | ⟨rfl, rfl⟩ | none
  · exact .inl rfl
  · exact .inr (.inl rfl)
  · exact .inr (.inr ⟨rfl, rfl⟩)
  · cases none

/-- **As long as there is something left to do, the hook of the heartbeat has not returned.** -/
theorem affairs (h : Hosted after frameDelay wakeup ns left es) (unfinished : left ≠ []) :
    (World.run es).affairs = (World.run (started frameDelay wakeup ns)).affairs := by
  induction h with
  | begins => rfl
  | host _ hosts ih => rw [hosts.affairs, ih unfinished]
  | starts before ih =>
    rw [← ih (List.cons_ne_nil _ _), World.run_concat]
    obtain rfl | rfl | ⟨-, none⟩ := before.next_cases
    · rfl
    · rfl
    · exact absurd none unfinished

end Hosted

/-- No wake-up has been taken at the start. -/
theorem untaken_started : evaluations 0 (started frameDelay wakeup ns) = [] := by cbv

/-- The warm-up and the injector are registered at the start. -/
theorem carries_started : players.Carries after 0 (started frameDelay wakeup ns) := by
  have state : ((World.run (started frameDelay wakeup ns)).scheduler 0).state = .running := by cbv
  have registry : ((World.run (started frameDelay wakeup ns)).scheduler 0).registry = [0, 1] := by
    cbv
  constructor
  case distinct => decide
  case begun => rw [state]; decide
  case unasked => rw [state]; decide
  case called =>
    rw [registry]
    exact ⟨by decide, by decide, by decide⟩
  case unlinked =>
    intro j here
    simp only [Cast.jobs, List.mem_cons, List.not_mem_nil, or_false] at here
    rcases here with rfl | rfl | rfl
    · exact ⟨by cbv, by cbv⟩
    · exact ⟨by cbv, by cbv⟩
    · exact ⟨by cbv, by cbv⟩
  case name => cbv
  case plays =>
    intro past t rest split
    have ticks : (journal 0 (started frameDelay wakeup ns)).ticks.length = 0 := by
      rw [(World.paced_run 0 _).ticks, untaken_started]
      rfl
    rw [split] at ticks
    simp at ticks

/-- **A play that has just been started** is a demonstration without a heartbeat. -/
theorem paced_started :
    players.Paced after 0 (.start wakeup 0) frameDelay.saturated
      (started frameDelay wakeup ns) := by
  have silent : deliveries 0 (started frameDelay wakeup ns) = [] := by
    have unread := World.readings_deliveries 0 (started frameDelay wakeup ns)
    rw [untaken_started] at unread
    exact List.map_eq_nil_iff.1 unread
  constructor
  case carries => exact carries_started
  case metered => exact World.metered_run (by cbv) (by cbv) (by cbv) List.prefix_rfl
  case delay => cbv
  case readings => rw [untaken_started, silent]; rfl
  case lives =>
    left
    cbv

/-- The heartbeat's job is registered with the others, unless the loop has ended before. -/
theorem paced_hookReturned {i : Interval} {d : Duration} (h : players.Paced after 0 i d es)
    (call : (World.run es).call? 0 = some ⟨0, 0, .starting [heartbeat]⟩)
    (engine : ((World.run es).engine 0).scheduler = 0) :
    players.Paced after 0 i d (es ++ [.hookReturned 0 (.ok (some players.heartbeat))]) := by
  obtain ⟨same | ⟨fresh, added⟩, forest⟩ :=
    World.run_hookReturned_of_starting (j := players.heartbeat) call engine
  · exact h.same rfl same forest
  · refine h.concat (h.carries.spares_of_apart rfl (by rw [added]) ?_ ?_) (by rw [added])
    · have called := h.carries.called
      rw [added]
      constructor
      case nodup =>
        refine List.nodup_append.2 ⟨called.nodup, List.nodup_singleton _, ?_⟩
        rintro j known k last rfl
        obtain rfl := List.mem_singleton.1 last
        exact fresh known
      case cast => exact List.append_subset.2 ⟨called.cast, by decide⟩
      case injector => exact List.mem_append_left _ called.injector
    · rw [forest]
      exact h.carries.unlinked

/-- **The program on a host is a demonstration on a source at a fixed rate.** -/
theorem Hosted.paced (h : Hosted after frameDelay wakeup ns left es) :
    players.Paced after 0 (.start wakeup 0) frameDelay.saturated es := by
  induction h with
  | begins => exact paced_started
  | host _ hosts ih => exact hosts.paced ih
  | starts before ih =>
    have affairs := before.affairs (List.cons_ne_nil _ _)
    obtain rfl | rfl | ⟨rfl, -⟩ := before.next_cases
    · exact ih.tell _
    · exact ih.newJob heartbeatName
    · refine paced_hookReturned ih ?_ ?_
      · rw [World.call?, World.calls_of_affairs affairs]
        cbv
      · rw [World.engine_congr (World.engines_of_affairs affairs)]
        cbv

/-- **A play that has come to where a run is.** What it has counted are the steps that have
returned. -/
def asOf (after : Nat) (es : List Event) : Play where
  world := World.run es
  scheduler := 0
  engine := 0
  warmup := players.warmup
  injector := some (players.injector, after)
  calls := (journal 0 es).returned.count players.injector
  beats := (journal 0 es).returned.count players.heartbeat

/-- The source delivers at most once in a millisecond. -/
theorem period_pos (wakeup : Duration) : 0 < (Interval.start wakeup 0).period := by
  show 0 < (Interval.effectivePeriod wakeup).nanos
  rw [Interval.effectivePeriod_nanos]
  exact Nat.lt_of_lt_of_le (by decide) (Nat.le_max_right _ _)

end Play

end Demo

end FrameLoop

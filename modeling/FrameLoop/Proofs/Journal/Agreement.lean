import FrameLoop.Proofs.Journal.Waves
import FrameLoop.Proofs.Lifecycle.Sound

/-!
# The journal and the driver agree

The driver keeps a record of the tick in flight (`Tick`) and forgets it when
the tick has drained. Somebody who keeps a journal of the same loop writes down
different things, and never forgets. `Tick.Tracks` says how the record and the
last tick of the journal belong together; `Scheduler.Agrees` says it of a
scheduler and its whole journal, whatever its driver is doing. The second is
kept by every event (`agrees_run`), and the laws about ticks are read off it.
-/

namespace FrameLoop

/-! ## A tick in flight -/

/-- **A driver's record of a tick tells what the journal tells.** -/
structure Tick.Tracks (k : Tick) (t : TickRecord) : Prop where
  exact : t.Exact
  waves : k.waves = t.waves.map (·.launched)
  /-- What has been found is what is due after the last wave. -/
  found : ∀ j, j ∈ k.found ↔ t.Due t.waves.length j
  fault : k.fault = t.firstFault?.bind (·.error?)
  /-- Every step that was launched has returned, or it is out. -/
  pending : (t.returns.map (·.job) ++ k.pending).Perm t.launched

namespace Tick.Tracks

variable {k : Tick} {t : TickRecord}

theorem launched (h : k.Tracks t) : k.launched = t.launched := by
  rw [Tick.launched, h.waves, TickRecord.launched, List.flatMap_def]

/-- A fault in the record is a fault in the journal. -/
theorem faulty (h : k.Tracks t) : t.faulty = k.fault.isSome := by
  rw [TickRecord.faulty, h.fault]
  cases first : t.firstFault? with
  | none => rfl
  | some b =>
    have fault : b.isFault = true := by simpa using List.find?_some first
    exact fault.symm

/-- The next wave is what is due and new, unless there was a fault. -/
theorem mem_nextWave (h : k.Tracks t) (j : JobRef) :
    j ∈ k.nextWave ↔ k.fault = none ∧ t.Due t.waves.length j ∧ j ∉ t.launched := by
  unfold Tick.nextWave
  cases fault : k.fault with
  | none => simp [Tick.fresh, Tick.mem_unseen, h.found, h.launched]
  | some e => simp

theorem nodup_nextWave (k : Tick) : k.nextWave.Nodup := by
  unfold Tick.nextWave
  split
  · exact List.nodup_nil
  · exact Tick.nodup_unseen k.launched k.found

/-- A step can be out only of a wave. -/
theorem waves_ne_nil (h : k.Tracks t) (busy : k.pending ≠ []) : t.waves ≠ [] := by
  intro none
  have same := h.pending.length_eq
  simp only [TickRecord.launched, none, List.flatMap_nil, List.length_append, List.length_nil]
    at same
  exact busy (List.length_eq_zero_iff.1 (by omega))

/-- Whatever is out is out of the last wave. -/
theorem pending_last (h : k.Tracks t) {cs : List Wave} {c : Wave} (last : t.waves = cs ++ [c]) :
    (c.returns.map (·.job) ++ k.pending).Perm c.launched := by
  have init := h.exact.drained_init last
  have before : (cs.flatMap fun c => c.returns.map (·.job)).Perm (cs.flatMap (·.launched)) :=
    List.Perm.flatMap_left cs fun c hc => (init c hc).1
  have all := h.pending
  simp only [TickRecord.returns, TickRecord.launched, last, List.flatMap_append,
    List.flatMap_singleton, List.map_append, List.map_flatMap, List.append_assoc] at all
  exact (List.perm_append_left_iff _).1 (all.trans (before.symm.append_right _))

/-- **With nothing out every wave has drained.** -/
theorem drained (h : k.Tracks t) (none : k.pending = []) : ∀ c ∈ t.waves, c.Drained := by
  obtain empty | ⟨cs, c, last⟩ := t.waves_cases
  · simp [empty]
  · intro d hd
    rw [last, List.mem_append, List.mem_singleton] at hd
    obtain old | rfl := hd
    · exact (h.exact.drained_init last d old).1
    · have all := h.pending_last last
      rwa [none, List.append_nil] at all

/-- **While something is out, some wave has not drained.** -/
theorem pending_eq_nil (h : k.Tracks t) (all : ∀ c ∈ t.waves, c.Drained) : k.pending = [] := by
  have same := h.pending.length_eq
  rw [List.length_append, ← (TickRecord.returned_perm all).length_eq] at same
  exact List.length_eq_zero_iff.1 (Nat.add_eq_left.1 same)

/-- A tick that has only begun. -/
theorem began (started : Nat) (registry : List JobRef) :
    Tracks { started, found := registry } { registry } where
  exact := TickRecord.exact_began registry
  waves := rfl
  found _ := Iff.rfl
  fault := rfl
  pending := .nil

/-- **The next wave is launched.** -/
theorem launch (h : k.Tracks t) (none : k.pending = []) (more : k.nextWave ≠ []) :
    (k.launch k.nextWave).Tracks (t.launch k.nextWave) := by
  obtain ⟨j, hj⟩ := List.exists_mem_of_ne_nil _ more
  have sound : k.fault = Option.none := ((h.mem_nextWave j).1 hj).1
  have clean : t.faulty = false := by rw [h.faulty, sound]; rfl
  constructor
  case exact =>
    apply h.exact.launch more (nodup_nextWave k)
    · intro j
      rw [h.mem_nextWave]
      exact and_iff_right sound
    · intro c hc
      exact ⟨h.drained none c hc, TickRecord.faulty_eq_false.1 clean c hc⟩
  case waves => simp [Tick.launch, h.waves]
  case found =>
    intro j
    rw [TickRecord.due_length (t.waves_launch k.nextWave)]
    simp [Tick.launch, Wave.Leads]
  case fault =>
    show k.fault = _
    rw [h.fault, TickRecord.firstFault?, TickRecord.firstFault?, TickRecord.returns_launch]
  case pending =>
    have all := h.pending
    rw [none, List.append_nil] at all
    rw [TickRecord.returns_launch, TickRecord.launched_launch]
    exact all.append_right k.nextWave

/-- **A step returns.** -/
theorem settle (h : k.Tracks t) {b : Return} (out : b.job ∈ k.pending) :
    (k.settle b.job b.children b.error?).Tracks (t.settle b) := by
  have some : t.waves ≠ [] := h.waves_ne_nil (List.ne_nil_of_mem out)
  obtain empty | ⟨cs, c, last⟩ := t.waves_cases
  · exact absurd empty some
  have due (j : JobRef) : (t.settle b).Due (t.settle b).waves.length j ↔
      t.Due t.waves.length j ∨ b.isFault = false ∧ j ∈ b.children := by
    rw [TickRecord.due_length (TickRecord.waves_settle last b), TickRecord.due_length last]
    simp [Wave.Leads, Wave.settle, or_and_right, exists_or]
  have pending : ((t.settle b).returns.map (·.job) ++ k.pending.erase b.job).Perm
      (t.settle b).launched := by
    rw [TickRecord.returns_settle some, TickRecord.launched_settle, List.map_append,
      List.append_assoc]
    exact ((List.perm_cons_erase out).symm.append_left _).trans h.pending
  have first : (t.settle b).firstFault? =
      t.firstFault?.or (if b.isFault then .some b else none) := by
    rw [TickRecord.firstFault?, TickRecord.returns_settle some, List.find?_append]
    simp [TickRecord.firstFault?, List.find?_singleton]
  cases error : b.error? with
  | none =>
    have sound : b.isFault = false := by simp [Return.isFault, error]
    refine ⟨h.exact.settle b, ?_, ?_, ?_, pending⟩
    · rw [TickRecord.map_launched_settle]; exact h.waves
    · intro j
      rw [due]
      simp [Tick.settle, h.found, sound]
    · show k.fault = _
      rw [first, sound]
      simpa using h.fault
  | some e =>
    have fault : b.isFault = true := by simp [Return.isFault, error]
    refine ⟨h.exact.settle b, ?_, ?_, ?_, pending⟩
    · rw [TickRecord.map_launched_settle]; exact h.waves
    · intro j
      rw [due]
      simp [Tick.settle, h.found, fault]
    · rw [first, fault]
      show Option.some (k.fault.getD e) = _
      rw [h.fault]
      cases before : t.firstFault? with
      | none => simp [error]
      | some a =>
        have isFault : a.isFault = true := by simpa using List.find?_some before
        obtain ⟨d, kept⟩ := Option.isSome_iff_exists.1 isFault
        simp [kept]

end Tick.Tracks

/-! ## A scheduler and its whole journal -/

/-- A tick that is exact and over, without a fault. -/
structure TickRecord.Clean (t : TickRecord) : Prop where
  exact : t.Exact
  spent : t.Over
  sound : t.faulty = false

/-- **A scheduler is where its journal says.** Between ticks nothing is out and
every tick is clean. In a tick the last one is in flight. A loop that a step's
fault has ended keeps the fault of the last tick. -/
inductive Scheduler.Agrees (s : Scheduler) (J : Journal) : Prop where
  | rests (still : s.driver.tick? = none) (out : J.out = []) (clean : ∀ t ∈ J.ticks, t.Clean)
  | ticks {loop : Loop} {k : Tick} {past : List TickRecord} {t : TickRecord}
    (driver : s.driver = .ticking loop k) (last : J.ticks = past ++ [t])
    (clean : ∀ u ∈ past, u.Clean) (tracks : k.Tracks t) (out : J.out = k.pending)
    (busy : k.pending ≠ [])
  | faulted {past : List TickRecord} {t : TickRecord} {b : Return} {e : SchedulerError}
    (driver : s.driver = .ended) (out : J.out = []) (last : J.ticks = past ++ [t])
    (clean : ∀ u ∈ past, u.Clean) (exact : t.Exact) (spent : t.Over)
    (first : t.firstFault? = some b) (error : b.error? = some e) (state : s.state = .faulted)
    (outcome : s.outcome = some (.faulted e))

namespace Scheduler

theorem handOut_of_ne_nil {wave : List JobRef} (h : wave ≠ []) :
    Journal.handOut wave = [.launched wave] := by
  cases wave with
  | nil => exact absurd rfl h
  | cons j rest => rfl

/-- Nothing is out unless a tick is in flight. -/
theorem Agrees.out_of_still {s : Scheduler} {J : Journal} (h : s.Agrees J)
    (still : s.driver.tick? = none) : J.out = [] := by
  cases h with
  | rests _ out => exact out
  | ticks driver => rw [driver] at still; cases still
  | faulted _ out => exact out

/-- What is out is out of the tick in flight. -/
theorem Agrees.ticking_of_out {s : Scheduler} {J : Journal} (h : s.Agrees J) {j : JobRef}
    (out : j ∈ J.out) :
    ∃ loop k past t, s.driver = .ticking loop k ∧ j ∈ k.pending ∧ k.Tracks t ∧
      J.ticks = past ++ [t] := by
  cases h with
  | rests _ none => rw [none] at out; cases out
  | faulted _ none => rw [none] at out; cases out
  | ticks driver last _ tracks pending =>
    exact ⟨_, _, _, _, driver, pending ▸ out, tracks, last⟩

/-- What is not out is not out of any tick. -/
theorem Agrees.not_pending {s : Scheduler} {J : Journal} (h : s.Agrees J) {j : JobRef}
    (out : j ∉ J.out) : ∀ loop k, s.driver = .ticking loop k → j ∉ k.pending := by
  intro loop k driver
  cases h with
  | rests still => rw [driver] at still; cases still
  | ticks here _ _ _ pending =>
    rw [here] at driver
    cases driver
    exact pending ▸ out
  | faulted ended => rw [ended] at driver; cases driver

/-- Only the driver and the end matter to whether a scheduler agrees. -/
theorem Agrees.congr {s s' : Scheduler} {J : Journal} (h : s.Agrees J)
    (driver : s'.driver = s.driver) (state : s'.state = s.state)
    (outcome : s'.outcome = s.outcome) : s'.Agrees J := by
  cases h with
  | rests still out clean => exact .rests (driver ▸ still) out clean
  | ticks here last clean tracks out busy =>
    exact .ticks (driver.trans here) last clean tracks out busy
  | faulted ended out last clean exact spent first error isFaulted settled =>
    exact .faulted (driver.trans ended) out last clean exact spent first error
      (state.trans isFaulted) (outcome.trans settled)

/-- A driver that waits has nothing out, and agrees in any place between two ticks. -/
theorem Agrees.of_waiting {s s' : Scheduler} {J : Journal} {loop : Loop} (h : s.Agrees J)
    (waiting : s.driver = .waiting loop) (still : s'.driver.tick? = none) : s'.Agrees J := by
  cases h with
  | rests _ out clean => exact .rests still out clean
  | ticks driver => rw [driver] at waiting; cases waiting
  | faulted ended => rw [ended] at waiting; cases waiting

/-- **A quiet change keeps the agreement.** -/
theorem Agrees.quiet {may : Intake} {s s' : Scheduler} {J : Journal} (h : s.Agrees J)
    (sound : s.Sound) (quiet : Quiet may s s') : s'.Agrees J := by
  cases quiet with
  | same | made | scheduled | unregistered | paced | released => exact h.congr rfl rfl rfl
  | started _ source brought idle =>
    have absent : s.driver.tick? = none := by rw [(sound.of_idle idle).1]; rfl
    cases h with
    | rests _ out clean => exact .rests rfl out clean
    | ticks driver => rw [driver] at absent; cases absent
    | faulted _ _ _ _ _ _ _ _ state => rw [state] at idle; cases idle
  | asked _ running =>
    cases h with
    | rests still out clean => exact .rests still out clean
    | ticks driver last clean tracks out busy => exact .ticks driver last clean tracks out busy
    | faulted _ _ _ _ _ _ _ _ state => rw [state] at running; cases running
  | roused _ waiting => exact h.of_waiting waiting rfl

/-- **A tick of which nothing is out proceeds**, and what is handed out is
written down. -/
theorem agrees_proceeds {s : Scheduler} {loop : Loop} {k : Tick} {now : Nat} {m : Move}
    {J : Journal} {past : List TickRecord} {t : TickRecord} (live : s.state.isTerminal = false)
    (unsettled : s.outcome = none) (h : Proceeds s loop k now m) (last : J.ticks = past ++ [t])
    (clean : ∀ u ∈ past, u.Clean) (tracks : k.Tracks t) (none : k.pending = [])
    (out : J.out = []) : m.scheduler.Agrees (J ++ Journal.handOut m.launched) := by
  cases h with
  | wave more =>
    dsimp only
    rw [handOut_of_ne_nil more]
    refine .ticks rfl ?_ clean (tracks.launch none more) ?_ more
    · rw [Journal.ticks_concat, last, Entry.sort, List.modifyLast_concat]
    · rw [Journal.out_concat, out]
      rfl
  | drained spent sound =>
    dsimp only [Journal.handOut]
    rw [List.append_nil]
    refine .rests rfl out ?_
    intro u hu
    rw [last, List.mem_append, List.mem_singleton] at hu
    obtain old | rfl := hu
    · exact clean u old
    · refine ⟨tracks.exact, ⟨tracks.drained none, .inr ?_⟩, ?_⟩
      · intro j due
        by_contra new
        have next := (tracks.mem_nextWave j).2 ⟨sound, due, new⟩
        rw [spent] at next
        cases next
      · rw [tracks.faulty, sound]
        rfl
  | @faulted e fault =>
    dsimp only [Journal.handOut]
    rw [List.append_nil]
    have counted : (s.counted loop k now).state.isTerminal = false := live
    obtain ⟨b, first, error⟩ := Option.bind_eq_some_iff.1 (tracks.fault.symm.trans fault)
    have faulty : t.faulty = true := by rw [tracks.faulty, fault]; rfl
    rw [finish_of_live counted]
    refine .faulted rfl out last clean tracks.exact ⟨tracks.drained none, .inl faulty⟩ first error
      rfl ?_
    show some (s.outcome.getD _) = _
    rw [unsettled]
    rfl

end Scheduler

namespace World

variable {w : World} {r : SchedulerRef} {J : Journal}

/-! ## What is seen of an event -/

/-- Of an event that is none of its driver's nothing is seen, nor of one that
cannot happen. -/
theorem observe_of_not_driven {e : Event} (agrees : (w.scheduler r).Agrees J)
    (h : e.drives r = true → w.scheduler r = default ∧ w.step e = ([], w)) :
    w.observe r J e = [] := by
  cases driven : e.drives r with
  | true =>
    obtain ⟨absent, nothing⟩ := h driven
    have out : J.out = [] := agrees.out_of_still (by rw [absent]; rfl)
    have still : w.startsTick r = false := by rw [startsTick, absent]; rfl
    rw [observe, nothing]
    cases e <;> simp [notice, Journal.handOut, out, still]
  | false =>
    rw [observe, driven]
    cases e with
    | poll k | returned k j v =>
      have other : k ≠ r := by simpa [Event.drives] using driven
      simp [notice, other]
    | _ => rfl

/-- What is seen of a driver that looks up. -/
theorem observe_poll (step : w.step (.poll r) = w.poll r) :
    w.observe r J (.poll r) =
      (if w.startsTick r then [.began (w.scheduler r).registry] else []) ++
        Journal.handOut (w.lookUp r).launched := by
  rw [observe, step, launched_poll]
  simp [notice, Event.drives]

/-- What is written down of a step that returns. -/
def returnOf (w : World) (r : SchedulerRef) (j : JobRef) (v : Verdict) : Return where
  job := j
  name? := (w.forest.node? j).map (·.name)
  verdict := v
  children := w.forest.children j
  told := (w.settle r j v).notices

/-- A step that is out can return: there is a driver to hear of it. -/
theorem step_of_out (agrees : (w.scheduler r).Agrees J) {j : JobRef} (out : j ∈ J.out)
    (v : Verdict) : w.step (.returned r j v) = w.returned r j v := by
  obtain ⟨loop, k, -, -, driver, -⟩ := agrees.ticking_of_out out
  have active : (w.scheduler r).driver.isActive = true := by rw [driver]; rfl
  exact if_pos (decide_eq_true (length_of_active active))

/-- What is noticed of a step that returns. -/
theorem notice_returned {j : JobRef} {v : Verdict}
    (step : w.step (.returned r j v) = w.returned r j v) :
    w.notice r J (.returned r j v) =
      if j ∈ J.out then [.returned (w.returnOf r j v)] else [] := by
  have told : (w.returned r j v).2.notices.drop w.notices.length = (w.settle r j v).notices := by
    rw [notices_returned, List.drop_left]
  simp [notice, step, told, returnOf]

/-- What is seen of a step that returns. -/
theorem observe_returned {j : JobRef} {v : Verdict}
    (step : w.step (.returned r j v) = w.returned r j v) :
    w.observe r J (.returned r j v) =
      (if j ∈ J.out then [.returned (w.returnOf r j v)] else []) ++
        Journal.handOut (w.settle r j v).launched := by
  rw [observe, notice_returned step, step, launched_returned]
  simp [Event.drives]

/-! ## Every event -/

theorem agrees_poll (sound : (w.scheduler r).Sound) (agrees : (w.scheduler r).Agrees J) :
    (w.lookUp r).scheduler.Agrees
      (J ++ ((if w.startsTick r then [.began (w.scheduler r).registry] else []) ++
        Journal.handOut (w.lookUp r).launched)) := by
  obtain ⟨stays, other⟩ | ⟨starts, loop, t, waiting, -, move⟩ := w.looksUp r
  · rw [stays, if_neg Bool.false_ne_true, List.nil_append]
    generalize w.lookUp r = m at other
    cases other with
    | rests => simpa [Journal.handOut] using agrees
    | declines waiting => simpa [Journal.handOut] using agrees.of_waiting waiting rfl
    | @ends loop exit waiting gives =>
      have ended : ((w.scheduler r).finish exit).1.driver.tick? = none := by
        rw [Scheduler.finish_driver]
        rfl
      simpa [Journal.handOut] using agrees.of_waiting waiting ended
  · have active : (w.scheduler r).driver.isActive = true := by rw [waiting]; rfl
    have still : (w.scheduler r).driver.tick? = none := by rw [waiting]; rfl
    rw [starts, if_pos rfl, move, ← List.append_assoc]
    cases agrees with
    | rests _ out clean =>
      refine Scheduler.agrees_proceeds (sound.live_of_active active) (sound.of_active active).2
        (Scheduler.proceeds _ _ _ w.clock) ?_ clean (.began w.clock (w.scheduler r).registry) rfl ?_
      · rw [Journal.ticks_concat]
        rfl
      · rw [Journal.out_concat]
        exact out
    | ticks driver => rw [driver] at still; cases still
    | faulted ended => rw [ended] at waiting; cases waiting

theorem agrees_returned (sound : (w.scheduler r).Sound) (agrees : (w.scheduler r).Agrees J)
    (j : JobRef) (v : Verdict) :
    (w.settle r j v).scheduler.Agrees
      (J ++ ((if j ∈ J.out then [.returned (w.returnOf r j v)] else []) ++
        Journal.handOut (w.settle r j v).launched)) := by
  by_cases out : j ∈ J.out
  · cases agrees with
    | rests _ none => rw [none] at out; cases out
    | @ticks loop k past t driver last clean tracks pending busy =>
      have active : (w.scheduler r).driver.isActive = true := by rw [driver]; rfl
      have isOut := out
      rw [pending] at out
      rw [if_pos isOut, ← List.append_assoc]
      have now := tracks.settle (b := w.returnOf r j v) out
      have ticks := Journal.ticks_returned last (w.returnOf r j v)
      have left : Journal.out (J ++ [.returned (w.returnOf r j v)]) =
          (k.settle j (w.forest.children j) (v.fault? (w.forest.name j))).pending := by
        rw [Journal.out_concat, pending, Tick.pending_settle]
        rfl
      obtain ⟨registry, -, departed⟩ := (w.scheduler r).depart_cases w.forest j v
      unfold settle
      rw [Scheduler.returned_of_pending driver out]
      dsimp only
      rw [departed]
      split
      · next empty =>
        have none := List.isEmpty_iff.1 empty
        exact Scheduler.agrees_proceeds (s := { w.scheduler r with registry })
          (sound.live_of_active active) (sound.of_active active).2
          (Scheduler.proceeds _ loop _ w.clock) ticks clean now none (left.trans none)
      · next more =>
        have busy : (k.settle j (w.forest.children j) (v.fault? (w.forest.name j))).pending ≠ [] :=
          fun none => more (List.isEmpty_iff.2 none)
        simpa [Journal.handOut] using .ticks rfl ticks clean now left busy
    | faulted _ none => rw [none] at out; cases out
  · unfold settle
    rw [Scheduler.returned_of_not_pending (agrees.not_pending out), if_neg out]
    simpa [Journal.handOut] using agrees

/-- **Every event keeps the agreement.** -/
theorem agrees_step (sound : (w.scheduler r).Sound) (agrees : (w.scheduler r).Agrees J)
    (e : Event) : ((w.step e).2.scheduler r).Agrees (J ++ w.observe r J e) := by
  obtain ⟨quiet, unmoved⟩ | ⟨rfl, step, next⟩ | ⟨j, v, rfl, step, next⟩ := w.step_cases e r
  · rw [observe_of_not_driven agrees unmoved, List.append_nil]
    exact agrees.quiet sound quiet
  · rw [observe_poll step, step, next]
    exact agrees_poll sound agrees
  · rw [observe_returned step, step, next]
    exact agrees_returned sound agrees j v

/-- **After every run a scheduler is where its journal says.** -/
theorem agrees_run (es : List Event) (r : SchedulerRef) :
    ((run es).scheduler r).Agrees (journal r es) := by
  have both : ((run es).scheduler r).Sound ∧ ((run es).scheduler r).Agrees (journal r es) :=
    watch_keeps (P := fun w J => (w.scheduler r).Sound ∧ (w.scheduler r).Agrees J)
      ⟨.idle rfl rfl rfl rfl, .rests rfl rfl (by simp [Journal.ticks])⟩
      (fun w J e h => ⟨h.1.turn (turn_step h.1 e), agrees_step h.1 h.2 e⟩) es
  exact both.2

/-- **What is written down when a step returns that is out**, and what is launched then. -/
theorem journal_returned {es : List Event} {j : JobRef} (out : j ∈ (journal r es).out)
    (v : Verdict) :
    journal r (es ++ [.returned r j v]) =
      (journal r es ++ [.returned ((run es).returnOf r j v)]) ++
        Journal.handOut ((run es).settle r j v).launched := by
  rw [journal_concat, observe_returned (step_of_out (agrees_run es r) out v), if_pos out,
    List.append_assoc]

/-! ## The ticks of a journal -/

/-- **A tick of a journal is over, or it is the last and in flight.** -/
theorem tick_cases (r : SchedulerRef) (es : List Event) {before after : List TickRecord}
    {t : TickRecord} (split : (journal r es).ticks = before ++ t :: after) :
    t.Exact ∧ (∀ u ∈ before, u.Clean) ∧
      (t.Over ∧ (after = [] → ((run es).scheduler r).driver.tick? = none) ∨
        after = [] ∧ ∃ loop k, ((run es).scheduler r).driver = .ticking loop k ∧ k.Tracks t ∧
          (journal r es).out = k.pending ∧ k.pending ≠ []) := by
  have among {rest : List TickRecord} (clean : ∀ u ∈ before ++ t :: rest, u.Clean) :
      t.Clean ∧ ∀ u ∈ before, u.Clean :=
    ⟨clean t (List.mem_append_right _ List.mem_cons_self),
      fun u hu => clean u (List.mem_append_left _ hu)⟩
  cases agrees_run es r with
  | rests still _ clean =>
    rw [split] at clean
    obtain ⟨here, past⟩ := among clean
    exact ⟨here.exact, past, .inl ⟨here.spent, fun _ => still⟩⟩
  | ticks driver last clean tracks out busy =>
    obtain ⟨rfl, rfl, rfl⟩ | ⟨rest, rfl, rfl⟩ := split_concat (split.symm.trans last)
    · exact ⟨tracks.exact, clean, .inr ⟨rfl, _, _, driver, tracks, out, busy⟩⟩
    · obtain ⟨here, past⟩ := among clean
      exact ⟨here.exact, past, .inl ⟨here.spent, fun none => by simp at none⟩⟩
  | faulted driver _ last clean exact spent =>
    obtain ⟨rfl, rfl, rfl⟩ | ⟨rest, rfl, rfl⟩ := split_concat (split.symm.trans last)
    · exact ⟨exact, clean, .inl ⟨spent, fun _ => by rw [driver]; rfl⟩⟩
    · obtain ⟨here, past⟩ := among clean
      exact ⟨here.exact, past, .inl ⟨here.spent, fun none => by simp at none⟩⟩

end World

end FrameLoop

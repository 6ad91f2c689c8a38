import FrameLoop.Proofs.Journal.Returns

/-!
# The order of a journal

Not every list of entries is a journal that somebody may come to write.
`Entry.Allowed` says which entry may come after which others: a tick starts
only when nothing is out and every tick before it is over without a fault, a
wave is handed out only in a tick, only when nothing is out and only while no
step has made a fault, and a step returns only if it is out, and is reported. In
the journal of a run every entry is allowed where it stands (`ordered_run`).

What such a journal adds up to follows from the order alone: who is out is who
was launched less who has returned, nobody is out twice, and every launch
belongs to a tick.
-/

namespace FrameLoop

/-! ## How ticks grow -/

/-- **How an entry makes the last tick grow.** -/
inductive TickRecord.Grows (t : TickRecord) : Entry → TickRecord → Prop where
  | launched (wave : List JobRef) : Grows t (.launched wave) (t.launch wave)
  | returned (b : Return) : Grows t (.returned b) (t.settle b)

/-- **A tick has gone on**: more steps of it may have been launched and have returned,
and nothing else has changed. -/
structure TickRecord.Continues (t u : TickRecord) : Prop where
  registry : u.registry = t.registry
  launched : t.launched <+: u.launched
  returns : t.returns <+: u.returns

theorem TickRecord.Continues.refl (t : TickRecord) : t.Continues t :=
  ⟨rfl, List.prefix_rfl, List.prefix_rfl⟩

theorem TickRecord.Continues.trans {t u v : TickRecord} (h : t.Continues u)
    (more : u.Continues v) : t.Continues v :=
  ⟨more.registry.trans h.registry, h.launched.trans more.launched, h.returns.trans more.returns⟩

theorem TickRecord.Grows.continues {t t' : TickRecord} {e : Entry} (h : t.Grows e t') :
    t.Continues t' := by
  cases h with
  | launched wave =>
    refine ⟨rfl, ?_, ?_⟩
    · rw [launched_launch]
      exact List.prefix_append _ _
    · simp
  | returned b =>
    refine ⟨rfl, ?_, ?_⟩
    · simp
    · by_cases none : t.waves = []
      · simp [TickRecord.returns, none]
      · rw [returns_settle none]
        exact List.prefix_append _ _

namespace Journal

/-- **One more entry starts a tick or makes the last one grow**; without a tick
it is lost. -/
theorem ticks_concat_cases (J : Journal) (e : Entry) :
    (∃ registry, e = .began registry ∧ ticks (J ++ [e]) = J.ticks ++ [{ registry := registry }]) ∨
      (J.ticks = [] ∧ ticks (J ++ [e]) = []) ∨
      ∃ past t t', J.ticks = past ++ [t] ∧ t.Grows e t' ∧ ticks (J ++ [e]) = past ++ [t'] := by
  rw [ticks_concat]
  obtain none | ⟨past, t, last⟩ := J.ticks.eq_nil_or_concat
  · cases e with
    | began registry => exact .inl ⟨registry, rfl, rfl⟩
    | launched wave | returned b => exact .inr (.inl ⟨none, by rw [none]; rfl⟩)
  · rw [List.concat_eq_append] at last
    cases e with
    | began registry => exact .inl ⟨registry, rfl, rfl⟩
    | launched wave =>
      exact .inr (.inr ⟨past, t, _, last, .launched wave,
        by rw [last, Entry.sort, List.modifyLast_concat]⟩)
    | returned b =>
      exact .inr (.inr ⟨past, t, _, last, .returned b,
        by rw [last, Entry.sort, List.modifyLast_concat]⟩)

/-- **A tick keeps its place and goes on**, whatever is written down later. -/
theorem ticks_append (J K : Journal) {past rest : List TickRecord} {u : TickRecord}
    (split : J.ticks = past ++ u :: rest) :
    ∃ t more, ticks (J ++ K) = past ++ t :: more ∧ u.Continues t := by
  induction K using List.reverseRecOn with
  | nil => exact ⟨u, rest, by rw [List.append_nil, split], .refl u⟩
  | append_singleton K e ih =>
    obtain ⟨t, more, before, kept⟩ := ih
    rw [← List.append_assoc]
    obtain ⟨registry, -, after⟩ | ⟨none, -⟩ | ⟨init, v, v', last, grows, after⟩ :=
      ticks_concat_cases (J ++ K) e
    · exact ⟨t, more ++ [{ registry := registry }], by rw [after, before]; simp, kept⟩
    · rw [before] at none
      simp at none
    · obtain ⟨rfl, rfl, -⟩ | ⟨middle, -, rfl⟩ := split_concat (before.symm.trans last)
      · exact ⟨v', [], after, kept.trans grows.continues⟩
      · exact ⟨t, middle ++ [v'], by rw [after]; simp, kept⟩

/-- **Nothing but its beginning starts a tick.** -/
theorem length_ticks_append (J : Journal) {K : Journal}
    (none : ∀ registry, Entry.began registry ∉ K) :
    (ticks (J ++ K)).length = J.ticks.length := by
  induction K using List.reverseRecOn with
  | nil => rw [List.append_nil]
  | append_singleton K e ih =>
    have before := ih fun registry h => none registry (List.mem_append_left _ h)
    rw [← List.append_assoc, ← before]
    rcases ticks_concat_cases (J ++ K) e with
      ⟨registry, rfl, -⟩ | ⟨empty, after⟩ | ⟨past, t, t', last, -, after⟩
    · exact absurd (List.mem_append_right _ (List.mem_singleton_self _)) (none registry)
    · rw [after, empty]
    · rw [after, last, List.length_append, List.length_append]
      rfl

/-- **As long as no other begins the last tick stays the last**, and goes on. -/
theorem ticks_append_last (J : Journal) {K : Journal}
    (none : ∀ registry, Entry.began registry ∉ K) {past : List TickRecord} {t : TickRecord}
    (last : J.ticks = past ++ [t]) : ∃ u, ticks (J ++ K) = past ++ [u] ∧ t.Continues u := by
  obtain ⟨u, rest, after, goesOn⟩ := J.ticks_append K last
  have length := J.length_ticks_append none
  rw [after, last, List.length_append, List.length_append, List.length_cons,
    List.length_singleton] at length
  obtain rfl : rest = [] := List.length_eq_zero_iff.1 (by omega)
  exact ⟨u, after, goesOn⟩

/-- What is handed out is one more wave of the last tick, or nothing. -/
theorem ticks_handOut {J : Journal} {past : List TickRecord} {t : TickRecord}
    (last : J.ticks = past ++ [t]) (wave : List JobRef) :
    (wave = [] ∧ ticks (J ++ handOut wave) = past ++ [t]) ∨
      (wave ≠ [] ∧ ticks (J ++ handOut wave) = past ++ [t.launch wave]) := by
  cases wave with
  | nil => exact .inl ⟨rfl, by rw [handOut, List.append_nil, last]⟩
  | cons j rest =>
    refine .inr ⟨List.cons_ne_nil j rest, ?_⟩
    rw [handOut, ticks_concat, last, Entry.sort, List.modifyLast_concat]

theorem began_not_mem_handOut (wave registry : List JobRef) :
    Entry.began registry ∉ handOut wave := by
  intro handed
  cases mem_handOut handed

end Journal

/-! ## What a journal adds up to -/

/-- The steps that an entry hands out. -/
def Entry.handsOut : Entry → List JobRef
  | .launched wave => wave
  | .began _ | .returned _ => []

/-- The step that has returned at an entry. -/
def Entry.takesBack : Entry → List JobRef
  | .returned b => [b.job]
  | .began _ | .launched _ => []

namespace Journal

/-- All steps that were ever launched, each by its job, in order. -/
def launched (J : Journal) : List JobRef := J.flatMap Entry.handsOut

/-- All steps that have ever returned, each by its job, in order. -/
def returned (J : Journal) : List JobRef := J.flatMap Entry.takesBack

theorem launched_append (J K : Journal) : launched (J ++ K) = launched J ++ launched K :=
  List.flatMap_append

theorem returned_append (J K : Journal) : returned (J ++ K) = returned J ++ returned K :=
  List.flatMap_append

@[simp] theorem launched_concat (J : Journal) (e : Entry) :
    launched (J ++ [e]) = launched J ++ e.handsOut := by
  simp [launched]

@[simp] theorem returned_concat (J : Journal) (e : Entry) :
    returned (J ++ [e]) = returned J ++ e.takesBack := by
  simp [returned]

/-- A wave that is handed out is launched, and nothing else is. -/
@[simp] theorem launched_handOut (wave : List JobRef) : launched (handOut wave) = wave := by
  cases wave with
  | nil => rfl
  | cons j rest => exact List.append_nil _

@[simp] theorem returned_handOut (wave : List JobRef) : returned (handOut wave) = [] := by
  cases wave <;> rfl

/-- What is handed out is out. -/
@[simp] theorem out_handOut (J : Journal) (wave : List JobRef) :
    out (J ++ handOut wave) = J.out ++ wave := by
  cases wave with
  | nil => rw [handOut, List.append_nil, List.append_nil]
  | cons j rest => exact out_concat J _

end Journal

/-! ## The order of entries -/

/-- **When an entry may be written down**, given those before it. -/
def Entry.Allowed (J : Journal) : Entry → Prop
  | .began _ => J.out = [] ∧ ∀ t ∈ J.ticks, t.Clean
  | .launched wave =>
    J.out = [] ∧ wave.Nodup ∧ J.ticks ≠ [] ∧ ∀ t ∈ J.ticks, t.faulty = false
  | .returned b =>
    b.job ∈ J.out ∧ ∀ past t, J.ticks = past ++ [t] → b.Reported t.returns

namespace Journal

/-- **Every entry is allowed where it stands.** -/
def Ordered (J : Journal) : Prop := ∀ pre e post, J = pre ++ e :: post → e.Allowed pre

theorem ordered_nil : Ordered [] := by
  intro pre e post h
  simp at h

/-- One more entry that is allowed keeps the order. -/
theorem Ordered.concat {J : Journal} (h : J.Ordered) {e : Entry} (allowed : e.Allowed J) :
    Ordered (J ++ [e]) := by
  intro pre d post split
  obtain ⟨rfl, rfl, -⟩ | ⟨rest, -, earlier⟩ := split_concat split.symm
  · exact allowed
  · exact h pre d rest earlier

/-- The beginning of an ordered journal is ordered. -/
theorem Ordered.left {J rest : Journal} (h : Ordered (J ++ rest)) : J.Ordered := by
  intro pre e post split
  exact h pre e (post ++ rest) (by simp [split])

/-- The last entry of an ordered journal is allowed. -/
theorem Ordered.last {J : Journal} {e : Entry} (h : Ordered (J ++ [e])) : e.Allowed J :=
  h J e [] rfl

/-- **Who was launched has returned or is out.** -/
theorem Ordered.perm {J : Journal} (h : J.Ordered) : (J.returned ++ J.out).Perm J.launched := by
  induction J using List.reverseRecOn with
  | nil => exact .nil
  | append_singleton J e ih =>
    have before := ih h.left
    rw [returned_concat, launched_concat, out_concat]
    cases e with
    | began registry => simpa [Entry.handsOut, Entry.takesBack, Entry.out] using before
    | launched wave =>
      simpa [Entry.handsOut, Entry.takesBack, Entry.out] using before.append_right wave
    | returned b =>
      have isOut : b.job ∈ out J := h.last.1
      simp only [Entry.handsOut, Entry.takesBack, Entry.out, List.append_nil, List.append_assoc]
      exact ((List.perm_cons_erase isOut).symm.append_left (returned J)).trans before

/-- **Nobody is out twice.** -/
theorem Ordered.nodup_out {J : Journal} (h : J.Ordered) : J.out.Nodup := by
  induction J using List.reverseRecOn with
  | nil => exact List.nodup_nil
  | append_singleton J e ih =>
    have before := ih h.left
    rw [out_concat]
    cases e with
    | began registry => exact before
    | launched wave =>
      have allowed : Entry.Allowed J (.launched wave) := h.last
      rw [allowed.1]
      exact allowed.2.1
    | returned b => exact before.erase b.job

/-- **Every launch belongs to a tick.** -/
theorem Ordered.launched_ticks {J : Journal} (h : J.Ordered) :
    J.ticks.flatMap (·.launched) = J.launched := by
  induction J using List.reverseRecOn with
  | nil => rfl
  | append_singleton J e ih =>
    have before := ih h.left
    rw [launched_concat, ← before]
    obtain ⟨registry, rfl, after⟩ | ⟨none, after⟩ | ⟨past, t, t', last, grows, after⟩ :=
      ticks_concat_cases J e
    · rw [after]
      simp [Entry.handsOut, TickRecord.launched]
    · rw [after, none]
      cases e with
      | launched wave =>
        have allowed : Entry.Allowed J (.launched wave) := h.last
        exact absurd none allowed.2.2.1
      | began registry | returned b => rfl
    · rw [after, last]
      cases grows <;> simp [Entry.handsOut]

/-- **Every step that has returned is reported.** -/
theorem Ordered.reported {J : Journal} (h : J.Ordered) : ∀ t ∈ J.ticks, t.Reported := by
  induction J using List.reverseRecOn with
  | nil => simp [ticks]
  | append_singleton J e ih =>
    have before := ih h.left
    intro u hu
    obtain ⟨registry, -, after⟩ | ⟨-, after⟩ | ⟨past, t, t', last, grows, after⟩ :=
      ticks_concat_cases J e
    · rw [after, List.mem_append, List.mem_singleton] at hu
      obtain old | rfl := hu
      · exact before u old
      · exact TickRecord.reported_began registry
    · rw [after] at hu
      cases hu
    · rw [last] at before
      rw [after, List.mem_append, List.mem_singleton] at hu
      obtain old | rfl := hu
      · exact before u (List.mem_append_left _ old)
      · have reported := before t (by simp)
        cases grows with
        | launched wave => exact reported.launch wave
        | returned b =>
          have allowed : Entry.Allowed J (.returned b) := h.last
          exact reported.settle (allowed.2 past t last)

/-- **All ticks but the last are clean.** -/
theorem Ordered.clean_init {J : Journal} (h : J.Ordered) : ∀ t ∈ J.ticks.dropLast, t.Clean := by
  induction J using List.reverseRecOn with
  | nil => simp [ticks]
  | append_singleton J e ih =>
    have before := ih h.left
    obtain ⟨registry, rfl, after⟩ | ⟨-, after⟩ | ⟨past, t, t', last, -, after⟩ :=
      ticks_concat_cases J e
    · have allowed : Entry.Allowed J (.began registry) := h.last
      rw [after, List.dropLast_concat]
      exact allowed.2
    · simp [after]
    · rw [last, List.dropLast_concat] at before
      rwa [after, List.dropLast_concat]

/-- **After a fault there is nothing to write down but returns**: no wave is
handed out any more, and no tick starts. -/
theorem Ordered.returns_after_fault {J K : Journal} (h : Ordered (J ++ K)) {t : TickRecord}
    (ht : t ∈ J.ticks) (faulty : t.faulty = true) : ∀ e ∈ K, ∃ b, e = .returned b := by
  intro e he
  obtain ⟨past, rest, split⟩ := List.append_of_mem ht
  obtain ⟨before, after, rfl⟩ := List.append_of_mem he
  rw [← List.append_assoc] at h
  have allowed := h (J ++ before) e after rfl
  obtain ⟨u, more, now, kept⟩ := ticks_append J before split
  have hu : u ∈ ticks (J ++ before) := by rw [now]; simp
  have still : u.faulty = true := by
    rw [TickRecord.faulty_eq_any, List.any_eq_true] at faulty ⊢
    obtain ⟨b, hb, fault⟩ := faulty
    exact ⟨b, kept.returns.subset hb, fault⟩
  cases e with
  | began registry => rw [(allowed.2 u hu).sound] at still; cases still
  | launched wave => rw [allowed.2.2.2 u hu] at still; cases still
  | returned b => exact ⟨b, rfl⟩

end Journal

/-! ## Every run -/

/-- **A wave is handed out when nothing is out**: this is what the agreement of
the driver with the journal comes to just after it. -/
theorem Scheduler.Agrees.allowed {s : Scheduler} {J : Journal} {wave : List JobRef}
    (h : s.Agrees (J ++ [.launched wave])) (some : wave ≠ []) :
    Entry.Allowed J (.launched wave) := by
  have out : Journal.out (J ++ [.launched wave]) = J.out ++ wave := Journal.out_concat J _
  cases h with
  | rests _ none => simp [out, some] at none
  | faulted _ none => simp [out, some] at none
  | @ticks loop k past t driver last clean tracks pending busy =>
    rw [Journal.ticks_concat, Entry.sort] at last
    obtain none | ⟨before, u, ticks⟩ := J.ticks.eq_nil_or_concat
    · rw [none] at last
      cases past <;> cases last
    · rw [List.concat_eq_append] at ticks
      rw [ticks, List.modifyLast_concat] at last
      obtain ⟨rfl, rfl⟩ : before = past ∧ u.launch wave = t := List.append_singleton_inj.1 last
      have drained := tracks.exact.drained_init (u.waves_launch wave)
      have returned := TickRecord.returned_perm fun c hc => (drained c hc).1
      have all := tracks.pending.length_eq
      rw [TickRecord.returns_launch, TickRecord.launched_launch, ← pending, out] at all
      simp only [List.length_append, returned.length_eq] at all
      refine ⟨List.length_eq_zero_iff.1 (by omega), ?_, by simp [ticks], ?_⟩
      · have nodup := tracks.exact.nodup
        rw [TickRecord.launched_launch] at nodup
        exact (List.nodup_append.1 nodup).2.1
      · intro v hv
        rw [ticks, List.mem_append, List.mem_singleton] at hv
        obtain old | rfl := hv
        · exact (clean v old).sound
        · exact TickRecord.faulty_eq_false.2 fun c hc => (drained c hc).2

namespace World

variable {w : World} {r : SchedulerRef} {J : Journal}

/-- What is noticed of an event launches nothing. -/
@[simp] theorem launched_notice (w : World) (r : SchedulerRef) (J : Journal) (e : Event) :
    Journal.launched (w.notice r J e) = [] := by
  obtain none | ⟨-, -, began⟩ | ⟨b, v, -, -, returned⟩ := w.notice_cases r J e
  · rw [none]
    rfl
  · rw [began]
    rfl
  · rw [returned]
    rfl

/-- What an event adds to what has been launched. -/
theorem launched_observe (w : World) (r : SchedulerRef) (J : Journal) (e : Event) :
    Journal.launched (w.observe r J e) = if e.drives r then (w.step e).1 else [] := by
  rw [observe, Journal.launched_append, launched_notice, List.nil_append]
  split
  · exact Journal.launched_handOut _
  · rfl

/-- **A tick begins where the driver looks up and starts one**, and nowhere else. -/
theorem began_mem_observe {e : Event} {registry : List JobRef}
    (seen : Entry.began registry ∈ w.observe r J e) : e = .poll r ∧ w.startsTick r = true := by
  obtain ⟨isPoll, starts, -⟩ | ⟨_, _, -, -, ⟨⟩⟩ | ⟨_, ⟨⟩⟩ := mem_observe seen
  exact ⟨isPoll, starts⟩

/-- What is noticed of an event is allowed. -/
theorem ordered_notice (held : w.Held) (agrees : (w.scheduler r).Agrees J)
    (ordered : J.Ordered) (e : Event) : Journal.Ordered (J ++ w.notice r J e) := by
  cases e with
  | poll k =>
    by_cases seen : k = r ∧ w.startsTick r = true
    · rw [notice, if_pos seen]
      refine ordered.concat ?_
      have starts := seen.2
      unfold startsTick at starts
      cases driver : (w.scheduler r).driver with
      | waiting loop =>
        cases agrees with
        | rests _ out clean => exact ⟨out, clean⟩
        | ticks here => rw [here] at driver; cases driver
        | faulted here => rw [here] at driver; cases driver
      | absent | ticking _ _ | ended => rw [driver] at starts; cases starts
    · rwa [notice, if_neg seen, List.append_nil]
  | returned k j v =>
    by_cases seen : k = r ∧ j ∈ J.out
    · obtain ⟨rfl, out⟩ := seen
      rw [notice_returned (step_of_out agrees out v), if_pos out]
      exact ordered.concat ⟨out, fun past t last => reported_returnOf held agrees v out last⟩
    · rwa [notice, if_neg seen, List.append_nil]
  | _ => simpa [notice] using ordered

/-- **Every event keeps the order.** -/
theorem ordered_step (sound : (w.scheduler r).Sound) (held : w.Held)
    (agrees : (w.scheduler r).Agrees J) (ordered : J.Ordered) (e : Event) :
    Journal.Ordered (J ++ w.observe r J e) := by
  have noticed := ordered_notice held agrees ordered e
  have after := agrees_step sound agrees e
  unfold observe at after ⊢
  rw [← List.append_assoc] at after ⊢
  split
  · next driven =>
    rw [if_pos driven] at after
    cases wave : (w.step e).1 with
    | nil => rwa [Journal.handOut, List.append_nil]
    | cons j rest =>
      rw [wave] at after
      exact noticed.concat (after.allowed (List.cons_ne_nil j rest))
  · rwa [List.append_nil]

/-- **Every entry of a journal is allowed where it stands.** -/
theorem ordered_run (r : SchedulerRef) (es : List Event) : (journal r es).Ordered := by
  induction es using List.reverseRecOn with
  | nil => exact Journal.ordered_nil
  | append_singleton es e ih =>
    rw [journal_concat]
    exact ordered_step (sound_run es r) (held_run es) (agrees_run es r) ih e

/-! ## What a driver launches is out -/

theorem out_poll {es : List Event} (active : ((run es).scheduler r).driver.isActive = true) :
    (journal r (es ++ [.poll r])).out = (journal r es).out ++ ((run es).poll r).1 := by
  rw [journal_concat, observe_poll (step_poll active), ← List.append_assoc, Journal.out_handOut,
    launched_poll]
  split
  · rw [Journal.out_concat]
    rfl
  · rw [List.append_nil]

/-- To look up is not to return. -/
theorem returned_poll {es : List Event} (active : ((run es).scheduler r).driver.isActive = true) :
    (journal r (es ++ [.poll r])).returned = (journal r es).returned := by
  rw [journal_concat, observe_poll (step_poll active), ← List.append_assoc,
    Journal.returned_append, Journal.returned_handOut, List.append_nil]
  split
  · rw [Journal.returned_concat]
    exact List.append_nil _
  · rw [List.append_nil]

theorem out_returned {es : List Event} {j : JobRef} (out : j ∈ (journal r es).out)
    (v : Verdict) :
    (journal r (es ++ [.returned r j v])).out =
      (journal r es).out.erase j ++ ((run es).returned r j v).1 := by
  rw [journal_returned out, Journal.out_handOut, Journal.out_concat, launched_returned]
  rfl

/-- **A step that returns is among the returns of the last tick.** -/
theorem last_returned {es : List Event} {j : JobRef} {past : List TickRecord} {t : TickRecord}
    (out : j ∈ (journal r es).out) (last : (journal r es).ticks = past ++ [t]) (v : Verdict) :
    ∃ t', (journal r (es ++ [.returned r j v])).ticks = past ++ [t'] ∧
      t'.registry = t.registry ∧ t'.returns = t.returns ++ [(run es).returnOf r j v] := by
  obtain ⟨loop, k, past', u, -, pending, tracks, last'⟩ := (agrees_run es r).ticking_of_out out
  obtain ⟨-, rfl⟩ := List.append_singleton_inj.1 (last.symm.trans last')
  have ticks := Journal.ticks_returned last ((run es).returnOf r j v)
  have returns : (t.settle ((run es).returnOf r j v)).returns =
      t.returns ++ [(run es).returnOf r j v] :=
    TickRecord.returns_settle (tracks.waves_ne_nil (List.ne_nil_of_mem pending))
  rw [journal_returned out v]
  obtain ⟨-, after⟩ | ⟨-, after⟩ := Journal.ticks_handOut ticks ((run es).settle r j v).launched
  · exact ⟨_, after, rfl, returns⟩
  · exact ⟨_, after, rfl, by rw [TickRecord.returns_launch, returns]⟩

end World

end FrameLoop

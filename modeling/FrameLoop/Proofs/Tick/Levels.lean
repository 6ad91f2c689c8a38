import FrameLoop.Proofs.Forest.Levels
import FrameLoop.Proofs.Tick.LaunchSet

/-!
# Waves are levels

What somebody has written down of a tick may be held against a forest and a list of how
each step is to end. A tick *follows* them if its steps ended so, each step that returned
found its job's children, and a child that it did not find had been launched before
(`TickRecord.Follows`).

Such a tick goes down level by level (`mem_launchedAt_iff_level`): its `k`-th wave is the
`k`-th level, as long as no level above has a fault in it. So two ticks that follow the
same, and are over, launched the same in each wave (`Follows.same_waves`).
-/

namespace FrameLoop

/-- Whether a step that ends so makes a fault. -/
def Verdict.isFault : Verdict → Bool
  | .outcome .resume | .outcome .detach => false
  | .outcome .abort | .failed _ | .panicked _ => true

theorem Verdict.isSome_fault? (v : Verdict) (name : String) :
    (v.fault? name).isSome = v.isFault := by
  cases v with
  | outcome o => cases o <;> rfl
  | failed cause => rfl
  | panicked p => rfl

namespace TickRecord

variable {t t' : TickRecord} {f : Forest} {verdicts : JobRef → Verdict} {b : Return}

/-! ## Who has asked to leave -/

/-- The jobs whose steps have asked to leave. -/
def detached (t : TickRecord) : List JobRef :=
  (t.returns.filter (·.verdict = .outcome .detach)).map (·.job)

theorem mem_detached {j : JobRef} :
    j ∈ t.detached ↔ ∃ b ∈ t.returns, b.verdict = .outcome .detach ∧ b.job = j := by
  simp [detached, and_assoc]

@[simp] theorem detached_launch (t : TickRecord) (wave : List JobRef) :
    (t.launch wave).detached = t.detached := by
  rw [detached, returns_launch, detached]

theorem detached_settle (some : t.waves ≠ []) (b : Return) :
    (t.settle b).detached =
      if b.verdict = .outcome .detach then t.detached ++ [b.job] else t.detached := by
  rw [detached, returns_settle some, List.filter_append, List.map_append, detached]
  split
  · next leaves => simp [leaves]
  · next stays => simp [stays]

/-! ## Following a forest -/

/-- **The tick follows a forest**: its steps ended as they were to, their jobs have the
names that they have there, and each step found the children that its job has there,
but for those that had been launched by then. -/
structure Follows (t : TickRecord) (f : Forest) (verdicts : JobRef → Verdict) : Prop where
  verdict : ∀ b ∈ t.returns, b.verdict = verdicts b.job
  named : ∀ b ∈ t.returns, b.name = f.name b.job
  child : ∀ b ∈ t.returns, ∀ x ∈ b.children, f.parent x = some b.job
  complete : ∀ k c, t.waves[k]? = some c → ∀ b ∈ c.returns, ∀ x, f.parent x = some b.job →
    x ∈ b.children ∨ ∃ i ≤ k, x ∈ t.launchedAt i

namespace Follows

/-- A tick of which nothing has been launched. -/
theorem began (registry : List JobRef) (f : Forest) (verdicts : JobRef → Verdict) :
    Follows { registry } f verdicts where
  verdict := by simp [returns]
  named := by simp [returns]
  child := by simp [returns]
  complete := by simp

theorem launch (h : t.Follows f verdicts) (wave : List JobRef) :
    (t.launch wave).Follows f verdicts where
  verdict := by
    rw [returns_launch]
    exact h.verdict
  named := by
    rw [returns_launch]
    exact h.named
  child := by
    rw [returns_launch]
    exact h.child
  complete k c here b hb x parent := by
    rw [waves_launch, List.getElem?_append] at here
    split at here
    · next short =>
      refine (h.complete k c here b hb x parent).imp_right ?_
      rintro ⟨i, near, old⟩
      refine ⟨i, near, ?_⟩
      rwa [launchedAt, getElem?_launch (Nat.lt_of_le_of_lt near short), ← launchedAt]
    · -- Of the new wave nothing has returned.
      rw [List.getElem?_singleton] at here
      split at here
      · cases here
        cases hb
      · cases here

/-- **A step returns**, having found what it is to find. -/
theorem settle (h : t.Follows f verdicts) (begun : t.waves ≠ [])
    (verdict : b.verdict = verdicts b.job) (named : b.name = f.name b.job)
    (child : ∀ x ∈ b.children, f.parent x = some b.job)
    (complete : ∀ x, f.parent x = some b.job → x ∈ b.children ∨ x ∈ t.launched) :
    (t.settle b).Follows f verdicts := by
  have returns := returns_settle (b := b) begun
  constructor
  case verdict =>
    rw [returns, List.forall_mem_append, List.forall_mem_singleton]
    exact ⟨h.verdict, verdict⟩
  case named =>
    rw [returns, List.forall_mem_append, List.forall_mem_singleton]
    exact ⟨h.named, named⟩
  case child =>
    rw [returns, List.forall_mem_append, List.forall_mem_singleton]
    exact ⟨h.child, child⟩
  case complete =>
    obtain none | ⟨cs, c, last⟩ := t.waves_cases
    · exact absurd none begun
    intro k d here a ha x parent
    simp only [launchedAt_settle]
    rw [waves_settle last, List.getElem?_append] at here
    split at here
    · next short =>
      have before : t.waves[k]? = some d := by
        rw [last, List.getElem?_append_left short, here]
      exact h.complete k d before a ha x parent
    · next late =>
      obtain ⟨zero, rfl⟩ : k - cs.length = 0 ∧ c.settle b = d := by
        rw [List.getElem?_singleton] at here
        split at here
        · next zero => exact ⟨zero, Option.some.inj here⟩
        · cases here
      have before : t.waves[k]? = some c := by
        rw [last, List.getElem?_append_right (Nat.le_of_not_lt late), zero]
        rfl
      have whole : t.waves.length = k + 1 := by
        rw [last, List.length_append, List.length_singleton]
        omega
      rcases List.mem_append.1 ha with old | new
      · exact h.complete k c before a old x parent
      · obtain rfl := List.mem_singleton.1 new
        refine (complete x parent).imp_right fun old => ?_
        obtain ⟨i, short, hx⟩ := mem_launched.1 old
        exact ⟨i, by omega, hx⟩

/-- A step of the tick that has returned made a fault if it was to. -/
theorem isFault (h : t.Follows f verdicts) (ret : b ∈ t.returns) :
    b.isFault = (verdicts b.job).isFault := by
  rw [Return.isFault, Return.error?, Verdict.isSome_fault?, h.verdict b ret]

end Follows

/-! ## Level by level -/

/-- What has been launched in a wave that has drained has returned. -/
theorem mem_launchedAt_iff_returned {k : Nat} {c : Wave} (here : t.waves[k]? = some c)
    (drained : c.Drained) {x : JobRef} : x ∈ t.launchedAt k ↔ ∃ b ∈ c.returns, b.job = x := by
  rw [launchedAt_eq here, ← drained.mem_iff, List.mem_map]

theorem mem_returns {k : Nat} {c : Wave} (here : t.waves[k]? = some c) {b : Return}
    (hb : b ∈ c.returns) : b ∈ t.returns :=
  List.mem_flatMap.2 ⟨c, List.mem_of_getElem? here, hb⟩

section NextLevel

variable {k : Nat} (above : ∀ j, j ∈ t.launchedAt k ↔ f.Level t.registry k j ∧
  ∀ i < k, ∀ x, f.Level t.registry i x → (verdicts x).isFault = false)
include above

/-- Where there is no wave there is nothing on the level, unless a fault is above, and hence
nothing on the next. -/
theorem not_level_of_missing (missing : t.waves.length ≤ k) (j : JobRef) :
    ¬ (f.Level t.registry (k + 1) j ∧
      ∀ i < k + 1, ∀ x, f.Level t.registry i x → (verdicts x).isFault = false) := by
  rintro ⟨level, sound⟩
  obtain ⟨-, p, -, higher⟩ := Forest.level_succ.1 level
  have launched := (above p).2 ⟨higher, fun i near => sound i (Nat.lt_succ_of_lt near)⟩
  rw [launchedAt_of_length_le missing] at launched
  cases launched

variable {c : Wave} (follows : t.Follows f verdicts) (here : t.waves[k]? = some c)
  (drained : c.Drained)
include follows here drained

/-- Below a wave with a fault in it no level is reached. -/
theorem Follows.not_level_of_faulty (faulty : c.faulty = true) (j : JobRef) :
    ¬ (f.Level t.registry (k + 1) j ∧
      ∀ i < k + 1, ∀ x, f.Level t.registry i x → (verdicts x).isFault = false) := by
  obtain ⟨b, hb, fault⟩ := List.any_eq_true.1 faulty
  have level := ((above b.job).1 ((mem_launchedAt_iff_returned here drained).2 ⟨b, hb, rfl⟩)).1
  rintro ⟨-, sound⟩
  rw [follows.isFault (mem_returns here hb), sound k (Nat.lt_succ_self k) _ level] at fault
  cases fault

/-- A job that returned without a fault has its children on the next level, unless they have
been launched before. -/
theorem Follows.level_of_child (sound : c.faulty = false) {j : JobRef} {b : Return}
    (hb : b ∈ c.returns) (child : j ∈ b.children) (unregistered : j ∉ t.registry) :
    f.Level t.registry (k + 1) j ∧
      ∀ i < k + 1, ∀ x, f.Level t.registry i x → (verdicts x).isFault = false := by
  have parent := follows.child b (mem_returns here hb) j child
  obtain ⟨level, before⟩ :=
    (above b.job).1 ((mem_launchedAt_iff_returned here drained).2 ⟨b, hb, rfl⟩)
  refine ⟨Forest.level_succ.2 ⟨unregistered, b.job, parent, level⟩, ?_⟩
  intro i near x higher
  rcases Nat.lt_succ_iff_lt_or_eq.1 near with earlier | rfl
  · exact before i earlier x higher
  · obtain ⟨a, ha, rfl⟩ :=
      (mem_launchedAt_iff_returned here drained).1 ((above x).2 ⟨higher, before⟩)
    rw [← follows.isFault (mem_returns here ha)]
    simpa using List.any_eq_false.1 sound a ha

/-- A job on the next level is the child of one that returned, as that found it, unless it
has been launched before. -/
theorem Follows.child_of_level (sound : c.faulty = false) {j : JobRef}
    (level : f.Level t.registry (k + 1) j)
    (before : ∀ i < k, ∀ x, f.Level t.registry i x → (verdicts x).isFault = false)
    (new : ∀ i ≤ k, j ∉ t.launchedAt i) :
    ∃ b ∈ c.returns, b.isFault = false ∧ j ∈ b.children := by
  obtain ⟨-, p, parent, higher⟩ := Forest.level_succ.1 level
  obtain ⟨b, hb, rfl⟩ := (mem_launchedAt_iff_returned here drained).1 ((above p).2 ⟨higher, before⟩)
  rcases follows.complete k c here b hb j parent with child | ⟨i, near, old⟩
  · exact ⟨b, hb, by simpa using List.any_eq_false.1 sound b hb, child⟩
  · exact absurd old (new i near)

end NextLevel

/-- **The waves of a tick are the levels of the forest that it follows**, down to the
first in which a step makes a fault. -/
theorem Follows.mem_launchedAt_iff_level (follows : t.Follows f verdicts) (exact : t.Exact)
    {k : Nat} (h : k < t.waves.length ∨ t.Over) (j : JobRef) :
    j ∈ t.launchedAt k ↔ f.Level t.registry k j ∧
      ∀ i < k, ∀ x, f.Level t.registry i x → (verdicts x).isFault = false := by
  induction k using Nat.strongRecOn generalizing j with
  | _ k ih =>
    cases k with
    | zero => rw [exact.mem_launchedAt_zero h, Forest.level_zero]; simp
    | succ k =>
      have reach : ∀ i ≤ k, i < t.waves.length ∨ t.Over := by
        intro i near
        exact h.imp_left fun short => by omega
      have above := ih k (Nat.lt_succ_self k) (reach k (Nat.le_refl k))
      cases here : t.waves[k]? with
      | none =>
        have missing := List.getElem?_eq_none_iff.1 here
        rw [launchedAt_of_length_le (Nat.le_succ_of_le missing)]
        exact iff_of_false List.not_mem_nil (not_level_of_missing above missing j)
      | some c =>
        have drained : c.Drained := by
          rcases h with short | spent
          · exact (exact.barrier k c here short).1
          · exact spent.1 c (List.mem_of_getElem? here)
        cases faulty : c.faulty with
        | true =>
          have last : t.waves.length ≤ k + 1 := by
            by_contra more
            rw [(exact.barrier k c here (Nat.lt_of_not_le more)).2] at faulty
            cases faulty
          rw [launchedAt_of_length_le last]
          exact iff_of_false List.not_mem_nil
            (follows.not_level_of_faulty above here drained faulty j)
        | false =>
          rw [exact.mem_launchedAt_succ here h faulty]
          constructor
          · rintro ⟨⟨b, hb, -, child⟩, new⟩
            refine follows.level_of_child above here drained faulty hb child ?_
            rw [← exact.mem_launchedAt_zero (reach 0 (Nat.zero_le k))]
            exact new 0 (Nat.zero_le k)
          · rintro ⟨level, sound⟩
            -- Levels are told apart, so that the job has not been launched before.
            have new : ∀ i ≤ k, j ∉ t.launchedAt i := by
              intro i near old
              have other := ((ih i (Nat.lt_succ_of_le near) (reach i near) j).1 old).1
              have same := other.unique level
              omega
            exact ⟨follows.child_of_level above here drained faulty level
              (fun i near => sound i (Nat.lt_succ_of_lt near)) new, new⟩

/-! ## A tick that is over -/

theorem nodup_launchedAt (exact : t.Exact) (k : Nat) : (t.launchedAt k).Nodup := by
  cases here : t.waves[k]? with
  | none =>
    rw [launchedAt, here]
    exact List.nodup_nil
  | some c =>
    have part : c.launched.Sublist t.launched :=
      List.sublist_flatten_of_mem (List.mem_map_of_mem (List.mem_of_getElem? here))
    rw [launchedAt_eq here]
    exact exact.nodup.sublist part

/-- As many waves were launched as have something in them. -/
theorem Exact.lt_length_iff (exact : t.Exact) {k : Nat} :
    k < t.waves.length ↔ ∃ j, j ∈ t.launchedAt k := by
  constructor
  · intro short
    have here := List.getElem?_eq_getElem short
    rw [launchedAt_eq here]
    exact List.exists_mem_of_ne_nil _ (exact.nonempty _ (List.mem_of_getElem? here))
  · rintro ⟨j, hj⟩
    by_contra late
    rw [launchedAt_of_length_le (Nat.le_of_not_lt late)] at hj
    cases hj

/-- Who was launched has returned. -/
theorem Over.mem_launched (spent : t.Over) {j : JobRef} :
    j ∈ t.launched ↔ ∃ b ∈ t.returns, b.job = j := by
  rw [← (returned_perm spent.1).mem_iff, List.mem_map]

namespace Follows

/-- Who has been detached was launched, and was to ask for it. -/
theorem mem_detached_iff (follows : t.Follows f verdicts) (spent : t.Over) {j : JobRef} :
    j ∈ t.detached ↔ j ∈ t.launched ∧ verdicts j = .outcome .detach := by
  rw [mem_detached, spent.mem_launched]
  constructor
  · rintro ⟨b, hb, leaves, rfl⟩
    exact ⟨⟨b, hb, rfl⟩, (follows.verdict b hb).symm.trans leaves⟩
  · rintro ⟨⟨b, hb, rfl⟩, leaves⟩
    exact ⟨b, hb, (follows.verdict b hb).trans leaves, rfl⟩

/-- The tick has made a fault if a step that was launched was to make one. -/
theorem faulty_iff (follows : t.Follows f verdicts) (spent : t.Over) :
    t.faulty = true ↔ ∃ j ∈ t.launched, (verdicts j).isFault = true := by
  rw [faulty, firstFault?, List.find?_isSome]
  constructor
  · rintro ⟨b, hb, fault⟩
    exact ⟨b.job, spent.mem_launched.2 ⟨b, hb, rfl⟩, (follows.isFault hb).symm.trans fault⟩
  · rintro ⟨j, launched, fault⟩
    obtain ⟨b, hb, rfl⟩ := spent.mem_launched.1 launched
    exact ⟨b, hb, (follows.isFault hb).trans fault⟩

section Two

variable (follows : t.Follows f verdicts) (follows' : t'.Follows f verdicts) (exact : t.Exact)
  (exact' : t'.Exact) (spent : t.Over) (spent' : t'.Over) (registry : t'.registry = t.registry)
include follows follows' exact exact' spent spent' registry

/-- **Two ticks that follow the same and are over launched the same**, wave by wave. -/
theorem same_waves (k : Nat) : (t'.launchedAt k).Perm (t.launchedAt k) := by
  refine (List.perm_ext_iff_of_nodup (nodup_launchedAt exact' k) (nodup_launchedAt exact k)).2 ?_
  intro j
  rw [follows'.mem_launchedAt_iff_level exact' (.inr spent'),
    follows.mem_launchedAt_iff_level exact (.inr spent), registry]

/-- They launched as many waves. -/
theorem same_length : t'.waves.length = t.waves.length := by
  have same (k : Nat) : k < t'.waves.length ↔ k < t.waves.length := by
    rw [exact'.lt_length_iff, exact.lt_length_iff]
    exact exists_congr fun j =>
      (follows.same_waves follows' exact exact' spent spent' registry k).mem_iff
  exact Nat.le_antisymm (Nat.le_of_not_lt fun more => Nat.lt_irrefl _ ((same _).1 more))
    (Nat.le_of_not_lt fun more => Nat.lt_irrefl _ ((same _).2 more))

/-- They launched the same in all. -/
theorem same_launched : t'.launched.Perm t.launched := by
  refine (List.perm_ext_iff_of_nodup exact'.nodup exact.nodup).2 fun j => ?_
  rw [TickRecord.mem_launched, TickRecord.mem_launched,
    follows.same_length follows' exact exact' spent spent' registry]
  exact exists_congr fun k => and_congr_right fun _ =>
    (follows.same_waves follows' exact exact' spent spent' registry k).mem_iff

/-- The same jobs have been detached. -/
theorem same_detached (j : JobRef) : j ∈ t.detached ↔ j ∈ t'.detached := by
  rw [follows.mem_detached_iff spent, follows'.mem_detached_iff spent',
    (follows.same_launched follows' exact exact' spent spent' registry).mem_iff]

/-- Either both have made a fault, or none has. -/
theorem same_faulty : t'.faulty = t.faulty := by
  rw [Bool.eq_iff_iff, follows'.faulty_iff spent', follows.faulty_iff spent]
  exact exists_congr fun j => and_congr_left fun _ =>
    (follows.same_launched follows' exact exact' spent spent' registry).mem_iff

end Two

end Follows

end TickRecord

end FrameLoop

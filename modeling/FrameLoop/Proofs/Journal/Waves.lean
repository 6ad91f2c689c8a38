import FrameLoop.Proofs.Journal
import Mathlib.Data.List.Perm.Basic

/-!
# Waves that are exact

What a tick has to launch can be said of the journal alone. A job is *due* in
the first wave if it was registered when the tick started, and in a later wave
if the wave before leads to it. A tick is *exact* if each of its waves launched
what was due in it and had not been launched before, and if no wave was
launched before the one before had drained without a fault. It is *over* if
every wave has drained and nothing is left to launch.

The two ways in which a tick grows keep it exact: one more wave that is what
it has to be, and one more return in the last wave.
-/

namespace FrameLoop

namespace TickRecord

/-! ## The parts of a tick that grows -/

/-- A tick without waves has launched nothing, and its last wave is none. -/
theorem waves_cases (t : TickRecord) : t.waves = [] ∨ ∃ cs c, t.waves = cs ++ [c] := by
  simpa only [List.concat_eq_append] using t.waves.eq_nil_or_concat

@[simp] theorem registry_launch (t : TickRecord) (wave : List JobRef) :
    (t.launch wave).registry = t.registry := rfl

@[simp] theorem registry_settle (t : TickRecord) (b : Return) :
    (t.settle b).registry = t.registry := rfl

@[simp] theorem waves_launch (t : TickRecord) (wave : List JobRef) :
    (t.launch wave).waves = t.waves ++ [{ launched := wave }] := rfl

/-- A return goes to the last wave. -/
theorem waves_settle {t : TickRecord} {cs : List Wave} {c : Wave} (h : t.waves = cs ++ [c])
    (b : Return) : (t.settle b).waves = cs ++ [c.settle b] := by
  show t.waves.modifyLast (Wave.settle b) = _
  rw [h, List.modifyLast_concat]

@[simp] theorem launched_launch (t : TickRecord) (wave : List JobRef) :
    (t.launch wave).launched = t.launched ++ wave := by
  simp [launched]

@[simp] theorem returns_launch (t : TickRecord) (wave : List JobRef) :
    (t.launch wave).returns = t.returns := by
  simp [returns]

/-- A return launches nothing. -/
@[simp] theorem map_launched_settle (t : TickRecord) (b : Return) :
    (t.settle b).waves.map (·.launched) = t.waves.map (·.launched) := by
  obtain h | ⟨cs, c, h⟩ := t.waves_cases
  · show (t.waves.modifyLast (Wave.settle b)).map (·.launched) = _
    rw [h]
    rfl
  · simp [waves_settle h, h, Wave.settle]

@[simp] theorem launched_settle (t : TickRecord) (b : Return) :
    (t.settle b).launched = t.launched := by
  simp only [launched, List.flatMap_def, map_launched_settle]

@[simp] theorem length_settle (t : TickRecord) (b : Return) :
    (t.settle b).waves.length = t.waves.length := by
  have same := congrArg List.length (t.map_launched_settle b)
  rwa [List.length_map, List.length_map] at same

@[simp] theorem launchedAt_settle (t : TickRecord) (b : Return) (k : Nat) :
    (t.settle b).launchedAt k = t.launchedAt k := by
  simp only [launchedAt, ← List.getElem?_map, map_launched_settle]

theorem returns_settle {t : TickRecord} {b : Return} (h : t.waves ≠ []) :
    (t.settle b).returns = t.returns ++ [b] := by
  obtain none | ⟨cs, c, last⟩ := t.waves_cases
  · exact absurd none h
  · simp [returns, waves_settle last, last, Wave.settle]

/-- Without a wave a return is lost. -/
theorem settle_of_nil {t : TickRecord} (none : t.waves = []) (b : Return) : t.settle b = t := by
  obtain ⟨registry, waves⟩ := t
  obtain rfl : waves = [] := none
  rfl

/-- A tick has made a fault if one of its waves has. -/
theorem faulty_eq_false {t : TickRecord} :
    t.faulty = false ↔ ∀ c ∈ t.waves, c.faulty = false := by
  simp only [faulty, firstFault?, returns, Option.isSome_eq_false_iff, Option.isNone_iff_eq_none,
    List.find?_eq_none, List.mem_flatMap, Wave.faulty, List.any_eq_false]
  constructor
  · exact fun h c hc b hb => h b ⟨c, hc, hb⟩
  · rintro h b ⟨c, hc, hb⟩
    exact h c hc b hb

theorem launchedAt_of_length_le {t : TickRecord} {k : Nat} (h : t.waves.length ≤ k) :
    t.launchedAt k = [] := by
  simp [launchedAt, h]

theorem launchedAt_eq {t : TickRecord} {k : Nat} {c : Wave} (h : t.waves[k]? = some c) :
    t.launchedAt k = c.launched := by
  simp [launchedAt, h]

/-- A job was launched if some wave launched it. -/
theorem mem_launched {t : TickRecord} {j : JobRef} :
    j ∈ t.launched ↔ ∃ k < t.waves.length, j ∈ t.launchedAt k := by
  simp only [launched, List.mem_flatMap]
  constructor
  · rintro ⟨c, hc, hj⟩
    obtain ⟨k, hk⟩ := List.getElem?_of_mem hc
    obtain ⟨short, -⟩ := List.getElem?_eq_some_iff.1 hk
    exact ⟨k, short, launchedAt_eq hk ▸ hj⟩
  · rintro ⟨k, hk, hj⟩
    have found := List.getElem?_eq_getElem hk
    exact ⟨_, List.getElem_mem hk, launchedAt_eq found ▸ hj⟩

/-! ## What is due -/

/-- **The jobs that are due in the `k`-th wave**: at first those registered,
and then those that the wave before leads to. -/
def Due (t : TickRecord) : Nat → JobRef → Prop
  | 0, j => j ∈ t.registry
  | k + 1, j => ∃ c, t.waves[k]? = some c ∧ c.Leads j

/-- What is due in a wave is settled by the waves before it. -/
theorem due_congr {t u : TickRecord} (registry : u.registry = t.registry) {k : Nat}
    (before : ∀ i < k, u.waves[i]? = t.waves[i]?) (j : JobRef) : u.Due k j ↔ t.Due k j := by
  cases k with
  | zero => simp only [Due, registry]
  | succ k => simp only [Due, before k (Nat.lt_succ_self k)]

theorem getElem?_launch {t : TickRecord} {wave : List JobRef} {k : Nat} (h : k < t.waves.length) :
    (t.launch wave).waves[k]? = t.waves[k]? := by
  rw [waves_launch, List.getElem?_append_left h]

theorem getElem?_settle {t : TickRecord} {b : Return} {k : Nat} (h : k + 1 < t.waves.length) :
    (t.settle b).waves[k]? = t.waves[k]? := by
  obtain none | ⟨cs, c, last⟩ := t.waves_cases
  · simp [none] at h
  · rw [last, List.length_append, List.length_singleton] at h
    have short : k < cs.length := Nat.lt_of_succ_lt_succ h
    rw [waves_settle last, last, List.getElem?_append_left short, List.getElem?_append_left short]

/-- **What is due after the last wave**: what is registered, if there is no
wave yet, or what the last wave leads to. -/
theorem due_length {t : TickRecord} {cs : List Wave} {c : Wave} (h : t.waves = cs ++ [c])
    (j : JobRef) : t.Due t.waves.length j ↔ c.Leads j := by
  have last : t.waves[cs.length]? = some c := by simp [h]
  rw [h, List.length_append, List.length_singleton]
  simp only [Due, last, Option.some.injEq, exists_eq_left']

/-! ## Exact ticks -/

/-- **Each wave launched what it had to.** -/
structure Exact (t : TickRecord) : Prop where
  /-- A wave launches what is due and was not launched before. -/
  launches : ∀ k c, t.waves[k]? = some c →
    ∀ j, j ∈ c.launched ↔ t.Due k j ∧ ∀ i < k, j ∉ t.launchedAt i
  /-- A wave launches something. -/
  nonempty : ∀ c ∈ t.waves, c.launched ≠ []
  /-- No job is launched twice. -/
  nodup : t.launched.Nodup
  /-- A wave that is not the last has drained, without a fault. -/
  barrier : ∀ k c, t.waves[k]? = some c → k + 1 < t.waves.length → c.Drained ∧ c.faulty = false

/-- **Nothing is out and nothing is left to launch**: a step has made a fault,
or what is due has been launched before. -/
def Over (t : TickRecord) : Prop :=
  (∀ c ∈ t.waves, c.Drained) ∧
    (t.faulty = true ∨ ∀ j, t.Due t.waves.length j → j ∈ t.launched)

/-- A tick that has only begun is exact. -/
theorem exact_began (registry : List JobRef) : Exact { registry } where
  launches := by simp
  nonempty := by simp
  nodup := List.nodup_nil
  barrier := by simp

/-- **One more wave keeps a tick exact**, if it is what is due and new and the
wave before has drained without a fault. -/
theorem Exact.launch {t : TickRecord} (exact : t.Exact) {wave : List JobRef} (some : wave ≠ [])
    (nodup : wave.Nodup) (mem : ∀ j, j ∈ wave ↔ t.Due t.waves.length j ∧ j ∉ t.launched)
    (drained : ∀ c ∈ t.waves, c.Drained ∧ c.faulty = false) : (t.launch wave).Exact where
  launches k c hk j := by
    have within := (List.getElem?_eq_some_iff.1 hk).1
    rw [waves_launch, List.length_append, List.length_singleton] at within
    have due : (t.launch wave).Due k j ↔ t.Due k j :=
      due_congr (t.registry_launch wave) (fun i hi => getElem?_launch (by omega)) j
    have before : ∀ i < t.waves.length, (t.launch wave).launchedAt i = t.launchedAt i := by
      intro i hi
      simp only [launchedAt, getElem?_launch hi]
    rw [due]
    by_cases old : k < t.waves.length
    · rw [getElem?_launch old] at hk
      rw [exact.launches k c hk j]
      refine and_congr_right fun _ => forall₂_congr fun i hi => ?_
      rw [before i (Nat.lt_trans hi old)]
    · obtain rfl : k = t.waves.length := by omega
      obtain rfl : { launched := wave } = c := by simpa using hk
      rw [mem j, mem_launched]
      refine and_congr_right fun _ => ?_
      simp only [not_exists, not_and]
      exact forall₂_congr fun i hi => by rw [before i hi]
  nonempty c hc := by
    rw [waves_launch, List.mem_append, List.mem_singleton] at hc
    obtain old | rfl := hc
    · exact exact.nonempty c old
    · exact some
  nodup := by
    rw [launched_launch]
    refine List.nodup_append.2 ⟨exact.nodup, nodup, ?_⟩
    rintro i old _ new rfl
    exact ((mem i).1 new).2 old
  barrier k c hk short := by
    simp only [waves_launch, List.length_append, List.length_singleton] at short
    rw [getElem?_launch (by omega)] at hk
    exact drained c (List.mem_of_getElem? hk)

/-- **One more return keeps a tick exact.** -/
theorem Exact.settle {t : TickRecord} (exact : t.Exact) (b : Return) : (t.settle b).Exact where
  launches k c hk j := by
    have due : (t.settle b).Due k j ↔ t.Due k j := by
      refine due_congr (t.registry_settle b) (fun i hi => getElem?_settle ?_) j
      have := (List.getElem?_eq_some_iff.1 hk).1
      rw [length_settle] at this
      omega
    have same : (t.settle b).launchedAt k = t.launchedAt k := t.launchedAt_settle b k
    have short : k < t.waves.length := by
      simpa using (List.getElem?_eq_some_iff.1 hk).1
    have here := List.getElem?_eq_getElem short
    rw [launchedAt_eq hk, launchedAt_eq here] at same
    simp only [same, due, launchedAt_settle]
    exact exact.launches k _ here j
  nonempty c hc := by
    have : c.launched ∈ (t.settle b).waves.map (·.launched) := List.mem_map_of_mem hc
    rw [map_launched_settle] at this
    obtain ⟨d, hd, same⟩ := List.mem_map.1 this
    exact same ▸ exact.nonempty d hd
  nodup := by rw [launched_settle]; exact exact.nodup
  barrier k c hk short := by
    rw [length_settle] at short
    rw [getElem?_settle short] at hk
    exact exact.barrier k c hk short

/-- Once all waves have drained, what was launched has returned. -/
theorem returned_perm {t : TickRecord} (drained : ∀ c ∈ t.waves, c.Drained) :
    (t.returns.map (·.job)).Perm t.launched := by
  rw [returns, List.map_flatMap]
  exact List.Perm.flatMap_left t.waves drained

/-- All waves but the last have drained, without a fault. -/
theorem Exact.drained_init {t : TickRecord} (exact : t.Exact) {cs : List Wave} {c : Wave}
    (h : t.waves = cs ++ [c]) : ∀ d ∈ cs, d.Drained ∧ d.faulty = false := by
  intro d hd
  obtain ⟨k, short, rfl⟩ := List.getElem_of_mem hd
  have here : t.waves[k]? = some cs[k] := by
    rw [h, List.getElem?_append_left short, List.getElem?_eq_getElem short]
  exact exact.barrier k _ here (by rw [h]; simpa using short)

/-- **No wave follows one with a fault.** -/
theorem Exact.last_of_faulty {t : TickRecord} (exact : t.Exact) {c : Wave} (wave : c ∈ t.waves)
    (faulty : c.faulty = true) : ∃ cs, t.waves = cs ++ [c] := by
  obtain none | ⟨cs, d, last⟩ := t.waves_cases
  · rw [none] at wave
    cases wave
  · rw [last, List.mem_append, List.mem_singleton] at wave
    obtain early | rfl := wave
    · rw [(exact.drained_init last c early).2] at faulty
      cases faulty
    · exact ⟨cs, last⟩

end TickRecord

end FrameLoop

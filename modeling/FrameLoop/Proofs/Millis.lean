import FrameLoop.Proofs.Binary64
import FrameLoop.Settings

/-!
# Milliseconds that become durations

A number of milliseconds is rounded twice on its way to a duration: its thousandth to a
binary64 number of seconds, and those to whole nanoseconds. Each time it goes to what is
nearest, and to what is even where two are equally near (`durationOfMillis_accurate`). Either
rounding keeps the order, so a longer setting is never the shorter duration; this needs no
bound on what is rounded off.

The conversion fails where the seconds come to 2^64 or more (`ofSeconds?_eq_none`), and they
come to so much from 1000 · (2^64 - 2^10) milliseconds on (`le_value_seconds_iff`): the last
number of seconds below 2^64 is 2^64 - 2^11, and from the middle on the thousandth is rounded
up. `Overlong` numbers are the only ones for which there is no duration
(`durationOfMillis_ok_iff`).

An infinity and what is no number have no place in the order. They become the duration zero,
and so does what is negative.
-/

namespace FrameLoop

open Binary64 (unitsPerOne unitsAt strictMono_unitsAt value_of_nonneg unitsPerOne_pos)
open Rounding (Nearest)

variable {ms q : Binary64}

/-! ## A thousandth -/

/-- The number of seconds that a number of milliseconds is taken for. -/
def seconds (ms : Binary64) : Binary64 := ms.div (.ofNat 1000)

theorem seconds_eq (ms : Binary64) : seconds ms = ms.div (.ofNat 1000) := rfl

theorem units_thousand : (Binary64.ofNat 1000).units = 1000 * unitsPerOne := by decide +kernel

theorem isNegative_thousand : (Binary64.ofNat 1000).isNegative = false := by decide +kernel

theorem value_thousand : (Binary64.ofNat 1000).value = 1000 := by
  have one : (unitsPerOne : ℚ) ≠ 0 := Nat.cast_ne_zero.2 unitsPerOne_pos.ne'
  rw [value_of_nonneg isNegative_thousand, units_thousand, Nat.cast_mul, Nat.cast_ofNat,
    mul_div_cancel_right₀ _ one]

/-- A thousandth of a finite number is finite: it is not rounded beyond the number itself. -/
theorem isFinite_seconds (finite : ms.isFinite = true) (pos : ms.isNegative = false) :
    (seconds ms).isFinite = true := by
  have one : (0 : ℚ) < unitsPerOne := Nat.cast_pos.2 unitsPerOne_pos
  have near := Binary64.nearest_place (ms.units * unitsPerOne) (d := 1000 * unitsPerOne)
    (Nat.mul_pos (by decide) unitsPerOne_pos)
  have less : ((ms.units * unitsPerOne : ℕ) : ℚ) / (1000 * unitsPerOne : ℕ) ≤ ms.units := by
    rw [div_le_iff₀ (Nat.cast_pos.2 (Nat.mul_pos (by decide) unitsPerOne_pos))]
    exact_mod_cast Nat.mul_le_mul_left _ (Nat.le_mul_of_pos_left unitsPerOne (by decide))
  have within := near.le strictMono_unitsAt (Rounding.nearest_self strictMono_unitsAt ms.index) less
  have below := Binary64.isFinite_iff.1 finite
  have small : Binary64.place (ms.units * unitsPerOne) (1000 * unitsPerOne) <
      Binary64.infinityIndex := lt_of_le_of_lt within below
  rw [Binary64.isFinite_iff, seconds, Binary64.div, pos, isNegative_thousand, bne_self_eq_false,
    units_thousand, Binary64.nearestIndex_eq, min_eq_right small.le,
    Binary64.index_ofIndex (small.trans (by decide))]
  exact small

/-- The seconds have no sign, and their magnitude is the one nearest to a thousandth. -/
theorem nearest_seconds (finite : ms.isFinite = true) (pos : ms.isNegative = false) :
    (seconds ms).isNegative = false ∧
      Nearest unitsAt (ms.units / 1000 : ℚ) (seconds ms).index := by
  have one : (unitsPerOne : ℚ) ≠ 0 := Nat.cast_ne_zero.2 unitsPerOne_pos.ne'
  obtain ⟨sign, near⟩ := Binary64.nearest_div (pos.trans isNegative_thousand.symm)
    (units_thousand ▸ Nat.mul_pos (by decide) unitsPerOne_pos) (isFinite_seconds finite pos)
  refine ⟨sign, ?_⟩
  rwa [units_thousand, Nat.cast_mul, ← div_div, div_mul_cancel₀ _ one, Nat.cast_ofNat] at near

/-- **More milliseconds are never fewer seconds.** -/
theorem seconds_mono {a b : Binary64} (fa : a.isFinite = true) (fb : b.isFinite = true)
    (signa : a.isNegative = false) (signb : b.isNegative = false) (le : a.index ≤ b.index) :
    (seconds a).index ≤ (seconds b).index := by
  have units : (a.units : ℚ) ≤ b.units := Nat.cast_le.2 (strictMono_unitsAt.monotone le)
  exact (nearest_seconds fa signa).2.le strictMono_unitsAt (nearest_seconds fb signb).2
    (by linarith)

/-! ## Nanoseconds -/

theorem Duration.ofNanos?_eq_some {n : ℕ} {d : Duration} :
    Duration.ofNanos? n = some d ↔ d.nanos = n := by
  unfold Duration.ofNanos?
  split
  · rw [Option.some.injEq, Duration.mk.injEq, eq_comm]
  · next long =>
    refine ⟨fun made => ?_, fun same => absurd (same ▸ d.inRange) long⟩
    cases made

theorem Duration.ofNanos?_eq_none {n : ℕ} : Duration.ofNanos? n = none ↔ Duration.limit ≤ n := by
  unfold Duration.ofNanos?
  split
  · next short =>
    refine ⟨fun made => ?_, fun long => absurd short (Nat.not_lt.2 long)⟩
    cases made
  · next long => exact ⟨fun _ => Nat.not_lt.1 long, fun _ => rfl⟩

theorem nearest_rounded (pos : q.isNegative = false) :
    Nearest id (q.value * 10 ^ 9) (Rounding.nearest (q.units * nanosPerSecond) unitsPerOne) := by
  have near := Rounding.nearest_whole (q.units * nanosPerSecond) unitsPerOne_pos
  have same : ((q.units * nanosPerSecond : ℕ) : ℚ) / unitsPerOne = q.value * 10 ^ 9 := by
    rw [value_of_nonneg pos, nanosPerSecond, Nat.cast_mul, mul_div_right_comm]
    norm_num
  rwa [same] at near

/-- **Seconds are rounded to the nearest nanosecond.** -/
theorem nearest_nanos {d : Duration} (pos : q.isNegative = false)
    (made : Duration.ofSeconds? q = some d) : Nearest id (q.value * 10 ^ 9) d.nanos := by
  rw [Duration.ofNanos?_eq_some.1 made]
  exact nearest_rounded pos

/-- The index of 2^64. -/
def limitIndex : ℕ := 1087 * 2 ^ 52

theorem unitsAt_limit : unitsAt limitIndex = 2 ^ 64 * unitsPerOne := by decide +kernel

theorem unitsAt_below_limit : unitsAt (limitIndex - 1) = (2 ^ 64 - 2 ^ 11) * unitsPerOne := by
  decide +kernel

/-- A number of seconds is one of 2^64 or more if its index says so. -/
theorem le_value_iff (pos : q.isNegative = false) : 2 ^ 64 ≤ q.value ↔ limitIndex ≤ q.index := by
  have one : (0 : ℚ) < unitsPerOne := Nat.cast_pos.2 unitsPerOne_pos
  rw [value_of_nonneg pos, le_div_iff₀ one, ← strictMono_unitsAt.le_iff_le, unitsAt_limit]
  exact_mod_cast Iff.rfl

/-- And if not, it is one of 2^64 - 2^11 at most, the next number below. -/
theorem value_le_of_lt (pos : q.isNegative = false) (less : q.value < 2 ^ 64) :
    q.value ≤ 2 ^ 64 - 2 ^ 11 := by
  have one : (0 : ℚ) < unitsPerOne := Nat.cast_pos.2 unitsPerOne_pos
  have below : q.index < limitIndex :=
    Nat.lt_of_not_le fun le => not_le.2 less ((le_value_iff pos).2 le)
  have units : q.units ≤ (2 ^ 64 - 2 ^ 11) * unitsPerOne := by
    rw [← unitsAt_below_limit]
    exact strictMono_unitsAt.monotone (Nat.le_sub_one_of_lt below)
  rw [value_of_nonneg pos, div_le_iff₀ one]
  calc (q.units : ℚ) ≤ ((2 ^ 64 - 2 ^ 11) * unitsPerOne : ℕ) := Nat.cast_le.2 units
    _ = (2 ^ 64 - 2 ^ 11) * unitsPerOne := by push_cast; norm_num

/-- **There is no duration of 2^64 seconds or more**, and one of any fewer: rounding to
nanoseconds does not reach the bound. -/
theorem ofSeconds?_eq_none (pos : q.isNegative = false) :
    Duration.ofSeconds? q = none ↔ 2 ^ 64 ≤ q.value := by
  have near := nearest_rounded pos
  have limit : (Duration.limit : ℚ) = 2 ^ 64 * 10 ^ 9 := by
    rw [Duration.limit, nanosPerSecond, UInt64.size]
    norm_num
  rw [Duration.ofSeconds?, Duration.ofNanos?_eq_none]
  constructor
  · intro long
    by_contra less
    have most : q.value * 10 ^ 9 ≤ ((2 ^ 64 - 2 ^ 11) * 10 ^ 9 : ℕ) := by
      push_cast
      have := value_le_of_lt pos (not_le.1 less)
      norm_num at this ⊢
      linarith
    have within := near.le strictMono_id (Rounding.nearest_self strictMono_id _) most
    exact absurd (long.trans within) (by decide)
  · intro reach
    have beyond : (Duration.limit : ℚ) ≤ q.value * 10 ^ 9 := by
      rw [limit]
      linarith
    exact (Rounding.nearest_self strictMono_id Duration.limit).le strictMono_id near beyond

/-! ## From milliseconds to a duration -/

/-- **Milliseconds that are too many for a duration**: 2^64 seconds or more. -/
def Binary64.Overlong (ms : Binary64) : Prop := ms.isFinite = true ∧ 1000 * 2 ^ 64 ≤ ms.value

/-- The last number of milliseconds that is not overlong. -/
def lastMillis : Binary64 := ⟨0x448f3fffffffffff⟩

theorem unitsAt_overlong : unitsAt (lastMillis.index + 1) = 1000 * 2 ^ 64 * unitsPerOne := by
  decide +kernel

/-- **The seconds come to 2^64 exactly if the milliseconds do.** What is less is not rounded
up to so much. -/
theorem le_value_seconds_iff (finite : ms.isFinite = true) (pos : ms.isNegative = false) :
    2 ^ 64 ≤ (seconds ms).value ↔ ms.Overlong := by
  have one : (0 : ℚ) < unitsPerOne := Nat.cast_pos.2 unitsPerOne_pos
  obtain ⟨sign, near⟩ := nearest_seconds finite pos
  have overlong : ms.Overlong ↔ lastMillis.index + 1 ≤ ms.index := by
    rw [Binary64.Overlong, and_iff_right finite, value_of_nonneg pos, le_div_iff₀ one,
      ← strictMono_unitsAt.le_iff_le, unitsAt_overlong]
    exact_mod_cast Iff.rfl
  rw [le_value_iff sign, overlong]
  constructor
  · intro reach
    by_contra less
    have within : (seconds ms).index ≤ (seconds lastMillis).index :=
      seconds_mono finite (by decide +kernel) pos (by decide +kernel) (by omega)
    exact absurd (reach.trans within) (by decide +kernel)
  · intro long
    have units : 1000 * 2 ^ 64 * unitsPerOne ≤ ms.units :=
      unitsAt_overlong ▸ strictMono_unitsAt.monotone long
    have least : (unitsAt limitIndex : ℚ) ≤ ms.units / 1000 := by
      rw [le_div_iff₀ (by norm_num), unitsAt_limit]
      calc ((2 ^ 64 * unitsPerOne : ℕ) : ℚ) * 1000 = (1000 * 2 ^ 64 * unitsPerOne : ℕ) := by
            push_cast; ring
        _ ≤ ms.units := Nat.cast_le.2 units
    exact (Rounding.nearest_self strictMono_unitsAt limitIndex).le strictMono_unitsAt near least

/-- What is no number, infinite or not positive counts as zero. -/
theorem durationOfMillis_of_nonpos (h : ms.isFinite = false ∨ ms.value ≤ 0) :
    durationOfMillis ms = .ok .zero := by
  unfold durationOfMillis
  refine if_pos ?_
  rcases h with infinite | nonpos
  · rw [infinite]
    rfl
  · cases sign : ms.isNegative with
    | true => rw [Bool.or_true, Bool.true_or]
    | false =>
      cases zero : ms.isZero with
      | true => rw [Bool.or_true]
      | false => exact absurd (Binary64.value_pos_iff.2 ⟨sign, zero⟩) (not_lt.2 nonpos)

/-- A positive number is rounded to seconds and then to nanoseconds. -/
theorem durationOfMillis_of_pos (finite : ms.isFinite = true) (pos : 0 < ms.value) :
    durationOfMillis ms =
      match Duration.ofSeconds? (seconds ms) with
      | some d => .ok d
      | none => .error .overlongSeconds := by
  obtain ⟨sign, notZero⟩ := Binary64.value_pos_iff.1 pos
  have sensible : ¬ (!ms.isFinite || ms.isNegative || ms.isZero) = true := by
    rw [finite, sign, notZero]
    decide
  unfold durationOfMillis
  rw [← seconds_eq]
  refine (if_neg sensible).trans ?_
  generalize Duration.ofSeconds? (seconds ms) = made
  cases made with
  | some d => rfl
  | none => rfl

/-- **There is a duration for every number of milliseconds that is not overlong**, and for
one that is the conversion breaks. -/
theorem durationOfMillis_cases (ms : Binary64) :
    (¬ ms.Overlong ∧ ∃ d, durationOfMillis ms = .ok d) ∨
      (ms.Overlong ∧ durationOfMillis ms = .error .overlongSeconds) := by
  by_cases counts : ms.isFinite = true ∧ 0 < ms.value
  · obtain ⟨finite, pos⟩ := counts
    have sign := (Binary64.value_pos_iff.1 pos).1
    have reach := le_value_seconds_iff finite sign
    have range := ofSeconds?_eq_none (nearest_seconds finite sign).1
    rw [durationOfMillis_of_pos finite pos]
    cases made : Duration.ofSeconds? (seconds ms) with
    | some d =>
      refine .inl ⟨fun long => ?_, d, rfl⟩
      rw [range.2 (reach.2 long)] at made
      cases made
    | none => exact .inr ⟨reach.1 (range.1 made), rfl⟩
  · refine .inl ⟨fun ⟨finite, long⟩ => counts ⟨finite, lt_of_lt_of_le (by norm_num) long⟩, .zero,
      durationOfMillis_of_nonpos ?_⟩
    rw [not_and_or, not_lt, Bool.not_eq_true] at counts
    exact counts

theorem durationOfMillis_ok_iff : (∃ d, durationOfMillis ms = .ok d) ↔ ¬ ms.Overlong := by
  rcases durationOfMillis_cases ms with ⟨short, d, ok⟩ | ⟨long, broken⟩
  · exact ⟨fun _ => short, fun _ => ⟨d, ok⟩⟩
  · rw [broken]
    exact ⟨nofun, fun short => absurd long short⟩

/-- The nanoseconds of a duration that comes of a positive number. -/
theorem nanos_of_ok {d : Duration} (finite : ms.isFinite = true) (pos : 0 < ms.value)
    (ok : durationOfMillis ms = .ok d) : Nearest id ((seconds ms).value * 10 ^ 9) d.nanos := by
  rw [durationOfMillis_of_pos finite pos] at ok
  cases made : Duration.ofSeconds? (seconds ms) with
  | none =>
    rw [made] at ok
    cases ok
  | some e =>
    rw [made] at ok
    cases ok
    exact nearest_nanos (nearest_seconds finite (Binary64.value_pos_iff.1 pos).1).1 made

/-- **More milliseconds are never a shorter duration.** -/
theorem nanos_le_nanos {a b : Binary64} {d e : Duration} (fa : a.isFinite = true)
    (fb : b.isFinite = true) (le : a.value ≤ b.value) (oka : durationOfMillis a = .ok d)
    (okb : durationOfMillis b = .ok e) : d.nanos ≤ e.nanos := by
  rcases le_or_gt a.value 0 with nonpos | posa
  · rw [durationOfMillis_of_nonpos (.inr nonpos)] at oka
    cases oka
    exact Nat.zero_le _
  · have posb := posa.trans_le le
    have signa := (Binary64.value_pos_iff.1 posa).1
    have signb := (Binary64.value_pos_iff.1 posb).1
    have ordered := seconds_mono fa fb signa signb ((Binary64.index_le_iff signa signb).2 le)
    have first : (seconds a).value ≤ (seconds b).value := (Binary64.index_le_iff
      (nearest_seconds fa signa).1 (nearest_seconds fb signb).1).1 ordered
    exact (nanos_of_ok fa posa oka).le strictMono_id (nanos_of_ok fb posb okb) (by linarith)

/-- **Milliseconds are converted accurately and in order.** The thousandth of a positive
number is rounded to the nearest number of seconds, and these, below 2^64 of them, to the
nearest whole number of nanoseconds, a tie going to the even one each time. And of two numbers
that are not negative, the lesser one is not the longer duration. -/
theorem durationOfMillis_accurate :
    (∀ ms : Binary64, ms.isFinite = true → 0 < ms.value →
      let q := ms.div (.ofNat 1000)
      q.Rounds (ms.value / 1000) ∧
        (q.value < 2 ^ 64 → ∃ d, durationOfMillis ms = .ok d ∧
          Nearest id (q.value * 10 ^ 9) d.nanos ∧
          d.nanos = d.secs * 10 ^ 9 + d.subsec ∧ d.subsec < 10 ^ 9)) ∧
      ∀ (a b : Binary64) (d e : Duration), a.isFinite = true → b.isFinite = true →
        0 ≤ a.value → a.value ≤ b.value →
        durationOfMillis a = .ok d → durationOfMillis b = .ok e → d.nanos ≤ e.nanos := by
  refine ⟨fun ms finite pos => ?_, fun a b d e fa fb _ le => nanos_le_nanos fa fb le⟩
  intro q
  have sign := (Binary64.value_pos_iff.1 pos).1
  refine ⟨?_, fun less => ?_⟩
  · have rounds := Binary64.div_rounds sign isNegative_thousand
      (by rw [value_thousand]; norm_num) (isFinite_seconds finite sign)
    rwa [value_thousand] at rounds
  · have short : ¬ ms.Overlong := fun long =>
      not_le.2 less ((le_value_seconds_iff finite sign).2 long)
    obtain ⟨d, ok⟩ := durationOfMillis_ok_iff.2 short
    refine ⟨d, ok, nanos_of_ok finite pos ok, ?_, Nat.mod_lt _ (by decide)⟩
    exact (Nat.div_add_mod' d.nanos nanosPerSecond).symm

/-- 0.9765625 milliseconds: 976562 nanoseconds and a half. -/
def halfway : Binary64 := ⟨0x3fef400000000000⟩

/-- A ten-thousandth of a nanosecond less than a second. -/
def justBelowSecond : Binary64 := ⟨0x408f3ffffffffc90⟩

/-- The one is a tie, which goes to the even number below; the other is carried into the
seconds. -/
theorem durationOfMillis_accurate_of_halfway :
    halfway.isFinite = true ∧ 0 < halfway.value ∧
      durationOfMillis halfway = .ok (.ofNanos 976562) ∧
      Nearest id ((halfway.div (.ofNat 1000)).value * 10 ^ 9) 976562 ∧
      halfway.value ≤ justBelowSecond.value ∧
      durationOfMillis justBelowSecond = .ok (.ofNanos 1000000000) ∧
      976562 ≤ 1000000000 := by
  have known : durationOfMillis halfway = .ok (.ofNanos 976562) := by decide +kernel
  have known' : durationOfMillis justBelowSecond = .ok (.ofNanos 1000000000) := by decide +kernel
  have pos : 0 < halfway.value := Binary64.value_pos_iff.2 (by decide +kernel)
  have finite : halfway.isFinite = true := by decide +kernel
  have finite' : justBelowSecond.isFinite = true := by decide +kernel
  have le : halfway.value ≤ justBelowSecond.value :=
    (Binary64.index_le_iff (by decide +kernel) (by decide +kernel)).1 (by decide +kernel)
  have less : (halfway.div (.ofNat 1000)).value < 2 ^ 64 :=
    not_le.1 fun reach => absurd ((le_value_iff (by decide +kernel)).1 reach) (by decide +kernel)
  obtain ⟨each, ordered⟩ := durationOfMillis_accurate
  obtain ⟨-, accurate⟩ := each halfway finite pos
  obtain ⟨d, ok, near, -⟩ := accurate less
  obtain rfl := Except.ok.inj (known.symm.trans ok)
  exact ⟨finite, pos, known, near, le, known',
    ordered halfway justBelowSecond _ _ finite finite' pos.le le known known'⟩

end FrameLoop

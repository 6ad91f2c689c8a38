import FrameLoop.Binary64
import FrameLoop.Proofs.Rounding
import Mathlib.Tactic.Positivity
import Mathlib.Tactic.FieldSimp

/-!
# What binary64 numbers stand for

The bits of a number are a sign, an exponent of eleven bits and a fraction of fifty-two, and
`Binary64.value` is the number they stand for. Up to the sign it is the magnitude in units of
2^-1074 that the index has (`value_eq`).

The magnitudes are a scale: they grow with the index (`strictMono_unitsAt`), in blocks within
which they are one step apart (`unitsAt_block`). Rounding a quotient of two natural numbers to
its first 53 bits is rounding it to this scale (`nearest_place`), and the carry into the next
block needs no case of its own, for the blocks overlap at their ends. So a quotient of two
numbers is the exact one, rounded to the nearest number, a tie going to the even one
(`div_rounds`).

Only what has no sign and does not overflow is treated here.
-/

namespace FrameLoop.Binary64

open Rounding (Nearest)

variable {x y q : Binary64} {r : ℚ} {n d k m s : ℕ}

/-! ## The scale of the magnitudes -/

/-- Within a block the magnitudes are one step apart. The end of a block is the beginning of
the next. -/
theorem unitsAt_block (most : m ≤ 2 ^ 53) (full : s = 0 ∨ 2 ^ 52 ≤ m) :
    unitsAt (s * 2 ^ 52 + m) = m * 2 ^ s := by
  unfold unitsAt
  rw [Nat.shiftLeft_eq, Nat.shiftLeft_eq, Nat.shiftRight_eq_div_pow, Nat.one_mul]
  rcases Nat.lt_or_ge m (2 ^ 52) with low | high
  · obtain rfl : s = 0 := by omega
    rw [if_pos (by omega)]
    omega
  · rw [if_neg (by omega)]
    rcases Nat.lt_or_ge m (2 ^ 53) with inside | ends
    · have rest : 2 ^ 52 + (s * 2 ^ 52 + m) % 2 ^ 52 = m := by omega
      have block : (s * 2 ^ 52 + m) / 2 ^ 52 - 1 = s := by omega
      rw [rest, block]
    · obtain rfl : m = 2 ^ 53 := le_antisymm most ends
      have rest : 2 ^ 52 + (s * 2 ^ 52 + 2 ^ 53) % 2 ^ 52 = 2 ^ 52 := by omega
      have block : (s * 2 ^ 52 + 2 ^ 53) / 2 ^ 52 - 1 = 1 + s := by omega
      rw [rest, block, ← pow_add, ← pow_add, ← Nat.add_assoc]

/-- Every index is in a block, and not at its end. -/
theorem exists_block (k : ℕ) :
    ∃ s m, k = s * 2 ^ 52 + m ∧ m < 2 ^ 53 ∧ (s = 0 ∨ 2 ^ 52 ≤ m) :=
  ⟨k / 2 ^ 52 - 1, k - (k / 2 ^ 52 - 1) * 2 ^ 52, by omega, by omega, by omega⟩

/-- **Magnitudes grow with the index.** -/
theorem strictMono_unitsAt : StrictMono unitsAt := by
  refine strictMono_nat_of_lt_succ fun k => ?_
  obtain ⟨s, m, rfl, inside, full⟩ := exists_block k
  rw [Nat.add_assoc, unitsAt_block (by omega) full, unitsAt_block (by omega) (by omega)]
  exact Nat.mul_lt_mul_of_pos_right (Nat.lt_succ_self m) (Nat.two_pow_pos s)

/-! ## Rounding to the scale -/

/-- **The index of the magnitude nearest to `n / d` units**, were there no largest one. -/
def place (n d : ℕ) : ℕ :=
  let q := n / d
  let shift := if q < 1 <<< 53 then 0 else q.log2 - 52
  (shift <<< 52) + Rounding.nearest n (d <<< shift)

theorem nearestIndex_eq (n d : ℕ) : nearestIndex n d = min infinityIndex (place n d) := rfl

/-- The quotient has at most 53 bits before its point once the shift has been taken off, and
exactly 53 if there is a shift. -/
theorem quotient_bits (n d : ℕ) :
    let s := if n / d < 2 ^ 53 then 0 else (n / d).log2 - 52
    n / (d * 2 ^ s) < 2 ^ 53 ∧ (s = 0 ∨ 2 ^ 52 ≤ n / (d * 2 ^ s)) := by
  intro s
  rw [← Nat.div_div_eq_div_mul]
  rcases Nat.lt_or_ge (n / d) (2 ^ 53) with few | many
  · have none : s = 0 := if_pos few
    rw [none, pow_zero, Nat.div_one]
    exact ⟨few, .inl rfl⟩
  · have shift : s = (n / d).log2 - 52 := if_neg (Nat.not_lt.2 many)
    have ne : n / d ≠ 0 := by omega
    have long : 53 ≤ (n / d).log2 := (Nat.le_log2 ne).2 many
    have first : 2 ^ (52 + s) ≤ n / d := (Nat.le_log2 ne).1 (by omega)
    have last : n / d < 2 ^ (53 + s) := (Nat.log2_lt ne).1 (by omega)
    rw [pow_add] at first last
    exact ⟨Nat.div_lt_of_lt_mul (Nat.mul_comm _ _ ▸ last),
      .inr ((Nat.le_div_iff_mul_le (Nat.two_pow_pos s)).2 first)⟩

/-- **Rounding to 53 bits is rounding to the scale.** -/
theorem nearest_place (n : ℕ) (hd : 0 < d) : Nearest unitsAt (n / d : ℚ) (place n d) := by
  obtain ⟨bits, full⟩ := quotient_bits n d
  have same : place n d = (if n / d < 2 ^ 53 then 0 else (n / d).log2 - 52) * 2 ^ 52 +
      Rounding.nearest n (d * 2 ^ (if n / d < 2 ^ 53 then 0 else (n / d).log2 - 52)) := by
    unfold place
    dsimp only
    rw [Nat.shiftLeft_eq, Nat.shiftLeft_eq, Nat.shiftLeft_eq, Nat.one_mul]
  rw [same]
  generalize (if n / d < 2 ^ 53 then 0 else (n / d).log2 - 52) = s at *
  have hD : 0 < d * 2 ^ s := Nat.mul_pos hd (Nat.two_pow_pos s)
  have scaled : (n : ℚ) / d = n / (d * 2 ^ s : ℕ) * (2 ^ s : ℕ) := by
    push_cast
    field_simp
  rw [scaled]
  refine Rounding.nearest_block strictMono_unitsAt ?_ (Nat.two_pow_pos s) hD fun v either => ?_
  · rw [Nat.even_iff]
    omega
  · exact unitsAt_block (by omega) (by omega)

/-! ## The number that bits stand for -/

/-- The eleven bits after the sign. -/
def exponentBits (x : Binary64) : ℕ := x.bits.toNat / 2 ^ 52 % 2 ^ 11

/-- The fifty-two bits behind them. -/
def fractionBits (x : Binary64) : ℕ := x.bits.toNat % 2 ^ 52

/-- **The number that the bits stand for**, if they stand for one: with a whole before the
fraction, or without one where the exponent bits are zero. -/
def value (x : Binary64) : ℚ :=
  (if x.isNegative then -1 else 1) *
    if x.exponentBits = 0 then (x.fractionBits : ℚ) * 2 ^ (-1074 : ℤ)
    else (2 ^ 52 + x.fractionBits : ℚ) * 2 ^ ((x.exponentBits : ℤ) - 1075)

/-- The magnitude of a number, in units. -/
theorem units_eq (x : Binary64) :
    (x.units : ℚ) = (if x.exponentBits = 0 then (x.fractionBits : ℚ) else
      (2 ^ 52 + x.fractionBits) * 2 ^ (x.exponentBits - 1)) := by
  have block : x.index / 2 ^ 52 = x.exponentBits := by
    unfold index exponentBits
    rw [Nat.shiftLeft_eq]
    omega
  have rest : x.index % 2 ^ 52 = x.fractionBits := by
    unfold index fractionBits
    rw [Nat.shiftLeft_eq]
    omega
  unfold units unitsAt
  rw [Nat.shiftLeft_eq, Nat.shiftLeft_eq, Nat.shiftRight_eq_div_pow, Nat.one_mul, block, rest]
  split
  · rw [if_pos (by omega)]
    congr 1
    omega
  · rw [if_neg (by omega)]
    push_cast
    rfl

theorem cast_one_shiftLeft (n : ℕ) : ((1 <<< n : ℕ) : ℚ) = 2 ^ (n : ℤ) := by
  rw [Nat.one_shiftLeft, Nat.cast_pow, Nat.cast_ofNat, zpow_natCast]

/-- **The value is the magnitude with the sign.** -/
theorem value_eq (x : Binary64) :
    x.value = (if x.isNegative then -1 else 1) * (x.units / unitsPerOne) := by
  have one : (unitsPerOne : ℚ) = 2 ^ (1074 : ℤ) := cast_one_shiftLeft 1074
  unfold value
  rw [units_eq, one, div_eq_mul_inv, ← zpow_neg]
  congr 1
  split
  · rfl
  · next normal =>
    have exponent : ((x.exponentBits : ℤ) - 1075) = (x.exponentBits - 1 : ℕ) + (-1074) := by omega
    rw [exponent, zpow_add₀ two_ne_zero, zpow_natCast, mul_assoc]

/-! ## Numbers that are not negative -/

/-- A number is finite if its index lies below that of infinity. -/
theorem isFinite_iff : x.isFinite = true ↔ x.index < infinityIndex := decide_eq_true_iff

theorem value_of_nonneg (pos : x.isNegative = false) : x.value = x.units / unitsPerOne := by
  rw [value_eq, pos, if_neg Bool.false_ne_true, one_mul]

theorem unitsPerOne_pos : 0 < unitsPerOne := by
  rw [unitsPerOne, Nat.one_shiftLeft]
  exact Nat.two_pow_pos 1074

/-- **A number is positive** if it has no sign and is not zero. -/
theorem value_pos_iff : 0 < x.value ↔ x.isNegative = false ∧ x.isZero = false := by
  have one : (0 : ℚ) < unitsPerOne := Nat.cast_pos.2 unitsPerOne_pos
  have magnitude : (0 : ℚ) ≤ x.units / unitsPerOne := div_nonneg (Nat.cast_nonneg _) one.le
  cases sign : x.isNegative with
  | true =>
    rw [value_eq, sign, if_pos rfl]
    exact ⟨fun h => by linarith, fun h => absurd h.1 Bool.noConfusion⟩
  | false =>
    rw [value_of_nonneg sign, div_pos_iff_of_pos_right one, Nat.cast_pos, and_iff_right rfl,
      isZero, decide_eq_false_iff_not]
    exact (strictMono_unitsAt.lt_iff_lt (a := 0)).trans Nat.pos_iff_ne_zero

/-- The bits of a number without a sign are its index. -/
theorem bits_eq_index (pos : x.isNegative = false) : x.bits.toNat = x.index := by
  have below : x.bits.toNat < 2 ^ 63 := by
    simpa only [isNegative, decide_eq_false_iff_not, not_le, Nat.one_shiftLeft] using pos
  rw [index, Nat.one_shiftLeft, Nat.mod_eq_of_lt below]

theorem bits_ofIndex (h : k < 2 ^ 63) : (ofIndex false k).bits.toNat = k := by
  show (UInt64.ofNat k).toNat = k
  rw [UInt64.toNat_ofNat']
  omega

theorem isNegative_ofIndex (h : k < 2 ^ 63) : (ofIndex false k).isNegative = false := by
  rw [isNegative, bits_ofIndex h]
  exact decide_eq_false (by rw [Nat.one_shiftLeft]; omega)

theorem index_ofIndex (h : k < 2 ^ 63) : (ofIndex false k).index = k := by
  rw [← bits_eq_index (isNegative_ofIndex h), bits_ofIndex h]

/-- Of two numbers that are not negative, the one with the greater index is the greater. -/
theorem index_le_iff (hx : x.isNegative = false) (hy : y.isNegative = false) :
    x.index ≤ y.index ↔ x.value ≤ y.value := by
  rw [value_of_nonneg hx, value_of_nonneg hy,
    div_le_div_iff_of_pos_right (Nat.cast_pos.2 unitsPerOne_pos), Nat.cast_le]
  exact strictMono_unitsAt.le_iff_le.symm

/-! ## Rounding to a number -/

/-- **A finite number to which an exact one is rounded**: no other finite number comes nearer,
and the last bit is zero if another comes as near. -/
structure Rounds (r : ℚ) (q : Binary64) : Prop where
  finite : q.isFinite = true
  closest : ∀ z : Binary64, z.isFinite = true → |q.value - r| ≤ |z.value - r|
  even : ∀ z : Binary64, z.isFinite = true → z.value ≠ q.value →
    |z.value - r| = |q.value - r| → Even q.bits.toNat

/-- The distance of a magnitude from a number of units. -/
theorem abs_value_sub (pos : x.isNegative = false) (r : ℚ) :
    |x.value - r / unitsPerOne| = |(unitsAt x.index : ℚ) - r| / unitsPerOne := by
  have one : (0 : ℚ) < unitsPerOne := Nat.cast_pos.2 unitsPerOne_pos
  rw [value_of_nonneg pos, ← sub_div, abs_div, abs_of_pos one]
  rfl

/-- A magnitude is as near to what is not negative as any number. It is that of the number
itself or, if the number has a sign, it is zero. -/
theorem exists_magnitude (z : Binary64) (nonneg : 0 ≤ r) :
    ∃ k, |(unitsAt k : ℚ) - r| / unitsPerOne ≤ |z.value - r / unitsPerOne| ∧
      (|(unitsAt k : ℚ) - r| / unitsPerOne = |z.value - r / unitsPerOne| →
        z.value = unitsAt k / unitsPerOne) := by
  cases sign : z.isNegative with
  | false => exact ⟨z.index, (abs_value_sub sign r).ge, fun _ => value_of_nonneg sign⟩
  | true =>
    have magnitude : (0 : ℚ) ≤ z.units / unitsPerOne :=
      div_nonneg (Nat.cast_nonneg _) (Nat.cast_nonneg _)
    have quotient : (0 : ℚ) ≤ r / unitsPerOne := div_nonneg nonneg (Nat.cast_nonneg _)
    have zero : |(unitsAt 0 : ℚ) - r| / unitsPerOne = r / unitsPerOne := by
      show |((0 : ℕ) : ℚ) - r| / unitsPerOne = r / unitsPerOne
      rw [Nat.cast_zero, zero_sub, abs_neg, abs_of_nonneg nonneg]
    have below : z.value = -(z.units / unitsPerOne) := by
      rw [value_eq, sign, if_pos rfl, neg_one_mul]
    refine ⟨0, ?_, fun same => ?_⟩
    · rw [zero, below, abs_of_nonpos (by linarith)]
      linarith
    · rw [zero, below, abs_of_nonpos (by linarith)] at same
      show z.value = ((0 : ℕ) : ℚ) / unitsPerOne
      rw [Nat.cast_zero, zero_div, below]
      linarith

/-- **Rounding to the scale of the magnitudes is rounding to a number.** -/
theorem rounds_of_nearest (pos : q.isNegative = false) (finite : q.isFinite = true)
    (nonneg : 0 ≤ r) (near : Nearest unitsAt r q.index) : Rounds (r / unitsPerOne) q := by
  have one : (0 : ℚ) < unitsPerOne := Nat.cast_pos.2 unitsPerOne_pos
  have closest : ∀ k, |q.value - r / unitsPerOne| ≤ |(unitsAt k : ℚ) - r| / unitsPerOne := by
    intro k
    rw [abs_value_sub pos]
    exact div_le_div_of_nonneg_right (near.closest k) one.le
  refine ⟨finite, fun z _ => ?_, fun z _ other tie => ?_⟩
  · obtain ⟨k, le, -⟩ := z.exists_magnitude nonneg
    exact (closest k).trans le
  · obtain ⟨k, le, only⟩ := z.exists_magnitude nonneg
    have same : |(unitsAt k : ℚ) - r| / unitsPerOne = |z.value - r / unitsPerOne| :=
      le_antisymm le (tie ▸ closest k)
    rw [bits_eq_index pos]
    refine near.even k ?_ ?_
    · rintro rfl
      exact other ((only same).trans (value_of_nonneg pos).symm)
    · rw [tie, abs_value_sub pos] at same
      exact (div_left_inj' one.ne').1 same

/-! ## Quotients -/

/-- A quotient has the index of the magnitude nearest to the exact one, if that is finite. -/
theorem nearest_div (sign : x.isNegative = y.isNegative) (pos : 0 < y.units)
    (finite : (x.div y).isFinite = true) :
    (x.div y).isNegative = false ∧
      Nearest unitsAt (x.units / y.units * unitsPerOne : ℚ) (x.div y).index := by
  have least : min infinityIndex (place (x.units * unitsPerOne) y.units) < 2 ^ 63 :=
    lt_of_le_of_lt (min_le_left _ _) (by decide)
  have made :
      x.div y = ofIndex false (min infinityIndex (place (x.units * unitsPerOne) y.units)) := by
    rw [div, sign, bne_self_eq_false, nearestIndex_eq]
  rw [isFinite_iff] at finite
  rw [made] at finite ⊢
  rw [index_ofIndex least] at finite ⊢
  refine ⟨isNegative_ofIndex least, ?_⟩
  have inside := min_lt_iff.1 finite
  rw [min_eq_right (inside.resolve_left (lt_irrefl _)).le]
  have near := nearest_place (x.units * unitsPerOne) pos
  rwa [Nat.cast_mul, mul_div_right_comm] at near

/-- **A quotient is the exact one, rounded**, if it is finite. -/
theorem div_rounds (hx : x.isNegative = false) (hy : y.isNegative = false) (ne : y.value ≠ 0)
    (finite : (x.div y).isFinite = true) : Rounds (x.value / y.value) (x.div y) := by
  have one : (0 : ℚ) < unitsPerOne := Nat.cast_pos.2 unitsPerOne_pos
  have pos : 0 < y.units := by
    refine Nat.pos_of_ne_zero fun none => ne ?_
    rw [value_of_nonneg hy, none, Nat.cast_zero, zero_div]
  obtain ⟨sign, near⟩ := nearest_div (hx.trans hy.symm) pos finite
  have exact : x.value / y.value = x.units / y.units * unitsPerOne / unitsPerOne := by
    rw [value_of_nonneg hx, value_of_nonneg hy, div_div_div_cancel_right₀ one.ne',
      mul_div_cancel_right₀ _ one.ne']
  rw [exact]
  refine rounds_of_nearest sign finite ?_ near
  exact mul_nonneg (div_nonneg (Nat.cast_nonneg _) (Nat.cast_nonneg _)) one.le

end FrameLoop.Binary64

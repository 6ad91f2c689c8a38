import FrameLoop.Rounding
import Mathlib.Algebra.Order.Field.Basic
import Mathlib.Algebra.Order.Ring.Rat
import Mathlib.Algebra.Group.Even
import Mathlib.Order.Monotone.Basic
import Mathlib.Data.Nat.Cast.Order.Field
import Mathlib.Tactic.Linarith
import Mathlib.Tactic.LinearCombination
import Mathlib.Tactic.Ring

/-!
# The nearest place on a scale

A scale is a list of numbers without end in increasing order: the whole numbers, or the
magnitudes of a number format. `Nearest` says which place on a scale a number is rounded to:
one whose number is nearest, and an even place where two are equally near.

That settles the place. Rounding never changes the order of two numbers (`Nearest.le`), and a
number on the scale is rounded to itself (`nearest_self`). This holds on every scale, and so of
each format that is rounded to one.

`nearest_of_between` is the way in: it is enough to know the two neighbours of a number. The
whole numbers are the first scale (`nearest_whole`).
-/

namespace FrameLoop.Rounding

/-- **A number is rounded to this place on a scale**: no other comes nearer, and the place is
even if another comes as near. -/
structure Nearest (scale : ℕ → ℕ) (r : ℚ) (i : ℕ) : Prop where
  closest : ∀ k, |(scale i : ℚ) - r| ≤ |(scale k : ℚ) - r|
  even : ∀ k, k ≠ i → |(scale k : ℚ) - r| = |(scale i : ℚ) - r| → Even i

variable {scale : ℕ → ℕ} {r r' x y : ℚ} {i i' m n d : ℕ}

/-! ## One place only -/

/-- What is as near to the greater of two numbers lies in their middle or above. -/
theorem middle_le (lt : x < y) (near : |y - r| ≤ |x - r|) : x + y ≤ 2 * r := by
  by_contra less
  rcases abs_cases (x - r) with ⟨hx, -⟩ | ⟨hx, -⟩
  · have := le_abs_self (y - r)
    linarith
  · have := le_abs_self (y - r)
    linarith

/-- What is as near to the lesser lies in their middle or below. -/
theorem le_middle (lt : x < y) (near : |x - r| ≤ |y - r|) : 2 * r ≤ x + y := by
  by_contra more
  rcases abs_cases (y - r) with ⟨hy, -⟩ | ⟨hy, -⟩
  · have := neg_abs_le (x - r)
    linarith
  · have := neg_abs_le (x - r)
    linarith

/-- **Rounding keeps the order.** If it did not, both numbers would lie in the middle of two
neighbours, and both places would be even. -/
theorem Nearest.le (mono : StrictMono scale) (h : Nearest scale r i) (h' : Nearest scale r' i')
    (le : r ≤ r') : i ≤ i' := by
  by_contra not
  have gt : i' < i := Nat.lt_of_not_le not
  have apart : (scale i' : ℚ) < scale i := Nat.cast_lt.2 (mono gt)
  have low := middle_le apart (h.closest i')
  have high := le_middle apart (h'.closest i)
  obtain rfl : r = r' := by linarith
  have tie : |(scale i' : ℚ) - r| = |(scale i : ℚ) - r| :=
    le_antisymm (h'.closest i) (h.closest i')
  -- A place between the two would be nearer than either.
  have next : i = i' + 1 := by
    by_contra more
    have up : (scale i' : ℚ) < scale (i' + 1) := Nat.cast_lt.2 (mono (Nat.lt_succ_self i'))
    have down : (scale (i' + 1) : ℚ) < scale i := Nat.cast_lt.2 (mono (by omega))
    have beyond := le_middle up (h'.closest (i' + 1))
    linarith
  obtain ⟨a, ha⟩ := h.even i' (Nat.ne_of_lt gt) tie
  obtain ⟨b, hb⟩ := h'.even i (Nat.ne_of_gt gt) tie.symm
  omega

/-- A number on the scale is rounded to itself. -/
theorem nearest_self (mono : StrictMono scale) (i : ℕ) : Nearest scale (scale i) i where
  closest k := by
    rw [sub_self, abs_zero]
    exact abs_nonneg _
  even k ne tie := by
    rw [sub_self, abs_zero, abs_eq_zero, sub_eq_zero, Nat.cast_inj] at tie
    exact absurd (mono.injective tie) ne

/-! ## Two neighbours -/

/-- **Between two neighbours** a number is rounded to the one that is no more than half their
distance away, and to an even one if it is exactly half. -/
theorem nearest_of_between (mono : StrictMono scale) (low : (scale m : ℚ) ≤ r)
    (high : r ≤ scale (m + 1)) (either : i = m ∨ i = m + 1)
    (half : 2 * |(scale i : ℚ) - r| ≤ scale (m + 1) - scale m)
    (tie : 2 * |(scale i : ℚ) - r| = scale (m + 1) - scale m → Even i) :
    Nearest scale r i := by
  -- Another place lies beyond one of the neighbours. If that is `i` itself, it is further
  -- away; if it is the other one, it is at least half their distance away.
  have other : ∀ k, k ≠ i → |(scale i : ℚ) - r| < |(scale k : ℚ) - r| ∨
      scale (m + 1) - scale m ≤ 2 * |(scale k : ℚ) - r| := by
    intro k ne
    rcases either with rfl | rfl
    · rw [abs_of_nonpos (sub_nonpos.2 low)] at half ⊢
      rcases Nat.lt_or_gt_of_ne ne with hk | hk
      · have : (scale k : ℚ) < scale i := Nat.cast_lt.2 (mono hk)
        have := neg_abs_le ((scale k : ℚ) - r)
        exact .inl (by linarith)
      · have : (scale (i + 1) : ℚ) ≤ scale k := Nat.cast_le.2 (mono.monotone hk)
        have := le_abs_self ((scale k : ℚ) - r)
        exact .inr (by linarith)
    · rw [abs_of_nonneg (sub_nonneg.2 high)] at half ⊢
      rcases Nat.lt_or_gt_of_ne ne with hk | hk
      · have : (scale k : ℚ) ≤ scale m := Nat.cast_le.2 (mono.monotone (Nat.lt_succ_iff.1 hk))
        have := neg_abs_le ((scale k : ℚ) - r)
        exact .inr (by linarith)
      · have : (scale (m + 1) : ℚ) < scale k := Nat.cast_lt.2 (mono hk)
        have := le_abs_self ((scale k : ℚ) - r)
        exact .inl (by linarith)
  refine ⟨fun k => ?_, fun k ne same => ?_⟩
  · by_cases same : k = i
    · rw [same]
    · rcases other k same with less | far
      · exact less.le
      · linarith
  · rcases other k ne with less | far
    · exact absurd same (ne_of_gt less)
    · exact tie (le_antisymm half (same ▸ far))

/-! ## The whole numbers -/

/-- A quotient is rounded to its whole part or to the next whole number. -/
theorem nearest_either (n : ℕ) (hd : 0 < d) :
    nearest n d = n / d ∨ nearest n d = n / d + 1 := by
  unfold nearest
  dsimp only
  rw [if_neg (Nat.ne_of_gt hd)]
  split
  · exact .inl rfl
  · split
    · exact .inr rfl
    · split
      · exact .inl rfl
      · exact .inr rfl

/-- Halfway between two whole numbers it is rounded to the even one. -/
theorem even_nearest (hd : 0 < d) (half : 2 * (n % d) = d) : Even (nearest n d) := by
  unfold nearest
  dsimp only
  rw [if_neg (Nat.ne_of_gt hd), if_neg (by omega), if_neg (by omega), Nat.even_iff]
  split <;> omega

/-- What is rounded off is half at most. -/
theorem abs_nearest_sub_le (n : ℕ) (hd : 0 < d) : 2 * |(nearest n d : ℚ) - n / d| ≤ 1 := by
  have pos : (0 : ℚ) < d := Nat.cast_pos.2 hd
  have upper : (2 * d * nearest n d : ℚ) ≤ 2 * n + d := mod_cast nearest_upper n d hd
  have lower : (2 * n : ℚ) ≤ 2 * d * nearest n d + d := mod_cast nearest_lower n d hd
  have parts : (n : ℚ) / d * d = n := div_mul_cancel₀ _ pos.ne'
  have bound : |(nearest n d : ℚ) - n / d| ≤ 1 / 2 := by
    rw [abs_le]
    constructor
    · refine le_of_mul_le_mul_right ?_ pos
      linarith
    · refine le_of_mul_le_mul_right ?_ pos
      linarith
  linarith

/-- And where it is half, the result is even. -/
theorem even_of_half (hd : 0 < d) (half : 2 * |(nearest n d : ℚ) - n / d| = 1) :
    Even (nearest n d) := by
  have pos : (0 : ℚ) < d := Nat.cast_pos.2 hd
  have parts : (n : ℚ) / d * d = n := div_mul_cancel₀ _ pos.ne'
  have ends : 2 * (d * nearest n d) = 2 * n + d ∨ 2 * n = 2 * (d * nearest n d) + d := by
    rcases abs_cases ((nearest n d : ℚ) - n / d) with ⟨side, -⟩ | ⟨side, -⟩
    · refine .inl ?_
      have : (2 * (d * nearest n d) : ℚ) = 2 * n + d := by
        linear_combination (d : ℚ) * half - 2 * d * side + 2 * parts
      exact_mod_cast this
    · refine .inr ?_
      have : (2 * n : ℚ) = 2 * (d * nearest n d) + d := by
        linear_combination (d : ℚ) * half - 2 * d * side - 2 * parts
      exact_mod_cast this
  have whole := Nat.div_add_mod n d
  apply even_nearest hd
  rcases nearest_either n hd with same | next
  · rw [same] at ends
    omega
  · rw [next, Nat.mul_add, Nat.mul_one] at ends
    have := Nat.mod_lt n hd
    omega

/-- **A block of a scale** is a piece in which the numbers are the whole multiples of a step. A
quotient of as many steps is rounded within it as the quotient is to a whole number. -/
theorem nearest_block (mono : StrictMono scale) {base step : ℕ} (even : Even base)
    (pos : 0 < step) (hd : 0 < d)
    (block : ∀ v, v = n / d ∨ v = n / d + 1 → scale (base + v) = v * step) :
    Nearest scale (n / d * step : ℚ) (base + nearest n d) := by
  have posq : (0 : ℚ) < step := Nat.cast_pos.2 pos
  have either := nearest_either n hd
  have here : (scale (base + n / d) : ℚ) = (n / d : ℕ) * step :=
    mod_cast block _ (.inl rfl)
  have next : (scale (base + n / d + 1) : ℚ) = ((n / d : ℕ) + 1) * step :=
    mod_cast block _ (.inr rfl)
  have chosen : (scale (base + nearest n d) : ℚ) = nearest n d * step :=
    mod_cast block _ either
  have apart : (scale (base + n / d + 1) : ℚ) - scale (base + n / d) = step := by
    rw [here, next]
    ring
  have off : 2 * |(scale (base + nearest n d) : ℚ) - n / d * step| =
      2 * |(nearest n d : ℚ) - n / d| * step := by
    rw [chosen, ← sub_mul, abs_mul, abs_of_pos posq, mul_assoc]
  refine nearest_of_between mono (m := base + n / d) ?_ ?_ (by omega) ?_ ?_
  · rw [here]
    exact mul_le_mul_of_nonneg_right Nat.cast_div_le posq.le
  · rw [next]
    refine mul_le_mul_of_nonneg_right ?_ posq.le
    rw [div_le_iff₀ (Nat.cast_pos.2 hd)]
    exact_mod_cast (Nat.lt_mul_of_div_lt (Nat.lt_succ_self _) hd).le
  · rw [apart, off]
    exact mul_le_of_le_one_left posq.le (abs_nearest_sub_le n hd)
  · rw [apart, off, mul_eq_right₀ posq.ne']
    exact fun half => even.add (even_of_half hd half)

/-- **`Rounding.nearest` rounds to the whole numbers**, which are one block. -/
theorem nearest_whole (n : ℕ) (hd : 0 < d) : Nearest id (n / d : ℚ) (nearest n d) := by
  have block := nearest_block (n := n) strictMono_id Even.zero Nat.one_pos hd
    fun v _ => by rw [id_eq, Nat.zero_add, Nat.mul_one]
  rwa [Nat.cast_one, mul_one, Nat.zero_add] at block

end FrameLoop.Rounding

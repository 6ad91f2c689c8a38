/-!
# Rounding a quotient

Every number this library rounds is a ratio of two natural numbers, and every
rounding goes to the nearest whole number with a half going to the even
neighbour. `Rounding.nearest` is that one rule; binary fractions
(`FrameLoop.Binary64`) and nanosecond counts (`FrameLoop.Duration`) are both
instances of it, which is why the rule stands alone.

What is stated here: the result is never more than half a unit away
(`nearest_lower`, `nearest_upper`).
-/

namespace FrameLoop.Rounding

/-- **The nearest whole number to `n / d`**, a half going to the even
neighbour. With `d = 0` there is no quotient and the answer is zero. -/
def nearest (n d : Nat) : Nat :=
  let q := n / d
  let twice := 2 * (n % d)
  if d = 0 then 0
  else if twice < d then q
  else if d < twice then q + 1
  else if q % 2 = 0 then q
  else q + 1

/-- The rounded value is at most half a unit above the quotient. -/
theorem nearest_upper (n d : Nat) (hd : 0 < d) : 2 * d * nearest n d ≤ 2 * n + d := by
  have h := Nat.div_add_mod n d
  have hq : 2 * d * (n / d) = 2 * (d * (n / d)) := by rw [Nat.mul_assoc]
  have hs : 2 * d * (n / d + 1) = 2 * (d * (n / d)) + 2 * d := by
    rw [Nat.mul_add, Nat.mul_one, hq]
  unfold nearest
  simp only
  split
  · omega
  · split
    · omega
    · split
      · omega
      · split <;> omega

/-- The rounded value is at most half a unit below the quotient. -/
theorem nearest_lower (n d : Nat) (hd : 0 < d) : 2 * n ≤ 2 * d * nearest n d + d := by
  have h := Nat.div_add_mod n d
  have hm := Nat.mod_lt n hd
  have hq : 2 * d * (n / d) = 2 * (d * (n / d)) := by rw [Nat.mul_assoc]
  have hs : 2 * d * (n / d + 1) = 2 * (d * (n / d)) + 2 * d := by
    rw [Nat.mul_add, Nat.mul_one, hq]
  unfold nearest
  simp only
  split
  · omega
  · split
    · omega
    · split
      · omega
      · split <;> omega

end FrameLoop.Rounding

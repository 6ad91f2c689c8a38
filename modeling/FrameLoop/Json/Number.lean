import FrameLoop.Binary64.Decimal
import FrameLoop.Json

/-!
# What a JSON number is read as

A number without point and exponent whose digits fit into 64 bits is a whole
number: not negative, or negative and of at most 63 bits. Everything else,
`-0` included, is a binary64 number, read stepwise from the digits that fit
(`Binary64.ofScaled?`); one too large to be finite is refused.
-/

namespace FrameLoop.Json.Number

open Binary64 (Significand ofScaled?)

/-- **What a number is read as.** -/
inductive Reading where
  /-- A whole number that is not negative, of 64 bits. -/
  | natural (n : Nat)
  /-- The negative of a whole number of at most 63 bits. -/
  | negative (n : Nat)
  | binary (x : Binary64)

/-- The exponent a written exponent stands for, cut off where it no longer
fits into 31 bits; `none` in place of one that cannot be told from infinite. -/
def exponentValue : Option (Bool × List Char) → Option Int
  | none => some 0
  | some (negative, ds) =>
    let v := Digits.decimal ds
    if 1 <<< 31 ≤ v then none else some (if negative then -(v : Int) else v)

/-- The binary64 reading. Digits before the point that do not fit raise the
exponent; digits behind it that do not fit are left out. An exponent beyond
31 bits gives zero, or is refused if the number grows with it. -/
def toBinary? (n : Number) : Option Binary64 :=
  let (whole, skipped) := Significand.pushAll {} n.whole
  let fraction := n.fraction.getD []
  let (all, dropped) := Significand.pushAll { whole with full := false } fraction
  let shift : Int := skipped - (fraction.length - dropped : Nat)
  match n.exponent, exponentValue n.exponent with
  | _, some e => ofScaled? n.negative all.value (shift + e)
  | some (false, _), none =>
    if all.value = 0 then some (.ofIndex n.negative 0) else none
  | _, none => some (.ofIndex n.negative 0)

/-- **The reading of a number**; `none` when it is out of range. -/
def read (n : Number) : Option Reading :=
  let (whole, skipped) := Significand.pushAll {} n.whole
  if n.fraction.isNone && n.exponent.isNone && skipped == 0 then
    if !n.negative then some (.natural whole.value)
    else if whole.value = 0 ∨ 1 <<< 63 < whole.value then
      some (.binary ((Binary64.ofNat whole.value).neg))
    else some (.negative whole.value)
  else n.toBinary?.map .binary

end FrameLoop.Json.Number

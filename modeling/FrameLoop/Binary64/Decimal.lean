import FrameLoop.Binary64
import FrameLoop.Digits

/-!
# Decimals read as binary64

A decimal is a natural number times a power of ten. Two readings of it are in
use.

* `Binary64.ofDecimal` rounds the exact value once. Settings files,
  environment variables and command lines are read like this.
* `Binary64.ofScaled?` works as a fast reader does: the digits are rounded to
  binary64 first and then multiplied or divided by a rounded power of ten, one
  rounding a step. It is off by a last bit now and then, and it refuses an
  overflow. Numbers in JSON are read like this, and of their digits only as
  many count as fit into 64 bits (`Significand`).
-/

namespace FrameLoop

namespace Binary64

/-- The number of decimal digits. -/
def decimalWidth (n : Nat) : Nat := (Nat.toDigits 10 n).length

/-- **The number nearest to `digits · 10^exponent`**, with the given sign. The
two comparisons keep hopeless exponents from being multiplied out. -/
def ofDecimal (negative : Bool) (digits : Nat) (exponent : Int) : Binary64 :=
  if digits = 0 then ofIndex negative 0
  else if 400 < exponent then ofIndex negative infinityIndex
  else if exponent + decimalWidth digits < -400 then ofIndex negative 0
  else if 0 ≤ exponent then ofRatio negative (digits * Nat.pow 10 exponent.toNat) 1
  else ofRatio negative digits (Nat.pow 10 (-exponent).toNat)

/-! ## Decimals as text -/

/-- An exponent after its letter: a sign and at least one digit, and no more. -/
def exponentOf? (s : List Char) : Option Int :=
  let (negative, digits) := match s with
    | '-' :: r => (true, r)
    | '+' :: r => (false, r)
    | r => (false, r)
  if digits.isEmpty || !digits.all Char.isDigit then none
  else some (if negative then -(Digits.decimal digits : Int) else Digits.decimal digits)

/-- A decimal without its sign: digits on at least one side of the point. -/
def unsignedOf? (negative : Bool) (s : List Char) : Option Binary64 := do
  let whole := s.takeWhile Char.isDigit
  let rest := s.dropWhile Char.isDigit
  let (fraction, rest) := match rest with
    | '.' :: r => (r.takeWhile Char.isDigit, r.dropWhile Char.isDigit)
    | r => ([], r)
  guard (!(whole.isEmpty && fraction.isEmpty))
  let exponent ← match rest with
    | [] => some 0
    | e :: r => if e = 'e' ∨ e = 'E' then exponentOf? r else none
  some (ofDecimal negative (Digits.decimal (whole ++ fraction)) (exponent - fraction.length))

/-- **The number a text stands for**: an optional sign, then a decimal or one
of the words for infinity and for no number, in letters of either case. -/
def ofText? (s : List Char) : Option Binary64 :=
  let (negative, body) := match s with
    | '-' :: r => (true, r)
    | '+' :: r => (false, r)
    | r => (false, r)
  let word := String.ofList (body.map Char.toLower)
  if word = "inf" ∨ word = "infinity" then some (ofIndex negative infinityIndex)
  else if word = "nan" then some (ofIndex negative nan.index)
  else unsignedOf? negative body

/-! ## The stepwise reading -/

/-- The rounded power of ten. -/
def powerOfTen (k : Nat) : Binary64 := ofNat (Nat.pow 10 k)

/-- Scale a magnitude by `10^exponent`, at most 308 places a step; `none` when
it overflows. The fuel bounds the steps: each but the last takes an exponent
below -308 up by 308, and a magnitude that has become zero stays zero. -/
def scaled? : Nat → Binary64 → Int → Option Binary64
  | 0, x, _ => some x
  | fuel + 1, x, exponent =>
    if exponent.natAbs ≤ 308 then
      if 0 ≤ exponent then
        let y := x.mul (powerOfTen exponent.natAbs)
        if y.isFinite then some y else none
      else some (x.div (powerOfTen exponent.natAbs))
    else if x.isZero then some x
    else if 0 ≤ exponent then none
    else scaled? fuel (x.div (powerOfTen 308)) (exponent + 308)

/-- **The stepwise reading** of `significand · 10^exponent`. Three steps of
308 places take every significand of 64 bits to zero. -/
def ofScaled? (negative : Bool) (significand : Nat) (exponent : Int) : Option Binary64 :=
  (scaled? 8 (ofNat significand) exponent).map fun x => ofIndex negative x.index

/-- The digits that count: the value of as many leading digits as fit into 64
bits, and whether a digit has been left out. -/
structure Significand where
  value : Nat := 0
  full : Bool := false
deriving DecidableEq, Repr

namespace Significand

/-- Take one more digit, unless it or one before it did not fit. -/
def push (s : Significand) (c : Char) : Significand :=
  let next := s.value * 10 + (c.toNat - '0'.toNat)
  if s.full || decide (UInt64.size ≤ next) then { s with full := true }
  else { s with value := next }

/-- Take digits one after another and count those that were left out. -/
def pushAll (s : Significand) : List Char → Significand × Nat
  | [] => (s, 0)
  | c :: rest =>
    let t := s.push c
    let (u, skipped) := t.pushAll rest
    (u, if t.full then skipped + 1 else skipped)

end Significand

end Binary64

end FrameLoop

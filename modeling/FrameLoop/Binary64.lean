import FrameLoop.Rounding

/-!
# Binary64 numbers, as bits

A setting such as a frame delay is a binary64 number, and what the library
owes its callers is stated down to the last bit. So a number is its bits, and
its value is read off them exactly: the magnitude of a finite number is a
whole number of *units* of 2^-1074, the smallest step of the format.

Two facts make the arithmetic short. Magnitudes in increasing order are the
bit patterns in increasing order, so "the nearest number to a ratio" is a bit
pattern computed by one rounding (`Binary64.ofRatio`). And every operation
needed here (quotient, product, sum, reading a decimal) is an exact ratio of
natural numbers followed by that rounding, so no operation of the machine's
own floating point is used and all of them can be reasoned about.
-/

namespace FrameLoop

/-- **A binary64 number**, given by its bits. -/
structure Binary64 where
  bits : UInt64
deriving DecidableEq, Inhabited, Repr

namespace Binary64

/-! ## Reading the bits -/

/-- The sign bit. -/
def isNegative (x : Binary64) : Bool := decide (1 <<< 63 ≤ x.bits.toNat)

/-- The bits below the sign: in increasing order they are the magnitudes in
increasing order, then infinity, then the patterns that are no number. -/
def index (x : Binary64) : Nat := x.bits.toNat % (1 <<< 63)

/-- The index of infinity. -/
def infinityIndex : Nat := 2047 <<< 52

/-- Neither an infinity nor a pattern that is no number. -/
def isFinite (x : Binary64) : Bool := decide (x.index < infinityIndex)

/-- Zero, of either sign. -/
def isZero (x : Binary64) : Bool := decide (x.index = 0)

/-- The magnitude at an index below `infinityIndex`, in units of 2^-1074. The
first 2^52 indices step by one unit; each later block of 2^52 indices steps
twice as far as the block before it. -/
def unitsAt (k : Nat) : Nat :=
  if k < 1 <<< 52 then k else ((1 <<< 52) + k % (1 <<< 52)) <<< ((k >>> 52) - 1)

/-- **The magnitude of a finite number**, in units of 2^-1074. -/
def units (x : Binary64) : Nat := unitsAt x.index

/-- How many units make one. -/
def unitsPerOne : Nat := 1 <<< 1074

/-! ## Building numbers -/

/-- The number with this sign and this index. -/
def ofIndex (negative : Bool) (k : Nat) : Binary64 :=
  ⟨UInt64.ofNat (k + if negative then 1 <<< 63 else 0)⟩

def zero : Binary64 := ofIndex false 0

def infinity : Binary64 := ofIndex false infinityIndex

/-- The quiet pattern that is no number. -/
def nan : Binary64 := ofIndex false (infinityIndex + (1 <<< 51))

def neg (x : Binary64) : Binary64 := ofIndex (!x.isNegative) x.index

/-- The index of the number nearest to `n / d` units, a half going to the
even index; beyond the largest finite number it is the index of infinity.

A quotient of 53 bits or fewer is rounded to whole units; a larger one is
rounded to 53 significant bits, and `shift` counts the bits given up. A
rounding that carries into the next block lands on the right index, because
blocks follow one another without a gap. -/
def nearestIndex (n d : Nat) : Nat :=
  let q := n / d
  let shift := if q < 1 <<< 53 then 0 else q.log2 - 52
  min infinityIndex ((shift <<< 52) + Rounding.nearest n (d <<< shift))

/-- The number nearest to the ratio `n / d`, with the given sign. -/
def ofRatio (negative : Bool) (n d : Nat) : Binary64 :=
  ofIndex negative (nearestIndex (n * unitsPerOne) d)

/-- The number nearest to a natural number. -/
def ofNat (n : Nat) : Binary64 := ofRatio false n 1

/-- The number nearest to an integer. -/
def ofInt (n : Int) : Binary64 := ofRatio (decide (n < 0)) n.natAbs 1

/-! ## Arithmetic on magnitudes

Only finite numbers meet these operations; an overflow gives infinity. -/

/-- Quotient of two finite numbers, the divisor not zero. -/
def div (x y : Binary64) : Binary64 :=
  ofIndex (x.isNegative != y.isNegative) (nearestIndex (x.units * unitsPerOne) y.units)

/-- Product of two finite numbers. -/
def mul (x y : Binary64) : Binary64 :=
  ofIndex (x.isNegative != y.isNegative) (nearestIndex (x.units * y.units) unitsPerOne)

/-- Sum of two finite numbers that are not negative. -/
def addMagnitudes (x y : Binary64) : Binary64 :=
  ofIndex false (nearestIndex (x.units + y.units) 1)

/-! ## Sixteen digits -/

/-- The bits as `0x` and sixteen hexadecimal digits. -/
def toHex (x : Binary64) : String :=
  let digits := Nat.toDigits 16 x.bits.toNat
  "0x" ++ String.ofList (List.replicate (16 - digits.length) '0' ++ digits)

end Binary64

end FrameLoop

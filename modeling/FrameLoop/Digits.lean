/-!
# Runs of digits

What a run of digits stands for and how a number is written with a given
number of digits. The readers of numbers, times and escapes have this in
common; which runs they admit is their own affair.
-/

namespace FrameLoop.Digits

/-- The value of a digit, hexadecimal letters of either case included. -/
def value? (c : Char) : Option Nat :=
  if '0' ≤ c ∧ c ≤ '9' then some (c.toNat - 48)
  else if 'a' ≤ c ∧ c ≤ 'f' then some (c.toNat - 87)
  else if 'A' ≤ c ∧ c ≤ 'F' then some (c.toNat - 55)
  else none

/-- **The value of a run of digits** in a base; what is no digit counts as
zero. -/
def ofRun (base : Nat) (ds : List Char) : Nat :=
  ds.foldl (fun acc c => acc * base + (value? c).getD 0) 0

/-- The value of a run of decimal digits. -/
def decimal (ds : List Char) : Nat := ofRun 10 ds

/-- The value of exactly `n` hexadecimal digits, and what follows them. -/
def hex? (n : Nat) (s : List Char) : Option (Nat × List Char) :=
  let ds := s.take n
  if ds.length = n ∧ ds.all fun c => (value? c).isSome then some (ofRun 16 ds, s.drop n) else none

/-- A number with at least `width` decimal digits. -/
def padded (width n : Nat) : List Char :=
  let ds := Nat.toDigits 10 n
  List.replicate (width - ds.length) '0' ++ ds

end FrameLoop.Digits

/-!
# Identities

A job is who its id says it is, not what its name says: two jobs may share a
name and still be registered side by side. A `LoopId` tells scheduler
instances apart in logs and has no other use.

Ids are ordered as their UTF-8 bytes are (`JobId.compare`).
-/

namespace FrameLoop

/-- **The identity of a job.** -/
structure JobId where
  text : String
deriving DecidableEq, Inhabited, Repr

/-- The name under which one scheduler instance appears in logs. -/
structure LoopId where
  text : String
deriving DecidableEq, Inhabited, Repr

/-- Lexicographic order of byte strings. -/
def compareBytes : List UInt8 → List UInt8 → Ordering
  | [], [] => .eq
  | [], _ :: _ => .lt
  | _ :: _, [] => .gt
  | a :: as, b :: bs =>
    if a < b then .lt else if b < a then .gt else compareBytes as bs

namespace JobId

/-- The order of ids: that of their UTF-8 bytes. -/
def compare (a b : JobId) : Ordering :=
  compareBytes a.text.toUTF8.toList b.text.toUTF8.toList

/-- Whether `a` comes no later than `b`. -/
def le (a b : JobId) : Bool := a.compare b != .gt

/-- The ids in increasing order. -/
def sort (ids : List JobId) : List JobId := ids.mergeSort le

/-- The order of each id against the one after it. -/
def neighbours : List JobId → List Ordering
  | a :: b :: rest => a.compare b :: neighbours (b :: rest)
  | _ => []

end JobId

/-! ## Made ids

A made id has the shape of a version 7 identifier: thirty-six characters, in
five groups, the version digit leading the third. A made loop id has eight
hexadecimal digits. The entropy is the caller's. -/

/-- The lower `n` hexadecimal digits of a number, most significant first. -/
def hexDigits : Nat → Nat → List Char
  | 0, _ => []
  | n + 1, v => hexDigits n (v / 16) ++ [Nat.digitChar (v % 16)]

/-- A job id from a millisecond timestamp and random bits. -/
def JobId.make (millis random : Nat) : JobId :=
  let stamp := hexDigits 12 millis
  let a := hexDigits 3 random
  let b := hexDigits 3 (random >>> 12)
  let c := hexDigits 12 (random >>> 24)
  let kind := Nat.digitChar (8 + (random >>> 72) % 4)
  ⟨String.ofList (stamp.take 8 ++ '-' :: stamp.drop 8 ++ '-' :: '7' :: a ++ '-' :: kind :: b
    ++ '-' :: c)⟩

/-- A loop id from random bits. -/
def LoopId.make (random : Nat) : LoopId := ⟨String.ofList (hexDigits 8 random)⟩

end FrameLoop

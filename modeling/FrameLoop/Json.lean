/-!
# JSON values

The tree that a JSON text stands for, with as little decided as possible: a
number keeps its digits, because how many of them count depends on what it is
read as (`Json.Number.read`), and a string whose escapes stand for no text is
kept as such, because it is an error only where the text is wanted.

`Json.Reader` reads a text, `Json.Writer` writes one.
-/

namespace FrameLoop

/-- **A number as it is written**: a sign, the digits before the point, those
behind it, and an exponent with its sign. A missing part is `none`. -/
structure Json.Number where
  negative : Bool := false
  whole : List Char
  fraction : Option (List Char) := none
  exponent : Option (Bool × List Char) := none
deriving DecidableEq, Repr

/-- **A JSON value.** A text is `none` where escapes stand for half a
character. -/
inductive Json where
  | null
  | bool (b : Bool)
  | number (n : Json.Number)
  | string (text : Option String)
  | array (items : List Json)
  | object (fields : List (Option String × Json))
deriving Inhabited

namespace Json

/-- A natural number, written without a fraction. -/
def ofNat (n : Nat) : Json := .number { whole := Nat.toDigits 10 n }

/-- A text. -/
def ofText (s : String) : Json := .string (some s)

/-- Named values, in order. -/
def ofFields (fields : List (String × Json)) : Json :=
  .object (fields.map fun (k, v) => (some k, v))

end Json

end FrameLoop

import FrameLoop.Json.Number

/-!
# Records and words in JSON

A record is written as an object and may be given in either of two ways: as an
object, with the fields in any order, or as an array, with the values in the
order of the fields. In an object no field may be given twice; what is not a
field is passed over, unless the record is closed. An array may be too short,
which leaves the last fields out, and may not be too long.

A choice between words is a string, or an object with the word as its one key
and nothing behind it.
-/

namespace FrameLoop.Json

/-- **A record taken apart**: the values that were given, by field, and
whether they were given by place and not by name. -/
structure Record where
  given : List (String × Json)
  byPlace : Bool

namespace Record

/-- The values of an object that belong to fields. A key that stands for no
text is refused, so is a field given twice, and so is a stranger if the record
is closed. -/
def ofFields? (fields : List String) (closed : Bool) :
    List (Option String × Json) → Option (List (String × Json))
  | [] => some []
  | (none, _) :: _ => none
  | (some k, v) :: rest => do
    let given ← ofFields? fields closed rest
    if k ∈ fields then
      if (given.lookup k).isSome then none else some ((k, v) :: given)
    else if closed then none
    else some given

/-- **Take a record apart.** -/
def ofJson? (fields : List String) (closed : Bool) : Json → Option Record
  | .object entries => (ofFields? fields closed entries).map fun given => ⟨given, false⟩
  | .array items =>
    if items.length ≤ fields.length then some ⟨fields.zip items, true⟩ else none
  | _ => none

/-- The value of a field, if it was given. -/
def get? (r : Record) (field : String) : Option Json := r.given.lookup field

/-- A field that has to be given. -/
def required {α : Type} (r : Record) (field : String) (read : Json → Option α) : Option α :=
  (r.get? field).bind read

/-- A field with a default. -/
def withDefault {α : Type} (r : Record) (field : String) (default : α) (read : Json → Option α) :
    Option α :=
  match r.get? field with
  | some v => read v
  | none => some default

/-- A field that may be `null`, and may be left out where fields have names. -/
def nullable {α : Type} (r : Record) (field : String) (read : Json → Option α) :
    Option (Option α) :=
  match r.get? field with
  | some .null => some none
  | some v => (read v).map some
  | none => if r.byPlace then none else some none

end Record

/-! ## Single values -/

/-- A text. -/
def text? : Json → Option String
  | .string s => s
  | _ => none

/-- A whole number from zero up to a limit. -/
def natBelow? (limit : Nat) : Json → Option Nat
  | .number n =>
    match n.read with
    | some (.natural v) => if v < limit then some v else none
    | _ => none
  | _ => none

/-- A number, rounded to binary64 if it is a whole one. -/
def binary? : Json → Option Binary64
  | .number n =>
    match n.read with
    | some (.natural v) => some (.ofNat v)
    | some (.negative v) => some (Binary64.ofInt (-(v : Int)))
    | some (.binary x) => some x
    | none => none
  | _ => none

/-- A word: a string, or the one key of an object with nothing behind it. -/
def word? : Json → Option String
  | .string s => s
  | .object [(k, .null)] => k
  | _ => none

end FrameLoop.Json

import FrameLoop.Digits
import FrameLoop.Json

/-!
# Reading JSON

A reader takes the front of a list of characters and answers what it read and
what is left. Blanks are space, tab, line feed and carriage return; a number
has no leading zeros and at least one digit on each side of its point; a
string has no bare control characters. Nothing but blanks may follow the one
value of a text (`Json.read?`).

The recursion is on a fuel that every step into a value spends, and a text has
fewer values than characters, so `read?` never runs out.
-/

namespace FrameLoop.Json

/-- The blanks of the format. -/
def isSpace (c : Char) : Bool := c == ' ' || c == '\t' || c == '\n' || c == '\r'

/-- The text without the blanks at its front. -/
def skipSpaces (s : List Char) : List Char := s.dropWhile isSpace

/-- What follows the expected characters, if they stand at the front. -/
def expect? : List Char → List Char → Option (List Char)
  | [], s => some s
  | c :: cs, d :: s => if c = d then expect? cs s else none
  | _ :: _, [] => none

/-! ## Numbers -/

/-- The digits behind a point, if a point stands at the front. -/
def fractionPart? (s : List Char) : Option (Option (List Char) × List Char) :=
  match s with
  | '.' :: rest =>
    let digits := rest.takeWhile Char.isDigit
    if digits.isEmpty then none else some (some digits, rest.dropWhile Char.isDigit)
  | _ => some (none, s)

/-- The digits of an exponent and its sign, if one stands at the front. -/
def exponentPart? (s : List Char) : Option (Option (Bool × List Char) × List Char) :=
  match s with
  | e :: rest =>
    if e = 'e' ∨ e = 'E' then
      let (negative, rest) := match rest with
        | '-' :: r => (true, r)
        | '+' :: r => (false, r)
        | r => (false, r)
      let digits := rest.takeWhile Char.isDigit
      if digits.isEmpty then none
      else some (some (negative, digits), rest.dropWhile Char.isDigit)
    else some (none, s)
  | [] => some (none, s)

/-- A number without its sign. -/
def unsigned? (negative : Bool) (s : List Char) : Option (Number × List Char) := do
  let digits := s.takeWhile Char.isDigit
  let rest := s.dropWhile Char.isDigit
  guard (!digits.isEmpty && (digits.length == 1 || digits.head? != some '0'))
  let (fraction, rest) ← fractionPart? rest
  let (exponent, rest) ← exponentPart? rest
  some (⟨negative, digits, fraction, exponent⟩, rest)

/-- A number. -/
def number? (s : List Char) : Option (Number × List Char) :=
  match s with
  | '-' :: rest => unsigned? true rest
  | _ => unsigned? false s

/-! ## Strings -/

/-- The character a short escape stands for. -/
def shortEscape? : Char → Option Char
  | '"' => some '"'
  | '\\' => some '\\'
  | '/' => some '/'
  | 'b' => some '\x08'
  | 'f' => some '\x0c'
  | 'n' => some '\n'
  | 'r' => some '\r'
  | 't' => some '\t'
  | _ => none

/-- One element of a string: what it adds to the text (`none` for half a
character that stands alone), and what follows. A high half takes the low half
after it along. -/
def piece? (s : List Char) : Option (Option Char × List Char) :=
  match s with
  | '\\' :: 'u' :: rest => do
    let (n, rest) ← Digits.hex? 4 rest
    if n < 0xd800 ∨ 0xdfff < n then some (some (Char.ofNat n), rest)
    else if n < 0xdc00 then
      match rest with
      | '\\' :: 'u' :: more => do
        let (m, after) ← Digits.hex? 4 more
        if 0xdc00 ≤ m ∧ m ≤ 0xdfff then
          some (some (Char.ofNat (0x10000 + (n - 0xd800) * 0x400 + (m - 0xdc00))), after)
        else some (none, rest)
      | _ => some (none, rest)
    else some (none, rest)
  | '\\' :: c :: rest => (shortEscape? c).map fun d => (some d, rest)
  | c :: rest => if c.toNat < 0x20 ∨ c = '\\' then none else some (some c, rest)
  | [] => none

/-- A string after its opening quote, up to and past its closing quote; the
characters so far are kept in reverse, `none` once half a character stood
alone. -/
def stringBody? : Nat → Option (List Char) → List Char → Option (Option String × List Char)
  | 0, _, _ => none
  | fuel + 1, acc, s =>
    match s with
    | '"' :: rest => some (acc.map fun cs => String.ofList cs.reverse, rest)
    | _ => do
      let (c, rest) ← piece? s
      stringBody? fuel (acc.bind fun cs => c.map (· :: cs)) rest

/-- A string after its opening quote. -/
def string? (s : List Char) : Option (Option String × List Char) :=
  stringBody? (s.length + 1) (some []) s

/-! ## Values -/

mutual

/-- A value, blanks before it. -/
def value? : Nat → List Char → Option (Json × List Char)
  | 0, _ => none
  | fuel + 1, s =>
    match skipSpaces s with
    | 'n' :: rest => (expect? ['u', 'l', 'l'] rest).map fun r => (.null, r)
    | 't' :: rest => (expect? ['r', 'u', 'e'] rest).map fun r => (.bool true, r)
    | 'f' :: rest => (expect? ['a', 'l', 's', 'e'] rest).map fun r => (.bool false, r)
    | '"' :: rest => (string? rest).map fun (text, r) => (.string text, r)
    | '[' :: rest =>
      match skipSpaces rest with
      | ']' :: r => some (.array [], r)
      | _ => do
        let (items, r) ← items? fuel rest
        some (.array items, r)
    | '{' :: rest =>
      match skipSpaces rest with
      | '}' :: r => some (.object [], r)
      | _ => do
        let (fields, r) ← fields? fuel rest
        some (.object fields, r)
    | s => (number? s).map fun (n, r) => (.number n, r)

/-- The items of an array and its closing bracket. -/
def items? : Nat → List Char → Option (List Json × List Char)
  | 0, _ => none
  | fuel + 1, s => do
    let (v, rest) ← value? fuel s
    match skipSpaces rest with
    | ',' :: r => do
      let (vs, r) ← items? fuel r
      some (v :: vs, r)
    | ']' :: r => some ([v], r)
    | _ => none

/-- The fields of an object and its closing brace. -/
def fields? : Nat → List Char → Option (List (Option String × Json) × List Char)
  | 0, _ => none
  | fuel + 1, s => do
    match skipSpaces s with
    | '"' :: rest => do
      let (key, rest) ← string? rest
      match skipSpaces rest with
      | ':' :: rest => do
        let (v, rest) ← value? fuel rest
        match skipSpaces rest with
        | ',' :: r => do
          let (fs, r) ← fields? fuel r
          some ((key, v) :: fs, r)
        | '}' :: r => some ([(key, v)], r)
        | _ => none
      | _ => none
    | _ => none

end

/-- **The value a text stands for**, if it is one value and nothing else. -/
def read? (text : String) : Option Json := do
  let s := text.toList
  let (v, rest) ← value? (s.length + 1) s
  if (skipSpaces rest).isEmpty then some v else none

end FrameLoop.Json

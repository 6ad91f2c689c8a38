import FrameLoop.Binary64.Decimal
import FrameLoop.Settings.Node

/-!
# TOML: characters, texts, numbers and times

The leaves of TOML 1.0. Each reader takes the front of a list of characters
and answers what it read and what is left.

Dates and times have no place among the settings; they are recognised, so that
a file that has them is not refused, and read as a table without entries.
-/

namespace FrameLoop.Toml

/-- Space and tab. -/
def isBlank (c : Char) : Bool := c == ' ' || c == '\t'

def skipBlanks (s : List Char) : List Char := s.dropWhile isBlank

/-- What may stand in a comment: everything but controls, tabs excepted. -/
def isPlain (c : Char) : Bool :=
  c == '\t' || (0x20 ≤ c.toNat && c.toNat != 0x7f)

/-- What follows a line break, if one stands at the front. -/
def newline? : List Char → Option (List Char)
  | '\n' :: rest => some rest
  | '\r' :: '\n' :: rest => some rest
  | _ => none

/-- The text without the comment at its front. -/
def skipComment : List Char → List Char
  | '#' :: rest => rest.dropWhile isPlain
  | s => s

/-- What follows the line, if nothing is left on it but blanks and a comment. -/
def lineEnd? (s : List Char) : Option (List Char) :=
  match skipComment (skipBlanks s) with
  | [] => some []
  | rest => newline? rest

/-- The text without blanks, comments and line breaks at its front. -/
def skipLines : Nat → List Char → List Char
  | 0, s => s
  | fuel + 1, s =>
    match newline? (skipComment (skipBlanks s)) with
    | some rest => skipLines fuel rest
    | none => skipComment (skipBlanks s)

/-! ## Texts -/

/-- The character a hexadecimal escape stands for. -/
def scalar? (digits : Nat) (s : List Char) : Option (Char × List Char) := do
  let (n, rest) ← Digits.hex? digits s
  if n.isValidChar then some (Char.ofNat n, rest) else none

/-- The character an escape stands for, after its backslash. -/
def escape? : List Char → Option (Char × List Char)
  | 'b' :: rest => some ('\x08', rest)
  | 't' :: rest => some ('\t', rest)
  | 'n' :: rest => some ('\n', rest)
  | 'f' :: rest => some ('\x0c', rest)
  | 'r' :: rest => some ('\r', rest)
  | '"' :: rest => some ('"', rest)
  | '\\' :: rest => some ('\\', rest)
  | 'u' :: rest => scalar? 4 rest
  | 'U' :: rest => scalar? 8 rest
  | _ => none

/-- A text of one line after its opening quote, up to and past the closing
one; the characters so far are kept in reverse. -/
def basic? : Nat → List Char → List Char → Option (List Char × List Char)
  | 0, _, _ => none
  | fuel + 1, acc, s =>
    match s with
    | '"' :: rest => some (acc.reverse, rest)
    | '\\' :: rest => do
      let (c, rest) ← escape? rest
      basic? fuel (c :: acc) rest
    | c :: rest => if isPlain c then basic? fuel (c :: acc) rest else none
    | [] => none

/-- A text of several lines after its opening quotes. Up to two quotes may
stand before the three that close it. A backslash at the end of a line takes
away all blanks and line breaks after it. -/
def basicLines? : Nat → List Char → List Char → Option (List Char × List Char)
  | 0, _, _ => none
  | fuel + 1, acc, s =>
    match s with
    | '"' :: '"' :: '"' :: '"' :: '"' :: rest => some (('"' :: '"' :: acc).reverse, rest)
    | '"' :: '"' :: '"' :: '"' :: rest => some (('"' :: acc).reverse, rest)
    | '"' :: '"' :: '"' :: rest => some (acc.reverse, rest)
    | '"' :: rest => basicLines? fuel ('"' :: acc) rest
    | '\\' :: rest =>
      match newline? (skipBlanks rest) with
      | some rest =>
        basicLines? fuel acc (rest.dropWhile fun c => isBlank c || c == '\n' || c == '\r')
      | none => do
        let (c, rest) ← escape? rest
        basicLines? fuel (c :: acc) rest
    | c :: rest =>
      match newline? s with
      | some rest => basicLines? fuel ('\n' :: acc) rest
      | none => if isPlain c then basicLines? fuel (c :: acc) rest else none
    | [] => none

/-- A literal text of one line after its opening quote. -/
def literal? (s : List Char) : Option (List Char × List Char) :=
  let isInside (c : Char) := isPlain c && c != '\''
  match s.dropWhile isInside with
  | '\'' :: rest => some (s.takeWhile isInside, rest)
  | _ => none

/-- A literal text of several lines after its opening quotes. -/
def literalLines? : Nat → List Char → List Char → Option (List Char × List Char)
  | 0, _, _ => none
  | fuel + 1, acc, s =>
    match s with
    | '\'' :: '\'' :: '\'' :: '\'' :: '\'' :: rest => some (('\'' :: '\'' :: acc).reverse, rest)
    | '\'' :: '\'' :: '\'' :: '\'' :: rest => some (('\'' :: acc).reverse, rest)
    | '\'' :: '\'' :: '\'' :: rest => some (acc.reverse, rest)
    | c :: rest =>
      match newline? s with
      | some rest => literalLines? fuel ('\n' :: acc) rest
      | none => if isPlain c then literalLines? fuel (c :: acc) rest else none
    | [] => none

/-- The text without the line break at its front. -/
def skipNewline (s : List Char) : List Char := (newline? s).getD s

/-- **A text**, in any of the four notations. -/
def text? (s : List Char) : Option (List Char × List Char) :=
  match s with
  | '"' :: '"' :: '"' :: rest => basicLines? (rest.length + 1) [] (skipNewline rest)
  | '"' :: rest => basic? (rest.length + 1) [] rest
  | '\'' :: '\'' :: '\'' :: rest => literalLines? (rest.length + 1) [] (skipNewline rest)
  | '\'' :: rest => literal? rest
  | _ => none

/-! ## Numbers -/

/-- The rest of a run of digits; an underscore may stand between two. -/
def moreDigits (isDigit : Char → Bool) : List Char → List Char × List Char
  | '_' :: c :: rest =>
    if isDigit c then
      let (ds, after) := moreDigits isDigit rest
      (c :: ds, after)
    else ([], '_' :: c :: rest)
  | c :: rest =>
    if isDigit c then
      let (ds, after) := moreDigits isDigit rest
      (c :: ds, after)
    else ([], c :: rest)
  | [] => ([], [])

/-- A run of digits. -/
def digits? (isDigit : Char → Bool) (s : List Char) : Option (List Char × List Char) :=
  match s with
  | c :: rest =>
    if isDigit c then
      let (ds, after) := moreDigits isDigit rest
      some (c :: ds, after)
    else none
  | [] => none

/-- A number, if it is one that counts: whole numbers have 64 bits, and none is
too large to be finite. -/
def inRange? (n : Int) : Option Settings.Node :=
  if Int64.minValue.toInt ≤ n ∧ n ≤ Int64.maxValue.toInt then some (.whole n) else none

/-- A whole number in another base, after its mark. -/
def based? (base : Nat) (isDigit : Char → Bool) (s : List Char) :
    Option (Settings.Node × List Char) := do
  let (ds, rest) ← digits? isDigit s
  let v ← inRange? (Digits.ofRun base ds)
  some (v, rest)

/-- The digits behind a point, if a point stands at the front. -/
def fraction? (s : List Char) : Option (Option (List Char) × List Char) :=
  match s with
  | '.' :: rest => (digits? Char.isDigit rest).map fun (ds, rest) => (some ds, rest)
  | _ => some (none, s)

/-- The value of an exponent, if one stands at the front. -/
def exponent? (s : List Char) : Option (Option Int × List Char) :=
  match s with
  | c :: rest =>
    if c = 'e' ∨ c = 'E' then
      let (negative, rest) := match rest with
        | '-' :: r => (true, r)
        | '+' :: r => (false, r)
        | r => (false, r)
      (digits? Char.isDigit rest).map fun (ds, rest) =>
        (some (if negative then -(Digits.decimal ds : Int) else Digits.decimal ds), rest)
    else some (none, s)
  | [] => some (none, s)

/-- A decimal number after its sign. -/
def decimal? (negative : Bool) (s : List Char) : Option (Settings.Node × List Char) := do
  let (whole, rest) ← digits? Char.isDigit s
  guard (whole.length = 1 || whole.head? != some '0')
  let (fraction, rest) ← fraction? rest
  let (exponent, rest) ← exponent? rest
  if fraction.isNone && exponent.isNone then
    let n := (Digits.decimal whole : Int)
    let v ← inRange? (if negative then -n else n)
    some (v, rest)
  else
    let fraction := fraction.getD []
    let x := Binary64.ofDecimal negative (Digits.decimal (whole ++ fraction))
      (exponent.getD 0 - fraction.length)
    if x = Binary64.infinity then none else some (.real x, rest)

/-- What a word for an infinity or for no number stands for. -/
def special? (negative : Bool) : List Char → Option (Settings.Node × List Char)
  | 'i' :: 'n' :: 'f' :: rest => some (.real (.ofIndex negative Binary64.infinityIndex), rest)
  | 'n' :: 'a' :: 'n' :: rest => some (.real (.ofIndex negative Binary64.nan.index), rest)
  | _ => none

def isOctal (c : Char) : Bool := '0' ≤ c && c ≤ '7'

def isBinary (c : Char) : Bool := c == '0' || c == '1'

def isHex (c : Char) : Bool := (Digits.value? c).isSome

/-- **A number.** -/
def number? (s : List Char) : Option (Settings.Node × List Char) :=
  match s with
  | '0' :: 'x' :: rest => based? 16 isHex rest
  | '0' :: 'o' :: rest => based? 8 isOctal rest
  | '0' :: 'b' :: rest => based? 2 isBinary rest
  | '-' :: rest => special? true rest <|> decimal? true rest
  | '+' :: rest => special? false rest <|> decimal? false rest
  | _ => special? false s <|> decimal? false s

/-! ## Dates and times -/

/-- A number of exactly `n` digits between two limits. -/
def part? (n first last : Nat) (s : List Char) : Option (Nat × List Char) :=
  let ds := s.take n
  if ds.length = n ∧ ds.all Char.isDigit ∧ first ≤ Digits.decimal ds ∧ Digits.decimal ds ≤ last then
    some (Digits.decimal ds, s.drop n)
  else none

/-- What follows a character, if it stands at the front. -/
def after? (c : Char) : List Char → Option (List Char)
  | d :: rest => if d = c then some rest else none
  | [] => none

/-- The days of a month. -/
def daysIn (year month : Nat) : Nat :=
  if month = 2 then (if (year % 4 = 0 ∧ year % 100 ≠ 0) ∨ year % 400 = 0 then 29 else 28)
  else if month = 4 ∨ month = 6 ∨ month = 9 ∨ month = 11 then 30 else 31

/-- What follows a date. -/
def date? (s : List Char) : Option (List Char) := do
  let (year, s) ← part? 4 0 9999 s
  let s ← after? '-' s
  let (month, s) ← part? 2 1 12 s
  let s ← after? '-' s
  let (_, s) ← part? 2 1 (daysIn year month) s
  some s

/-- What follows a time of day. -/
def time? (s : List Char) : Option (List Char) := do
  let (_, s) ← part? 2 0 23 s
  let s ← after? ':' s
  let (_, s) ← part? 2 0 59 s
  let s ← after? ':' s
  let (_, s) ← part? 2 0 60 s
  match s with
  | '.' :: rest =>
    guard (!(rest.takeWhile Char.isDigit).isEmpty)
    some (rest.dropWhile Char.isDigit)
  | s => some s

/-- What follows an offset from universal time. -/
def offset? (s : List Char) : Option (List Char) :=
  match s with
  | sign :: rest =>
    if sign = 'Z' ∨ sign = 'z' then some rest
    else if sign = '+' ∨ sign = '-' then do
      let (_, s) ← part? 2 0 23 rest
      let s ← after? ':' s
      let (_, s) ← part? 2 0 59 s
      some s
    else none
  | [] => none

/-- What follows the time of day after a date. -/
def timeOfDate? (s : List Char) : Option (List Char) :=
  match s with
  | c :: rest =>
    if c = 'T' ∨ c = 't' ∨ c = ' ' then
      (time? rest).map fun s => (offset? s).getD s
    else none
  | [] => none

/-- What follows a **date, a time of day, or both**. -/
def moment? (s : List Char) : Option (List Char) :=
  ((date? s).map fun s => (timeOfDate? s).getD s) <|> time? s

end FrameLoop.Toml

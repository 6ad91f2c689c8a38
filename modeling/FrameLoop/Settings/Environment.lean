import FrameLoop.Blank
import FrameLoop.Toml.Lexis

/-!
# Settings from environment variables

A variable whose name begins with the mark of a program, in letters of either
case, sets the node that the rest of its name leads to; a separator or a dot
leads one level down. Its value is read by a small grammar: truth
values, numbers, texts in quotes with the escapes of TOML, lists in brackets,
tables in braces, and everything else a text. A value that the grammar does
not read to its end is a text as a whole.
-/

namespace FrameLoop.Settings.Environment

/-! ## Values -/

/-- The characters that end a value without quotes. -/
def isMark (c : Char) : Bool := c == ',' || c == '{' || c == '}' || c == '[' || c == ']'

def skipBlanks (s : List Char) : List Char := s.dropWhile isAsciiBlank

/-- A whole number: digits, after a sign if there is one, of 64 bits. -/
def whole? (s : List Char) : Option Int :=
  let (negative, ds) := match s with
    | '-' :: r => (true, r)
    | '+' :: r => (false, r)
    | r => (false, r)
  if ds.isEmpty || !ds.all Char.isDigit then none
  else
    let n := Digits.decimal ds
    if negative then (if n ≤ 1 <<< 63 then some (-(n : Int)) else none)
    else if n < UInt64.size then some n
    else none

/-- A value without quotes: with a point a number if it reads as one, else a
whole number if it reads as one, else a text. -/
def bare (s : List Char) : Node :=
  let s := trimEnds s
  match if '.' ∈ s then Binary64.ofText? s else none with
  | some x => .real x
  | none =>
    match whole? s with
    | some n => .whole n
    | none => .text (String.ofList s)

/-- A text in quotes, after the opening one. -/
def quoted? (s : List Char) : Option (List Char × List Char) := Toml.basic? (s.length + 1) [] s

/-- What may stand in the name of an entry without quotes. -/
def isNameChar (c : Char) : Bool := c.isAlphanum || c == '_' || c == '-'

/-- The name of an entry. -/
def name? (s : List Char) : Option (String × List Char) :=
  match s with
  | '"' :: rest => (quoted? rest).map fun (cs, r) => (String.ofList cs, r)
  | _ =>
    let cs := s.takeWhile isNameChar
    if cs.isEmpty then none else some (String.ofList cs, s.dropWhile isNameChar)

mutual

/-- A value with blanks around it, and what follows. -/
def value? : Nat → List Char → Option (Node × List Char)
  | 0, _ => none
  | fuel + 1, s => do
    let (v, rest) ← match skipBlanks s with
      | 't' :: 'r' :: 'u' :: 'e' :: rest => some (Node.truth true, rest)
      | 'f' :: 'a' :: 'l' :: 's' :: 'e' :: rest => some (Node.truth false, rest)
      | '{' :: rest => do
        let (entries, rest) ← entries? fuel rest
        some (Node.table entries, rest)
      | '[' :: rest => do
        let (items, rest) ← items? fuel rest
        some (Node.list items, rest)
      | '"' :: rest => (quoted? rest).map fun (cs, r) => (Node.text (String.ofList cs), r)
      | '\'' :: c :: '\'' :: rest => some (Node.text (String.singleton c), rest)
      | '\'' :: _ => none
      | s => some (bare (s.takeWhile fun c => !isMark c), s.dropWhile fun c => !isMark c)
    some (v, skipBlanks rest)

/-- The items of a list and its closing bracket. The bracket may come right
after a comma; blanks there are an item without characters. -/
def items? : Nat → List Char → Option (List Node × List Char)
  | 0, _ => none
  | fuel + 1, s =>
    match s with
    | ']' :: rest => some ([], rest)
    | _ => do
      let (v, rest) ← value? fuel s
      match rest with
      | ',' :: rest => do
        let (vs, rest) ← items? fuel rest
        some (v :: vs, rest)
      | ']' :: rest => some ([v], rest)
      | _ => none

/-- The entries of a table and its closing brace, which may come right after a
comma. Of two entries with one name the later one counts. -/
def entries? : Nat → List Char → Option (List (String × Node) × List Char)
  | 0, _ => none
  | fuel + 1, s =>
    match s with
    | '\x7d' :: rest => some ([], rest)
    | _ => do
      let (k, rest) ← name? (skipBlanks s)
      match skipBlanks rest with
      | '=' :: rest => do
        let (v, rest) ← value? fuel rest
        match rest with
        | ',' :: rest => do
          let (es, rest) ← entries? fuel rest
          some (if (es.lookup k).isSome then es else (k, v) :: es, rest)
        | '\x7d' :: rest => some ([(k, v)], rest)
        | _ => none
      | _ => none

end

/-- **The value of a variable.** -/
def value (raw : String) : Node :=
  let s := raw.toList
  match value? (s.length + 2) s with
  | some (v, []) => v
  | _ => .text raw

/-! ## Names -/

/-- The rest of a list after the characters that it is to begin with. -/
def after? : List Char → List Char → Option (List Char)
  | [], s => some s
  | c :: cs, d :: s => if c = d then after? cs s else none
  | _ :: _, [] => none

/-- Every separator becomes a dot; the characters of one that is being passed
over are counted. -/
def levels (separator : List Char) : Nat → List Char → List Char
  | _, [] => []
  | skip + 1, _ :: rest => levels separator skip rest
  | 0, c :: rest =>
    if separator.isPrefixOf (c :: rest) then '.' :: levels separator (separator.length - 1) rest
    else c :: levels separator 0 rest

/-- The parts of a text between dots. -/
def segments : List Char → List (List Char)
  | [] => [[]]
  | '.' :: rest => [] :: segments rest
  | c :: rest =>
    match segments rest with
    | [] => [[c]]
    | s :: ss => (c :: s) :: ss

/-- **The way to the node that a variable sets**, if it sets one. Its name
begins with the mark, and the rest is none of those ignored. No level may be
without a name. -/
def path? (mark : String) (ignored : List String) (separator name : String) :
    Option (List String) := do
  let rest ← after? (mark.toList.map Char.toLower) (name.toList.map Char.toLower)
  if String.ofList rest ∈ ignored then none
  else
    let parts := segments (levels separator.toList 0 rest)
    if parts.any (·.isEmpty) then none else some (parts.map String.ofList)

end FrameLoop.Settings.Environment

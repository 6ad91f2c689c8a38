import FrameLoop.Json

/-!
# Writing JSON

Two layouts of one value: without any blanks (`Json.compact`), and with one
item a line and two blanks of indentation a level (`Json.pretty`). Both escape
the quote, the backslash and the control characters, and nothing else.
-/

namespace FrameLoop.Json

/-- The lower-case hexadecimal digits of a control character. -/
def controlDigits (n : Nat) : List Char :=
  [Nat.digitChar (n / 16), Nat.digitChar (n % 16)]

/-- How one character is written inside a string. -/
def escaped (c : Char) : List Char :=
  if c = '"' then ['\\', '"']
  else if c = '\\' then ['\\', '\\']
  else if c = '\x08' then ['\\', 'b']
  else if c = '\x0c' then ['\\', 'f']
  else if c = '\n' then ['\\', 'n']
  else if c = '\r' then ['\\', 'r']
  else if c = '\t' then ['\\', 't']
  else if c.toNat < 0x20 then ['\\', 'u', '0', '0'] ++ controlDigits c.toNat
  else [c]

/-- A text between quotes. -/
def quoted (s : String) : List Char := '"' :: (s.toList.flatMap escaped ++ ['"'])

/-- A number, as its parts say. -/
def Number.chars (n : Number) : List Char :=
  (if n.negative then ['-'] else []) ++ n.whole
    ++ (match n.fraction with | some ds => '.' :: ds | none => [])
    ++ (match n.exponent with
        | some (negative, ds) => 'e' :: ((if negative then ['-'] else []) ++ ds)
        | none => [])

mutual

/-- The characters of a value without blanks. -/
def chars : Json → List Char
  | .null => "null".toList
  | .bool true => "true".toList
  | .bool false => "false".toList
  | .number n => n.chars
  | .string text => quoted (text.getD "")
  | .array items => '[' :: (itemsChars items ++ [']'])
  | .object fields => '{' :: (fieldsChars fields ++ ['}'])

/-- The characters of items, with a comma between each two. -/
def itemsChars : List Json → List Char
  | [] => []
  | [v] => chars v
  | v :: rest => chars v ++ ',' :: itemsChars rest

/-- The characters of fields, with a comma between each two. -/
def fieldsChars : List (Option String × Json) → List Char
  | [] => []
  | [(k, v)] => quoted (k.getD "") ++ ':' :: chars v
  | (k, v) :: rest => quoted (k.getD "") ++ ':' :: (chars v ++ ',' :: fieldsChars rest)

end

/-- A new line, indented to a level. -/
def newline (level : Nat) : List Char := '\n' :: List.replicate (2 * level) ' '

mutual

/-- The characters of a value with one item a line, at a level. -/
def prettyChars (level : Nat) : Json → List Char
  | .array [] => ['[', ']']
  | .array items =>
    '[' :: (newline (level + 1) ++ prettyItems (level + 1) items ++ newline level ++ [']'])
  | .object [] => ['{', '}']
  | .object fields =>
    '{' :: (newline (level + 1) ++ prettyFields (level + 1) fields ++ newline level ++ ['}'])
  | .null => "null".toList
  | .bool true => "true".toList
  | .bool false => "false".toList
  | .number n => n.chars
  | .string text => quoted (text.getD "")

/-- The characters of items, each on a line of its own. -/
def prettyItems (level : Nat) : List Json → List Char
  | [] => []
  | [v] => prettyChars level v
  | v :: rest => prettyChars level v ++ ',' :: (newline level ++ prettyItems level rest)

/-- The characters of fields, each on a line of its own. -/
def prettyFields (level : Nat) : List (Option String × Json) → List Char
  | [] => []
  | [(k, v)] => quoted (k.getD "") ++ ':' :: ' ' :: prettyChars level v
  | (k, v) :: rest =>
    quoted (k.getD "") ++ ':' :: ' ' :: (prettyChars level v ++ ',' ::
      (newline level ++ prettyFields level rest))

end

/-- **The text without blanks.** -/
def compact (v : Json) : String := String.ofList v.chars

/-- **The text with one item a line.** -/
def pretty (v : Json) : String := String.ofList (v.prettyChars 0)

end FrameLoop.Json

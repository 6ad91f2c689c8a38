/-!
# Blank characters

Two classes of blanks are in use. Formats whose grammar is fixed in ASCII skip
`isAsciiBlank`; text that people type is trimmed by the Unicode property
`White_Space`, which is a finite table (`isBlank`).
-/

namespace FrameLoop

/-- The Unicode property `White_Space`. -/
def isBlank (c : Char) : Bool :=
  let n := c.toNat
  (9 ≤ n && n ≤ 13) || n == 0x20 || n == 0x85 || n == 0xa0 || n == 0x1680 ||
    (0x2000 ≤ n && n ≤ 0x200a) || n == 0x2028 || n == 0x2029 || n == 0x202f || n == 0x205f ||
    n == 0x3000

/-- Space, tab, line feed, form feed and carriage return. -/
def isAsciiBlank (c : Char) : Bool :=
  c == ' ' || c == '\t' || c == '\n' || c == '\x0c' || c == '\r'

/-- The text without the blanks at its front. -/
def trimFront (s : List Char) : List Char := s.dropWhile isBlank

/-- The text without the blanks at either end. -/
def trimEnds (s : List Char) : List Char := (trimFront (trimFront s).reverse).reverse

end FrameLoop

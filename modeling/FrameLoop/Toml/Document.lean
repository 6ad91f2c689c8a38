import FrameLoop.Toml.Lexis

/-!
# TOML: documents

A document is a list of lines that set entries and of headers that say in
which table the entries after them are. It is built up as a tree of entries
that remember how they came about (`Entry`), because that decides what may
still be added to them: a table that a header has named is not named again, a
table made by dotted keys grows by dotted keys only, and a value, an array or
a table in braces is complete when it has been read.

`document?` reads a document as a tree of settings, or refuses it.
-/

namespace FrameLoop.Toml

open Settings (Node)

/-- **An entry of a document that is being read.** -/
inductive Entry where
  /-- Complete. -/
  | value (v : Node)
  /-- A table; `passing` if only names of tables below it have been seen,
  `dotted` if it was made by a dotted key. -/
  | table (passing dotted : Bool) (entries : List (String × Entry))
  /-- An array of tables; the last one is being filled. -/
  | tables (ts : List (List (String × Entry)))
deriving Inhabited

abbrev Entries := List (String × Entry)

mutual

/-- The value of an entry. -/
def Entry.node : Entry → Node
  | .value v => v
  | .table _ _ entries => .table (nodes entries)
  | .tables ts => .list (tableNodes ts)

/-- The values of entries. -/
def nodes : Entries → List (String × Node)
  | [] => []
  | (k, e) :: rest => (k, e.node) :: nodes rest

/-- The values of tables. -/
def tableNodes : List Entries → List Node
  | [] => []
  | t :: rest => .table (nodes t) :: tableNodes rest

end

/-- Put an entry in the place of the one with its name. -/
def put (entries : Entries) (k : String) (e : Entry) : Entries :=
  if (entries.lookup k).isSome then entries.map fun old => if old.1 == k then (k, e) else old
  else entries ++ [(k, e)]

/-- **Change the table at a path.** Tables on the way are made if they are not
there. A value is no way; and to a dotted key a table that has been named is
none. The change is told whether the table was made by a dotted key. -/
def changeAt (byKey : Bool) (change : Bool → Entries → Option Entries) (dotted : Bool)
    (entries : Entries) : List String → Option Entries
  | [] => change dotted entries
  | k :: rest =>
    match entries.lookup k with
    | none => do
      let inner ← changeAt byKey change byKey [] rest
      some (put entries k (.table true byKey inner))
    | some (.value _) => none
    | some (.table passing madeByKey inner) =>
      if byKey && !passing then none
      else do
        let inner ← changeAt byKey change madeByKey inner rest
        some (put entries k (.table passing madeByKey inner))
    | some (.tables ts) => do
      let last ← changeAt byKey change false (ts.getLastD []) rest
      some (put entries k (.tables (ts.dropLast ++ [last])))

/-- Set what a key stands for. The table that holds it has to be the one the
key was written in, or made by dotted keys, and must not have it. -/
def setKey (entries : Entries) (key : List String) (v : Node) : Option Entries :=
  let path := key.dropLast
  let name := key.getLastD ""
  changeAt true
    (fun dotted inner =>
      if dotted == path.isEmpty || (inner.lookup name).isSome then none
      else some (inner ++ [(name, .value v)]))
    false entries path

/-- Name a table. -/
def openTable (root : Entries) (key : List String) : Option Entries :=
  let name := key.getLastD ""
  changeAt false
    (fun _ inner =>
      match inner.lookup name with
      | none => some (inner ++ [(name, .table false false [])])
      | some (.table true false entries) => some (put inner name (.table false false entries))
      | some _ => none)
    false root key.dropLast

/-- Add a table to an array of tables. -/
def openTables (root : Entries) (key : List String) : Option Entries :=
  let name := key.getLastD ""
  changeAt false
    (fun _ inner =>
      match inner.lookup name with
      | none => some (inner ++ [(name, .tables [[]])])
      | some (.tables ts) => some (put inner name (.tables (ts ++ [[]])))
      | some _ => none)
    false root key.dropLast

/-! ## Keys -/

/-- What may stand in a key without quotes. -/
def isKeyChar (c : Char) : Bool := c.isAlphanum || c == '_' || c == '-'

/-- A key without dots: bare, or quoted on one line. -/
def simpleKey? (s : List Char) : Option (String × List Char) :=
  match s with
  | '"' :: rest => (basic? (rest.length + 1) [] rest).map fun (cs, r) => (String.ofList cs, r)
  | '\'' :: rest => (literal? rest).map fun (cs, r) => (String.ofList cs, r)
  | _ =>
    let cs := s.takeWhile isKeyChar
    if cs.isEmpty then none else some (String.ofList cs, s.dropWhile isKeyChar)

/-- **A key**, its parts between dots; blanks may stand around them. -/
def key? : Nat → List Char → Option (List String × List Char)
  | 0, _ => none
  | fuel + 1, s => do
    let (k, rest) ← simpleKey? (skipBlanks s)
    match skipBlanks rest with
    | '.' :: rest => do
      let (ks, rest) ← key? fuel rest
      some (k :: ks, rest)
    | rest => some ([k], rest)

/-! ## Values -/

/-- How deep values may be nested. -/
def depthLimit : Nat := 80

mutual

/-- **A value.** `depth` is how much deeper it may get. -/
def value? : Nat → Nat → List Char → Option (Node × List Char)
  | 0, _, _ => none
  | fuel + 1, depth, s =>
    match s with
    | '"' :: _ | '\'' :: _ => (text? s).map fun (cs, r) => (.text (String.ofList cs), r)
    | 't' :: 'r' :: 'u' :: 'e' :: rest => some (.truth true, rest)
    | 'f' :: 'a' :: 'l' :: 's' :: 'e' :: rest => some (.truth false, rest)
    | '[' :: rest => if depth ≤ 1 then none else do
      let (items, rest) ← items? fuel (depth - 1) (skipLines rest.length rest)
      some (.list items, rest)
    | '{' :: rest => if depth ≤ 1 then none else
      match skipBlanks rest with
      | '}' :: rest => some (.table [], rest)
      | rest => do
        let (entries, rest) ← pairs? fuel (depth - 1) [] rest
        some (.table (nodes entries), rest)
    | _ =>
      match moment? s with
      | some rest => some (.table [], rest)
      | none => number? s

/-- The items of an array and its closing bracket. -/
def items? : Nat → Nat → List Char → Option (List Node × List Char)
  | 0, _, _ => none
  | fuel + 1, depth, s =>
    match s with
    | ']' :: rest => some ([], rest)
    | _ => do
      let (v, rest) ← value? fuel depth s
      match skipLines rest.length rest with
      | ',' :: rest => do
        let (vs, rest) ← items? fuel depth (skipLines rest.length rest)
        some (v :: vs, rest)
      | ']' :: rest => some ([v], rest)
      | _ => none

/-- The entries of a table in braces and its closing brace, after the entries
so far. -/
def pairs? : Nat → Nat → Entries → List Char → Option (Entries × List Char)
  | 0, _, _, _ => none
  | fuel + 1, depth, entries, s => do
    let (key, rest) ← key? (s.length + 1) s
    let rest ← after? '=' rest
    let (v, rest) ← value? fuel depth (skipBlanks rest)
    let entries ← setKey entries key v
    match skipBlanks rest with
    | ',' :: rest => pairs? fuel depth entries rest
    | '}' :: rest => some (entries, rest)
    | _ => none

end

/-! ## Lines -/

/-- A header after its opening brackets, up to the end of its line. -/
def header? (double : Bool) (s : List Char) : Option (List String × List Char) := do
  let (key, rest) ← key? (s.length + 1) s
  let rest ← after? ']' rest
  let rest ← if double then after? ']' rest else some rest
  let rest ← lineEnd? rest
  some (key, rest)

/-- The lines of a document; `here` is the table that the last header named. -/
def lines? : Nat → Entries → List String → List Char → Option Entries
  | 0, _, _, _ => none
  | fuel + 1, root, here, s =>
    match skipBlanks s with
    | [] => some root
    | '#' :: _ | '\n' :: _ | '\r' :: _ => do
      let rest ← lineEnd? s
      lines? fuel root here rest
    | '[' :: '[' :: rest => do
      let (key, rest) ← header? true rest
      let root ← openTables root key
      lines? fuel root key rest
    | '[' :: rest => do
      let (key, rest) ← header? false rest
      let root ← openTable root key
      lines? fuel root key rest
    | rest => do
      let (key, rest) ← key? (rest.length + 1) rest
      let rest ← after? '=' rest
      let (v, rest) ← value? (rest.length + 1) depthLimit (skipBlanks rest)
      let rest ← lineEnd? rest
      let root ← changeAt false (fun _ inner => setKey inner key v) false root here
      lines? fuel root here rest

/-- **The settings that a document has**; `none` if it is no document. A mark
of the byte order may stand at the front. -/
def document? (text : String) : Option Node := do
  let s := match text.toList with
    | '\ufeff' :: rest => rest
    | s => s
  let root ← lines? (s.length + 2) [] [] s
  some (.table (nodes root))

end FrameLoop.Toml

import FrameLoop.Proofs.Json.Lexis

/-!
# JSON values are read back

The two layouts of a value differ in nothing but blanks: those in front of an item or a
closing bracket, and those behind a colon (`Layout`). A value is read back from any layout
(`value?_chars`), so it is from the text without blanks (`read?_compact`) and from the text
with one item a line (`read?_pretty`).

This is so for a value that is `Whole`: its strings and keys are texts, and its numbers are as
the format has them. A string with half a character in it is not written as it was read.
-/

namespace FrameLoop.Json

variable {rest blank s : List Char} {c : Char} {fuel level : Nat} {v : Json}

/-! ## Blanks -/

theorem skipSpaces_append (spaces : ∀ c ∈ blank, isSpace c = true) (s : List Char) :
    skipSpaces (blank ++ s) = skipSpaces s :=
  List.dropWhile_append_of_pos spaces

theorem skipSpaces_cons (other : isSpace c = false) : skipSpaces (c :: rest) = c :: rest :=
  List.dropWhile_cons_of_neg (by rw [other]; exact Bool.false_ne_true)

theorem skipSpaces_blank (spaces : ∀ c ∈ blank, isSpace c = true) (other : isSpace c = false) :
    skipSpaces (blank ++ c :: rest) = c :: rest := by
  rw [skipSpaces_append spaces, skipSpaces_cons other]

theorem value?_append (spaces : ∀ c ∈ blank, isSpace c = true) (s : List Char) :
    value? fuel (blank ++ s) = value? fuel s := by
  cases fuel with
  | zero => rfl
  | succ fuel => rw [value?, value?, skipSpaces_append spaces]

theorem fields?_append (spaces : ∀ c ∈ blank, isSpace c = true) (s : List Char) :
    fields? fuel (blank ++ s) = fields? fuel s := by
  cases fuel with
  | zero => rfl
  | succ fuel => rw [fields?, fields?, skipSpaces_append spaces]

theorem follows_append (spaces : ∀ c ∈ blank, isSpace c = true) (follows : Follows rest) :
    Follows (blank ++ rest) := by
  cases blank with
  | nil => exact follows
  | cons c blank =>
    intro d hd
    cases hd
    exact .inl (spaces c List.mem_cons_self)

/-! ## Layouts -/

/-- **Where blanks are put**: in front of an item or a closing bracket at a level, and behind
the colon of a field. -/
structure Layout where
  gap : Nat → List Char
  colon : List Char
  isSpace_gap : ∀ level, ∀ c ∈ gap level, isSpace c = true
  isSpace_colon : ∀ c ∈ colon, isSpace c = true

namespace Layout

/-- No blanks. -/
def compact : Layout where
  gap _ := []
  colon := []
  isSpace_gap _ := nofun
  isSpace_colon := nofun

/-- One item a line. -/
def pretty : Layout where
  gap := newline
  colon := [' ']
  isSpace_gap level c hc := by
    rcases List.mem_cons.1 hc with rfl | space
    · decide
    · rw [(List.mem_replicate.1 space).2]
      decide
  isSpace_colon c hc := by
    rw [List.mem_singleton.1 hc]
    decide

mutual

/-- The characters of a value, at a level. -/
def chars (l : Layout) (level : Nat) : Json → List Char
  | .null => ['n', 'u', 'l', 'l']
  | .bool true => ['t', 'r', 'u', 'e']
  | .bool false => ['f', 'a', 'l', 's', 'e']
  | .number n => n.chars
  | .string text => quoted (text.getD "")
  | .array [] => ['[', ']']
  | .array items =>
    '[' :: (l.gap (level + 1) ++ (l.items (level + 1) items ++ (l.gap level ++ [']'])))
  | .object [] => ['{', '}']
  | .object fields =>
    '{' :: (l.gap (level + 1) ++ (l.fields (level + 1) fields ++ (l.gap level ++ ['}'])))

/-- The characters of items, at a level. -/
def items (l : Layout) (level : Nat) : List Json → List Char
  | [] => []
  | [v] => l.chars level v
  | v :: rest => l.chars level v ++ ',' :: (l.gap level ++ l.items level rest)

/-- The characters of fields, at a level. -/
def fields (l : Layout) (level : Nat) : List (Option String × Json) → List Char
  | [] => []
  | [(k, v)] => quoted (k.getD "") ++ ':' :: (l.colon ++ l.chars level v)
  | (k, v) :: rest =>
    quoted (k.getD "") ++ ':' :: (l.colon ++ (l.chars level v ++ ',' ::
      (l.gap level ++ l.fields level rest)))

end

theorem toList_words : "null".toList = ['n', 'u', 'l', 'l'] ∧
    "true".toList = ['t', 'r', 'u', 'e'] ∧ "false".toList = ['f', 'a', 'l', 's', 'e'] := by
  decide +kernel

mutual

theorem chars_compact (level : Nat) : ∀ v, compact.chars level v = v.chars
  | .null => toList_words.1.symm
  | .bool true => toList_words.2.1.symm
  | .bool false => toList_words.2.2.symm
  | .number _ => rfl
  | .string _ => rfl
  | .array [] => rfl
  | .array (v :: rest) =>
    congrArg (fun cs => '[' :: (cs ++ [']'])) (items_compact (level + 1) (v :: rest))
  | .object [] => rfl
  | .object (f :: rest) =>
    congrArg (fun cs => '{' :: (cs ++ ['}'])) (fields_compact (level + 1) (f :: rest))

theorem items_compact (level : Nat) : ∀ vs, compact.items level vs = itemsChars vs
  | [] => rfl
  | [v] => chars_compact level v
  | v :: w :: rest =>
    congrArg₂ (fun one more => one ++ ',' :: more) (chars_compact level v)
      (items_compact level (w :: rest))

theorem fields_compact (level : Nat) : ∀ fs, compact.fields level fs = fieldsChars fs
  | [] => rfl
  | [(k, v)] => congrArg (fun cs => quoted (k.getD "") ++ ':' :: cs) (chars_compact level v)
  | (k, v) :: f :: rest =>
    congrArg₂ (fun one more => quoted (k.getD "") ++ ':' :: (one ++ ',' :: more))
      (chars_compact level v) (fields_compact level (f :: rest))

end

mutual

theorem chars_pretty (level : Nat) : ∀ v, pretty.chars level v = v.prettyChars level
  | .null => toList_words.1.symm
  | .bool true => toList_words.2.1.symm
  | .bool false => toList_words.2.2.symm
  | .number _ => rfl
  | .string _ => rfl
  | .array [] => rfl
  | .array (v :: rest) => by
    have lines := items_pretty (level + 1) (v :: rest)
    show '[' :: (newline (level + 1) ++ (pretty.items (level + 1) (v :: rest) ++
        (newline level ++ [']']))) =
      '[' :: (newline (level + 1) ++ prettyItems (level + 1) (v :: rest) ++ newline level ++ [']'])
    rw [lines, List.append_assoc, List.append_assoc]
  | .object [] => rfl
  | .object (f :: rest) => by
    have lines := fields_pretty (level + 1) (f :: rest)
    show '{' :: (newline (level + 1) ++ (pretty.fields (level + 1) (f :: rest) ++
        (newline level ++ ['}']))) =
      '{' :: (newline (level + 1) ++ prettyFields (level + 1) (f :: rest) ++ newline level ++ ['}'])
    rw [lines, List.append_assoc, List.append_assoc]

theorem items_pretty (level : Nat) : ∀ vs, pretty.items level vs = prettyItems level vs
  | [] => rfl
  | [v] => chars_pretty level v
  | v :: w :: rest =>
    congrArg₂ (fun one more => one ++ ',' :: (newline level ++ more)) (chars_pretty level v)
      (items_pretty level (w :: rest))

theorem fields_pretty (level : Nat) : ∀ fs, pretty.fields level fs = prettyFields level fs
  | [] => rfl
  | [(k, v)] => congrArg (fun cs => quoted (k.getD "") ++ ':' :: ' ' :: cs) (chars_pretty level v)
  | (k, v) :: f :: rest =>
    congrArg₂ (fun one more =>
        quoted (k.getD "") ++ ':' :: ' ' :: (one ++ ',' :: (newline level ++ more)))
      (chars_pretty level v) (fields_pretty level (f :: rest))

end

end Layout

/-! ## What can be written -/

mutual

/-- **A value that can be written**: its strings and keys are texts, and its numbers are as
the format has them. -/
def Whole : Json → Prop
  | .number n => n.Sound
  | .string text => text.isSome = true
  | .array items => WholeItems items
  | .object fields => WholeFields fields
  | _ => True

/-- Items that can be written. -/
def WholeItems : List Json → Prop
  | [] => True
  | v :: rest => v.Whole ∧ WholeItems rest

/-- Fields that can be written. -/
def WholeFields : List (Option String × Json) → Prop
  | [] => True
  | (k, v) :: rest => k.isSome = true ∧ v.Whole ∧ WholeFields rest

end

/-- The characters that begin a value which is no number, the blanks, and a bracket that
closes. -/
def noNumber : List Char := ['n', 't', 'f', '"', '[', '{', ' ', '\t', '\n', '\r', ']']

/-- **A number begins with its sign or a digit.** -/
theorem Number.Sound.head {n : Number} (sound : n.Sound) :
    ∃ c more, n.chars = c :: more ∧ c ∉ noNumber := by
  obtain ⟨d, ds, whole⟩ := List.exists_cons_of_ne_nil sound.whole_ne_nil
  have digit := sound.whole d (by rw [whole]; exact List.mem_cons_self)
  have letters : noNumber.all (fun c => !c.isDigit) = true := by decide
  rw [n.chars_eq, whole]
  cases n.negative with
  | true => exact ⟨_, _, rfl, by decide⟩
  | false =>
    refine ⟨_, _, rfl, fun there => ?_⟩
    have letter := List.all_eq_true.1 letters d there
    rw [digit] at letter
    cases letter

theorem isSpace_eq_false (other : c ∉ noNumber) : isSpace c = false := by
  rw [← Bool.not_eq_true]
  intro space
  simp only [isSpace, Bool.or_eq_true, beq_iff_eq] at space
  rcases space with ((rfl | rfl) | rfl) | rfl <;> exact other (by decide)

/-- **A value begins with a character of its own**, no blank and no bracket that closes. -/
theorem Layout.chars_eq_cons (l : Layout) (level : Nat) (whole : v.Whole) :
    ∃ c more, l.chars level v = c :: more ∧ isSpace c = false ∧ c ≠ ']' := by
  cases v with
  | null => exact ⟨_, _, rfl, by decide⟩
  | bool b => cases b <;> exact ⟨_, _, rfl, by decide⟩
  | number n =>
    obtain ⟨c, more, written, first⟩ := Number.Sound.head whole
    refine ⟨c, more, written, isSpace_eq_false first, ?_⟩
    rintro rfl
    exact first (by decide)
  | string text => exact ⟨_, _, rfl, by decide⟩
  | array items => cases items <;> exact ⟨_, _, rfl, by decide⟩
  | object fields => cases fields <;> exact ⟨_, _, rfl, by decide⟩

theorem value?_number {n : Number} (sound : n.Sound) (follows : Follows rest) :
    value? (fuel + 1) (n.chars ++ rest) = some (.number n, rest) := by
  obtain ⟨c, more, written, first⟩ := sound.head
  have front : skipSpaces (n.chars ++ rest) = c :: (more ++ rest) := by
    rw [written]
    exact skipSpaces_cons (isSpace_eq_false first)
  have read := number?_chars sound follows
  rw [written, List.cons_append] at read
  rw [value?, front]
  -- every other reading takes a character with which no number begins
  split
  iterate 6
    next same =>
      cases same
      exact absurd (by decide) first
  · rw [read]
    rfl

/-! ## Reading what stands in brackets -/

section Brackets

variable {vs : List Json} {fs : List (Option String × Json)} {after more : List Char}

theorem quoted_append (k : String) (s : List Char) :
    quoted k ++ s = '"' :: (k.toList.flatMap escaped ++ '"' :: s) := by
  rw [quoted, List.cons_append, List.append_assoc]
  rfl

theorem value?_string (text : String) :
    value? (fuel + 1) (quoted text ++ rest) = some (.string (some text), rest) := by
  rw [quoted_append]
  show (string? _).map _ = _
  rw [string?_quoted]
  rfl

/-- What is read behind a bracket that opens. -/
theorem value?_bracket (fuel : Nat) (s : List Char) : value? (fuel + 1) ('[' :: s) =
    match skipSpaces s with
    | ']' :: r => some (array [], r)
    | _ => (items? fuel s).bind fun (items, r) => some (array items, r) :=
  rfl

theorem value?_array (first : ∃ c more, skipSpaces s = c :: more ∧ c ≠ ']')
    (read : items? fuel s = some (vs, rest)) :
    value? (fuel + 1) ('[' :: s) = some (.array vs, rest) := by
  obtain ⟨c, more, front, other⟩ := first
  rw [value?_bracket, front, read]
  split
  · next same =>
    cases same
    exact absurd rfl other
  · rfl

theorem items?_last (one : value? fuel s = some (v, after))
    (close : skipSpaces after = ']' :: rest) : items? (fuel + 1) s = some ([v], rest) := by
  show (value? fuel s).bind _ = _
  rw [one, Option.bind_some]
  dsimp only
  rw [close]
  rfl

theorem items?_more (one : value? fuel s = some (v, after))
    (comma : skipSpaces after = ',' :: more) (others : items? fuel more = some (vs, rest)) :
    items? (fuel + 1) s = some (v :: vs, rest) := by
  show (value? fuel s).bind _ = _
  rw [one, Option.bind_some]
  dsimp only
  rw [comma]
  show (items? fuel more).bind _ = _
  rw [others]
  rfl

/-- What is read behind a brace that opens. -/
theorem value?_brace (fuel : Nat) (s : List Char) : value? (fuel + 1) ('{' :: s) =
    match skipSpaces s with
    | '}' :: r => some (object [], r)
    | _ => (fields? fuel s).bind fun (fields, r) => some (object fields, r) :=
  rfl

theorem value?_object (k : String) (first : ∃ more, skipSpaces s = quoted k ++ more)
    (read : fields? fuel s = some (fs, rest)) :
    value? (fuel + 1) ('{' :: s) = some (.object fs, rest) := by
  obtain ⟨more, front⟩ := first
  rw [value?_brace, front, read]
  rfl

/-- A key and its colon are read, and the value behind them. -/
theorem fields?_key (k : String) (one : value? fuel s = some (v, after)) :
    fields? (fuel + 1) (quoted k ++ ':' :: s) =
      match skipSpaces after with
      | ',' :: r => (fields? fuel r).bind fun (fs, r) => some ((some k, v) :: fs, r)
      | '}' :: r => some ([(some k, v)], r)
      | _ => none := by
  rw [quoted_append]
  show (string? _).bind _ = _
  rw [string?_quoted, Option.bind_some]
  show (value? fuel s).bind _ = _
  rw [one]
  rfl

theorem fields?_last (k : String) (one : value? fuel s = some (v, after))
    (close : skipSpaces after = '}' :: rest) :
    fields? (fuel + 1) (quoted k ++ ':' :: s) = some ([(some k, v)], rest) := by
  rw [fields?_key k one, close]
  rfl

theorem fields?_more (k : String) (one : value? fuel s = some (v, after))
    (comma : skipSpaces after = ',' :: more) (others : fields? fuel more = some (fs, rest)) :
    fields? (fuel + 1) (quoted k ++ ':' :: s) = some ((some k, v) :: fs, rest) := by
  rw [fields?_key k one, comma]
  show (fields? fuel more).bind _ = _
  rw [others]
  rfl

end Brackets

/-! ## Reading a layout -/

theorem follows_comma : Follows (',' :: rest) := fun c hc => by
  cases hc
  decide

theorem follows_bracket : Follows (']' :: rest) := fun c hc => by
  cases hc
  decide

theorem follows_brace : Follows ('}' :: rest) := fun c hc => by
  cases hc
  decide

namespace Layout

variable (l : Layout)

/-- Items begin with a character that begins a value. -/
theorem items_eq_cons (level : Nat) {vs : List Json} (whole : WholeItems (v :: vs)) :
    ∃ c more, l.items level (v :: vs) = c :: more ∧ isSpace c = false ∧ c ≠ ']' := by
  obtain ⟨c, more, written, first⟩ := l.chars_eq_cons level whole.1
  cases vs with
  | nil => exact ⟨c, more, written, first⟩
  | cons w vs =>
    refine ⟨c, more ++ ',' :: (l.gap level ++ l.items level (w :: vs)), ?_, first⟩
    show l.chars level v ++ _ = _
    rw [written]
    rfl

/-- Fields begin with a key. -/
theorem fields_eq_append (level : Nat) (k : String) (v : Json)
    (fs : List (Option String × Json)) :
    ∃ more, l.fields level ((some k, v) :: fs) = quoted k ++ more := by
  cases fs with
  | nil => exact ⟨_, rfl⟩
  | cons f fs => exact ⟨_, rfl⟩

mutual

/-- **A value is read back from a layout**, whatever may follow a value behind it. -/
theorem value?_chars : ∀ (v : Json) (level fuel : Nat) (rest : List Char), v.Whole →
    Follows rest → (l.chars level v).length < fuel →
    value? fuel (l.chars level v ++ rest) = some (v, rest)
  | _, _, 0, _, _, _, enough => absurd enough (Nat.not_lt_zero _)
  | .null, _, _ + 1, _, _, _, _ => rfl
  | .bool true, _, _ + 1, _, _, _, _ => rfl
  | .bool false, _, _ + 1, _, _, _, _ => rfl
  | .number _, _, _ + 1, _, sound, follows, _ => value?_number sound follows
  | .string (some text), _, _ + 1, _, _, _, _ => value?_string text
  | .string none, _, _ + 1, _, whole, _, _ => by cases whole
  | .array [], _, _ + 1, _, _, _, _ => rfl
  | .array (v :: vs), level, fuel + 1, rest, whole, _, enough => by
    have written : l.chars level (.array (v :: vs)) = '[' :: (l.gap (level + 1) ++
      (l.items (level + 1) (v :: vs) ++ (l.gap level ++ [']']))) := rfl
    rw [written] at enough ⊢
    simp only [List.length_cons, List.length_append, List.length_nil] at enough
    simp only [List.cons_append, List.append_assoc, List.nil_append]
    have read := items?_items (v :: vs) (level + 1) fuel (l.gap (level + 1)) (l.gap level) rest
      (List.cons_ne_nil v vs) whole (l.isSpace_gap _) (l.isSpace_gap _) (by omega)
    obtain ⟨c, more, begins, space, other⟩ := l.items_eq_cons (level + 1) whole
    refine value?_array ⟨c, more ++ (l.gap level ++ ']' :: rest), ?_, other⟩ read
    rw [begins, List.cons_append, skipSpaces_blank (l.isSpace_gap _) space]
  | .object [], _, _ + 1, _, _, _, _ => rfl
  | .object ((none, _) :: _), _, _ + 1, _, whole, _, _ => by cases whole.1
  | .object ((some k, v) :: fs), level, fuel + 1, rest, whole, _, enough => by
    have written : l.chars level (.object ((some k, v) :: fs)) = '{' :: (l.gap (level + 1) ++
      (l.fields (level + 1) ((some k, v) :: fs) ++ (l.gap level ++ ['}']))) := rfl
    rw [written] at enough ⊢
    simp only [List.length_cons, List.length_append, List.length_nil] at enough
    simp only [List.cons_append, List.append_assoc, List.nil_append]
    have read := fields?_fields ((some k, v) :: fs) (level + 1) fuel (l.gap level) rest
      (List.cons_ne_nil _ fs) whole (l.isSpace_gap _) (by omega)
    obtain ⟨more, begins⟩ := l.fields_eq_append (level + 1) k v fs
    refine value?_object k ⟨more ++ (l.gap level ++ '}' :: rest), ?_⟩ ?_
    · rw [begins, List.append_assoc, skipSpaces_append (l.isSpace_gap _), quoted_append,
        skipSpaces_cons (by decide)]
    · rw [fields?_append (l.isSpace_gap _)]
      exact read

/-- Items are read back, with the bracket that closes them and the blanks around them. -/
theorem items?_items : ∀ (vs : List Json) (level fuel : Nat) (before after rest : List Char),
    vs ≠ [] → WholeItems vs → (∀ c ∈ before, isSpace c = true) →
    (∀ c ∈ after, isSpace c = true) → (l.items level vs).length + 1 < fuel →
    items? fuel (before ++ (l.items level vs ++ (after ++ ']' :: rest))) = some (vs, rest)
  | _, _, 0, _, _, _, _, _, _, _, enough => absurd enough (Nat.not_lt_zero _)
  | [], _, _, _, _, _, ne, _, _, _, _ => absurd rfl ne
  | [v], level, fuel + 1, before, after, rest, _, whole, spaces, spaces', enough => by
    have one := value?_chars v level fuel (after ++ ']' :: rest) whole.1
      (follows_append spaces' follows_bracket) (Nat.lt_of_succ_lt_succ enough)
    rw [← value?_append spaces] at one
    exact items?_last one (skipSpaces_blank spaces' (by decide))
  | v :: w :: vs, level, fuel + 1, before, after, rest, _, whole, spaces, spaces', enough => by
    have written : l.items level (v :: w :: vs) =
      l.chars level v ++ ',' :: (l.gap level ++ l.items level (w :: vs)) := rfl
    rw [written] at enough ⊢
    simp only [List.length_cons, List.length_append] at enough
    simp only [List.cons_append, List.append_assoc]
    have one := value?_chars v level fuel
      (',' :: (l.gap level ++ (l.items level (w :: vs) ++ (after ++ ']' :: rest)))) whole.1
      follows_comma (by omega)
    have others := items?_items (w :: vs) level fuel (l.gap level) after rest
      (List.cons_ne_nil w vs) whole.2 (l.isSpace_gap _) spaces' (by omega)
    rw [← value?_append spaces] at one
    exact items?_more one (skipSpaces_cons (by decide)) others

/-- Fields are read back, with the brace that closes them and the blanks before it. -/
theorem fields?_fields : ∀ (fs : List (Option String × Json)) (level fuel : Nat)
    (after rest : List Char), fs ≠ [] → WholeFields fs → (∀ c ∈ after, isSpace c = true) →
    (l.fields level fs).length + 1 < fuel →
    fields? fuel (l.fields level fs ++ (after ++ '}' :: rest)) = some (fs, rest)
  | _, _, 0, _, _, _, _, _, enough => absurd enough (Nat.not_lt_zero _)
  | [], _, _, _, _, ne, _, _, _ => absurd rfl ne
  | (none, _) :: _, _, _ + 1, _, _, _, whole, _, _ => by cases whole.1
  | [(some k, v)], level, fuel + 1, after, rest, _, whole, spaces, enough => by
    have written : l.fields level [(some k, v)] =
      quoted k ++ ':' :: (l.colon ++ l.chars level v) := rfl
    rw [written] at enough ⊢
    simp only [List.length_cons, List.length_append] at enough
    simp only [List.cons_append, List.append_assoc]
    have one := value?_chars v level fuel (after ++ '}' :: rest) whole.2.1
      (follows_append spaces follows_brace) (by omega)
    rw [← value?_append l.isSpace_colon] at one
    exact fields?_last k one (skipSpaces_blank spaces (by decide))
  | (some k, v) :: f :: fs, level, fuel + 1, after, rest, _, whole, spaces, enough => by
    have written : l.fields level ((some k, v) :: f :: fs) =
      quoted k ++ ':' :: (l.colon ++ (l.chars level v ++ ',' ::
        (l.gap level ++ l.fields level (f :: fs)))) := rfl
    rw [written] at enough ⊢
    simp only [List.length_cons, List.length_append] at enough
    simp only [List.cons_append, List.append_assoc]
    have one := value?_chars v level fuel
      (',' :: (l.gap level ++ (l.fields level (f :: fs) ++ (after ++ '}' :: rest)))) whole.2.1
      follows_comma (by omega)
    have others := fields?_fields (f :: fs) level fuel after rest (List.cons_ne_nil f fs)
      whole.2.2 spaces (by omega)
    rw [← value?_append l.isSpace_colon] at one
    rw [← fields?_append (l.isSpace_gap level)] at others
    exact fields?_more k one (skipSpaces_cons (by decide)) others

end

/-- **The text of a value in a layout is read as that value.** -/
theorem read?_chars (whole : v.Whole) : read? (String.ofList (l.chars 0 v)) = some v := by
  have read := l.value?_chars v 0 ((l.chars 0 v).length + 1) [] whole follows_nil
    (Nat.lt_succ_self _)
  rw [List.append_nil] at read
  rw [read?, String.toList_ofList, read]
  rfl

end Layout

/-- **A value is read back from its text without blanks.** -/
theorem read?_compact (whole : v.Whole) : read? v.compact = some v := by
  rw [Json.compact, ← Layout.chars_compact 0]
  exact Layout.compact.read?_chars whole

/-- **A value is read back from its text with one item a line.** -/
theorem read?_pretty (whole : v.Whole) : read? v.pretty = some v := by
  rw [Json.pretty, ← Layout.chars_pretty 0]
  exact Layout.pretty.read?_chars whole

end FrameLoop.Json

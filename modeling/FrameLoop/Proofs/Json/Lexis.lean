import FrameLoop.Json.Reader
import FrameLoop.Json.Writer
import FrameLoop.Proofs.Digits

/-!
# Strings and numbers in JSON are read back

What is written for a character inside a string is one element of a string, and the reader
takes it for that character (`piece?_escaped`). So a string is read back whatever its
characters are (`string?_quoted`).

A number is read back with all its digits if its parts are runs of digits as the format has
them (`Number.Sound`) and what follows is no part of a number (`number?_chars`). Nothing here
says what a number is worth.
-/

namespace FrameLoop.Json

open Digits (Stops stops_cons takeWhile_run dropWhile_run)

variable {rest ds : List Char} {c : Char} {fuel : Nat} {n : Number}

/-! ## Strings -/

/-- **How a character is written**: by a short escape, by its number, or as it is. -/
theorem escaped_cases (c : Char) :
    (∃ d, d ≠ 'u' ∧ shortEscape? d = some c ∧ escaped c = ['\\', d]) ∨
    (c.toNat < 0x20 ∧ escaped c = '\\' :: 'u' :: '0' :: '0' :: controlDigits c.toNat) ∨
    (c ≠ '"' ∧ c ≠ '\\' ∧ 0x20 ≤ c.toNat ∧ escaped c = [c]) := by
  unfold escaped
  split
  · next quote => exact .inl ⟨'"', by decide, by rw [quote]; rfl, rfl⟩
  split
  · next backslash => exact .inl ⟨'\\', by decide, by rw [backslash]; rfl, rfl⟩
  split
  · next backspace => exact .inl ⟨'b', by decide, by rw [backspace]; rfl, rfl⟩
  split
  · next feed => exact .inl ⟨'f', by decide, by rw [feed]; rfl, rfl⟩
  split
  · next line => exact .inl ⟨'n', by decide, by rw [line]; rfl, rfl⟩
  split
  · next carriage => exact .inl ⟨'r', by decide, by rw [carriage]; rfl, rfl⟩
  split
  · next tab => exact .inl ⟨'t', by decide, by rw [tab]; rfl, rfl⟩
  split
  · next control => exact .inr (.inl ⟨control, rfl⟩)
  · next quote backslash _ _ _ _ _ control =>
    exact .inr (.inr ⟨quote, backslash, by omega, rfl⟩)

/-- The four digits by which a control character is written. -/
theorem hex?_controlDigits {k : Nat} (control : k < 0x20) (rest : List Char) :
    Digits.hex? 4 ('0' :: '0' :: (controlDigits k ++ rest)) = some (k, rest) := by
  have digits : ∀ k < 0x20,
      ('0' :: '0' :: controlDigits k).all (fun c => (Digits.value? c).isSome) = true ∧
        Digits.ofRun 16 ('0' :: '0' :: controlDigits k) = k := by
    decide
  obtain ⟨known, value⟩ := digits k control
  have front : ('0' :: '0' :: (controlDigits k ++ rest)).take 4 =
      '0' :: '0' :: controlDigits k := rfl
  rw [Digits.hex?, front, value, known]
  rfl

/-- **What is written for a character is read as that character.** -/
theorem piece?_escaped (c : Char) (rest : List Char) :
    piece? (escaped c ++ rest) = some (some c, rest) := by
  rcases escaped_cases c with ⟨d, short, stands, written⟩ | ⟨control, written⟩ |
    ⟨-, backslash, printed, written⟩
  · rw [written]
    show piece? ('\\' :: d :: rest) = _
    unfold piece?
    split
    · next same =>
      cases same
      exact absurd rfl short
    · next same =>
      cases same
      rw [stands]
      rfl
    · next apart same =>
      cases same
      exact (apart d rest rfl rfl).elim
    · next same => cases same
  · rw [written]
    show (Digits.hex? 4 ('0' :: '0' :: (controlDigits c.toNat ++ rest))).bind _ = _
    have whole : c.toNat < 0xd800 ∨ 0xdfff < c.toNat := .inl (by omega)
    rw [hex?_controlDigits control, Option.bind_some]
    dsimp only
    rw [if_pos whole, Char.ofNat_toNat]
  · rw [written]
    show piece? (c :: rest) = _
    unfold piece?
    split
    · next same =>
      cases same
      exact absurd rfl backslash
    · next same =>
      cases same
      exact absurd rfl backslash
    · next same =>
      cases same
      refine if_neg ?_
      rintro (control | same)
      · omega
      · exact backslash same
    · next same => cases same

/-- No character is written as the quote that closes a string. -/
theorem escaped_eq_cons (c : Char) : ∃ d more, escaped c = d :: more ∧ d ≠ '"' := by
  rcases escaped_cases c with ⟨d, -, -, written⟩ | ⟨-, written⟩ | ⟨quote, -, -, written⟩
  · exact ⟨_, _, written, by decide⟩
  · exact ⟨_, _, written, by decide⟩
  · exact ⟨_, _, written, quote⟩

/-- The characters of a string are read one after another, up to the closing quote. -/
theorem stringBody?_escaped (cs : List Char) :
    ∀ (fuel : Nat) (before rest : List Char), (cs.flatMap escaped).length < fuel →
      stringBody? fuel (some before) (cs.flatMap escaped ++ '"' :: rest) =
        some (some (String.ofList (before.reverse ++ cs)), rest) := by
  induction cs with
  | nil =>
    intro fuel before rest enough
    obtain ⟨fuel, rfl⟩ := Nat.exists_eq_add_one_of_ne_zero (Nat.ne_zero_of_lt enough)
    rw [List.append_nil]
    rfl
  | cons c cs ih =>
    intro fuel before rest enough
    obtain ⟨d, more, written, other⟩ := escaped_eq_cons c
    obtain ⟨fuel, rfl⟩ := Nat.exists_eq_add_one_of_ne_zero (Nat.ne_zero_of_lt enough)
    rw [List.flatMap_cons, List.length_append, written, List.length_cons] at enough
    have read := piece?_escaped c (cs.flatMap escaped ++ '"' :: rest)
    have next := ih fuel (c :: before) rest (by omega)
    rw [List.reverse_cons, List.append_assoc] at next
    rw [List.flatMap_cons, List.append_assoc]
    unfold stringBody?
    split
    · next same =>
      rw [written] at same
      cases same
      exact absurd rfl other
    · rw [read]
      exact next

/-- **A string is read back**, from behind its opening quote. -/
theorem string?_quoted (s : String) (rest : List Char) :
    string? (s.toList.flatMap escaped ++ '"' :: rest) = some (some s, rest) := by
  rw [string?, stringBody?_escaped s.toList _ _ _ (by rw [List.length_append]; omega),
    List.reverse_nil, List.nil_append, String.ofList_toList]

/-! ## Numbers -/

/-- **A number as the format has it**: digits before the point, more than one only if the
first is no zero; digits behind a point and in an exponent. -/
structure Number.Sound (n : Number) : Prop where
  whole : ∀ c ∈ n.whole, c.isDigit = true
  whole_ne_nil : n.whole ≠ []
  leading : n.whole.length = 1 ∨ n.whole.head? ≠ some '0'
  fraction : ∀ ds ∈ n.fraction, ds ≠ [] ∧ ∀ c ∈ ds, c.isDigit = true
  exponent : ∀ e ∈ n.exponent, e.2 ≠ [] ∧ ∀ c ∈ e.2, c.isDigit = true

/-- What may follow a value. -/
def Follows (rest : List Char) : Prop :=
  ∀ c ∈ rest.head?, isSpace c = true ∨ c = ',' ∨ c = ']' ∨ c = '}'

theorem follows_nil : Follows [] := nofun

theorem Follows.noNumber (follows : Follows (c :: rest)) :
    c.isDigit = false ∧ c ≠ '.' ∧ c ≠ 'e' ∧ c ≠ 'E' := by
  rcases follows c rfl with space | rfl | rfl | rfl
  · rw [isSpace, Bool.or_eq_true, Bool.or_eq_true, Bool.or_eq_true, beq_iff_eq, beq_iff_eq,
      beq_iff_eq, beq_iff_eq] at space
    rcases space with ((rfl | rfl) | rfl) | rfl <;> decide
  all_goals decide

theorem Follows.stops (follows : Follows rest) : Stops rest := by
  cases rest with
  | nil => exact nofun
  | cons c rest => exact stops_cons follows.noNumber.1

theorem fractionPart?_digits (ne : ds ≠ []) (digits : ∀ c ∈ ds, c.isDigit = true)
    (stops : Stops rest) : fractionPart? ('.' :: (ds ++ rest)) = some (some ds, rest) := by
  show (if ((ds ++ rest).takeWhile Char.isDigit).isEmpty then none
    else some (some ((ds ++ rest).takeWhile Char.isDigit), (ds ++ rest).dropWhile Char.isDigit)) = _
  rw [takeWhile_run digits stops, dropWhile_run digits stops, if_neg (by simpa using ne)]

theorem fractionPart?_none (other : ∀ c ∈ rest.head?, c ≠ '.') :
    fractionPart? rest = some (none, rest) := by
  unfold fractionPart?
  split
  · exact absurd rfl (other '.' rfl)
  · rfl

theorem exponentPart?_digits (negative : Bool) (ne : ds ≠ [])
    (digits : ∀ c ∈ ds, c.isDigit = true) (stops : Stops rest) :
    exponentPart? ('e' :: ((if negative then ['-'] else []) ++ ds ++ rest)) =
      some (some (negative, ds), rest) := by
  have part : exponentPart? ('e' :: ((if negative then ['-'] else []) ++ ds ++ rest)) =
      if ((ds ++ rest).takeWhile Char.isDigit).isEmpty then none
      else some (some (negative, (ds ++ rest).takeWhile Char.isDigit),
        (ds ++ rest).dropWhile Char.isDigit) := by
    cases negative with
    | true => rfl
    | false =>
      obtain ⟨d, ds, rfl⟩ := List.exists_cons_of_ne_nil ne
      have digit := digits d List.mem_cons_self
      show exponentPart? ('e' :: d :: (ds ++ rest)) = _
      unfold exponentPart?
      dsimp only
      rw [if_pos (Or.inl rfl)]
      split
      · next same =>
        cases same
        exact absurd digit (by decide)
      · next same =>
        cases same
        exact absurd digit (by decide)
      · rfl
  rw [part, takeWhile_run digits stops, dropWhile_run digits stops, if_neg (by simpa using ne)]

theorem exponentPart?_none (follows : Follows rest) :
    exponentPart? rest = some (none, rest) := by
  unfold exponentPart?
  split
  · next e more =>
    obtain ⟨-, -, small, capital⟩ := follows.noNumber
    refine if_neg ?_
    rintro (same | same)
    · exact small same
    · exact capital same
  · rfl

namespace Number

/-- What is written of a number from its point on, up to the exponent. -/
def fractionChars (n : Number) : List Char :=
  match n.fraction with
  | some ds => '.' :: ds
  | none => []

/-- What is written of the exponent of a number. -/
def exponentChars (n : Number) : List Char :=
  match n.exponent with
  | some (negative, ds) => 'e' :: ((if negative then ['-'] else []) ++ ds)
  | none => []

theorem chars_eq (n : Number) :
    n.chars =
      (if n.negative then ['-'] else []) ++ (n.whole ++ (n.fractionChars ++ n.exponentChars)) := by
  rw [← List.append_assoc, ← List.append_assoc]
  rfl

theorem Sound.exponentPart? (sound : n.Sound) (follows : Follows rest) :
    Json.exponentPart? (n.exponentChars ++ rest) = some (n.exponent, rest) ∧
      ∀ c ∈ (n.exponentChars ++ rest).head?, c.isDigit = false ∧ c ≠ '.' := by
  unfold exponentChars
  cases part : n.exponent with
  | none =>
    refine ⟨exponentPart?_none follows, fun c hc => ?_⟩
    cases rest with
    | nil => cases hc
    | cons d rest =>
      cases hc
      exact ⟨follows.noNumber.1, follows.noNumber.2.1⟩
  | some e =>
    obtain ⟨negative, ds⟩ := e
    obtain ⟨ne, digits⟩ := sound.exponent _ part
    refine ⟨exponentPart?_digits negative ne digits follows.stops, fun c hc => ?_⟩
    cases hc
    exact ⟨by decide, by decide⟩

theorem Sound.fractionPart? (sound : n.Sound)
    (other : ∀ c ∈ rest.head?, c.isDigit = false ∧ c ≠ '.') :
    Json.fractionPart? (n.fractionChars ++ rest) = some (n.fraction, rest) ∧
      Stops (n.fractionChars ++ rest) := by
  unfold fractionChars
  cases part : n.fraction with
  | none => exact ⟨fractionPart?_none fun c hc => (other c hc).2, fun c hc => (other c hc).1⟩
  | some ds =>
    obtain ⟨ne, digits⟩ := sound.fraction ds part
    exact ⟨fractionPart?_digits ne digits fun c hc => (other c hc).1, stops_cons (by decide)⟩

/-- **A number without its sign is read back.** -/
theorem Sound.unsigned? (sound : n.Sound) (follows : Follows rest) :
    Json.unsigned? n.negative (n.whole ++ (n.fractionChars ++ (n.exponentChars ++ rest))) =
      some (n, rest) := by
  obtain ⟨exponent, other⟩ := sound.exponentPart? follows
  obtain ⟨fraction, stops⟩ := sound.fractionPart? other
  have proper :
      (!n.whole.isEmpty && (n.whole.length == 1 || n.whole.head? != some '0')) = true := by
    rw [Bool.and_eq_true, Bool.or_eq_true, Bool.not_eq_true', List.isEmpty_eq_false_iff, beq_iff_eq,
      bne_iff_ne]
    exact ⟨sound.whole_ne_nil, sound.leading⟩
  unfold Json.unsigned?
  dsimp only
  rw [takeWhile_run sound.whole stops, dropWhile_run sound.whole stops, proper]
  simp only [guard_true, Option.bind_eq_bind, Option.pure_def, Option.bind_some, fraction, exponent]

end Number

/-- **A number is read back** where something follows that is no part of it. -/
theorem number?_chars (sound : n.Sound) (follows : Follows rest) :
    number? (n.chars ++ rest) = some (n, rest) := by
  have read := sound.unsigned? follows
  rw [n.chars_eq]
  simp only [List.append_assoc]
  generalize sign : n.negative = negative at read
  cases negative with
  | true => exact read
  | false =>
    rw [if_neg Bool.false_ne_true, List.nil_append]
    unfold number?
    split
    · next same =>
      obtain ⟨d, ds, whole⟩ := List.exists_cons_of_ne_nil sound.whole_ne_nil
      have digit := sound.whole d (by rw [whole]; exact List.mem_cons_self)
      rw [whole] at same
      cases same
      exact absurd digit (by decide)
    · exact read

end FrameLoop.Json

import FrameLoop.Digits
import Mathlib.Data.List.Basic
import Mathlib.Tactic.Ring

/-!
# Numbers and their digits

A number is written with its decimal digits, without zeros in front or with as many of them as
make up a given width (`decimal_padded`: it is read back).

A reader takes a run of digits off the front of a text, and what it takes is the whole of the
run, as long as no digit follows (`takeWhile_run`, `dropWhile_run`).
-/

namespace FrameLoop.Digits

variable {ds rest : List Char} {c : Char} {n width : Nat}

/-! ## The value of a run -/

theorem value?_of_isDigit (digit : c.isDigit = true) : value? c = some (c.toNat - 48) := by
  rw [Char.isDigit, Bool.and_eq_true, decide_eq_true_eq, decide_eq_true_eq] at digit
  exact if_pos digit

theorem decimal_eq (digits : ∀ c ∈ ds, c.isDigit = true) :
    decimal ds = Nat.ofDigitChars 10 ds 0 := by
  have step : ∀ acc, ds.foldl (fun acc c => acc * 10 + (value? c).getD 0) acc =
      Nat.ofDigitChars 10 ds acc := by
    induction ds with
    | nil => exact fun _ => rfl
    | cons c rest ih =>
      intro acc
      rw [List.foldl_cons, value?_of_isDigit (digits c List.mem_cons_self), Option.getD_some,
        Nat.mul_comm, Nat.ofDigitChars_cons]
      exact ih (fun d hd => digits d (List.mem_cons_of_mem c hd)) _
  exact step 0

theorem toNat_of_isDigit (digit : c.isDigit = true) : 48 ≤ c.toNat ∧ c.toNat ≤ 57 := by
  rw [Char.isDigit, Bool.and_eq_true, decide_eq_true_eq, decide_eq_true_eq] at digit
  exact digit

/-- Digits are worth less than the next power of ten. -/
theorem decimal_lt (digits : ∀ c ∈ ds, c.isDigit = true) : decimal ds < 10 ^ ds.length := by
  rw [decimal_eq digits]
  induction ds with
  | nil => exact Nat.one_pos
  | cons c rest ih =>
    have below := ih fun d hd => digits d (List.mem_cons_of_mem c hd)
    have digit := toNat_of_isDigit (digits c List.mem_cons_self)
    have worth : '0'.toNat = 48 := rfl
    rw [Nat.ofDigitChars_cons, Nat.ofDigitChars_eq_ofDigitChars_zero, worth, List.length_cons]
    calc 10 ^ rest.length * (10 * 0 + (c.toNat - 48)) + Nat.ofDigitChars 10 rest 0
        < 10 ^ rest.length * 9 + 10 ^ rest.length :=
          Nat.add_lt_add_of_le_of_lt (Nat.mul_le_mul_left _ (by omega)) below
      _ = 10 ^ (rest.length + 1) := by ring

/-! ## A number written out -/

theorem isDigit_toDigits (n : Nat) : ∀ c ∈ Nat.toDigits 10 n, c.isDigit = true :=
  fun _ => Nat.isDigit_of_mem_toDigits (by decide) (by decide)

/-- **No zero stands in front of the digits of a number**, unless it is the number. -/
theorem head?_toDigits (pos : n ≠ 0) : (Nat.toDigits 10 n).head? ≠ some '0' := by
  induction n using Nat.strongRecOn with
  | ind n ih =>
    rcases Nat.lt_or_ge n 10 with small | large
    · rw [Nat.toDigits_of_lt_base small, List.head?_cons]
      exact fun zero => pos (Nat.digitChar_eq_zero.1 (Option.some.inj zero))
    · rw [Nat.toDigits_of_base_le (by decide) large,
        List.head?_append_of_ne_nil _ Nat.toDigits_ne_nil]
      exact ih (n / 10) (by omega) (by omega)

theorem isDigit_padded (width n : Nat) : ∀ c ∈ padded width n, c.isDigit = true := by
  intro c hc
  rcases List.mem_append.1 hc with zero | digit
  · rw [(List.mem_replicate.1 zero).2]
    decide
  · exact isDigit_toDigits n c digit

theorem padded_ne_nil (width n : Nat) : padded width n ≠ [] :=
  List.append_ne_nil_of_right_ne_nil _ Nat.toDigits_ne_nil

/-- **Zeros in front do not matter.** -/
theorem decimal_padded (width n : Nat) : decimal (padded width n) = n := by
  rw [decimal_eq (isDigit_padded width n), padded, Nat.ofDigitChars_append,
    Nat.ofDigitChars_replicate_zero, Nat.mul_zero, Nat.ofDigitChars_ten_toDigits]

/-- A number that fits into a width takes exactly that many digits. -/
theorem length_padded (fits : n < 10 ^ width) (pos : 0 < width) :
    (padded width n).length = width := by
  have short : (Nat.toDigits 10 n).length ≤ width :=
    (Nat.length_toDigits_le_iff (by decide) pos).2 fits
  rw [padded, List.length_append, List.length_replicate, Nat.sub_add_cancel short]

/-! ## A run at the front of a text -/

/-- Whether a text goes on with a digit. -/
def Stops (rest : List Char) : Prop := ∀ c ∈ rest.head?, c.isDigit = false

theorem stops_cons (h : c.isDigit = false) : Stops (c :: rest) := by
  intro d hd
  rwa [← Option.some.inj hd]

theorem takeWhile_run (digits : ∀ c ∈ ds, c.isDigit = true) (stops : Stops rest) :
    (ds ++ rest).takeWhile Char.isDigit = ds := by
  rw [List.takeWhile_append_of_pos digits]
  cases rest with
  | nil => exact List.append_nil ds
  | cons c rest =>
    rw [List.takeWhile_cons_of_neg (by rw [stops c rfl]; exact Bool.false_ne_true),
      List.append_nil]

theorem dropWhile_run (digits : ∀ c ∈ ds, c.isDigit = true) (stops : Stops rest) :
    (ds ++ rest).dropWhile Char.isDigit = rest := by
  rw [List.dropWhile_append_of_pos digits]
  cases rest with
  | nil => rfl
  | cons c rest =>
    exact List.dropWhile_cons_of_neg (by rw [stops c rfl]; exact Bool.false_ne_true)

end FrameLoop.Digits

import FrameLoop.Json.Record
import FrameLoop.Proofs.Json.Values

/-!
# Numbers and records in JSON are read back

A natural number of 64 bits is read back from its digits (`natBelow?_ofNat`): none of them is
left out, because what the digits read so far are worth only grows. A record is read back from
an object that names each of its fields once (`Record.ofJson?_ofFields`), whether or not it
takes strangers. How a record is read from an array is not part of this.
-/

namespace FrameLoop.Json

open Binary64 (Significand)

variable {ds : List Char} {n limit : Nat} {given : List (String × Json)} {fields : List String}

/-! ## Numbers -/

/-- What digits are worth is no less than what those before them are. -/
theorem le_ofDigitChars (ds : List Char) (acc : Nat) : acc ≤ Nat.ofDigitChars 10 ds acc := by
  rw [Nat.ofDigitChars_eq_ofDigitChars_zero]
  calc acc ≤ 10 ^ ds.length * acc := Nat.le_mul_of_pos_left acc (Nat.pow_pos (by decide))
    _ ≤ _ := Nat.le_add_right _ _

/-- **Digits that fit are all taken.** -/
theorem pushAll_of_fits (ds : List Char) :
    ∀ acc, Nat.ofDigitChars 10 ds acc < UInt64.size →
      Significand.pushAll ⟨acc, false⟩ ds = (⟨Nat.ofDigitChars 10 ds acc, false⟩, 0) := by
  induction ds with
  | nil => exact fun _ _ => rfl
  | cons c rest ih =>
    intro acc fits
    rw [Nat.ofDigitChars_cons, Nat.mul_comm] at fits ⊢
    have below := Nat.lt_of_le_of_lt (le_ofDigitChars rest _) fits
    have taken : Significand.push ⟨acc, false⟩ c =
        ⟨acc * 10 + (c.toNat - '0'.toNat), false⟩ := by
      unfold Significand.push
      dsimp only
      rw [Bool.false_or, if_neg (by simpa using below)]
    rw [Significand.pushAll, taken, ih _ fits]
    rfl

theorem sound_ofNat (n : Nat) : Number.Sound { whole := Nat.toDigits 10 n } where
  whole := Digits.isDigit_toDigits n
  whole_ne_nil := Nat.toDigits_ne_nil
  leading := by
    by_cases zero : n = 0
    · rw [zero]
      exact .inl rfl
    · exact .inr (Digits.head?_toDigits zero)
  fraction := nofun
  exponent := nofun

theorem whole_ofNat (n : Nat) : (ofNat n).Whole := sound_ofNat n

/-- **A natural number of 64 bits is read back.** -/
theorem natBelow?_ofNat (below : n < limit) (fits : limit ≤ UInt64.size) :
    natBelow? limit (ofNat n) = some n := by
  have worth : Nat.ofDigitChars 10 (Nat.toDigits 10 n) 0 = n := Nat.ofDigitChars_ten_toDigits
  have taken := pushAll_of_fits (Nat.toDigits 10 n) 0 (by omega)
  rw [worth] at taken
  have read : Number.read { whole := Nat.toDigits 10 n } = some (.natural n) := by
    unfold Number.read
    dsimp only
    rw [taken]
    rfl
  rw [ofNat, natBelow?, read]
  exact if_pos below

theorem natBelow?_lt {v : Json} (read : natBelow? limit v = some n) : n < limit := by
  unfold natBelow? at read
  split at read
  · split at read
    · split at read
      · next below =>
        cases read
        exact below
      · cases read
    · cases read
  · cases read

/-! ## Records -/

theorem whole_ofFields (whole : ∀ f ∈ given, f.2.Whole) : (ofFields given).Whole := by
  induction given with
  | nil => exact trivial
  | cons f rest ih =>
    exact ⟨rfl, whole f List.mem_cons_self, ih fun g hg => whole g (List.mem_cons_of_mem f hg)⟩

theorem ofFields_eq (given : List (String × Json)) :
    ofFields given = .object (given.map fun f => (some f.1, f.2)) := rfl

/-- **A record is read back** from an object that names its fields once each. -/
theorem Record.ofJson?_ofFields (closed : Bool) (known : ∀ f ∈ given, f.1 ∈ fields)
    (distinct : (given.map (·.1)).Nodup) :
    Record.ofJson? fields closed (ofFields given) = some ⟨given, false⟩ := by
  have read : Record.ofFields? fields closed (given.map fun f => (some f.1, f.2)) = some given := by
    induction given with
    | nil => rfl
    | cons f rest ih =>
      obtain ⟨k, v⟩ := f
      obtain ⟨fresh, distinct⟩ := List.nodup_cons.1 distinct
      have unseen : rest.lookup k = none := List.lookup_eq_none_iff.2 fun g hg => by
        rw [bne_iff_ne]
        rintro rfl
        exact fresh (List.mem_map.2 ⟨g, hg, rfl⟩)
      rw [List.map_cons, Record.ofFields?,
        ih (fun g hg => known g (List.mem_cons_of_mem _ hg)) distinct]
      rw [Option.bind_eq_bind, Option.bind_some, if_pos (known (k, v) List.mem_cons_self), unseen]
      rfl
  rw [ofFields_eq, Record.ofJson?, read]
  rfl

theorem Record.required_eq {α : Type} {r : Record} {k : String} {v : Json}
    {read : Json → Option α} (there : r.get? k = some v) : r.required k read = read v := by
  rw [Record.required, there, Option.bind_some]

end FrameLoop.Json

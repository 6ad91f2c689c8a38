import FrameLoop.Proofs.Calendar
import FrameLoop.Proofs.Digits

/-!
# Points in time are read back

A point in time that has been read is a `Proper` one: its nanoseconds are less than two
seconds, more than one only at the end of a minute, and its year is one that can be written
(`proper_of_ofText?`). It is written with its fields in universal time, whatever form it was
read from; the fields are read back from their text (`fields?_text`), and stand for the point in
time they were taken from (`timestamp?_fields`). The fraction has as many places as its
nanoseconds need, and a year outside of four digits has a sign.

What other forms are read, and as what, is not part of this.
-/

namespace FrameLoop.Timestamp

open Digits (Stops stops_cons takeWhile_run dropWhile_run)

variable {ds rest : List Char} {c : Char} {n most width first last : Nat} {year : Int}
  {t : Timestamp}

/-! ## Fields -/

theorem stops_take (stops : Stops rest) (k : Nat) : Stops (rest.take k) := by
  cases rest with
  | nil =>
    rw [List.take_nil]
    exact nofun
  | cons c rest =>
    cases k with
    | zero => exact nofun
    | succ k => exact stops_cons (stops c rfl)

/-- **A run of digits is read as a number** if it is not too long, and is as long as it may be
or followed by something else. -/
theorem number?_run (digits : ∀ c ∈ ds, c.isDigit = true) (ne : ds ≠ [])
    (short : ds.length ≤ most) (ends : ds.length = most ∨ Stops rest) :
    number? most (ds ++ rest) = some (Digits.decimal ds, rest) := by
  have taken : (ds ++ rest).take most = ds ++ rest.take (most - ds.length) := by
    rw [List.take_append, List.take_of_length_le short]
  have stops : Stops (rest.take (most - ds.length)) := by
    rcases ends with full | stops
    · rw [full, Nat.sub_self]
      exact nofun
    · exact stops_take stops _
  unfold number?
  dsimp only
  rw [taken, takeWhile_run digits stops, if_neg (by simpa using ne), List.drop_left]

theorem isBlank_of_isDigit (digit : c.isDigit = true) : isBlank c = false := by
  obtain ⟨low, high⟩ := Digits.toNat_of_isDigit digit
  rw [← Bool.not_eq_true]
  intro blank
  simp only [isBlank, Bool.or_eq_true, Bool.and_eq_true, decide_eq_true_eq, beq_iff_eq] at blank
  omega

theorem trimFront_cons (plain : isBlank c = false) : trimFront (c :: rest) = c :: rest :=
  List.dropWhile_cons_of_neg (by rw [plain]; exact Bool.false_ne_true)

theorem trimFront_padded (width n : Nat) (rest : List Char) :
    trimFront (Digits.padded width n ++ rest) = Digits.padded width n ++ rest := by
  obtain ⟨d, ds, written⟩ := List.exists_cons_of_ne_nil (Digits.padded_ne_nil width n)
  have digit := Digits.isDigit_padded width n d (by rw [written]; exact List.mem_cons_self)
  rw [written]
  exact trimFront_cons (isBlank_of_isDigit digit)

/-- A number padded to a width is read, with nothing or no digit behind it. -/
theorem number?_padded (fits : n < 10 ^ width) (pos : 0 < width) :
    number? width (Digits.padded width n ++ rest) = some (n, rest) := by
  have length := Digits.length_padded fits pos
  rw [number?_run (Digits.isDigit_padded width n) (Digits.padded_ne_nil width n) length.le
    (.inl length), Digits.decimal_padded]

theorem field?_padded (low : first ≤ n) (high : n ≤ last) (fits : n < 100) :
    field? first last (Digits.padded 2 n ++ rest) = some (n, rest) := by
  unfold field?
  rw [trimFront_padded, number?_padded fits (by decide)]
  exact if_pos ⟨low, high⟩

theorem separator?_cons (plain : isBlank c = false) : separator? c (c :: rest) = some rest := by
  unfold separator?
  rw [trimFront_cons plain]
  exact if_pos rfl

/-- A padded number without a bound on its digits is read if what follows ends them. -/
theorem number?_padded_of_stops (stops : Stops rest) :
    number? (Digits.padded width n ++ rest).length (Digits.padded width n ++ rest) =
      some (n, rest) := by
  rw [number?_run (Digits.isDigit_padded width n) (Digits.padded_ne_nil width n)
    (by rw [List.length_append]; omega) (.inr stops), Digits.decimal_padded]

theorem year?_minus (stops : Stops rest) :
    year? ('-' :: (Digits.padded width n ++ rest)) = some (-(n : Int), rest) := by
  show (number? _ (Digits.padded width n ++ rest)).map _ = _
  rw [number?_padded_of_stops stops, Option.map_some]

theorem year?_plus (stops : Stops rest) :
    year? ('+' :: (Digits.padded width n ++ rest)) = some ((n : Int), rest) := by
  show (number? _ (Digits.padded width n ++ rest)).map _ = _
  rw [number?_padded_of_stops stops, Option.map_some]

/-- A year without a sign has four digits, whatever follows. -/
theorem year?_padded (fits : n < 10 ^ 4) :
    year? (Digits.padded 4 n ++ rest) = some ((n : Int), rest) := by
  have read : number? 4 (Digits.padded 4 n ++ rest) = some (n, rest) :=
    number?_padded fits (by decide)
  obtain ⟨d, ds, written⟩ := List.exists_cons_of_ne_nil (Digits.padded_ne_nil 4 n)
  have digit := Digits.isDigit_padded 4 n d (by rw [written]; exact List.mem_cons_self)
  unfold year?
  rw [trimFront_padded]
  split
  · next same =>
    rw [written] at same
    cases same
    exact absurd digit (by decide)
  · next same =>
    rw [written] at same
    cases same
    exact absurd digit (by decide)
  · rw [read]
    rfl

/-- **A year is read back**, with a sign or without. -/
theorem year?_yearText (year : Int) (stops : Stops rest) :
    year? ((yearText year).toList ++ rest) = some (year, rest) := by
  unfold yearText
  split
  · next four =>
    obtain ⟨n, rfl⟩ := Int.eq_ofNat_of_zero_le four.1
    rw [Timestamp.padded, String.toList_ofList, Int.toNat_natCast]
    exact year?_padded (by omega)
  · rw [String.toList_append, Timestamp.padded, String.toList_ofList]
    split
    · next negative =>
      have back : -(year.natAbs : Int) = year := by omega
      exact (year?_minus stops).trans (by rw [back])
    · next negative =>
      have back : (year.natAbs : Int) = year := by omega
      exact (year?_plus stops).trans (by rw [back])

/-- Places behind a point. -/
theorem fraction?_places (fits : n < 10 ^ width) (pos : 0 < width) (few : width ≤ 9) :
    fraction? ('.' :: (Digits.padded width n ++ ['Z'])) = some (n * 10 ^ (9 - width), ['Z']) := by
  have length := Digits.length_padded fits pos
  have read : number? 9 (Digits.padded width n ++ ['Z']) = some (n, ['Z']) := by
    rw [number?_run (Digits.isDigit_padded width n) (Digits.padded_ne_nil width n)
      (by rw [length]; exact few) (.inr (stops_cons (by decide))), Digits.decimal_padded]
  show (number? 9 (Digits.padded width n ++ ['Z'])).bind _ = _
  rw [read, Option.bind_some, List.length_append, length]
  dsimp only
  rw [Nat.add_sub_cancel]
  rfl

/-- **Nanoseconds are read back from the places that show them.** -/
theorem fraction?_fractionText (below : n < nanosPerSecond) :
    fraction? ((fractionText n).toList ++ ['Z']) = some (n, ['Z']) := by
  have point : ".".toList = ['.'] := by decide
  have below : n < 1000000000 := below
  unfold fractionText
  split
  · next zero =>
    rw [zero]
    rfl
  · split
    · next millis =>
      rw [String.toList_append, point, Timestamp.padded, String.toList_ofList]
      show fraction? ('.' :: (Digits.padded 3 (n / 1000000) ++ ['Z'])) = _
      rw [fraction?_places (by omega) (by decide) (by decide)]
      have back : n / 1000000 * 10 ^ (9 - 3) = n := by omega
      rw [back]
    · split
      · next micros =>
        rw [String.toList_append, point, Timestamp.padded, String.toList_ofList]
        show fraction? ('.' :: (Digits.padded 6 (n / 1000) ++ ['Z'])) = _
        rw [fraction?_places (by omega) (by decide) (by decide)]
        have back : n / 1000 * 10 ^ (9 - 6) = n := by omega
        rw [back]
      · rw [String.toList_append, point, Timestamp.padded, String.toList_ofList]
        show fraction? ('.' :: (Digits.padded 9 n ++ ['Z'])) = _
        rw [fraction?_places (by omega) (by decide) (by decide), Nat.sub_self, pow_zero, mul_one]

/-! ## The written form -/

theorem second_lt (t : Timestamp) : t.second < 86400 := by
  unfold second secondsPerDay
  rw [Int.fmod_eq_emod_of_nonneg _ (by decide)]
  omega

theorem seconds_eq (t : Timestamp) : t.day * secondsPerDay + t.second = t.seconds := by
  unfold day second secondsPerDay
  rw [Int.fmod_eq_emod_of_nonneg _ (by decide), Int.fdiv_eq_ediv_of_nonneg _ (by decide)]
  omega

/-- **A point in time that can be written**: less than two seconds of nanoseconds, more than
one only in the last second of a minute, and a year within the range. -/
structure Proper (t : Timestamp) : Prop where
  nanos_lt : t.nanos < 2 * nanosPerSecond
  minute : nanosPerSecond ≤ t.nanos → t.second % 60 = 59
  year : Calendar.yearInRange (Calendar.dateOfDays t.day).1 = true

/-- **Fields that a text in universal time has**: each is within its bounds. -/
structure Fields.InBounds (f : Fields) : Prop where
  month : 1 ≤ f.month ∧ f.month ≤ 12
  day : 1 ≤ f.day ∧ f.day ≤ 31
  hour : f.hour ≤ 23
  minute : f.minute ≤ 59
  second : f.second ≤ 60
  nanos : f.nanos < nanosPerSecond
  offset : f.offset = 0

theorem Fields.toList_text (f : Fields) :
    f.text.toList =
      (yearText f.year).toList ++ '-' :: (Digits.padded 2 f.month ++ '-' ::
        (Digits.padded 2 f.day ++ 'T' :: (Digits.padded 2 f.hour ++ ':' ::
        (Digits.padded 2 f.minute ++ ':' :: (Digits.padded 2 f.second ++
          ((fractionText f.nanos).toList ++ ['Z'])))))) := by
  show (yearText _ ++ "-" ++ padded 2 _ ++ "-" ++ padded 2 _ ++ "T" ++ padded 2 _ ++ ":" ++
    padded 2 _ ++ ":" ++ padded 2 _ ++ fractionText _ ++ "Z").toList = _
  simp only [String.toList_append, padded, String.toList_ofList, List.append_assoc]
  rfl

theorem second_eq (t : Timestamp) :
    t.second / 3600 * 3600 + t.second / 60 % 60 * 60 + t.second % 60 = t.second := by
  omega

theorem Proper.leap_cases (proper : t.Proper) :
    (t.leap = 0 ∧ t.nanos < nanosPerSecond) ∨
      (t.leap = 1 ∧ t.second % 60 = 59 ∧ nanosPerSecond ≤ t.nanos ∧
        t.nanos - nanosPerSecond < nanosPerSecond) := by
  have nanos := proper.nanos_lt
  unfold Timestamp.leap
  split
  · next long => exact .inr ⟨rfl, proper.minute long, long, by omega⟩
  · next short => exact .inl ⟨rfl, Nat.lt_of_not_le short⟩

/-- **Fields are read back from the text that has them.** -/
theorem fields?_text {f : Fields} (bounds : f.InBounds) : fields? f.text.toList = some f := by
  obtain ⟨month, day, hour, minute, second, nanos, offset⟩ := bounds
  have universal : { f with offset := 0 } = f := by rw [← offset]
  rw [Fields.toList_text]
  refine Option.bind_eq_some_iff.2 ⟨_, year?_yearText _ (stops_cons (by decide)), ?_⟩
  refine Option.bind_eq_some_iff.2 ⟨_, separator?_cons (by decide), ?_⟩
  refine Option.bind_eq_some_iff.2 ⟨_, field?_padded month.1 month.2 (by omega), ?_⟩
  refine Option.bind_eq_some_iff.2 ⟨_, separator?_cons (by decide), ?_⟩
  refine Option.bind_eq_some_iff.2 ⟨_, field?_padded day.1 day.2 (by omega), ?_⟩
  refine Option.bind_eq_some_iff.2 ⟨_, rfl, ?_⟩
  refine Option.bind_eq_some_iff.2 ⟨_, field?_padded (Nat.zero_le _) hour (by omega), ?_⟩
  refine Option.bind_eq_some_iff.2 ⟨_, separator?_cons (by decide), ?_⟩
  refine Option.bind_eq_some_iff.2 ⟨_, field?_padded (Nat.zero_le _) minute (by omega), ?_⟩
  refine Option.bind_eq_some_iff.2 ⟨_, separator?_cons (by decide), ?_⟩
  refine Option.bind_eq_some_iff.2 ⟨_, field?_padded (Nat.zero_le _) second (by omega), ?_⟩
  refine Option.bind_eq_some_iff.2 ⟨_, fraction?_fractionText nanos, ?_⟩
  exact congrArg some universal

/-- **A text that has the fields of a point in time is read as that.** -/
theorem ofText?_fields {f : Fields} (bounds : f.InBounds) : ofText? f.text = f.timestamp? := by
  rw [ofText?, fields?_text bounds, Option.bind_some]

/-- The fields of a point in time that can be written are within bounds. -/
theorem Proper.inBounds (proper : t.Proper) : t.fields.InBounds := by
  obtain ⟨month, firstDay, lastDay⟩ := Calendar.dateOfDays_valid t.day
  have below := t.second_lt
  have leap : t.second % 60 + t.leap ≤ 60 ∧
      t.nanos - t.leap * nanosPerSecond < nanosPerSecond := by
    rcases proper.leap_cases with ⟨zero, nanos⟩ | ⟨one, second, -, nanos⟩
    · rw [zero]
      omega
    · rw [one]
      omega
  constructor
  case month => exact month
  case day => exact ⟨firstDay, lastDay.trans (Calendar.daysInMonth_le _ _)⟩
  case hour => exact Nat.le_of_lt_succ (Nat.div_lt_of_lt_mul below)
  case minute => exact Nat.le_of_lt_succ (Nat.mod_lt _ (by decide))
  case second => exact leap.1
  case nanos => exact leap.2
  case offset => rfl

/-- **The fields of the written form stand for the point in time.** -/
theorem timestamp?_fields (proper : t.Proper) : t.fields.timestamp? = some t := by
  obtain ⟨-, -, lastDay⟩ := Calendar.dateOfDays_valid t.day
  have back := Calendar.daysOfDate_dateOfDays t.day
  have whole := t.seconds_eq
  have inRange := proper.year
  have clock : t.leap = (if t.second % 60 + t.leap = 60 then 1 else 0) ∧
      t.nanos - t.leap * nanosPerSecond + t.leap * nanosPerSecond = t.nanos := by
    rcases proper.leap_cases with ⟨zero, nanos⟩ | ⟨one, second, nanos, -⟩
    · rw [zero, if_neg (by omega)]
      omega
    · rw [one, second, if_pos rfl]
      omega
  have seconds : Calendar.daysOfDate (Calendar.dateOfDays t.day).1 (Calendar.dateOfDays t.day).2.1
      (Calendar.dateOfDays t.day).2.2 * secondsPerDay +
        ((t.second / 3600 * 3600 + t.second / 60 % 60 * 60 +
          (t.second % 60 + t.leap - t.leap) : Nat) : Int) - 0 = t.seconds := by
    rw [back, Nat.add_sub_cancel, second_eq, whole, sub_zero]
  unfold Fields.timestamp? fields
  dsimp only
  rw [← clock.1, seconds, clock.2, decide_eq_true lastDay, inRange, show Int.fdiv t.seconds
    secondsPerDay = t.day from rfl, inRange]
  rfl

/-! ## What has been read -/

/-- A number is less than the power of ten for as many digits as have been read. -/
theorem number?_lt {s : List Char} (read : number? most s = some (n, rest)) :
    n < 10 ^ (s.length - rest.length) ∧ s.length - rest.length ≤ most := by
  unfold number? at read
  dsimp only at read
  split at read
  · cases read
  · cases read
    have digits : ∀ c ∈ (s.take most).takeWhile Char.isDigit, c.isDigit = true :=
      List.all_eq_true.1 List.all_takeWhile
    have short : ((s.take most).takeWhile Char.isDigit).length ≤ (s.take most).length :=
      (List.takeWhile_sublist _).length_le
    rw [List.length_take] at short
    have used : s.length - (s.drop ((s.take most).takeWhile Char.isDigit).length).length =
        ((s.take most).takeWhile Char.isDigit).length := by
      rw [List.length_drop]
      omega
    rw [used]
    exact ⟨Digits.decimal_lt digits, by omega⟩

theorem field?_le {s : List Char} (read : field? first last s = some (n, rest)) : n ≤ last := by
  obtain ⟨⟨m, after⟩, -, read⟩ := Option.bind_eq_some_iff.1 read
  dsimp only at read
  split at read
  · next range =>
    cases read
    exact range.2
  · cases read

/-- A fraction is less than a second. -/
theorem fraction?_lt {s : List Char} (read : fraction? s = some (n, rest)) :
    n < nanosPerSecond := by
  unfold fraction? at read
  split at read
  · next places =>
    obtain ⟨⟨m, after⟩, number, read⟩ := Option.bind_eq_some_iff.1 read
    obtain ⟨less, few⟩ := number?_lt number
    cases read
    show m * 10 ^ (9 - (places.length - after.length)) < 10 ^ 9
    calc m * 10 ^ (9 - (places.length - after.length))
        < 10 ^ (places.length - after.length) * 10 ^ (9 - (places.length - after.length)) :=
          Nat.mul_lt_mul_of_pos_right less (Nat.pow_pos (by decide))
      _ = 10 ^ 9 := by rw [← pow_add, Nat.add_sub_cancel' few]
  · cases read
    decide

/-- **An offset is a whole number of minutes.** -/
theorem offset?_minutes {s : List Char} {offset : Int} (read : offset? s = some (offset, rest)) :
    offset % 60 = 0 := by
  unfold offset? at read
  split at read
  · cases read
    rfl
  · cases read
    rfl
  · split at read
    · cases read
      rfl
    · split at read
      · obtain ⟨⟨hours, after⟩, -, read⟩ := Option.bind_eq_some_iff.1 read
        obtain ⟨⟨minutes, after⟩, -, read⟩ := Option.bind_eq_some_iff.1 read
        cases read
        split
        · omega
        · omega
      · cases read
  · cases read

theorem fields?_bounds {s : List Char} {f : Fields} (read : fields? s = some f) :
    f.second ≤ 60 ∧ f.nanos < nanosPerSecond ∧ f.offset % 60 = 0 := by
  obtain ⟨⟨year, s⟩, -, read⟩ := Option.bind_eq_some_iff.1 read
  obtain ⟨s, -, read⟩ := Option.bind_eq_some_iff.1 read
  obtain ⟨⟨month, s⟩, -, read⟩ := Option.bind_eq_some_iff.1 read
  obtain ⟨s, -, read⟩ := Option.bind_eq_some_iff.1 read
  obtain ⟨⟨day, s⟩, -, read⟩ := Option.bind_eq_some_iff.1 read
  obtain ⟨s, -, read⟩ := Option.bind_eq_some_iff.1 read
  obtain ⟨⟨hour, s⟩, -, read⟩ := Option.bind_eq_some_iff.1 read
  obtain ⟨s, -, read⟩ := Option.bind_eq_some_iff.1 read
  obtain ⟨⟨minute, s⟩, -, read⟩ := Option.bind_eq_some_iff.1 read
  obtain ⟨s, -, read⟩ := Option.bind_eq_some_iff.1 read
  obtain ⟨⟨second, s⟩, seconds, read⟩ := Option.bind_eq_some_iff.1 read
  obtain ⟨⟨nanos, s⟩, fraction, read⟩ := Option.bind_eq_some_iff.1 read
  obtain ⟨⟨offset, s⟩, zone, read⟩ := Option.bind_eq_some_iff.1 read
  obtain ⟨_, -, read⟩ := Option.bind_eq_some_iff.1 read
  cases read
  exact ⟨field?_le seconds, fraction?_lt fraction, offset?_minutes zone⟩

/-- **What has been read can be written.** -/
theorem proper_of_ofText? {text : String} (read : ofText? text = some t) : t.Proper := by
  obtain ⟨f, fields, read⟩ := Option.bind_eq_some_iff.1 read
  obtain ⟨second, nanos, offset⟩ := fields?_bounds fields
  obtain ⟨_, -, read⟩ := Option.bind_eq_some_iff.1 read
  dsimp only at read
  obtain ⟨_, inRange, read⟩ := Option.bind_eq_some_iff.1 read
  cases read
  have clock : f.second = 60 → f.second - 1 = 59 := by omega
  unfold secondsPerDay at *
  refine ⟨?_, fun long => ?_, (Option.guard_eq_some' _).1 inRange⟩
  · dsimp only
    split
    · omega
    · omega
  · unfold Timestamp.second secondsPerDay
    rw [Int.fmod_eq_emod_of_nonneg _ (by decide)]
    dsimp only at long ⊢
    split at long
    · next sixty =>
      rw [if_pos sixty, clock sixty]
      omega
    · omega

end FrameLoop.Timestamp

import Mathlib.Algebra.Group.Nat.Defs
import WindowJoin.Proofs.Time.Dates
import WindowJoin.Time.Rfc3339

/-!
# Instants read back

`Instant.read_render` says that every instant is read back from its text in a document. Each part of
the text is read back with what follows it left over, and the parts are those of an instant: its date
exists, and a leap second is told from the second before it by the number 60.
-/

namespace WindowJoin

/-! ## Numbers -/

/-- The digits of a number stand for it. -/
theorem digits_value_padded (width number : Nat) :
    digitsValue (paddedDigits width number) = number := by
  have hvalue (digits : List Char) : digitsValue digits = Nat.ofDigitChars 10 digits 0 := by
    simp only [digitsValue, Nat.ofDigitChars, Nat.mul_comm]
  rw [hvalue, paddedDigits, Nat.ofDigitChars_append, Nat.ofDigitChars_replicate_zero, Nat.mul_zero,
    Nat.ofDigitChars_ten_toDigits]

theorem is_digit_padded {width number : Nat} {c : Char} (h : c ∈ paddedDigits width number) :
    c.isDigit = true := by
  rw [paddedDigits, List.mem_append] at h
  rcases h with hzero | hdigit
  · rw [List.eq_of_mem_replicate hzero]
    rfl
  · exact Nat.isDigit_of_mem_toDigits (by decide) (by decide) hdigit

/-- A number takes up as many digits as it has to, unless it is too large for them. -/
theorem length_padded {width number : Nat} (hwidth : 0 < width) (hfits : number < 10 ^ width) :
    (paddedDigits width number).length = width := by
  have hle := (Nat.length_toDigits_le_iff (by decide) hwidth).mpr hfits
  rw [paddedDigits, List.length_append, List.length_replicate]
  omega

/-- There is at least one digit. -/
theorem padded_cons (width number : Nat) :
    ∃ first rest, paddedDigits width number = first :: rest ∧ first.isDigit = true := by
  cases hdigits : paddedDigits width number with
  | nil =>
      rw [paddedDigits, List.append_eq_nil_iff] at hdigits
      exact absurd hdigits.2 Nat.toDigits_ne_nil
  | cons first rest =>
      exact ⟨first, rest, rfl, is_digit_padded (hdigits ▸ List.mem_cons_self)⟩

/-- A digit is neither white space nor a sign. -/
theorem digit_not_white {c : Char} (h : c.isDigit = true) :
    isWhite c = false ∧ c ≠ '-' ∧ c ≠ '+' := by
  have hrange : 48 ≤ c.toNat ∧ c.toNat ≤ 57 := Char.isDigit_iff_toNat.mp h
  have hall : ∀ digit : Fin 10, isWhite (Char.ofNat (48 + digit)) = false ∧
      Char.ofNat (48 + digit) ≠ '-' ∧ Char.ofNat (48 + digit) ≠ '+' := by decide
  have hdigit := hall ⟨c.toNat - 48, by omega⟩
  rwa [show 48 + (c.toNat - 48) = c.toNat by omega, Char.ofNat_toNat] at hdigit

/-- Digits are taken off a text up to what is no digit. -/
theorem take_digits_append {limit : Nat} {digits rest : List Char}
    (hdigits : ∀ c ∈ digits, c.isDigit = true) (hlimit : digits.length ≤ limit)
    (hrest : (rest.take (limit - digits.length)).takeWhile Char.isDigit = []) :
    takeDigits limit (digits ++ rest) = (digits, rest) := by
  have htaken : ((digits ++ rest).take limit).takeWhile Char.isDigit = digits := by
    rw [List.take_append, List.take_of_length_le hlimit, List.takeWhile_append_of_pos hdigits,
      hrest, List.append_nil]
  rw [takeDigits, htaken, List.drop_left]

/-- A number that fills its width is read back. -/
theorem read_number_padded {width number : Nat} (hwidth : 0 < width) (hfits : number < 10 ^ width)
    (rest : List Char) :
    readNumber? width (paddedDigits width number ++ rest) = some (number, rest) := by
  have htake : takeDigits width (paddedDigits width number ++ rest) =
      (paddedDigits width number, rest) := by
    have hlength := length_padded hwidth hfits
    refine take_digits_append (fun c => is_digit_padded) (Nat.le_of_eq hlength) ?_
    rw [hlength, Nat.sub_self]
    rfl
  have hvalue := digits_value_padded width number
  obtain ⟨first, later, hcons, hdigit⟩ := padded_cons width number
  rw [hcons] at htake hvalue ⊢
  rw [readNumber?, List.cons_append, skip_white_cons_of_not (digit_not_white hdigit).1,
    ← List.cons_append, htake]
  show some (digitsValue (first :: later), rest) = _
  rw [hvalue]

/-- The digits after a sign are read back up to a hyphen. -/
theorem read_signed_padded (width number : Nat) (apply : Nat → Int) (rest : List Char) :
    readYear?.signed (paddedDigits width number ++ '-' :: rest) apply =
      some (apply number, '-' :: rest) := by
  have htake : takeDigits (paddedDigits width number ++ '-' :: rest).length
      (paddedDigits width number ++ '-' :: rest) = (paddedDigits width number, '-' :: rest) := by
    refine take_digits_append (fun c => is_digit_padded) (by simp) ?_
    rw [List.length_append, Nat.add_sub_cancel_left, List.take_length]
    rfl
  have hvalue := digits_value_padded width number
  obtain ⟨first, later, hcons, -⟩ := padded_cons width number
  rw [hcons] at htake hvalue ⊢
  rw [readYear?.signed, htake]
  show some (apply (digitsValue (first :: later)), '-' :: rest) = _
  rw [hvalue]

/-- A year is read back up to a hyphen. -/
theorem read_year_render (year : Int) (rest : List Char) :
    readYear? (renderYear year ++ '-' :: rest) = some (year, '-' :: rest) := by
  unfold renderYear
  split
  next hplain =>
    have hread := read_number_padded (by decide) (show year.toNat < 10 ^ 4 by omega) ('-' :: rest)
    obtain ⟨first, later, hcons, hdigit⟩ := padded_cons 4 year.toNat
    obtain ⟨hwhite, hminus, hplus⟩ := digit_not_white hdigit
    rw [hcons, List.cons_append] at hread ⊢
    rw [readYear?, skip_white_cons_of_not hwhite]
    split
    next heq => exact absurd (List.cons.inj heq).1 hminus
    next heq => exact absurd (List.cons.inj heq).1 hplus
    next =>
      rw [hread]
      show some ((year.toNat : Int), '-' :: rest) = _
      rw [Int.toNat_of_nonneg hplain.1]
  next hsigned =>
    split
    next hpositive =>
      show readYear?.signed (paddedDigits 4 year.natAbs ++ '-' :: rest) _ = _
      rw [read_signed_padded, Int.natAbs_of_nonneg hpositive]
    next hnegative =>
      show readYear?.signed (paddedDigits 4 year.natAbs ++ '-' :: rest)
        (fun year => -(year : Int)) = _
      rw [read_signed_padded]
      congr 2
      omega

/-- A fraction is read back up to what is no digit. -/
theorem read_fraction_padded {width number : Nat} (hwidth : 0 < width) (hlimit : width ≤ 9)
    (hfits : number < 10 ^ width) (rest : List Char) :
    readFraction? ('.' :: (paddedDigits width number ++ 'Z' :: rest)) =
      some (number * 10 ^ (9 - width), 'Z' :: rest) := by
  have hlength := length_padded hwidth hfits
  have htake : takeDigits 9 (paddedDigits width number ++ 'Z' :: rest) =
      (paddedDigits width number, 'Z' :: rest) := by
    refine take_digits_append (fun c => is_digit_padded) (by omega) ?_
    cases 9 - (paddedDigits width number).length <;> rfl
  have hvalue := digits_value_padded width number
  obtain ⟨first, later, hcons, -⟩ := padded_cons width number
  rw [hcons] at htake hvalue hlength ⊢
  simp only [readFraction?, htake]
  rw [hvalue, hlength]
  rfl

/-- The fraction of a second is read back up to the letter that ends the text. -/
theorem read_fraction_render {nanos : Nat} (h : nanos < nanosPerSecond) (rest : List Char) :
    readFraction? (renderFraction nanos ++ 'Z' :: rest) = some (nanos, 'Z' :: rest) := by
  rw [nanosPerSecond] at h
  unfold renderFraction
  split
  next hzero =>
    rw [hzero]
    rfl
  next =>
    split
    next hmillis =>
      rw [List.cons_append, read_fraction_padded (by decide) (by decide) (by omega)]
      congr 2
      omega
    next =>
      split
      next hmicros =>
        rw [List.cons_append, read_fraction_padded (by decide) (by decide) (by omega)]
        congr 2
        omega
      next =>
        rw [List.cons_append, read_fraction_padded (by decide) (by decide) (by omega), Nat.sub_self,
          Nat.pow_zero, Nat.mul_one]

/-! ## Instants -/

namespace Instant

/-- What is read from the text of an instant. -/
def reading (time : Instant) : ClockReading where
  date := time.date
  hour := time.secondOfDay.toNat / 3600
  minute := time.secondOfDay.toNat / 60 % 60
  second := time.secondOfDay.toNat % 60 + if nanosPerSecond ≤ time.nanos then 1 else 0
  nanos := if nanosPerSecond ≤ time.nanos then time.nanos - nanosPerSecond else time.nanos
  offset := 0

/-- The month and the day of an instant lie in their ranges. -/
theorem date_bounds (time : Instant) :
    (1 ≤ time.date.month ∧ time.date.month ≤ 12) ∧ 1 ≤ time.date.day ∧ time.date.day ≤ 31 := by
  obtain ⟨hmonth, hmonths, hday, hdays⟩ : time.date.IsValid := CivilDate.of_day_number_valid _
  have hlongest : CivilDate.daysInMonth time.date.year time.date.month ≤ 31 := by
    unfold CivilDate.daysInMonth
    split
    · split <;> omega
    · split <;> omega
  exact ⟨⟨hmonth, hmonths⟩, hday, Int.le_trans hdays hlongest⟩

/-- The parts of the time of day lie in their ranges, with a second 60 for a leap second. -/
theorem reading_bounds (time : Instant) :
    time.reading.hour < 24 ∧ time.reading.minute < 60 ∧ time.reading.second ≤ 60 ∧
      time.reading.nanos < nanosPerSecond := by
  have hclock : 0 ≤ time.secondOfDay ∧ time.secondOfDay < 86400 := by
    unfold secondOfDay
    omega
  have hbound := time.nanos_bound
  simp only [reading]
  refine ⟨by omega, by omega, ?_, ?_⟩
  · split <;> omega
  · split <;> omega

/-- The text of an instant is read as its parts. -/
theorem read_render_chars (time : Instant) :
    ClockReading.read? (time.renderChars .document) = some (time.reading, []) := by
  obtain ⟨hmonth, hday⟩ := time.date_bounds
  obtain ⟨hhour, hminute, hsecond, hnanos⟩ := time.reading_bounds
  simp only [renderChars, InstantLayout.document, List.append_assoc, List.cons_append]
  have hdate : (⟨time.date.year, time.date.month.toNat, time.date.day.toNat⟩ : CivilDate) =
      time.date := by
    rw [Int.toNat_of_nonneg (by omega), Int.toNat_of_nonneg (by omega)]
  have hnumber {number : Nat} (hfits : number < 10 ^ 2) := read_number_padded (by decide) hfits
  have hmonthRead := hnumber (show time.date.month.toNat < 10 ^ 2 by omega)
  have hdayRead := hnumber (show time.date.day.toNat < 10 ^ 2 by omega)
  have hhourRead := hnumber (show time.reading.hour < 10 ^ 2 by omega)
  have hminuteRead := hnumber (show time.reading.minute < 10 ^ 2 by omega)
  have hsecondRead := hnumber (show time.reading.second < 10 ^ 2 by omega)
  have hfraction := read_fraction_render hnanos []
  simp only [reading] at hhourRead hminuteRead hsecondRead hfraction
  have hhyphen (rest : List Char) : expect? '-' ('-' :: rest) = some rest := rfl
  have hcolon (rest : List Char) : expect? ':' (':' :: rest) = some rest := rfl
  have hzone : readOffset? (skipWhite ['Z']) = some (0, []) := rfl
  simp only [ClockReading.read?, read_year_render, hmonthRead, hdayRead, hhourRead, hminuteRead,
    hsecondRead, hfraction, hhyphen, hcolon, hzone, Option.bind_eq_bind, Option.bind_some, hdate,
    reading]

/-- The parts of an instant stand for it. -/
theorem instant_reading (time : Instant) : time.reading.instant? = some time := by
  have hvalid : time.reading.date.IsValid := CivilDate.of_day_number_valid _
  obtain ⟨hhour, hminute, hsixty, -⟩ := time.reading_bounds
  have hday : time.reading.date.dayNumber = time.seconds / 86400 :=
    CivilDate.day_number_of_day_number _
  have hbound := time.nanos_bound
  have hclock : time.secondOfDay = time.seconds % 86400 := rfl
  -- Only the last second of a minute can be a leap second, and then the text says 60.
  have hsecond : Nat.min time.reading.second 59 = time.secondOfDay.toNat % 60 ∧
      (time.reading.second = 60 ↔ nanosPerSecond ≤ time.nanos) := by
    show min time.reading.second 59 = _ ∧ _
    simp only [reading]
    split <;> omega
  have hnanos : time.reading.nanos + (if time.reading.second = 60 then nanosPerSecond else 0) =
      time.nanos := by
    by_cases hleap : nanosPerSecond ≤ time.nanos
    · rw [if_pos (hsecond.2.mpr hleap)]
      simp only [reading, if_pos hleap]
      omega
    · rw [if_neg (mt hsecond.2.mp hleap)]
      simp only [reading, if_neg hleap, Nat.add_zero]
  have hhere : time.reading.date.dayNumber * 86400 + (time.reading.hour * 3600
      + time.reading.minute * 60 + Nat.min time.reading.second 59 : Nat) = time.seconds := by
    rw [hday, hsecond.1]
    simp only [reading]
    omega
  rw [ClockReading.instant?, if_pos ⟨hvalid, hhour, hminute, hsixty, Nat.zero_lt_succ _⟩]
  simp only [hnanos, hhere, show time.reading.offset = 0 from rfl, Int.sub_zero, of_parts_parts,
    Option.bind_eq_bind, Option.bind_some]

/-- An instant is read back from its text in a document. -/
theorem read_render (time : Instant) : read? (time.render .document) = some time := by
  rw [read?, render, String.toList_ofList, read_render_chars]
  exact time.instant_reading

end Instant

end WindowJoin

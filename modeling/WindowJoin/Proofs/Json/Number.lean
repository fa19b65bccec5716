import Mathlib.Data.List.TakeDrop
import WindowJoin.Json.Reader

/-!
# Integers read back

`read_integer_decimal` says that the decimal form of an integer of 64 bits, signed or not, is read
back where the document goes on after it. Its digits are those of `Nat.toDigits`, and all of them fit
the significand.
-/

namespace WindowJoin.Json

/-- The bytes go on with a comma or with the end of an object or an array. -/
def Delimited (bytes : List UInt8) : Prop :=
  ∃ byte rest, bytes = byte :: rest ∧
    (byte = byteOf ',' ∨ byte = byteOf '\x7d' ∨ byte = byteOf ']')

/-- A byte that is no blank stands at the front. -/
theorem skip_blanks_cons {byte : UInt8} (h : isBlank byte = false) (rest : List UInt8) :
    skipBlanks (byte :: rest) = byte :: rest :=
  List.dropWhile_cons_of_neg (by simp [h])

/-! ## Digits -/

/-- The byte of a digit has the code of the digit. -/
theorem to_nat_byte_of {c : Char} (h : c.isDigit = true) :
    (byteOf c).toNat = c.toNat ∧ 48 ≤ c.toNat ∧ c.toNat ≤ 57 := by
  have hrange : 48 ≤ c.toNat ∧ c.toNat ≤ 57 := Char.isDigit_iff_toNat.mp h
  refine ⟨?_, hrange⟩
  show c.toNat % 256 = c.toNat
  omega

theorem is_digit_byte_of {c : Char} (h : c.isDigit = true) : isDigit (byteOf c) = true := by
  obtain ⟨hbyte, hlow, hhigh⟩ := to_nat_byte_of h
  have hzero : (byteOf '0').toNat = 48 := rfl
  have hnine : (byteOf '9').toNat = 57 := rfl
  simp only [isDigit, Bool.and_eq_true, decide_eq_true_eq, UInt8.le_iff_toNat_le, hbyte, hzero,
    hnine]
  exact ⟨hlow, hhigh⟩

/-- A digit is neither a blank nor a sign. -/
theorem digit_plain {byte : UInt8} (h : isDigit byte = true) :
    isBlank byte = false ∧ byte ≠ byteOf '-' := by
  have hzero : (byteOf '0').toNat = 48 := rfl
  simp only [isDigit, Bool.and_eq_true, decide_eq_true_eq, UInt8.le_iff_toNat_le, hzero] at h
  have hne {c : Char} (hc : (byteOf c).toNat < 48) : byte ≠ byteOf c := by
    rintro rfl
    omega
  refine ⟨?_, hne (by decide)⟩
  simp only [isBlank, Bool.or_eq_false_iff, decide_eq_false_iff_not]
  exact ⟨⟨⟨hne (by decide), hne (by decide)⟩, hne (by decide)⟩, hne (by decide)⟩

/-- A number that is not zero does not start with a zero. -/
theorem head_to_digits_ne {n : Nat} (h : 0 < n) : (Nat.toDigits 10 n).head? ≠ some '0' := by
  induction n using Nat.strongRecOn with
  | ind n ih =>
      by_cases hlt : n < 10
      · rw [Nat.toDigits_of_lt_base hlt]
        match n, h, hlt with
        | 1, _, _ | 2, _, _ | 3, _, _ | 4, _, _ | 5, _, _ | 6, _, _ | 7, _, _ | 8, _, _ | 9, _, _ =>
            decide
      · -- The first digit is that of a tenth of the number, which is not zero either.
        rw [Nat.toDigits_of_base_le (by decide) (Nat.le_of_not_lt hlt), List.head?_append]
        have hquotient := ih (n / 10) (by omega) (by omega)
        cases hhead : (Nat.toDigits 10 (n / 10)).head? with
        | none => exact absurd (List.head?_eq_none_iff.mp hhead) Nat.toDigits_ne_nil
        | some c =>
            rw [hhead] at hquotient
            exact hquotient

/-- All digits fit the significand if the number does. -/
theorem append_digits_of_digit_chars (start : Nat) {chars : List Char}
    (hdigits : ∀ c ∈ chars, c.isDigit = true)
    (hfits : Nat.ofDigitChars 10 chars start ≤ significandLimit) :
    appendDigits start (chars.map byteOf) = (Nat.ofDigitChars 10 chars start, chars.length) := by
  induction chars generalizing start with
  | nil => simp [appendDigits]
  | cons c chars ih =>
      obtain ⟨hbyte, -, -⟩ := to_nat_byte_of (hdigits c List.mem_cons_self)
      have hstep : start * 10 + ((byteOf c).toNat - 48) = 10 * start + (c.toNat - '0'.toNat) := by
        rw [hbyte, Nat.mul_comm]
        rfl
      rw [Nat.ofDigitChars_cons] at hfits ⊢
      -- What has been read so far is at most the number itself.
      have hle : 10 * start + (c.toNat - '0'.toNat) ≤ significandLimit := by
        rw [Nat.ofDigitChars_eq_ofDigitChars_zero] at hfits
        have hpow : 0 < 10 ^ chars.length := Nat.pow_pos (by decide)
        have := Nat.le_mul_of_pos_left (10 * start + (c.toNat - '0'.toNat)) hpow
        omega
      have hrest := ih _ (fun c hc => hdigits c (List.mem_cons_of_mem _ hc)) hfits
      simp only [List.map_cons, appendDigits, hstep, hle, if_true, hrest, List.length_cons]

/-! ## Numbers -/

/-- Nothing that delimits a value goes on with a number. -/
theorem read_number_tail_delimited {negative : Bool} {significand dropped : Nat}
    {bytes : List UInt8} (h : Delimited bytes) :
    readNumberTail negative significand dropped bytes =
      readNumberTail.whole negative significand dropped bytes := by
  obtain ⟨byte, rest, rfl, rfl | rfl | rfl⟩ := h <;> rfl

/-- The digits of a number are told from what delimits it. -/
theorem span_digits_map {chars : List Char} (hdigits : ∀ c ∈ chars, c.isDigit = true)
    {rest : List UInt8} (hrest : Delimited rest) :
    spanDigits (chars.map byteOf ++ rest) = (chars.map byteOf, rest) := by
  have hall : ∀ byte ∈ chars.map byteOf, isDigit byte = true := by
    intro byte hbyte
    obtain ⟨c, hc, rfl⟩ := List.mem_map.mp hbyte
    exact is_digit_byte_of (hdigits c hc)
  rw [spanDigits, List.span_eq_takeWhile_dropWhile, List.takeWhile_append_of_pos hall,
    List.dropWhile_append_of_pos hall]
  obtain ⟨byte, tail, rfl, rfl | rfl | rfl⟩ := hrest <;> simp [isDigit]

/-- The digits of a number start with a digit. -/
theorem to_digits_cons (n : Nat) : ∃ c chars, Nat.toDigits 10 n = c :: chars ∧ c.isDigit = true := by
  cases hchars : Nat.toDigits 10 n with
  | nil => exact absurd hchars Nat.toDigits_ne_nil
  | cons c chars =>
      exact ⟨c, chars, rfl,
        Nat.isDigit_of_mem_toDigits (by decide) (by decide) (hchars ▸ List.mem_cons_self)⟩

/-- The digits of a number are read as a whole number. -/
theorem read_unsigned_digits (negative : Bool) {n : Nat} (hfits : n ≤ significandLimit)
    {rest : List UInt8} (hrest : Delimited rest) :
    readUnsigned negative ((Nat.toDigits 10 n).map byteOf ++ rest) =
      readNumberTail.whole negative n 0 rest := by
  have hdigits : ∀ c ∈ Nat.toDigits 10 n, c.isDigit = true :=
    fun c hc => Nat.isDigit_of_mem_toDigits (by decide) (by decide) hc
  by_cases hzero : n = 0
  · -- Behind a leading zero no digits are looked for.
    subst hzero
    rw [← read_number_tail_delimited hrest]
    obtain ⟨byte, tail, rfl, rfl | rfl | rfl⟩ := hrest <;> rfl
  · have hspan := span_digits_map hdigits hrest
    have happend := append_digits_of_digit_chars 0 hdigits
      (by rwa [Nat.ofDigitChars_ten_toDigits])
    rw [Nat.ofDigitChars_ten_toDigits] at happend
    have hhead := head_to_digits_ne (Nat.pos_of_ne_zero hzero)
    obtain ⟨c, chars, hchars, hdigit⟩ := to_digits_cons n
    have hnonzero : byteOf c ≠ byteOf '0' := by
      intro heq
      rw [hchars] at hhead
      have hcode : c.toNat = 48 :=
        (to_nat_byte_of hdigit).1.symm.trans (congrArg UInt8.toNat heq)
      exact hhead (congrArg some (Char.toNat_inj.mp hcode))
    rw [hchars, List.map_cons, List.cons_append] at hspan
    rw [hchars] at happend
    rw [hchars, List.map_cons, List.cons_append, readUnsigned, if_neg hnonzero,
      if_pos (is_digit_byte_of hdigit), hspan]
    simp only [List.map_cons] at happend ⊢
    rw [happend, List.length_cons, List.length_cons, List.length_map, Nat.sub_self]
    exact read_number_tail_delimited hrest

/-- An integer of 64 bits, signed or not, is read back from its decimal form. -/
theorem read_number_decimal {value : Int} (hmin : -0x8000000000000000 ≤ value)
    (hmax : value ≤ significandLimit) {rest : List UInt8} (hrest : Delimited rest) :
    readNumber (decimal value ++ rest) = .ok (.integer value, rest) := by
  have hfits : value.natAbs ≤ significandLimit := by
    simp only [significandLimit] at hmax ⊢
    omega
  have hunsigned (negative : Bool) := read_unsigned_digits negative hfits hrest
  rw [decimal]
  split
  next hneg =>
    rw [List.cons_append, readNumber, skip_blanks_cons (by decide)]
    show readUnsigned true _ = _
    -- Only zero with a sign is read as something else, and what is negative is not zero.
    have hpos : 0 < value.natAbs := by omega
    have hle : value.natAbs ≤ 0x8000000000000000 := by omega
    have hvalue : -(value.natAbs : Int) = value := by omega
    rw [hunsigned, readNumberTail.whole, if_neg (by simp), if_pos (by simp [hpos, hle]), hvalue]
  next hneg =>
    have hvalue : (value.natAbs : Int) = value := by omega
    have hread := hunsigned false
    obtain ⟨c, chars, hchars, hfirst⟩ := to_digits_cons value.natAbs
    have hdigit := is_digit_byte_of hfirst
    obtain ⟨hblank, hsign⟩ := digit_plain hdigit
    rw [hchars, List.map_cons, List.cons_append] at hread
    rw [hchars, List.map_cons, List.cons_append, readNumber, skip_blanks_cons hblank]
    simp only [hsign, if_false, hdigit, if_true]
    rw [hread, readNumberTail.whole]
    simp [hvalue]

/-- Within the bounds it is read back as an integer. -/
theorem read_integer_decimal {low high value : Int} (hlow : low ≤ value) (hhigh : value ≤ high)
    (hmin : -0x8000000000000000 ≤ value) (hmax : value ≤ significandLimit) {rest : List UInt8}
    (hrest : Delimited rest) :
    readInteger low high (decimal value ++ rest) = .ok (value, rest) := by
  rw [readInteger, read_number_decimal hmin hmax hrest]
  exact if_pos ⟨hlow, hhigh⟩

end WindowJoin.Json

import WindowJoin.Json.Text

/-!
# Binary fractions in shortest form

A binary fraction is written with the fewest decimal digits that lie closer to it than to any other
one, and of those with the nearest. A finite fraction other than zero is m · 2 ^ q with m and q from
its bits; every number within half a step of it reads back as it, the ends of that range only if m
is even. Whole numbers up to 16 digits and small fractions are written out, others with an exponent.
-/

namespace WindowJoin.Json

/-- The size of a binary fraction and the range of what reads back as it, as numerators over one
denominator. -/
structure BinaryRange where
  value : Nat
  low : Nat
  high : Nat
  denominator : Nat
  /-- Whether the ends of the range belong to it. -/
  closed : Bool
  deriving DecidableEq, Repr

/-- The leading bit of a significand, which only the smallest fractions lack. -/
def hiddenBit : Nat := 0x10000000000000

/-- The bit that makes a fraction negative. -/
def signBit : Nat := 0x8000000000000000

/-- The range of a finite fraction other than zero, by its 63 bits below the sign. -/
def BinaryRange.ofBits (bits : Nat) : BinaryRange :=
  let field : Nat := bits / hiddenBit
  let fraction : Nat := bits % hiddenBit
  let significand := if field = 0 then fraction else fraction + hiddenBit
  let exponent : Int := if field = 0 then -1074 else (field : Int) - 1075
  let below := if fraction = 0 ∧ 1 < field then 1 else 2
  let scale := Nat.pow 2 (exponent - 2).toNat
  { value := 4 * significand * scale
    low := (4 * significand - below) * scale
    high := (4 * significand + 2) * scale
    denominator := Nat.pow 2 (2 - exponent).toNat
    closed := significand % 2 = 0 }

/-- The number of decimal digits. -/
def digitCount (number : Nat) : Nat :=
  (Nat.toDigits 10 number).length

/-- The power of ten of the first digit of a range's value. -/
def BinaryRange.leadingPower (range : BinaryRange) : Int :=
  if range.denominator ≤ range.value then (digitCount (range.value / range.denominator) : Int) - 1
  else
    let count := digitCount (range.denominator / range.value)
    if range.value * Nat.pow 10 (count - 1) = range.denominator then 1 - (count : Int) else -(count : Int)

/-- Digits and the power of ten that they are multiplied with. -/
structure DecimalDigits where
  digits : Nat
  power : Int
  deriving DecidableEq, Repr

/-- Whether digits read back as the value of a range. -/
def BinaryRange.holds (range : BinaryRange) (decimal : DecimalDigits) : Bool :=
  let size := decimal.digits * Nat.pow 10 decimal.power.toNat * range.denominator
  let unit := Nat.pow 10 (-decimal.power).toNat
  (range.low * unit < size || range.closed && range.low * unit = size)
    && (size < range.high * unit || range.closed && size = range.high * unit)

/-- The nearest digits on the grid of a power of ten that read back as the value of a range. Of two
equally near ones the even one counts. -/
def BinaryRange.onGrid? (range : BinaryRange) (power : Int) : Option DecimalDigits :=
  let unit := range.denominator * Nat.pow 10 power.toNat
  let size := range.value * Nat.pow 10 (-power).toNat
  let below : DecimalDigits := ⟨size / unit, power⟩
  let above : DecimalDigits := ⟨size / unit + 1, power⟩
  let rest := size % unit
  let belowFirst := 2 * rest < unit || 2 * rest = unit && below.digits % 2 = 0
  let ordered := if belowFirst then [below, above] else [above, below]
  ordered.find? range.holds

/-- The digits without a zero at the end. -/
def DecimalDigits.trimmed (decimal : DecimalDigits) : DecimalDigits :=
  if decimal.digits % 10 = 0 then ⟨decimal.digits / 10, decimal.power + 1⟩ else decimal

/-- The fewest digits that read back as the value of a range. Only the digit after nine leaves a zero
at their end. -/
def BinaryRange.shortest (range : BinaryRange) : DecimalDigits :=
  let power := range.leadingPower
  let grids := (List.range 17).map fun (index : Nat) => power - (index : Int)
  ((grids.findSome? range.onGrid?).getD ⟨0, 0⟩).trimmed

/-- The text of digits: written out where the point stands at most 16 places from the front and at
most five before it, else with an exponent. -/
def DecimalDigits.text (decimal : DecimalDigits) : List Char :=
  let digits := Nat.toDigits 10 decimal.digits
  let point : Int := digits.length + decimal.power
  if 0 ≤ decimal.power ∧ point ≤ 16 then
    digits ++ List.replicate decimal.power.toNat '0' ++ ['.', '0']
  else if 0 < point ∧ point ≤ 16 then
    digits.take point.toNat ++ '.' :: digits.drop point.toNat
  else if -5 < point ∧ point ≤ 0 then
    ['0', '.'] ++ List.replicate (-point).toNat '0' ++ digits
  else
    let fraction := if digits.length = 1 then [] else '.' :: digits.drop 1
    digits.take 1 ++ fraction ++ 'e' :: (toString (point - 1)).toList

/-- The text of a finite binary fraction. -/
def realText (value : Float) : List Char :=
  let bits := value.toBits.toNat
  let size := bits % signBit
  let sign := if signBit ≤ bits then ['-'] else []
  sign ++ if size = 0 then ['0', '.', '0'] else (BinaryRange.ofBits size).shortest.text

/-- A finite binary fraction. -/
def real (value : Float) : List UInt8 :=
  (realText value).map byteOf

end WindowJoin.Json

import WindowJoin.Json.Text

/-!
# JSON numbers

A number without fraction and exponent that fits 64 bits is an integer; every other one is a binary
fraction. A fraction is made from the digits that fit a 64-bit significand and a power of ten, with
one rounding for each step; a number beyond the largest finite one is refused. Numbers that are
passed over are checked in form only, and there a missing digit is malformed even at the end.
-/

namespace WindowJoin.Json

/-- A number as read. -/
inductive Number where
  | integer (value : Int)
  | real (value : Float)

/-- The largest significand. -/
def significandLimit : Nat := 0xFFFFFFFFFFFFFFFF

/-- The digits in front of the bytes and the bytes after them. -/
def spanDigits (bytes : List UInt8) : List UInt8 × List UInt8 :=
  bytes.span isDigit

/-- A significand with as many digits appended as fit, and the number of digits that were. -/
def appendDigits (significand : Nat) : List UInt8 → Nat × Nat
  | [] => (significand, 0)
  | digit :: rest =>
    let longer := significand * 10 + (digit.toNat - 48)
    if longer ≤ significandLimit then
      let (result, count) := appendDigits longer rest
      (result, count + 1)
    else (significand, 0)

/-- A power of ten, rounded to the nearest binary fraction. -/
def powerOfTen (exponent : Nat) : Float :=
  Float.ofScientific 1 false exponent

/-- A binary fraction times a power of ten, unless it is too large. Powers beyond the 308th are
applied in steps, of which the third always reaches zero. -/
def scale? : Nat → Float → Int → Option Float
  | 0, value, _ => some value
  | steps + 1, value, exponent =>
    if exponent.natAbs ≤ 308 then
      if 0 ≤ exponent then
        let product := value * powerOfTen exponent.natAbs
        if product.isInf then none else some product
      else some (value / powerOfTen exponent.natAbs)
    else if value == 0 then some value
    else if 0 ≤ exponent then none
    else scale? steps (value / powerOfTen 308) (exponent + 308)

/-- The fraction with a sign, a significand and a power of ten. -/
def realOf (negative : Bool) (significand : Nat) (exponent : Int) : Except Fault Number :=
  match scale? 3 significand.toUInt64.toFloat exponent with
  | none => .error .malformed
  | some value => .ok (.real (if negative then -value else value))

/-- The smallest exponent that is too large to be told from larger ones. -/
def exponentLimit : Nat := 0x80000000

/-- An exponent with a digit appended, or the limit where that is smaller. -/
def appendExponentDigit (exponent : Nat) (digit : UInt8) : Nat :=
  min (exponent * 10 + (digit.toNat - 48)) exponentLimit

/-- The exponent after its letter, and the number that it completes. An exponent beyond 31 bits
makes zero, or a number that is too large. -/
def readExponent (negative : Bool) (significand : Nat) (exponent : Int) (bytes : List UInt8) :
    Except Fault (Number × List UInt8) :=
  let (below, bytes) := match bytes with
    | byte :: rest =>
      if byte = byteOf '+' then (false, rest)
      else if byte = byteOf '-' then (true, rest)
      else (false, bytes)
    | [] => (false, bytes)
  match bytes with
  | [] => .error .ended
  | byte :: _ =>
    if isDigit byte then do
      let (digits, rest) := spanDigits bytes
      let size := digits.foldl appendExponentDigit 0
      if size < exponentLimit then
        let shift : Int := if below then -(size : Int) else size
        let number ← realOf negative significand (exponent + shift)
        .ok (number, rest)
      else if significand ≠ 0 && !below then .error .malformed
      else .ok (.real (if negative then -0.0 else 0.0), rest)
    else .error .malformed

/-- The rest of a number after the digits of its whole part, of which `dropped` did not fit. -/
def readNumberTail (negative : Bool) (significand dropped : Nat) (bytes : List UInt8) :
    Except Fault (Number × List UInt8) :=
  let isExponent byte := byte = byteOf 'e' || byte = byteOf 'E'
  match bytes with
  | byte :: rest =>
    if byte = byteOf '.' then
      match spanDigits rest with
      | ([], []) => .error .ended
      | ([], _) => .error .malformed
      | (digits, rest) =>
        let (significand, count) := appendDigits significand digits
        let exponent : Int := dropped - count
        match rest with
        | letter :: after =>
          if isExponent letter then readExponent negative significand exponent after
          else do .ok (← realOf negative significand exponent, rest)
        | [] => do .ok (← realOf negative significand exponent, rest)
    else if isExponent byte then readExponent negative significand dropped rest
    else whole bytes
  | [] => whole bytes
where
  /-- A number without fraction and exponent. -/
  whole (bytes : List UInt8) : Except Fault (Number × List UInt8) :=
    if dropped = 0 && !negative then .ok (.integer significand, bytes)
    else if dropped = 0 && 0 < significand && significand ≤ 0x8000000000000000 then
      .ok (.integer (-significand), bytes)
    else do .ok (← realOf negative significand dropped, bytes)

/-- A number after its sign. No digit follows a leading zero. -/
def readUnsigned (negative : Bool) (bytes : List UInt8) : Except Fault (Number × List UInt8) :=
  match bytes with
  | [] => .error .ended
  | byte :: rest =>
    if byte = byteOf '0' then
      if (rest.head?.map isDigit).getD false then .error .malformed
      else readNumberTail negative 0 0 rest
    else if isDigit byte then
      let (digits, rest) := spanDigits bytes
      let (significand, count) := appendDigits 0 digits
      readNumberTail negative significand (digits.length - count) rest
    else .error .malformed

/-- The exponent of a number that is passed over, after its letter. -/
def skipExponent (bytes : List UInt8) : Except Fault (List UInt8) :=
  let bytes := match bytes with
    | byte :: rest => if byte = byteOf '+' || byte = byteOf '-' then rest else bytes
    | [] => bytes
  match spanDigits bytes with
  | ([], _) => .error .malformed
  | (_, rest) => .ok rest

/-- The bytes after a number that is passed over, from its first digit. -/
def skipUnsigned (bytes : List UInt8) : Except Fault (List UInt8) :=
  let isExponent byte := byte = byteOf 'e' || byte = byteOf 'E'
  let tail bytes := match bytes with
    | byte :: rest => if isExponent byte then skipExponent rest else .ok bytes
    | [] => .ok []
  let fraction bytes := match bytes with
    | byte :: rest =>
      if byte = byteOf '.' then
        match spanDigits rest with
        | ([], _) => .error .malformed
        | (_, rest) => tail rest
      else tail bytes
    | [] => .ok []
  match bytes with
  | [] => .error .malformed
  | byte :: rest =>
    if byte = byteOf '0' then
      if (rest.head?.map isDigit).getD false then .error .malformed else fraction rest
    else if isDigit byte then fraction (spanDigits bytes).2
    else .error .malformed

/-- The decimal form of an integer. -/
def decimal (value : Int) : List UInt8 :=
  let digits := (Nat.toDigits 10 value.natAbs).map byteOf
  if value < 0 then byteOf '-' :: digits else digits

end WindowJoin.Json

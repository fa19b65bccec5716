import WindowJoin.Text.White
import WindowJoin.Time.Calendar
import WindowJoin.Time.Instant

/-!
# Instants as text

`Instant.render` writes an instant in the form of RFC 3339, always in UTC, with as few of 0, 3, 6 or
9 fraction digits as it needs and with a sign before a year outside 0 to 9999. `Instant.read?` reads
that form and laxer ones: white space before numbers and separators, one-digit numbers, a blank
between date and time, any offset from UTC. A leap second is the second 60.
-/

namespace WindowJoin

/-- The decimal digits of a number, at least `width` of them. -/
def paddedDigits (width number : Nat) : List Char :=
  let digits := Nat.toDigits 10 number
  List.replicate (width - digits.length) '0' ++ digits

/-- How the parts of an instant are put together: what stands between date and time, and what
follows the time to say that it is UTC. -/
structure InstantLayout where
  separator : Char
  zone : List Char

/-- The layout of instants in documents. -/
def InstantLayout.document : InstantLayout :=
  ⟨'T', ['Z']⟩

/-- The layout of instants in messages. -/
def InstantLayout.message : InstantLayout :=
  ⟨' ', [' ', 'U', 'T', 'C']⟩

/-- A year, in four digits from 0 to 9999 and with a sign outside that range. -/
def renderYear (year : Int) : List Char :=
  if 0 ≤ year ∧ year ≤ 9999 then paddedDigits 4 year.toNat
  else (if 0 ≤ year then '+' else '-') :: paddedDigits 4 year.natAbs

/-- The fraction of a second, in as few groups of three digits as show it exactly. -/
def renderFraction (nanos : Nat) : List Char :=
  if nanos = 0 then []
  else if nanos % 1000000 = 0 then '.' :: paddedDigits 3 (nanos / 1000000)
  else if nanos % 1000 = 0 then '.' :: paddedDigits 6 (nanos / 1000)
  else '.' :: paddedDigits 9 nanos

namespace Instant

/-- The date on which an instant falls. -/
def date (time : Instant) : CivilDate :=
  .ofDayNumber (time.seconds / 86400)

/-- An instant as text. The nanoseconds past a whole second in a leap second show as second 60. -/
def renderChars (layout : InstantLayout) (time : Instant) : List Char :=
  let leap := nanosPerSecond ≤ time.nanos
  let second := time.secondOfDay.toNat % 60 + if leap then 1 else 0
  let nanos := if leap then time.nanos - nanosPerSecond else time.nanos
  renderYear time.date.year ++ '-' :: paddedDigits 2 time.date.month.toNat
    ++ '-' :: paddedDigits 2 time.date.day.toNat
    ++ layout.separator :: paddedDigits 2 (time.secondOfDay.toNat / 3600)
    ++ ':' :: paddedDigits 2 (time.secondOfDay.toNat / 60 % 60)
    ++ ':' :: paddedDigits 2 second ++ renderFraction nanos ++ layout.zone

/-- An instant as text in a layout. -/
def render (layout : InstantLayout) (time : Instant) : String :=
  String.ofList (time.renderChars layout)

end Instant

/-- The number that decimal digits stand for. -/
def digitsValue (digits : List Char) : Nat :=
  digits.foldl (fun value digit => value * 10 + (digit.toNat - '0'.toNat)) 0

/-- At most `limit` decimal digits from the front of the text, and the rest. -/
def takeDigits (limit : Nat) (text : List Char) : List Char × List Char :=
  let digits := (text.take limit).takeWhile Char.isDigit
  (digits, text.drop digits.length)

/-- A number of one to `limit` digits after white space. -/
def readNumber? (limit : Nat) (text : List Char) : Option (Nat × List Char) :=
  match takeDigits limit (skipWhite text) with
  | ([], _) => none
  | (digits, rest) => some (digitsValue digits, rest)

/-- A year after white space: up to four digits, or a sign and any number of digits. -/
def readYear? (text : List Char) : Option (Int × List Char) :=
  match skipWhite text with
  | '-' :: rest => signed rest fun year => -(year : Int)
  | '+' :: rest => signed rest fun year => (year : Int)
  | rest => (readNumber? 4 rest).map fun (year, rest) => ((year : Int), rest)
where
  /-- The digits after a sign. -/
  signed (rest : List Char) (apply : Nat → Int) : Option (Int × List Char) :=
    match takeDigits rest.length rest with
    | ([], _) => none
    | (digits, rest) => some (apply (digitsValue digits), rest)

/-- The rest of the text after white space and one character. -/
def expect? (expected : Char) (text : List Char) : Option (List Char) :=
  match skipWhite text with
  | c :: rest => if c = expected then some rest else none
  | [] => none

/-- The fraction of a second in nanoseconds: nine digits count, and more are skipped. -/
def readFraction? (text : List Char) : Option (Nat × List Char) :=
  match text with
  | '.' :: rest =>
    match takeDigits 9 rest with
    | ([], _) => none
    | (digits, rest) =>
      some (digitsValue digits * Nat.pow 10 (9 - digits.length), rest.dropWhile Char.isDigit)
  | rest => some (0, rest)

/-- Two digits. -/
def readTwoDigits? : List Char → Option (Nat × List Char)
  | tens :: ones :: rest =>
    if tens.isDigit && ones.isDigit then some (digitsValue [tens, ones], rest) else none
  | _ => none

/-- The offset from UTC in seconds: `UTC` or `Z` in either case, or a sign, two digits of hours, any
colons and white space, and two digits of minutes. -/
def readOffset? (text : List Char) : Option (Int × List Char) :=
  match text with
  | [] => none
  | first :: rest =>
    if ((text.take 3).map Char.toUpper) = ['U', 'T', 'C'] then some (0, text.drop 3)
    else if first = 'Z' || first = 'z' then some (0, rest)
    else if first = '+' then signed 1 rest
    else if first = '-' || first = '\u2212' then signed (-1) rest
    else none
where
  /-- The hours and minutes after a sign. -/
  signed (sign : Int) (rest : List Char) : Option (Int × List Char) := do
    let (hours, rest) ← readTwoDigits? rest
    let (minutes, rest) ← readTwoDigits? (rest.dropWhile fun c => c = ':' || isWhite c)
    if minutes < 60 then some (sign * (hours * 3600 + minutes * 60 : Nat), rest) else none

/-- A date and a time of day as read, before they are checked. -/
structure ClockReading where
  date : CivilDate
  hour : Nat
  minute : Nat
  second : Nat
  nanos : Nat
  offset : Int

/-- The instant that a reading stands for, if there is such a date, time and offset and both the
reading and its time in UTC are in range. -/
def ClockReading.instant? (reading : ClockReading) : Option Instant :=
  if reading.date.IsValid ∧ reading.hour < 24 ∧ reading.minute < 60 ∧ reading.second ≤ 60 ∧
      reading.offset.natAbs < 86400 then do
    let second := Nat.min reading.second 59
    let nanos := reading.nanos + if reading.second = 60 then nanosPerSecond else 0
    let here : Int := reading.date.dayNumber * 86400
      + (reading.hour * 3600 + reading.minute * 60 + second : Nat)
    let _ ← Instant.ofParts? here nanos
    Instant.ofParts? (here - reading.offset) nanos
  else none

/-- A date and a time of day in the lax form, and the rest of the text. -/
def ClockReading.read? (text : List Char) : Option (ClockReading × List Char) := do
  let (year, text) ← readYear? text
  let text ← expect? '-' text
  let (month, text) ← readNumber? 2 text
  let text ← expect? '-' text
  let (day, text) ← readNumber? 2 text
  let text ← match text with
    | 'T' :: rest | 't' :: rest | ' ' :: rest => some rest
    | _ => none
  let (hour, text) ← readNumber? 2 text
  let text ← expect? ':' text
  let (minute, text) ← readNumber? 2 text
  let text ← expect? ':' text
  let (second, text) ← readNumber? 2 text
  let (nanos, text) ← readFraction? text
  let (offset, text) ← readOffset? (skipWhite text)
  some (⟨⟨year, month, day⟩, hour, minute, second, nanos, offset⟩, text)

/-- The instant that a text stands for, up to white space at its end. -/
def Instant.read? (text : String) : Option Instant := do
  let (reading, rest) ← ClockReading.read? text.toList
  if skipWhite rest = [] then reading.instant? else none

end WindowJoin

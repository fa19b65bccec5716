import WindowJoin.Error
import WindowJoin.Text.Utf8
import WindowJoin.Time.Instant
import WindowJoin.Wire.Words

/-!
# Fields of a byte format

A cursor holds the bytes that are left and their position in the whole, so that an error can say
where the bytes ran out. Fields are big endian. Each field has a reader and a writer; a writer fails
only where a length does not fit the bytes that hold it. `take_append` is the fact that every
reader's round trip rests on.
-/

namespace WindowJoin.Wire

/-- The bytes left to read and the number of bytes before them. -/
structure Cursor where
  rest : List UInt8
  position : Nat
  deriving DecidableEq, Repr

/-- The cursor at the start of some bytes. -/
def Cursor.start (bytes : List UInt8) : Cursor :=
  ⟨bytes, 0⟩

/-- The first `count` bytes of a list and the others, if there are that many. -/
def splitExactly : Nat → List UInt8 → Option (List UInt8 × List UInt8)
  | 0, bytes => some ([], bytes)
  | _ + 1, [] => none
  | count + 1, byte :: rest => (splitExactly count rest).map fun (front, back) => (byte :: front, back)

/-- Bytes put in front are split off again. -/
theorem split_exactly_append (front back : List UInt8) :
    splitExactly front.length (front ++ back) = some (front, back) := by
  induction front with
  | nil => rfl
  | cons byte rest ih => simp [splitExactly, ih]

/-- A split loses nothing, and its first part has the length asked for. -/
theorem append_of_split_exactly {count : Nat} {bytes front back : List UInt8}
    (h : splitExactly count bytes = some (front, back)) :
    bytes = front ++ back ∧ front.length = count := by
  induction count generalizing bytes front back with
  | zero =>
    obtain ⟨rfl, rfl⟩ : [] = front ∧ bytes = back := by simpa [splitExactly] using h
    exact ⟨rfl, rfl⟩
  | succ count ih =>
    cases bytes with
    | nil => simp [splitExactly] at h
    | cons byte rest =>
      obtain ⟨⟨front', back'⟩, hsplit, hparts⟩ := Option.map_eq_some_iff.1 h
      obtain ⟨rfl, rfl⟩ : byte :: front' = front ∧ back' = back := by simpa using hparts
      obtain ⟨rfl, hlength⟩ := ih hsplit
      simp [hlength]

namespace Cursor

/-- No bytes are left. -/
def isEmpty (cursor : Cursor) : Bool :=
  cursor.rest.isEmpty

/-- The next `count` bytes. -/
def take (cursor : Cursor) (count : Nat) (part : CodecPart) :
    Except CodecError (List UInt8 × Cursor) :=
  match splitExactly count cursor.rest with
  | some (front, back) => .ok (front, ⟨back, cursor.position + count⟩)
  | none => .error (.truncated part cursor.position)

/-- Taking as many bytes as were put in front gives those bytes. -/
theorem take_append (front back : List UInt8) (position : Nat) (part : CodecPart) :
    take ⟨front ++ back, position⟩ front.length part =
      .ok (front, ⟨back, position + front.length⟩) := by
  simp [take, split_exactly_append]

/-- An unsigned number of `width` bytes. -/
def unsigned (cursor : Cursor) (width : Nat) (part : CodecPart) : Except CodecError (Nat × Cursor) :=
  do
    let (bytes, cursor) ← cursor.take width part
    .ok (ofBigEndian bytes, cursor)

/-- A signed number of eight bytes. -/
def signed (cursor : Cursor) (part : CodecPart) : Except CodecError (Int64 × Cursor) := do
  let (value, cursor) ← cursor.unsigned 8 part
  .ok (value.toUInt64.toInt64, cursor)

/-- A text with its length in front, in two bytes. -/
def shortText (cursor : Cursor) (part : CodecPart) : Except CodecError (String × Cursor) := do
  let (length, cursor) ← cursor.unsigned 2 part
  let (bytes, cursor) ← cursor.take length part
  match Utf8.decode? bytes with
  | some text => .ok (text, cursor)
  | none => .error (.invalidUtf8 part)

end Cursor

/-- How a format writes times: as whole milliseconds, or as seconds and nanoseconds. -/
inductive TimeForm where
  | millis
  | precise
  deriving DecidableEq, Repr

/-- The number that stands for no time. -/
def noTime : Int64 := Int64.minValue

/-- A time that may be absent. The nanoseconds of an absent time are read too. -/
def Cursor.optionalTime (cursor : Cursor) (form : TimeForm) (part : CodecPart) :
    Except CodecError (Option Instant × Cursor) :=
  match form with
  | .millis => do
    let (millis, cursor) ← cursor.signed part
    if millis = noTime then .ok (none, cursor)
    else
      match Instant.ofMillis? millis.toInt with
      | some time => .ok (some time, cursor)
      | none => .error (.invalidTimestamp millis)
  | .precise => do
    let (seconds, cursor) ← cursor.signed part
    let (nanos, cursor) ← cursor.unsigned 4 part
    if seconds = noTime then .ok (none, cursor)
    else
      match Instant.ofParts? seconds.toInt nanos with
      | some time => .ok (some time, cursor)
      | none => .error (.invalidPreciseTimestamp seconds nanos)

/-- A time that must be there. -/
def Cursor.time (cursor : Cursor) (form : TimeForm) (part : CodecPart) :
    Except CodecError (Instant × Cursor) := do
  match ← cursor.optionalTime form part with
  | (some time, cursor) => .ok (time, cursor)
  | (none, _) => .error (.missingTimestamp part)

/-- A signed number in eight bytes. -/
def signed (value : Int64) : List UInt8 :=
  bigEndian 8 value.toUInt64.toNat

/-- A count in four bytes, if it fits. -/
def count (value : Nat) (part : CodecPart) : Except CodecError (List UInt8) :=
  if value < 0x100000000 then .ok (bigEndian 4 value) else .error (.fieldTooLong part value)

/-- A text with its length in front, if that fits two bytes. -/
def shortText (text : String) (part : CodecPart) : Except CodecError (List UInt8) :=
  let bytes := Utf8.encode text
  if bytes.length < 0x10000 then .ok (bigEndian 2 bytes.length ++ bytes)
  else .error (.fieldTooLong part bytes.length)

/-- A time that may be absent. -/
def time (form : TimeForm) (time : Option Instant) : List UInt8 :=
  match form, time with
  | .millis, none => signed noTime
  | .millis, some time => signed (Int64.ofInt time.millis)
  | .precise, none => signed noTime ++ bigEndian 4 0
  | .precise, some time => signed (Int64.ofInt time.seconds) ++ bigEndian 4 time.nanos

end WindowJoin.Wire

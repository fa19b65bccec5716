import WindowJoin.Proofs.Time.Millis
import WindowJoin.Wire.EventRecord

/-!
# Fields read back

A field goes through a byte format unharmed if its writer gives bytes from which its reader gives it
back, whatever follows them (`Reads`). Writers refuse only what is too long, so the law of a field with
a length says two things at once (`Writes`): what fits is written and read back, and what does not is
refused for its length. The laws of the parts of a record are put together with `Writes.bind` and
`Reads.bind`.
-/

namespace WindowJoin.Wire

variable {α β : Type}

/-- A reader gives a value for these bytes and goes past them, whatever follows. -/
def Reads (read : Cursor → Except CodecError (α × Cursor)) (bytes : List UInt8) (value : α) :
    Prop :=
  ∀ rest position, read ⟨bytes ++ rest, position⟩ = .ok (value, ⟨rest, position + bytes.length⟩)

/-- Either what is written fits, and its bytes are good for something, or it is refused as too
long. -/
inductive Writes (fits : Prop) (good : List UInt8 → Prop) : Except CodecError (List UInt8) → Prop where
  | written {bytes : List UInt8} : fits → good bytes → Writes fits good (.ok bytes)
  | tooLong {part : CodecPart} {length : Nat} : ¬ fits →
      Writes fits good (.error (.fieldTooLong part length))

variable {read : Cursor → Except CodecError (α × Cursor)} {bytes : List UInt8} {value : α}

/-- What comes behind a reader goes on with the value and with what is left. -/
theorem Reads.then (h : Reads read bytes value) (next : α × Cursor → Except CodecError β)
    (rest : List UInt8) (position : Nat) :
    (read ⟨bytes ++ rest, position⟩ >>= next) =
      next (value, ⟨rest, position + bytes.length⟩) := by
  rw [h]
  rfl

/-- Two readers in turn read what is written in turn. -/
theorem Reads.bind (h : Reads read bytes value) {next : α × Cursor → Except CodecError (β × Cursor)}
    {others : List UInt8} {result : β}
    (hnext : Reads (fun cursor => next (value, cursor)) others result) :
    Reads (fun cursor => read cursor >>= next) (bytes ++ others) result := by
  intro rest position
  show (read ⟨bytes ++ others ++ rest, position⟩ >>= next) = _
  rw [List.append_assoc, h.then, List.length_append, ← Nat.add_assoc]
  exact hnext rest _

/-- A record is written only if each of its parts is, and the rest of it goes on with the bytes of the
part. -/
theorem Writes.bind {fits whole : Prop} {good goodWhole : List UInt8 → Prop}
    {written : Except CodecError (List UInt8)} (h : Writes fits good written) (hpart : whole → fits)
    {next : List UInt8 → Except CodecError (List UInt8)}
    (hnext : ∀ bytes, fits → good bytes → Writes whole goodWhole (next bytes)) :
    Writes whole goodWhole (written >>= next) := by
  cases h with
  | written hfits hgood => exact hnext _ hfits hgood
  | tooLong hnot => exact .tooLong fun hwhole => hnot (hpart hwhole)

theorem reads_take (bytes : List UInt8) (part : CodecPart) :
    Reads (·.take bytes.length part) bytes bytes :=
  fun rest position => Cursor.take_append bytes rest position part

/-- A number that its width can hold is read back. -/
theorem reads_unsigned {width number : Nat} (h : number < valueCount width) (part : CodecPart) :
    Reads (·.unsigned width part) (bigEndian width number) number := by
  intro rest position
  have htake := reads_take (bigEndian width number) part rest position
  rw [length_big_endian] at htake
  simp only [Cursor.unsigned, htake, length_big_endian]
  show Except.ok (ofBigEndian (bigEndian width number), _) = _
  rw [of_big_endian_big_endian, Nat.mod_eq_of_lt h]

theorem reads_signed (number : Int64) (part : CodecPart) :
    Reads (·.signed part) (signed number) number := by
  intro rest position
  have hbound : number.toUInt64.toNat < valueCount 8 := number.toUInt64.toNat_lt
  have hread := reads_unsigned hbound part rest position
  simp only [Cursor.signed, signed, hread]
  show Except.ok (number.toUInt64.toNat.toUInt64.toInt64, _) = _
  simp

/-- A number of 64 bits other than the least one is written as itself, and not as the one that stands
for no time. -/
theorem number_in_range {number : Int} (hlow : -0x8000000000000000 < number)
    (hhigh : number < 0x8000000000000000) :
    (Int64.ofInt number).toInt = number ∧ Int64.ofInt number ≠ noTime := by
  have hnumber : (Int64.ofInt number).toInt = number :=
    Int64.toInt_ofInt_of_le (by omega) (by omega)
  refine ⟨hnumber, fun hnone => ?_⟩
  have hmin : noTime.toInt = -0x8000000000000000 := rfl
  rw [← hnone, hnumber] at hmin
  omega

theorem second_in_range (time : Instant) :
    (Int64.ofInt time.seconds).toInt = time.seconds ∧ Int64.ofInt time.seconds ≠ noTime := by
  have hearliest := time.earliest_le
  have hlatest := time.le_latest
  simp only [earliestSecond, latestSecond] at hearliest hlatest
  exact number_in_range (by omega) (by omega)

theorem millis_in_range (time : Instant) :
    (Int64.ofInt time.millis).toInt = time.millis ∧ Int64.ofInt time.millis ≠ noTime :=
  number_in_range time.millis_bounds.1 time.millis_bounds.2

/-- What is read where a moment was written in a form: the precise form keeps all of it, and the other
one keeps its count of milliseconds, if that is the count of an instant. -/
inductive TimeForm.Keeps : TimeForm → Option Instant → Option Instant → Prop where
  | absent (form : TimeForm) : Keeps form none none
  | millis {time kept : Instant} :
      Instant.ofMillis? time.millis = some kept → Keeps .millis (some time) (some kept)
  | precise (time : Instant) : Keeps .precise (some time) (some time)

/-- The precise form keeps a moment, be it there or not. -/
theorem TimeForm.Keeps.same (moment : Option Instant) : TimeForm.Keeps .precise moment moment := by
  cases moment with
  | none => exact .absent .precise
  | some time => exact .precise time

theorem reads_optional_time {form : TimeForm} {moment kept : Option Instant}
    (h : form.Keeps moment kept) (part : CodecPart) :
    Reads (·.optionalTime form part) (time form moment) kept := by
  cases h with
  | absent form =>
      cases form with
      | millis =>
          intro rest position
          have hmillis := reads_signed noTime part rest position
          simp only [Cursor.optionalTime, time, hmillis]
          rfl
      | precise =>
          refine (reads_signed noTime part).bind ?_
          intro rest position
          have hnanos := reads_unsigned (show 0 < valueCount 4 by decide) part rest position
          simp only [hnanos]
          rfl
  | @millis moment kept hkept =>
      obtain ⟨hmillis, hsome⟩ := millis_in_range moment
      intro rest position
      have hread := reads_signed (Int64.ofInt moment.millis) part rest position
      simp only [Cursor.optionalTime, time, hread]
      show (if Int64.ofInt moment.millis = noTime then _ else _) = _
      rw [if_neg hsome, hmillis, hkept]
  | precise moment =>
      obtain ⟨hsecond, hsome⟩ := second_in_range moment
      have hbound : moment.nanos < valueCount 4 := by
        have hnanos := moment.nanos_bound
        simp only [nanosPerSecond] at hnanos
        simp only [valueCount]
        omega
      refine (reads_signed (Int64.ofInt moment.seconds) part).bind ?_
      intro rest position
      have hnanos := reads_unsigned hbound part rest position
      simp only [hnanos]
      show (if Int64.ofInt moment.seconds = noTime then _ else _) = _
      rw [if_neg hsome, hsecond, Instant.of_parts_parts]

theorem reads_time {form : TimeForm} {moment kept : Instant}
    (h : form.Keeps (some moment) (some kept)) (part : CodecPart) :
    Reads (·.time form part) (time form (some moment)) kept := by
  intro rest position
  have hread := reads_optional_time h part rest position
  simp only [Cursor.time, hread]
  rfl

/-- A number that is written in four bytes. -/
def CountFits (number : Nat) : Prop :=
  number ≤ 0xFFFFFFFF
  deriving Decidable

/-- A text whose length is written in two bytes. -/
def TextFits (text : String) : Prop :=
  (Utf8.encode text).length ≤ 0xFFFF
  deriving Decidable

theorem writes_count (number : Nat) (part readPart : CodecPart) :
    Writes (CountFits number) (Reads (·.unsigned 4 readPart) · number) (count number part) := by
  unfold count
  split
  next hlt => exact .written (Nat.le_of_lt_succ hlt) (reads_unsigned hlt readPart)
  next hge => exact .tooLong fun hfits => hge (Nat.lt_succ_of_le hfits)

theorem writes_short_text (text : String) (part readPart : CodecPart) :
    Writes (TextFits text) (Reads (·.shortText readPart) · text) (shortText text part) := by
  unfold shortText
  dsimp only
  split
  next hlt =>
    refine .written (Nat.le_of_lt_succ hlt) ((reads_unsigned hlt readPart).bind ?_)
    intro rest position
    have hbytes := reads_take (Utf8.encode text) readPart rest position
    simp only [hbytes]
    dsimp only [bind, Except.bind]
    rw [Utf8.decode_encode]
  next hge => exact .tooLong fun hfits => hge (Nat.lt_succ_of_le hfits)

end WindowJoin.Wire

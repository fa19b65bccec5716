import WindowJoin.Error
import WindowJoin.Log.Frame

/-!
# Reading logs

A reader takes bytes from a source that gives as many of them at a time as it likes, and that may be
interrupted before it gives any; an interrupted read is tried again, and one that gives nothing
counts as the end of the bytes. A log ends where its bytes end between two frames, or with a frame of
the last type. The position counts the bytes of the words, payloads and paddings that were read
whole. After an error the reader goes on behind the bytes that it has used up.
-/

namespace WindowJoin.Log

/-- How a source gives its bytes: before each read that succeeds, the number of reads that are
interrupted, and the most bytes that it gives. -/
structure Delivery where
  interruptions : Nat → Nat
  atMost : Nat → Nat

/-- A source of bytes: what is left, how it is given, the number of reads that have succeeded, and
the number that are interrupted before the next one does. -/
structure Source where
  rest : List UInt8
  delivery : Delivery
  reads : Nat
  interruptions : Nat

namespace Source

/-- A source before its first read. -/
def start (bytes : List UInt8) (delivery : Delivery) : Source :=
  ⟨bytes, delivery, 0, delivery.interruptions 0⟩

/-- What one read gives: an interruption, or bytes, of which there may be none. -/
inductive Read where
  | interrupted
  | bytes (bytes : List UInt8)

/-- One read of at most `wanted` bytes. -/
def read (source : Source) (wanted : Nat) : Read × Source :=
  match source.interruptions with
  | left + 1 => (.interrupted, { source with interruptions := left })
  | 0 =>
    let given := min wanted (source.delivery.atMost source.reads)
    (.bytes (source.rest.take given),
      { source with
        rest := source.rest.drop given
        reads := source.reads + 1
        interruptions := source.delivery.interruptions (source.reads + 1) })

/-- Bytes up to a number, or up to a read that gives none. -/
def readUpTo (source : Source) (wanted : Nat) : List UInt8 × Source :=
  match wanted with
  | 0 => ([], source)
  | less + 1 =>
    match hread : source.read (less + 1) with
    | (.interrupted, source) => source.readUpTo (less + 1)
    | (.bytes [], source) => ([], source)
    | (.bytes (byte :: more), source) =>
      let (others, source) := source.readUpTo (less + 1 - (more.length + 1))
      (byte :: more ++ others, source)
termination_by (wanted, source.interruptions)
decreasing_by
  · unfold read at hread
    split at hread
    next left hleft =>
      cases hread
      right
      simp [hleft]
    next => cases hread
  · left
    omega

end Source

/-- A log that is being read. -/
structure Reader where
  source : Source
  position : Nat
  seenHeader : Bool
  seenCheckpoint : Bool
  done : Bool

namespace Reader

/-- Exactly a number of bytes. The bytes are used up even if there are too few of them. -/
def readExactly (reader : Reader) (size : Nat) (part : CodecPart) :
    Except CodecError (List UInt8) × Reader :=
  let (bytes, source) := reader.source.readUpTo size
  if bytes.length = size then
    (.ok bytes, { reader with source, position := reader.position + size })
  else (.error (.truncated part reader.position), { reader with source })

/-- A word, or nothing where the bytes end before it. -/
def readWordOrEnd (reader : Reader) (part : CodecPart) : Except CodecError (Option Nat) × Reader :=
  let (bytes, source) := reader.source.readUpTo 4
  if bytes.length = 4 then
    (.ok (some (Wire.ofLittleEndian bytes)), { reader with source, position := reader.position + 4 })
  else if bytes.isEmpty then (.ok none, { reader with source })
  else (.error (.truncated part reader.position), { reader with source })

/-- A log that is opened: it starts with the magic word and the version. -/
def start (source : Source) : Except CodecError Reader :=
  let (magic, reader) :=
    (⟨source, 0, false, false, false⟩ : Reader).readWordOrEnd .fileMagic
  match magic with
  | .error error => .error error
  | .ok none => .error .missingMagic
  | .ok (some word) =>
    if word ≠ fileMagic then .error .missingMagic
    else
      match reader.readExactly 4 .logVersion with
      | (.error error, _) => .error error
      | (.ok bytes, reader) =>
        let version := Wire.ofLittleEndian bytes
        if version = formatVersion then .ok reader else .error (.unsupportedVersion version)

/-- The record in a frame that has been read, or nothing at the frame that ends the log. A second
header or checkpoint is refused, and a first one counts even if its document cannot be read. -/
def accept (reader : Reader) (kind : FrameKind) (payload : List UInt8) :
    Except CodecError (Option Record) × Reader :=
  match kind with
  | .finish => (.ok none, { reader with done := true })
  | .header =>
    if reader.seenHeader then (.error (.duplicateRecord .fileHeader), reader)
    else
      let reader := { reader with seenHeader := true }
      match propertiesOfJson payload with
      | .ok properties => (.ok (some (.header properties)), reader)
      | .error fault => (.error (.json .fileHeader fault), reader)
  | .checkpoint =>
    if reader.seenCheckpoint then (.error (.duplicateRecord .checkpoint), reader)
    else
      let reader := { reader with seenCheckpoint := true }
      match JoinCheckpoint.ofJson payload with
      | .ok checkpoint => (.ok (some (.checkpoint checkpoint)), reader)
      | .error fault => (.error (.json .checkpoint fault), reader)
  | .regular => (.ok (some (.regular payload)), reader)

/-- The frame after its type. -/
def readFrame (reader : Reader) (kind : FrameKind) : Except CodecError (Option Record) × Reader :=
  match reader.readExactly 4 .recordSize with
  | (.error error, reader) => (.error error, reader)
  | (.ok bytes, reader) =>
    let size := Wire.ofLittleEndian bytes
    if maxPayload < size then (.error (.recordTooLarge size), reader)
    else
      match reader.readExactly size .recordPayload with
      | (.error error, reader) => (.error error, reader)
      | (.ok payload, reader) =>
        match reader.readExactly (padding size) .recordPadding with
        | (.error error, reader) => (.error error, reader)
        | (.ok _, reader) => reader.accept kind payload

/-- The next record, or nothing at the end. -/
def next (reader : Reader) : Except CodecError (Option Record) × Reader :=
  if reader.done then (.ok none, reader)
  else
    match reader.readWordOrEnd .recordType with
    | (.error error, reader) => (.error error, reader)
    | (.ok none, reader) => (.ok none, { reader with done := true })
    | (.ok (some code), reader) =>
      if code = fileMagic then (.error .magicMidStream, reader)
      else
        match FrameKind.ofCode? code with
        | none => (.error (.unknownRecordType code), reader)
        | some kind => reader.readFrame kind

/-- The records up to the end, or the first error. The first argument bounds their number. -/
def records : Nat → Reader → Except CodecError (List Record)
  | 0, _ => .ok []
  | steps + 1, reader =>
    match reader.next with
    | (.error error, _) => .error error
    | (.ok none, _) => .ok []
    | (.ok (some record), reader) => do
      let others ← records steps reader
      .ok (record :: others)

/-- The results of up to a number of calls for the next record, each with the position after it. With
`untilEnd` no call is made after the end or an error. -/
def calls (untilEnd : Bool) : Nat → Reader → List (Except CodecError (Option Record) × Nat)
  | 0, _ => []
  | more + 1, reader =>
    let (result, later) := reader.next
    let goesOn := match result with
      | .ok (some _) => true
      | _ => !untilEnd
    (result, later.position) :: if goesOn then calls untilEnd more later else []

end Reader

/-- All records of a log. Every record takes up bytes, so their number is below that of the bytes. -/
def readRecords (source : Source) : Except CodecError (List Record) := do
  let reader ← Reader.start source
  reader.records (source.rest.length + 1)

end WindowJoin.Log

import WindowJoin.Error
import WindowJoin.Log.Frame

/-!
# Writing logs

A writer hands the parts of its frames to a sink one by one, leaving out empty ones. The sink takes
or refuses each part as a whole; a refusal ends the record, and the parts before it stay in the sink.
The writer can go on after a failure. It writes at most one header and one checkpoint, and counts
one as written only once all its parts are in the sink.
-/

namespace WindowJoin.Log

/-- A sink for bytes: what it holds, the number of writes so far, and whether it takes a write, given
that number, the size that it holds and the size that it is given. -/
structure Sink where
  bytes : List UInt8
  writes : Nat
  takes : Nat → Nat → Nat → Bool

namespace Sink

/-- An empty sink for at most `limit` bytes. -/
def limited (limit : Nat) : Sink :=
  ⟨[], 0, fun _ held size => held + size ≤ limit⟩

/-- The sink with another limit from now on. -/
def withLimit (sink : Sink) (limit : Nat) : Sink :=
  { sink with takes := fun _ held size => held + size ≤ limit }

/-- Why a sink refuses a write. -/
def refusal : CodecError := .io "sink is full"

/-- One write of some bytes. No bytes are no write. -/
def write (sink : Sink) (part : List UInt8) : Except CodecError Unit × Sink :=
  if part.isEmpty then (.ok (), sink)
  else if sink.takes sink.writes sink.bytes.length part.length then
    (.ok (), { sink with bytes := sink.bytes ++ part, writes := sink.writes + 1 })
  else (.error refusal, { sink with writes := sink.writes + 1 })

/-- Writes of several parts, up to the first that is refused. -/
def writeAll (sink : Sink) : List (List UInt8) → Except CodecError Unit × Sink
  | [] => (.ok (), sink)
  | part :: rest =>
    match sink.write part with
    | (.ok (), sink) => sink.writeAll rest
    | (.error error, sink) => (.error error, sink)

end Sink

/-- A log that is being written. -/
structure Writer where
  sink : Sink
  wroteHeader : Bool
  wroteCheckpoint : Bool

namespace Writer

/-- A log that is begun in a sink. -/
def start (sink : Sink) : Except CodecError Unit × Writer :=
  let (result, sink) :=
    sink.writeAll [Wire.littleEndian 4 fileMagic, Wire.littleEndian 4 formatVersion]
  (result, ⟨sink, false, false⟩)

/-- Writes a frame, if its payload is not too large. -/
def writeFrame (writer : Writer) (kind : FrameKind) (payload : List UInt8) :
    Except CodecError Unit × Writer :=
  if maxPayload < payload.length then (.error (.recordTooLarge payload.length), writer)
  else
    let (result, sink) := writer.sink.writeAll (frameParts kind payload)
    (result, { writer with sink })

/-- Writes a record. A second header or checkpoint is refused. -/
def write (writer : Writer) (record : Record) : Except CodecError Unit × Writer :=
  match record with
  | .header _ =>
    if writer.wroteHeader then (.error (.duplicateRecord .fileHeader), writer)
    else
      match writer.writeFrame .header record.payload with
      | (.ok (), writer) => (.ok (), { writer with wroteHeader := true })
      | failed => failed
  | .checkpoint _ =>
    if writer.wroteCheckpoint then (.error (.duplicateRecord .checkpoint), writer)
    else
      match writer.writeFrame .checkpoint record.payload with
      | (.ok (), writer) => (.ok (), { writer with wroteCheckpoint := true })
      | failed => failed
  | .regular payload => writer.writeFrame .regular payload

/-- Writes a regular record of zero bytes. Its size is looked at before its bytes. -/
def writeZeros (writer : Writer) (length : Nat) : Except CodecError Unit × Writer :=
  if maxPayload < length then (.error (.recordTooLarge length), writer)
  else writer.write (.regular (List.replicate length 0))

/-- A record of zero bytes is a regular record. -/
theorem write_zeros_eq (writer : Writer) (length : Nat) :
    writer.writeZeros length = writer.write (.regular (List.replicate length 0)) := by
  unfold writeZeros
  split
  · simp [write, writeFrame, *]
  · rfl

/-- Writes the frame that ends the log. -/
def finish (writer : Writer) : Except CodecError Unit × Writer :=
  writer.writeFrame .finish []

end Writer

end WindowJoin.Log

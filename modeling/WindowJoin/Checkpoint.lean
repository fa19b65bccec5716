import WindowJoin.Json.Reader
import WindowJoin.Message
import WindowJoin.OrderedMap
import WindowJoin.Time.Rfc3339

/-!
# Checkpoints

The join checkpoint holds, for each partition of interactions, the offset and time of the last batch
that was consumed; the billing checkpoint holds the sequence number of the last batch that was
billed. Both only move forward, and both are JSON documents. `JoinCheckpoint.move` refuses an update
that would move a partition back in either way.
-/

namespace WindowJoin

/-- How far a partition has been consumed. -/
structure Progress where
  offset : Option Int64
  enqueuedTime : Option Instant
  deriving DecidableEq, Repr

instance : Inhabited Progress := ⟨⟨none, none⟩⟩

/-- The progress of the partitions of interactions. -/
abbrev JoinCheckpoint := OrderedMap Progress

/-- An update that would move a partition back. -/
structure Regression where
  partition : String
  currentOffset : Option Int64
  offset : Int64
  currentTime : Option Instant
  enqueuedTime : Instant
  deriving DecidableEq, Repr

/-- A value that may be absent, in messages. -/
def optionText {α : Type} (render : α → String) : Option α → String
  | none => "None"
  | some value => "Some(" ++ render value ++ ")"

/-- The refusal in words. -/
def Regression.message (regression : Regression) : String :=
  s!"checkpoint regression on partition {regression.partition}: offset "
    ++ optionText (fun offset => s!"{offset}") regression.currentOffset
    ++ s!" -> {regression.offset}, enqueued time "
    ++ optionText (Instant.render .document) regression.currentTime ++ " -> "
    ++ regression.enqueuedTime.render .message

namespace JoinCheckpoint

/-- The progress of a partition, which has neither offset nor time before its first update. -/
def progress (checkpoint : JoinCheckpoint) (partition : String) : Progress :=
  (checkpoint.get? partition).getD default

/-- The checkpoint with an entry for a partition, which has neither offset nor time if it is new. -/
def enter (checkpoint : JoinCheckpoint) (partition : String) : JoinCheckpoint :=
  if (checkpoint.get? partition).isSome then checkpoint else checkpoint.insert partition default

/-- Moves a partition forward to a position, in the entry that is made for it first. Gives the
refusal of a position that lies behind in either way, and the checkpoint as it is then. -/
def move (checkpoint : JoinCheckpoint) (partition : String) (offset : Int64)
    (enqueuedTime : Instant) : Except Regression Unit × JoinCheckpoint :=
  let entered := checkpoint.enter partition
  let current := entered.progress partition
  if current.offset.any (offset < ·) || current.enqueuedTime.any (enqueuedTime < ·) then
    (.error ⟨partition, current.offset, offset, current.enqueuedTime, enqueuedTime⟩, entered)
  else (.ok (), entered.insert partition ⟨some offset, some enqueuedTime⟩)

/-- The checkpoint with a partition moved forward to a position. -/
def advance (checkpoint : JoinCheckpoint) (partition : String) (offset : Int64)
    (enqueuedTime : Instant) : Except Regression JoinCheckpoint :=
  let (result, moved) := checkpoint.move partition offset enqueuedTime
  result.map fun _ => moved

/-- Moves the partition of a joined batch forward to that batch. -/
def advanceBatch (checkpoint : JoinCheckpoint) (batch : JoinedBatch) :
    Except Regression JoinCheckpoint :=
  checkpoint.advance batch.partition batch.offset batch.enqueuedTime

/-- The checkpoint after a joined batch, whether that moves it forward or is refused. -/
def apply (checkpoint : JoinCheckpoint) (batch : JoinedBatch) : JoinCheckpoint :=
  (checkpoint.move batch.partition batch.offset batch.enqueuedTime).2

end JoinCheckpoint

/-- The sequence number of the last billed batch of each partition. -/
abbrev BillingCheckpoint := OrderedMap Int64

namespace BillingCheckpoint

/-- The sequence number of the last billed batch, or -1 before the first. -/
def lastBilled (checkpoint : BillingCheckpoint) (partition : String) : Int64 :=
  (checkpoint.get? partition).getD (-1)

/-- Marks a batch as billed, unless it or a later one has been. -/
def tryAdvance (checkpoint : BillingCheckpoint) (partition : String) (sequenceNumber : Int64) :
    Option BillingCheckpoint :=
  if checkpoint.lastBilled partition < sequenceNumber then
    some (checkpoint.insert partition sequenceNumber)
  else none

end BillingCheckpoint

namespace Json

/-- A signed number of 64 bits. -/
def readInt64 (bytes : List UInt8) : Except Fault (Int64 × List UInt8) := do
  let (value, rest) ← readInteger Int64.minValue.toInt Int64.maxValue.toInt bytes
  .ok (Int64.ofInt value, rest)

/-- An instant, as a text in the form of RFC 3339. -/
def readInstant (bytes : List UInt8) : Except Fault (Instant × List UInt8) := do
  let (text, rest) ← readText bytes
  match Instant.read? text with
  | some time => .ok (time, rest)
  | none => .error .mismatch

/-- An instant as a text. -/
def instant (time : Instant) : List UInt8 :=
  quoted (time.render .document)

end Json

namespace Progress

/-- The fields of a progress that have been read. A field is absent until its key comes up. -/
structure Fields where
  offset : Option (Option Int64)
  enqueuedTime : Option (Option Instant)

open Json in
/-- The entry of one field. Keys of other fields are passed over, and a key comes up only once. -/
def readEntry (fields : Fields) (key : String) (bytes : List UInt8) :
    Except Fault (Fields × List UInt8) :=
  if key = "Offset" then
    if fields.offset.isSome then .error .mismatch
    else do
      let (offset, rest) ← readOptional readInt64 (← afterColon bytes)
      .ok ({ fields with offset := some offset }, rest)
  else if key = "EnqueuedTimeUtc" then
    if fields.enqueuedTime.isSome then .error .mismatch
    else do
      let (enqueuedTime, rest) ← readOptional readInstant (← afterColon bytes)
      .ok ({ fields with enqueuedTime := some enqueuedTime }, rest)
  else do
    let rest ← skipValue (← afterColon bytes)
    .ok (fields, rest)

open Json in
/-- A progress as an array of its two fields, after the opening bracket. -/
def readArray (bytes : List UInt8) : Except Fault (Progress × List UInt8) := do
  let some bytes ← nextElement true bytes | .error .mismatch
  let (offset, bytes) ← readOptional readInt64 bytes
  let some bytes ← nextElement false bytes | .error .mismatch
  let (enqueuedTime, bytes) ← readOptional readInstant bytes
  let rest ← closeArray bytes
  .ok (⟨offset, enqueuedTime⟩, rest)

open Json in
/-- A progress, as an object or as an array of its fields. -/
def read (bytes : List UInt8) : Except Fault (Progress × List UInt8) :=
  match skipBlanks bytes with
  | [] => .error .ended
  | byte :: rest =>
    if byte = byteOf '[' then readArray rest
    else do
      let (fields, rest) ← readObject readEntry ⟨none, none⟩ (byte :: rest)
      .ok (⟨fields.offset.join, fields.enqueuedTime.join⟩, rest)

open Json in
/-- The object that holds a progress. -/
def write (progress : Progress) : List UInt8 :=
  object [("Offset", optional (fun offset => decimal offset.toInt) progress.offset),
    ("EnqueuedTimeUtc", optional instant progress.enqueuedTime)]

end Progress

namespace JoinCheckpoint

/-- The checkpoint in a document. -/
def ofJson (bytes : List UInt8) : Except Json.Fault JoinCheckpoint := do
  let entries ← Json.readDocument (Json.readEntriesOf Progress.read) bytes
  .ok (.ofList entries)

/-- The document that holds a checkpoint, with the partitions in order. -/
def toJson (checkpoint : JoinCheckpoint) : List UInt8 :=
  Json.object (checkpoint.entries.map fun (partition, progress) => (partition, progress.write))

end JoinCheckpoint

namespace BillingCheckpoint

/-- The checkpoint in a document. -/
def ofJson (bytes : List UInt8) : Except Json.Fault BillingCheckpoint := do
  let entries ← Json.readDocument (Json.readEntriesOf Json.readInt64) bytes
  .ok (.ofList entries)

/-- The document that holds a checkpoint, with the partitions in order. -/
def toJson (checkpoint : BillingCheckpoint) : List UInt8 :=
  Json.object (checkpoint.entries.map fun (partition, sequenceNumber) =>
    (partition, Json.decimal sequenceNumber.toInt))

end BillingCheckpoint

end WindowJoin

import WindowJoin.Wire.EventRecord
import WindowJoin.Wire.Preamble

/-!
# Batches of events on the wire

The body of a transport payload is a sequence of event records with times in milliseconds, up to the
end of the body. A raw event is a payload with the position that the transport gave it;
`decodeBatch` makes a batch of messages of it.
-/

namespace WindowJoin

/-- An event as the transport delivers it. -/
structure RawEvent where
  offset : Int64
  sequenceNumber : Int64
  partition : String
  enqueuedTime : Instant
  body : List UInt8
  deriving DecidableEq, Repr

namespace Wire

/-- The messages of a body, and the number of its records with those that are skipped. -/
structure DecodedEvents where
  messages : List Message
  eventCount : Nat
  deriving DecidableEq, Repr

/-- The records from a cursor to the end. The first argument bounds their number. -/
def readRecords : Nat → Cursor → Except CodecError DecodedEvents
  | 0, _ => .ok ⟨[], 0⟩
  | steps + 1, cursor =>
    if cursor.isEmpty then .ok ⟨[], 0⟩
    else do
      let (message, cursor) ← readRecord .millis cursor
      let others ← readRecords steps cursor
      .ok ⟨message.toList ++ others.messages, others.eventCount + 1⟩

/-- The events of a body. -/
def decodeEventBody (body : List UInt8) : Except CodecError DecodedEvents :=
  readRecords body.length (.start body)

/-- The body that holds messages. -/
def encodeEventBody (messages : List Message) : Except CodecError (List UInt8) :=
  writeRecords .millis messages

/-- The transport payload that holds messages. -/
def encodeEventMessage (messages : List Message) : Except CodecError (List UInt8) := do
  let body ← encodeEventBody messages
  if body.length < 0x100000000 then .ok (Preamble.write ⟨.eventBatch, body.length⟩ ++ body)
  else .error (.fieldTooLong .eventBatch body.length)

/-- The batch of messages in a raw event. -/
def decodeBatch (raw : RawEvent) : Except CodecError MessageBatch := do
  let (_, body) ← splitPayload raw.body
  let events ← decodeEventBody body
  .ok ⟨raw.offset, raw.sequenceNumber, raw.partition, raw.enqueuedTime, events.eventCount,
    events.messages⟩

end Wire

end WindowJoin

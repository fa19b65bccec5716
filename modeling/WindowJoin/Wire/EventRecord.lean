import WindowJoin.Message
import WindowJoin.Wire.Cursor

/-!
# Event records

An event record holds one message: the tag of its kind, its enqueued and client times, its
application and event ids with their lengths, and its payload with its length. A record with an
unknown tag or without an event id is read to its end and skipped.
-/

namespace WindowJoin.Wire

/-- The message of the record at a cursor, or nothing for a record that is skipped. -/
def readRecord (form : TimeForm) (cursor : Cursor) :
    Except CodecError (Option Message × Cursor) := do
  let (tag, cursor) ← cursor.unsigned 1 .payloadType
  let (enqueuedTime, cursor) ← cursor.time form .enqueuedTime
  let (clientTime, cursor) ← cursor.optionalTime form .clientTime
  let (appId, cursor) ← cursor.shortText .appId
  let (eventId, cursor) ← cursor.shortText .eventId
  let (length, cursor) ← cursor.unsigned 4 .payloadLength
  let (payload, cursor) ← cursor.take length .payload
  match PayloadType.ofTag? tag.toUInt8 with
  | none => .ok (none, cursor)
  | some payloadType =>
    if eventId = "" then .ok (none, cursor)
    else .ok (some ⟨appId, eventId, payloadType, enqueuedTime, clientTime, payload⟩, cursor)

/-- The record of a message. -/
def writeRecord (form : TimeForm) (message : Message) : Except CodecError (List UInt8) := do
  let appId ← shortText message.appId .appId
  let eventId ← shortText message.eventId .eventId
  let length ← count message.payload.length .payload
  .ok (message.payloadType.tag :: time form (some message.enqueuedTime)
    ++ time form message.clientTime ++ appId ++ eventId ++ length ++ message.payload)

/-- The records of messages, one after the other. -/
def writeRecords (form : TimeForm) : List Message → Except CodecError (List UInt8)
  | [] => .ok []
  | message :: rest => do
    let first ← writeRecord form message
    let others ← writeRecords form rest
    .ok (first ++ others)

end WindowJoin.Wire

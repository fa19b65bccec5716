import WindowJoin.Wire.EventRecord

/-!
# Joined batches on the wire

A joined record holds one joined batch: its position, its counts, and for each group the number of
its messages and their event records, with times to the nanosecond. Bytes after the last group are
ignored.
-/

namespace WindowJoin.Wire

/-- The messages of a number of records, without those that are skipped. -/
def readGroup : Nat → Cursor → Except CodecError (List Message × Cursor)
  | 0, cursor => .ok ([], cursor)
  | records + 1, cursor => do
    let (message, cursor) ← readRecord .precise cursor
    let (others, cursor) ← readGroup records cursor
    .ok (message.toList ++ others, cursor)

/-- A number of groups. -/
def readGroups : Nat → Cursor → Except CodecError (List (List Message) × Cursor)
  | 0, cursor => .ok ([], cursor)
  | groups + 1, cursor => do
    let (records, cursor) ← cursor.unsigned 4 .group
    let (group, cursor) ← readGroup records cursor
    let (others, cursor) ← readGroups groups cursor
    .ok (group :: others, cursor)

/-- The joined batch at the start of some bytes. -/
def decodeJoined (bytes : List UInt8) : Except CodecError JoinedBatch := do
  let (offset, cursor) ← (Cursor.start bytes).signed .offset
  let (sequenceNumber, cursor) ← cursor.signed .sequenceNumber
  let (partition, cursor) ← cursor.shortText .partitionId
  let (enqueuedTime, cursor) ← cursor.time .precise .enqueuedTime
  let (eventCount, cursor) ← cursor.unsigned 4 .sourceEventCount
  let (groupCount, cursor) ← cursor.unsigned 4 .groupCount
  let (groups, _) ← readGroups groupCount cursor
  .ok ⟨offset, sequenceNumber, partition, enqueuedTime, eventCount, groups⟩

/-- The groups of a joined batch. -/
def writeGroups : List (List Message) → Except CodecError (List UInt8)
  | [] => .ok []
  | group :: rest => do
    let length ← count group.length .group
    let records ← writeRecords .precise group
    let others ← writeGroups rest
    .ok (length ++ records ++ others)

/-- The bytes of a joined batch. -/
def encodeJoined (batch : JoinedBatch) : Except CodecError (List UInt8) := do
  let partition ← shortText batch.partition .partitionId
  let eventCount ← count batch.eventCount .sourceEventCount
  let groupCount ← count batch.groups.length .groupCount
  let groups ← writeGroups batch.groups
  .ok (signed batch.offset ++ signed batch.sequenceNumber ++ partition
    ++ time .precise (some batch.enqueuedTime) ++ eventCount ++ groupCount ++ groups)

end WindowJoin.Wire

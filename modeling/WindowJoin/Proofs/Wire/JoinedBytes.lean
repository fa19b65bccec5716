import Mathlib.Data.List.ReduceOption
import WindowJoin.Proofs.Wire.Consumed
import WindowJoin.Wire.JoinedRecord

/-!
# The bytes of a joined batch

The reader of joined batches skips records, ignores the nanoseconds of absent times, and stops behind the
last group. To say that nothing has been skipped, the batch is read once more with all its records
(`readJoined`), and what is decoded is this without those that are skipped (`decode_joined_eq`). Each part
of what is read comes from the bytes that it is written as (`consumes_group_records`,
`consumes_record_groups`, `consumes_joined`). So a batch with all its records is written as the bytes from
which it has been read, up to the ignored nanoseconds (`Rewritten`, `joined_canonical`).
-/

namespace WindowJoin.Wire

/-- A number of records, with nothing in the place of those that are skipped. -/
def readGroupRecords : Nat → Cursor → Except CodecError (List (Option Message) × Cursor)
  | 0, cursor => .ok ([], cursor)
  | records + 1, cursor => do
    let (record, cursor) ← readRecord .precise cursor
    let (others, cursor) ← readGroupRecords records cursor
    .ok (record :: others, cursor)

/-- The records of a number of groups. -/
def readRecordGroups : Nat → Cursor → Except CodecError (List (List (Option Message)) × Cursor)
  | 0, cursor => .ok ([], cursor)
  | groups + 1, cursor => do
    let (records, cursor) ← cursor.unsigned 4 .group
    let (group, cursor) ← readGroupRecords records cursor
    let (others, cursor) ← readRecordGroups groups cursor
    .ok (group :: others, cursor)

/-- A joined batch as it is read, with nothing in the place of records that are skipped. -/
structure JoinedRecords where
  offset : Int64
  sequenceNumber : Int64
  partition : String
  enqueuedTime : Instant
  eventCount : Nat
  groups : List (List (Option Message))

/-- The joined batch without what is skipped. -/
def JoinedRecords.batch (joined : JoinedRecords) : JoinedBatch :=
  ⟨joined.offset, joined.sequenceNumber, joined.partition, joined.enqueuedTime, joined.eventCount,
    joined.groups.map List.reduceOption⟩

/-- The joined batch at a cursor. -/
def readJoined (cursor : Cursor) : Except CodecError (JoinedRecords × Cursor) := do
  let (offset, cursor) ← cursor.signed .offset
  let (sequenceNumber, cursor) ← cursor.signed .sequenceNumber
  let (partition, cursor) ← cursor.shortText .partitionId
  let (enqueuedTime, cursor) ← cursor.time .precise .enqueuedTime
  let (eventCount, cursor) ← cursor.unsigned 4 .sourceEventCount
  let (groupCount, cursor) ← cursor.unsigned 4 .groupCount
  let (groups, cursor) ← readRecordGroups groupCount cursor
  .ok (⟨offset, sequenceNumber, partition, enqueuedTime, eventCount, groups⟩, cursor)

/-- The records of the joined batch at the start of some bytes. -/
def joinedRecords (bytes : List UInt8) : Except CodecError (List (List (Option Message))) := do
  let (joined, _) ← readJoined (.start bytes)
  .ok joined.groups

theorem to_list_append_reduce_option (record : Option Message) (others : List (Option Message)) :
    record.toList ++ others.reduceOption = (record :: others).reduceOption :=
  to_list_append_filter_map id record others

theorem read_group_eq (records : Nat) (cursor : Cursor) :
    readGroup records cursor =
      (fun (group, later) => (group.reduceOption, later)) <$> readGroupRecords records cursor := by
  induction records generalizing cursor with
  | zero => rfl
  | succ records ih =>
      simp only [readGroup, readGroupRecords, ih, map_bind, bind_map_left,
        to_list_append_reduce_option]
      rfl

theorem read_groups_eq (groups : Nat) (cursor : Cursor) :
    readGroups groups cursor =
      (fun (read, later) => (read.map List.reduceOption, later)) <$>
        readRecordGroups groups cursor := by
  induction groups generalizing cursor with
  | zero => rfl
  | succ groups ih =>
      simp only [readGroups, readRecordGroups, read_group_eq, ih, map_bind, bind_map_left]
      rfl

theorem decode_joined_eq (bytes : List UInt8) :
    decodeJoined bytes = (fun (joined, _) => joined.batch) <$> readJoined (.start bytes) := by
  simp only [decodeJoined, readJoined, read_groups_eq, map_bind, bind_map_left]
  rfl

/-- Bytes that are decoded, with all records kept, are read as the batch with these records. -/
theorem read_joined_of_decode {bytes : List UInt8} {batch : JoinedBatch}
    (h : decodeJoined bytes = .ok batch)
    (hall : joinedRecords bytes = .ok (batch.groups.map (·.map some))) :
    ∃ joined later, readJoined (.start bytes) = .ok (joined, later) ∧ joined.batch = batch ∧
      joined.groups = joined.batch.groups.map (·.map some) := by
  rw [decode_joined_eq] at h
  rw [joinedRecords] at hall
  cases hread : readJoined (.start bytes) with
  | error error =>
      rw [hread] at h
      cases h
  | ok read =>
      rw [hread] at h hall
      cases h
      exact ⟨read.1, read.2, rfl, rfl, Except.ok.inj hall⟩

/-- The bytes from which messages have been read, and those that they are written as. Each message stands
for its record, and the bytes between the records are the same. -/
inductive Rewritten : List Message → List UInt8 → List UInt8 → Prop where
  | same (bytes : List UInt8) : Rewritten [] bytes bytes
  | record {message : Message} {bytes written : List UInt8} :
      RecordRewritten .precise message bytes written → Rewritten [message] bytes written
  | append {messages messages' : List Message} {bytes bytes' written written' : List UInt8} :
      Rewritten messages bytes written → Rewritten messages' bytes' written' →
      Rewritten (messages ++ messages') (bytes ++ bytes') (written ++ written')

/-- If every message has a client time, all bytes are the same. -/
theorem Rewritten.eq_written {messages : List Message} {bytes written : List UInt8}
    (h : Rewritten messages bytes written)
    (htimed : ∀ message ∈ messages, message.clientTime.isSome) : bytes = written := by
  induction h with
  | same bytes => rfl
  | record hrecord => exact hrecord.eq_written fun _ => htimed _ List.mem_cons_self
  | append _ _ ih ih' =>
      rw [ih fun message hmem => htimed message (List.mem_append_left _ hmem),
        ih' fun message hmem => htimed message (List.mem_append_right _ hmem)]

/-- The records of a group, if none of them is skipped, are what its messages are written as, up to
ignored nanoseconds. -/
theorem consumes_group_records (records : Nat) :
    Consumes (readGroupRecords records) fun read bytes => read.length = records ∧
      ∀ messages : List Message, read = messages.map some →
        ∃ written, writeRecords .precise messages = .ok written ∧
          Rewritten messages bytes written := by
  induction records with
  | zero =>
      refine .pure ⟨rfl, fun messages hall => ?_⟩
      obtain rfl := List.map_eq_nil_iff.1 hall.symm
      exact ⟨[], rfl, .same []⟩
  | succ records ih =>
      refine (consumes_record .precise).bind ?_
      intro record front _ hrecord
      refine ih.bind ?_
      rintro others behind - ⟨hlength, hothers⟩
      refine .pure ⟨congrArg (· + 1) hlength, fun messages hall => ?_⟩
      obtain ⟨message, rest, rfl, hmessage, hrest⟩ := List.map_eq_cons_iff.1 hall.symm
      obtain ⟨first, hfirst⟩ := hrecord message hmessage.symm
      obtain ⟨written, hwritten, hbehind⟩ := hothers rest hrest.symm
      refine ⟨first ++ written, ?_, ?_⟩
      · rw [writeRecords, hfirst.write_eq, hwritten]
        rfl
      · rw [List.append_nil]
        exact (Rewritten.record hfirst).append hbehind

theorem consumes_record_groups (groups : Nat) :
    Consumes (readRecordGroups groups) fun read bytes => read.length = groups ∧
      ∀ kept : List (List Message), read = kept.map (·.map some) →
        ∃ written, writeGroups kept = .ok written ∧ Rewritten kept.flatten bytes written := by
  induction groups with
  | zero =>
      refine .pure ⟨rfl, fun kept hall => ?_⟩
      obtain rfl := List.map_eq_nil_iff.1 hall.symm
      exact ⟨[], rfl, .same []⟩
  | succ groups ih =>
      refine (consumes_unsigned 4 .group).bind ?_
      rintro records _ - ⟨rfl, hbound⟩
      refine (consumes_group_records records).bind ?_
      rintro group front - ⟨hrecords, hgroup⟩
      refine ih.bind ?_
      rintro others behind - ⟨hlength, hothers⟩
      refine .pure ⟨congrArg (· + 1) hlength, fun kept hall => ?_⟩
      obtain ⟨messages, rest, rfl, hmessages, hrest⟩ := List.map_eq_cons_iff.1 hall.symm
      obtain ⟨first, hwriteFirst, hfirst⟩ := hgroup messages hmessages.symm
      obtain ⟨written, hwritten, hbehind⟩ := hothers rest hrest.symm
      have hcount : messages.length = records := by
        rw [← hrecords, ← hmessages, List.length_map]
      refine ⟨bigEndian 4 records ++ first ++ written, ?_, ?_⟩
      · rw [writeGroups, hcount, count_of_bound hbound, hwriteFirst, hwritten]
        rfl
      · rw [List.append_nil, List.append_assoc]
        exact (Rewritten.same _).append (hfirst.append hbehind)

/-- The bytes of a joined batch, if no record is skipped, are those that it is written as, up to ignored
nanoseconds. -/
theorem consumes_joined :
    Consumes readJoined fun joined bytes =>
      joined.groups = joined.batch.groups.map (·.map some) →
        ∃ written, encodeJoined joined.batch = .ok written ∧
          Rewritten joined.batch.groups.flatten bytes written := by
  refine (consumes_signed .offset).bind ?_
  rintro offset _ - rfl
  refine (consumes_signed .sequenceNumber).bind ?_
  rintro sequenceNumber _ - rfl
  refine (consumes_short_text .partitionId .partitionId).bind ?_
  intro partition partitionBytes _ hpartition
  refine (consumes_time .precise .enqueuedTime).bind ?_
  rintro enqueuedTime _ - rfl
  refine (consumes_unsigned 4 .sourceEventCount).bind ?_
  rintro eventCount _ - ⟨rfl, hevents⟩
  refine (consumes_unsigned 4 .groupCount).bind ?_
  rintro groupCount _ - ⟨rfl, hbound⟩
  refine (consumes_record_groups groupCount).bind ?_
  rintro groups groupBytes - ⟨hlength, hgroups⟩
  refine .pure fun hall => ?_
  obtain ⟨written, hwritten, hrewritten⟩ := hgroups _ hall
  have hwritten : writeGroups (groups.map List.reduceOption) = .ok written := hwritten
  have hcount : (groups.map List.reduceOption).length = groupCount := by
    rw [List.length_map, hlength]
  refine ⟨signed offset ++ (signed sequenceNumber ++ (partitionBytes ++
    (time .precise (some enqueuedTime) ++ (bigEndian 4 eventCount ++
      (bigEndian 4 groupCount ++ written))))), ?_, ?_⟩
  · simp only [encodeJoined, JoinedRecords.batch, hcount, hpartition, count_of_bound hevents,
      count_of_bound hbound, hwritten, List.append_assoc]
    rfl
  · rw [List.append_nil]
    have hsame := (Rewritten.same (signed offset ++ signed sequenceNumber ++ partitionBytes ++
      time .precise (some enqueuedTime) ++ bigEndian 4 eventCount ++
      bigEndian 4 groupCount)).append hrewritten
    simpa only [List.append_assoc, List.nil_append] using hsame

/-- Bytes that are decoded with all records kept begin with those that the batch is written as, up to
ignored nanoseconds. -/
theorem rewritten_of_decode {bytes : List UInt8} {batch : JoinedBatch}
    (h : decodeJoined bytes = .ok batch)
    (hall : joinedRecords bytes = .ok (batch.groups.map (·.map some))) :
    ∃ read unread written, bytes = read ++ unread ∧ decodeJoined read = .ok batch ∧
      encodeJoined batch = .ok written ∧ Rewritten batch.groups.flatten read written := by
  obtain ⟨joined, later, hread, rfl, hgroups⟩ := read_joined_of_decode h hall
  obtain ⟨read, hbytes, hreads, hrewritten⟩ := consumes_joined _ joined later hread
  obtain ⟨written, hwritten, hsame⟩ := hrewritten hgroups
  refine ⟨read, later.rest, written, hbytes, ?_, hwritten, hsame⟩
  have hagain := hreads [] 0
  rw [List.append_nil] at hagain
  rw [decode_joined_eq, Cursor.start, hagain]
  rfl

/-- A joined batch whose records have all been kept is written as the bytes from which it has been read,
whichever these are, but for the nanoseconds of absent client times: what is read of them is ignored, and
zero is written. If every message has a client time, the bytes are the same. -/
theorem joined_canonical {bytes : List UInt8} {batch : JoinedBatch}
    (h : decodeJoined bytes = .ok batch)
    (hall : joinedRecords bytes = .ok (batch.groups.map (·.map some))) :
    ∃ written, encodeJoined batch = .ok written ∧
      ∀ other, decodeJoined other = .ok batch →
        joinedRecords other = .ok (batch.groups.map (·.map some)) →
        ∃ read unread, other = read ++ unread ∧ decodeJoined read = .ok batch ∧
          Rewritten batch.groups.flatten read written ∧
          ((∀ message ∈ batch.groups.flatten, message.clientTime.isSome) → read = written) := by
  obtain ⟨-, -, written, -, -, hwritten, -⟩ := rewritten_of_decode h hall
  refine ⟨written, hwritten, fun other hother hothers => ?_⟩
  obtain ⟨read, unread, again, hbytes, hread, hagain, hsame⟩ := rewritten_of_decode hother hothers
  cases hagain.symm.trans hwritten
  exact ⟨read, unread, hbytes, hread, hsame, hsame.eq_written⟩

/-- A joined batch of one observation without a client time, in whose place there is one nanosecond. -/
def spareNanos : List UInt8 :=
  signed 5 ++ signed 6 ++ [0, 1, 48] ++ time .precise (some .latest) ++ bigEndian 4 2 ++ bigEndian 4 1 ++
    (bigEndian 4 1 ++ ([3] ++ time .precise (some .earliest) ++ (signed noTime ++ [0, 0, 0, 1]) ++
      [0, 0] ++ [0, 1, 98] ++ bigEndian 4 1 ++ [7]))

theorem joined_canonical_spare :
    ∃ batch written, decodeJoined spareNanos = .ok batch ∧
      joinedRecords spareNanos = .ok (batch.groups.map (·.map some)) ∧
      encodeJoined batch = .ok written ∧
      ∃ read unread, spareNanos = read ++ unread ∧ decodeJoined read = .ok batch ∧
        Rewritten batch.groups.flatten read written := by
  obtain ⟨batch, hdecoded, hall⟩ : ∃ batch, decodeJoined spareNanos = .ok batch ∧
      joinedRecords spareNanos = .ok (batch.groups.map (·.map some)) := ⟨_, rfl, rfl⟩
  obtain ⟨written, hwritten, hothers⟩ := joined_canonical hdecoded hall
  obtain ⟨read, unread, hbytes, hread, hsame, -⟩ := hothers spareNanos hdecoded hall
  exact ⟨batch, written, hdecoded, hall, hwritten, read, unread, hbytes, hread, hsame⟩

/-- A joined batch need not be written as the bytes from which it has been decoded, though no record has
been skipped. -/
theorem joined_spare_nanos_lost :
    ∃ batch, decodeJoined spareNanos = .ok batch ∧
      joinedRecords spareNanos = .ok (batch.groups.map (·.map some)) ∧
      encodeJoined batch ≠ .ok spareNanos := by
  refine ⟨_, rfl, rfl, ?_⟩
  decide

end WindowJoin.Wire

import Mathlib.Data.List.Forall2
import Mathlib.Data.List.ReduceOption
import WindowJoin.Proofs.Wire.Consumed
import WindowJoin.Wire.EventBatch

/-!
# Transport payloads read back

The records of a payload fill all of its body, one behind the other. What is written for messages is read
back as what the form of times keeps of them, without those that have no event id (`writes_records`,
`payload_round_trip`). In the other direction, what is read comes from a piece of the body for each record
(`body_pieces`), and where nothing is skipped these pieces are what the messages are written as
(`written_of_pieces`). So there is one payload for messages that have all been kept
(`payload_canonical`).
-/

namespace WindowJoin

/-- The counts of milliseconds of a message's times are in range. -/
structure Message.MillisInRange (message : Message) : Prop where
  enqueuedTime : message.enqueuedTime.MillisInRange
  clientTime : ∀ time ∈ message.clientTime, time.MillisInRange

instance (message : Message) : Decidable message.MillisInRange :=
  decidable_of_iff (_ ∧ ∀ time ∈ message.clientTime, time.MillisInRange)
    ⟨fun ⟨enqueuedTime, clientTime⟩ => ⟨enqueuedTime, clientTime⟩,
      fun ⟨enqueuedTime, clientTime⟩ => ⟨enqueuedTime, clientTime⟩⟩

/-- What the millisecond form keeps of a message, if its times are in range. -/
theorem Message.MillisInRange.kept {message : Message} (h : message.MillisInRange) :
    ∃ kept, message.KeptAs .millis kept := by
  obtain ⟨enqueuedTime, henqueued⟩ := Instant.of_millis_in_range h.enqueuedTime
  obtain ⟨clientTime, hclient⟩ :
      ∃ clientTime, Wire.TimeForm.Keeps .millis message.clientTime clientTime := by
    cases hclient : message.clientTime with
    | none => exact ⟨none, .absent .millis⟩
    | some time =>
        obtain ⟨kept, hkept⟩ := Instant.of_millis_in_range (h.clientTime time hclient)
        exact ⟨some kept, .millis hkept⟩
  exact ⟨{ message with enqueuedTime, clientTime }, .millis henqueued, hclient, rfl⟩

/-- The messages of records that are not skipped are those with an event id. -/
theorem filter_map_read_back (messages : List Message) :
    messages.filterMap Message.readBack = messages.filter (·.eventId ≠ "") := by
  induction messages with
  | nil => rfl
  | cons message others ih =>
      rw [List.filterMap_cons, List.filter_cons, ih, Message.readBack]
      by_cases hid : message.eventId = "" <;> simp [hid]

namespace Wire

variable {messages kept : List Message}

theorem forall₂_kept (h : ∀ message ∈ messages, message.MillisInRange) :
    ∃ kept, List.Forall₂ (Message.KeptAs .millis) messages kept := by
  induction messages with
  | nil => exact ⟨[], .nil⟩
  | cons message others ih =>
      obtain ⟨first, hfirst⟩ := (h message List.mem_cons_self).kept
      obtain ⟨kept, hkept⟩ := ih fun other hother => h other (List.mem_cons_of_mem _ hother)
      exact ⟨first :: kept, .cons hfirst hkept⟩

/-- A record takes up bytes. -/
theorem Reads.ne_nil {form : TimeForm} {bytes : List UInt8} {record : Option Message}
    (h : Reads (readRecord form) bytes record) : bytes ≠ [] := by
  rintro rfl
  cases h [] 0

theorem big_endian_four (number : Nat) : ∃ a b c d, bigEndian 4 number = [a, b, c, d] :=
  ⟨_, _, _, _, rfl⟩

theorem reads_preamble {size : Nat} (h : size < valueCount 4) (body : List UInt8) :
    Preamble.read (Preamble.write ⟨.eventBatch, size⟩ ++ body) = .ok ⟨.eventBatch, size⟩ := by
  have hkind : bigEndian 2 PayloadKind.eventBatch.code = [0, 1] := rfl
  have hcode : ofBigEndian [0, 1] = PayloadKind.eventBatch.code := rfl
  obtain ⟨a, b, c, d, hword⟩ := big_endian_four size
  have hsize : ofBigEndian (bigEndian 4 size) = size := by
    rw [of_big_endian_big_endian, Nat.mod_eq_of_lt h]
  simp only [Preamble.write, hkind, hword, List.cons_append, List.nil_append, Preamble.read]
  rw [if_neg (by simp), if_pos hcode, ← hword, hsize]

/-- A payload is taken apart into what it was put together from. -/
theorem split_payload_write {body : List UInt8} (h : body.length < valueCount 4) :
    splitPayload (Preamble.write ⟨.eventBatch, body.length⟩ ++ body) =
      .ok (⟨.eventBatch, body.length⟩, body) := by
  have hlength : (Preamble.write ⟨.eventBatch, body.length⟩).length = Preamble.length := by
    simp [Preamble.write, Preamble.length]
  rw [splitPayload, reads_preamble h, ← hlength]
  show (if _ then _ else _) = _
  rw [List.drop_left, if_pos rfl]

/-- Bytes from which the records of a body are read, up to their end. -/
def ReadsBody (bytes : List UInt8) (events : DecodedEvents) : Prop :=
  ∀ steps position, bytes.length ≤ steps → readRecords steps ⟨bytes, position⟩ = .ok events

theorem reads_body_nil : ReadsBody [] ⟨[], 0⟩ := by
  intro steps position _
  cases steps <;> rfl

theorem reads_body_cons {front behind : List UInt8} {record : Option Message}
    {others : DecodedEvents} (h : Reads (readRecord .millis) front record)
    (hothers : ReadsBody behind others) :
    ReadsBody (front ++ behind) ⟨record.toList ++ others.messages, others.eventCount + 1⟩ := by
  intro steps position hsteps
  have hfront := List.length_pos_iff.2 h.ne_nil
  rw [List.length_append] at hsteps
  obtain ⟨steps, rfl⟩ := Nat.exists_eq_succ_of_ne_zero (n := steps) (by omega)
  have hsome : Cursor.isEmpty ⟨front ++ behind, position⟩ = false := by
    simp [Cursor.isEmpty, h.ne_nil]
  simp only [readRecords, hsome, Bool.false_eq_true, if_false, h.then]
  rw [hothers steps _ (by omega)]
  rfl

theorem writes_records (hkept : List.Forall₂ (Message.KeptAs .millis) messages kept) :
    Writes (∀ message ∈ messages, message.Fits)
      (ReadsBody · ⟨kept.filterMap Message.readBack, messages.length⟩)
      (writeRecords .millis messages) := by
  induction hkept with
  | nil => exact .written (by simp) reads_body_nil
  | @cons message first messages others hfirst _ ih =>
      refine (writes_record hfirst).bind (fun h => h message List.mem_cons_self) ?_
      intro front hfront hreadFront
      refine ih.bind (fun h other hother => h other (List.mem_cons_of_mem _ hother)) ?_
      intro behind hbehind hreadBehind
      refine .written (List.forall_mem_cons.2 ⟨hfront, hbehind⟩) ?_
      rw [← to_list_append_filter_map]
      exact reads_body_cons hreadFront hreadBehind

/-- What is decoded from the payload of some messages: of those with an event id, what the form of
times keeps. -/
theorem payload_round_trip {body : List UInt8} (hwritten : encodeEventMessage messages = .ok body)
    (hrange : ∀ message ∈ messages, message.MillisInRange) (offset sequenceNumber : Int64)
    (partition : String) (enqueuedTime : Instant) :
    ∃ kept, List.Forall₂ (Message.KeptAs .millis) (messages.filter (·.eventId ≠ "")) kept ∧
      decodeBatch ⟨offset, sequenceNumber, partition, enqueuedTime, body⟩ =
        .ok ⟨offset, sequenceNumber, partition, enqueuedTime, messages.length, kept⟩ := by
  obtain ⟨kept, hkept⟩ := forall₂_kept hrange
  obtain ⟨records, hrecords, hwritten⟩ := except_bind_ok hwritten
  have hreads : ReadsBody records ⟨kept.filterMap Message.readBack, messages.length⟩ := by
    have hlaw := writes_records hkept
    rw [show writeRecords .millis messages = .ok records from hrecords] at hlaw
    cases hlaw with
    | written _ hreads => exact hreads
  split at hwritten
  next hsize =>
    cases hwritten
    refine ⟨kept.filter (·.eventId ≠ ""), List.rel_filter ?_ hkept, ?_⟩
    · intro message kept hkept
      rw [hkept.others]
    · simp only [decodeBatch, split_payload_write hsize, decodeEventBody, Cursor.start]
      dsimp only [bind, Except.bind]
      rw [hreads records.length 0 (Nat.le_refl _), filter_map_read_back]
  next => cases hwritten

/-- Messages just before 1970 and in a leap second, of which one has no event id. -/
def leapMessages : List Message :=
  let leap : Instant := ⟨1230767999, 1999999999, by decide, by decide, by decide⟩
  let before : Instant := ⟨-1, 999999999, by decide, by decide, by decide⟩
  [⟨"größe", "a", .interaction, before, none, [1, 2]⟩, ⟨"app", "", .dictionary, leap, some leap, [3]⟩,
    ⟨"", "b", .observation, leap, some before, []⟩]

theorem payload_round_trip_leap :
    (∀ message ∈ leapMessages, message.MillisInRange) ∧
      ∃ body kept, encodeEventMessage leapMessages = .ok body ∧
        List.Forall₂ (Message.KeptAs .millis) (leapMessages.filter (·.eventId ≠ "")) kept ∧
        decodeBatch ⟨-1, 7, "0", .latest, body⟩ = .ok ⟨-1, 7, "0", .latest, 3, kept⟩ := by
  have hrange : ∀ message ∈ leapMessages, message.MillisInRange := by decide
  obtain ⟨body, hwritten⟩ : ∃ body, encodeEventMessage leapMessages = .ok body := ⟨_, rfl⟩
  obtain ⟨kept, hkept, hdecoded⟩ := payload_round_trip hwritten hrange (-1) 7 "0" .latest
  exact ⟨hrange, body, kept, hwritten, hkept, hdecoded⟩

/-- A piece of a body is read as a record, and it is what the message of the record is written as, if
the record is not skipped. -/
structure RecordPiece (piece : List UInt8) (record : Option Message) : Prop where
  reads : Reads (readRecord .millis) piece record
  written : ∀ message ∈ record, writeRecord .millis message = .ok piece

theorem record_piece {cursor later : Cursor} {record : Option Message}
    (h : readRecord .millis cursor = .ok (record, later)) :
    ∃ piece, cursor.rest = piece ++ later.rest ∧ RecordPiece piece record := by
  obtain ⟨piece, hpiece, hreads, hwritten⟩ := consumes_record .millis cursor record later h
  refine ⟨piece, hpiece, hreads, fun message hmessage => ?_⟩
  obtain ⟨written, hrewritten⟩ := hwritten message hmessage
  rw [hrewritten.write_eq, hrewritten.eq_written (fun hprecise => nomatch hprecise)]

/-- What is read up to the end of a body comes from pieces that make up all of it. -/
theorem body_pieces {steps : Nat} {cursor : Cursor} {events : DecodedEvents}
    (h : readRecords steps cursor = .ok events) (hsteps : cursor.rest.length ≤ steps) :
    ∃ pieces records, cursor.rest = pieces.flatten ∧ List.Forall₂ RecordPiece pieces records ∧
      events = ⟨records.reduceOption, records.length⟩ := by
  induction steps generalizing cursor events with
  | zero =>
      cases h
      exact ⟨[], [], List.length_eq_zero_iff.1 (Nat.le_zero.1 hsteps), .nil, rfl⟩
  | succ steps ih =>
      rw [readRecords] at h
      split at h
      next hempty =>
        cases h
        exact ⟨[], [], List.isEmpty_iff.1 hempty, .nil, rfl⟩
      next =>
        obtain ⟨⟨record, later⟩, hrecord, h⟩ := except_bind_ok h
        obtain ⟨others, hothers, h⟩ := except_bind_ok h
        cases h
        obtain ⟨piece, hpiece, hfirst⟩ := record_piece hrecord
        have hpositive := List.length_pos_iff.2 hfirst.reads.ne_nil
        rw [hpiece, List.length_append] at hsteps
        obtain ⟨pieces, records, hrest, hpieces, rfl⟩ := ih hothers (by omega)
        refine ⟨piece :: pieces, record :: records, ?_, .cons hfirst hpieces, ?_⟩
        · rw [hpiece, hrest, List.flatten_cons]
        · cases record <;> simp

/-- Where nothing is skipped, the pieces are what the messages are written as. -/
theorem written_of_pieces {pieces : List (List UInt8)} {records : List (Option Message)}
    (h : List.Forall₂ RecordPiece pieces records)
    (hall : ∀ record ∈ records, record.isSome) :
    writeRecords .millis records.reduceOption = .ok pieces.flatten := by
  induction h with
  | nil => rfl
  | @cons piece record pieces records hfirst _ ih =>
      obtain ⟨message, rfl⟩ := Option.isSome_iff_exists.1 (hall record List.mem_cons_self)
      have hothers := ih fun other hother => hall other (List.mem_cons_of_mem _ hother)
      rw [List.reduceOption_cons_of_some, writeRecords, hfirst.written message rfl, hothers]
      rfl

/-- A preamble that is read is what it is written as. -/
theorem write_of_preamble {bytes : List UInt8} {preamble : Preamble}
    (h : Preamble.read bytes = .ok preamble) :
    bytes = preamble.write ++ bytes.drop Preamble.length ∧ preamble.size < valueCount 4 := by
  unfold Preamble.read at h
  split at h
  next reserved version kind₁ kind₂ size₁ size₂ size₃ size₄ body =>
    split at h
    next => cases h
    next hzero =>
      obtain ⟨rfl, rfl⟩ : reserved = 0 ∧ version = 0 := by simpa using hzero
      dsimp only at h
      split at h
      next hcode =>
        cases h
        have hkind := big_endian_of_big_endian [kind₁, kind₂]
        have hsize := big_endian_of_big_endian [size₁, size₂, size₃, size₄]
        rw [hcode] at hkind
        refine ⟨?_, of_big_endian_lt [size₁, size₂, size₃, size₄]⟩
        show _ = [0, 0] ++ bigEndian 2 _ ++ bigEndian 4 _ ++ body
        rw [show bigEndian 2 _ = _ from hkind, show bigEndian 4 _ = _ from hsize]
        rfl
      next => cases h
  next => cases h

/-- A payload that is taken apart is its preamble and its body. -/
theorem append_of_split_payload {bytes body : List UInt8} {preamble : Preamble}
    (h : splitPayload bytes = .ok (preamble, body)) :
    body.length < valueCount 4 ∧ bytes = Preamble.write ⟨.eventBatch, body.length⟩ ++ body := by
  obtain ⟨⟨⟨⟩, size⟩, hread, h⟩ := except_bind_ok h
  obtain ⟨hwrite, hbound⟩ := write_of_preamble hread
  dsimp only at h
  split at h
  next hsize =>
    cases h
    rw [hsize]
    exact ⟨hbound, hwrite⟩
  next => cases h

/-- A payload that is decoded is a preamble and a piece for each record. -/
theorem payload_pieces {raw : RawEvent} {batch : MessageBatch} (h : decodeBatch raw = .ok batch) :
    ∃ pieces records, List.Forall₂ RecordPiece pieces records ∧
      pieces.flatten.length < valueCount 4 ∧
      raw.body = Preamble.write ⟨.eventBatch, pieces.flatten.length⟩ ++ pieces.flatten ∧
      batch.messages = records.reduceOption ∧ batch.eventCount = records.length := by
  obtain ⟨⟨preamble, body⟩, hsplit, h⟩ := except_bind_ok h
  obtain ⟨events, hevents, h⟩ := except_bind_ok h
  obtain ⟨hsize, hbody⟩ := append_of_split_payload hsplit
  obtain ⟨pieces, records, hflat, hpieces, rfl⟩ := body_pieces hevents (Nat.le_refl _)
  cases h
  rw [show body = pieces.flatten from hflat] at hsize hbody
  exact ⟨pieces, records, hpieces, hsize, hbody, rfl, rfl⟩

/-- Without skipped records, a payload is what its messages are written as. -/
theorem encode_of_decoded {raw : RawEvent} {batch : MessageBatch} (h : decodeBatch raw = .ok batch)
    (hnone : batch.eventCount = batch.messages.length) :
    encodeEventMessage batch.messages = .ok raw.body := by
  obtain ⟨pieces, records, hpieces, hsize, hbody, hmessages, hcount⟩ := payload_pieces h
  rw [hcount, hmessages] at hnone
  have hall := List.reduceOption_length_eq_iff.1 hnone.symm
  rw [encodeEventMessage, encodeEventBody, hmessages, written_of_pieces hpieces hall, hbody]
  exact if_pos hsize

/-- All of a payload that is decoded has been read: its preamble, and a piece for each record. So a
payload without skipped records is the one that its messages are written as, and the only such payload
from which they are decoded. -/
theorem payload_canonical {raw : RawEvent} {batch : MessageBatch}
    (h : decodeBatch raw = .ok batch) :
    (∃ pieces records, List.Forall₂ (Reads (readRecord .millis)) pieces records ∧
      raw.body = Preamble.write ⟨.eventBatch, pieces.flatten.length⟩ ++ pieces.flatten ∧
      batch.messages = records.reduceOption ∧ batch.eventCount = records.length) ∧
    (batch.eventCount = batch.messages.length →
      encodeEventMessage batch.messages = .ok raw.body ∧
      ∀ other others, decodeBatch other = .ok others → others.eventCount = others.messages.length →
        others.messages = batch.messages → other.body = raw.body) := by
  constructor
  · obtain ⟨pieces, records, hpieces, -, hbody, hmessages, hcount⟩ := payload_pieces h
    exact ⟨pieces, records, hpieces.imp fun _ _ hpiece => hpiece.reads, hbody, hmessages, hcount⟩
  · intro hnone
    have hwritten := encode_of_decoded h hnone
    refine ⟨hwritten, fun other others hother hothers hsame => ?_⟩
    have hagain := encode_of_decoded hother hothers
    rw [hsame, hwritten] at hagain
    exact (Except.ok.inj hagain).symm

/-- A payload with one record, which has no client time. -/
def absentPayload : RawEvent :=
  ⟨4, 9, "0", .latest, Preamble.write ⟨.eventBatch, 27⟩ ++ ([3] ++ signed (-1) ++ signed noTime ++
    [0, 0] ++ [0, 1, 98] ++ [0, 0, 0, 1, 7])⟩

theorem payload_canonical_absent :
    ∃ message, decodeBatch absentPayload = .ok ⟨4, 9, "0", .latest, 1, [message]⟩ ∧
      encodeEventMessage [message] = .ok absentPayload.body := by
  obtain ⟨message, hdecoded⟩ : ∃ message,
      decodeBatch absentPayload = .ok ⟨4, 9, "0", .latest, 1, [message]⟩ := ⟨_, rfl⟩
  exact ⟨message, hdecoded, ((payload_canonical hdecoded).2 rfl).1⟩

end Wire

end WindowJoin

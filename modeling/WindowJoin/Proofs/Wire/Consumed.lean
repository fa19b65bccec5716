import WindowJoin.Proofs.Wire.Records

/-!
# What has been read, written again

A reader that gives a value has gone past some bytes, and would give the value for these bytes whatever
followed them (`Consumes`). For a field these are the bytes that its writer gives for the value, but for
the nanoseconds of an absent time, which are read and ignored (`TimeForm.ReadFrom`). So a message is
written as the bytes of its record again, up to these nanoseconds (`consumes_record`).
-/

namespace WindowJoin.Wire

/-- Bytes that are read as a time that may be absent: those that it is written as, but with any
nanoseconds if it is absent in the precise form. -/
inductive TimeForm.ReadFrom : TimeForm → Option Instant → List UInt8 → Prop where
  | written (form : TimeForm) (moment : Option Instant) : ReadFrom form moment (time form moment)
  | absent {nanos : List UInt8} : nanos.length = 4 → ReadFrom .precise none (signed noTime ++ nanos)

/-- The bytes of a time are those that it is written as, if none of them is ignored. -/
theorem TimeForm.ReadFrom.eq_written {form : TimeForm} {moment : Option Instant}
    {bytes : List UInt8} (h : form.ReadFrom moment bytes)
    (hexact : form = .precise → moment.isSome) : bytes = time form moment := by
  cases h with
  | written form moment => rfl
  | absent _ => cases hexact rfl

/-- The bytes of a record in front of the client time. -/
def recordLead (form : TimeForm) (message : Message) : List UInt8 :=
  message.payloadType.tag :: time form (some message.enqueuedTime)

/-- The bytes from which a message has been read, and those that it is written as. They differ at most
in how the client time of the message is absent. -/
inductive RecordRewritten (form : TimeForm) (message : Message) :
    List UInt8 → List UInt8 → Prop where
  | intro {client behind : List UInt8} : form.ReadFrom message.clientTime client →
      writeRecord form message =
        .ok (recordLead form message ++ (time form message.clientTime ++ behind)) →
      RecordRewritten form message (recordLead form message ++ (client ++ behind))
        (recordLead form message ++ (time form message.clientTime ++ behind))

namespace RecordRewritten

variable {form : TimeForm} {message : Message} {bytes written : List UInt8}

theorem write_eq (h : RecordRewritten form message bytes written) :
    writeRecord form message = .ok written := by
  cases h with
  | intro _ hwritten => exact hwritten

theorem eq_written (h : RecordRewritten form message bytes written)
    (hexact : form = .precise → message.clientTime.isSome) : bytes = written := by
  cases h with
  | intro hclient _ => rw [hclient.eq_written hexact]

end RecordRewritten

variable {α β : Type}

/-- Where a reader gives a value, it has gone past bytes for which it gives this value whatever follows
them, and which are good for the value. -/
def Consumes (read : Cursor → Except CodecError (α × Cursor)) (good : α → List UInt8 → Prop) : Prop :=
  ∀ cursor value later, read cursor = .ok (value, later) →
    ∃ bytes, cursor.rest = bytes ++ later.rest ∧ Reads read bytes value ∧ good value bytes

/-- A value that is given without reading takes no bytes. -/
theorem Consumes.pure {good : α → List UInt8 → Prop} {value : α} (h : good value []) :
    Consumes (fun cursor => .ok (value, cursor)) good := by
  intro cursor given later hread
  cases hread
  exact ⟨[], rfl, fun _ _ => rfl, h⟩

theorem Consumes.fail {good : α → List UInt8 → Prop} (error : CodecError) :
    Consumes (fun _ => .error error) good :=
  fun _ _ _ hread => nomatch hread

/-- Of two readers in turn, the second one has gone on behind the bytes of the first. -/
theorem Consumes.bind {read : Cursor → Except CodecError (α × Cursor)}
    {next : α × Cursor → Except CodecError (β × Cursor)} {good : α → List UInt8 → Prop}
    {whole : β → List UInt8 → Prop} (h : Consumes read good)
    (hnext : ∀ value front, Reads read front value → good value front →
      Consumes (fun cursor => next (value, cursor)) fun result behind =>
        whole result (front ++ behind)) :
    Consumes (fun cursor => read cursor >>= next) whole := by
  intro cursor result later hread
  obtain ⟨⟨value, middle⟩, hfirst, hrest⟩ := except_bind_ok hread
  obtain ⟨front, hfront, hreads, hgood⟩ := h cursor value middle hfirst
  obtain ⟨behind, hbehind, hreads', hwhole⟩ :=
    hnext value front hreads hgood middle result later hrest
  exact ⟨front ++ behind, by rw [hfront, hbehind, List.append_assoc], hreads.bind hreads', hwhole⟩

theorem consumes_take (count : Nat) (part : CodecPart) :
    Consumes (·.take count part) fun taken bytes => taken = bytes ∧ bytes.length = count := by
  intro cursor taken later hread
  dsimp only [Cursor.take] at hread
  split at hread
  next front back hsplit =>
    cases hread
    obtain ⟨hrest, rfl⟩ := append_of_split_exactly hsplit
    exact ⟨taken, hrest, reads_take taken part, rfl, rfl⟩
  next => cases hread

/-- The bytes of a number are those that it is written as in their width. -/
theorem consumes_unsigned (width : Nat) (part : CodecPart) :
    Consumes (·.unsigned width part) fun number bytes =>
      bytes = bigEndian width number ∧ number < valueCount width := by
  refine (consumes_take width part).bind ?_
  rintro taken front - ⟨rfl, hlength⟩
  refine .pure ⟨?_, ?_⟩
  · rw [List.append_nil, ← hlength, big_endian_of_big_endian]
  · rw [← hlength]
    exact of_big_endian_lt taken

theorem consumes_signed (part : CodecPart) :
    Consumes (·.signed part) fun number bytes => bytes = signed number := by
  refine (consumes_unsigned 8 part).bind ?_
  rintro number front - ⟨rfl, hbound⟩
  have hnumber : number.toUInt64.toInt64.toUInt64.toNat = number := by
    rw [UInt64.toUInt64_toInt64]
    exact UInt64.toNat_ofNat_of_lt' hbound
  refine .pure ?_
  rw [signed, hnumber, List.append_nil]

/-- The bytes of a text are those that it is written as. -/
theorem consumes_short_text (readPart part : CodecPart) :
    Consumes (·.shortText readPart) fun text bytes => shortText text part = .ok bytes := by
  refine (consumes_unsigned 2 readPart).bind ?_
  rintro length front - ⟨rfl, hbound⟩
  refine (consumes_take length readPart).bind ?_
  rintro taken behind - ⟨rfl, rfl⟩
  dsimp only
  cases hdecode : Utf8.decode? taken with
  | none => exact .fail _
  | some text =>
      refine .pure ?_
      have hfits : taken.length < 0x10000 := hbound
      rw [List.append_nil, shortText, Utf8.encode_of_decode hdecode, if_pos hfits]

/-- The bytes of a time are those that it is written as, up to ignored nanoseconds. -/
theorem consumes_optional_time (form : TimeForm) (part : CodecPart) :
    Consumes (·.optionalTime form part) form.ReadFrom := by
  cases form with
  | millis =>
      refine (consumes_signed part).bind ?_
      rintro number front - rfl
      dsimp only
      split
      next hnone =>
        refine .pure ?_
        rw [hnone, List.append_nil]
        exact .written .millis none
      next =>
        cases htime : Instant.ofMillis? number.toInt with
        | none => exact .fail _
        | some moment =>
            refine .pure ?_
            have hbytes : time .millis (some moment) = signed number := by
              rw [time, Instant.millis_of_millis htime, Int64.ofInt_toInt]
            rw [List.append_nil, ← hbytes]
            exact .written .millis (some moment)
  | precise =>
      refine (consumes_signed part).bind ?_
      rintro seconds front - rfl
      refine (consumes_unsigned 4 part).bind ?_
      rintro nanos behind - ⟨rfl, hbound⟩
      dsimp only
      split
      next hnone =>
        refine .pure ?_
        rw [hnone, List.append_nil]
        exact .absent (length_big_endian 4 nanos)
      next =>
        cases htime : Instant.ofParts? seconds.toInt nanos with
        | none => exact .fail _
        | some moment =>
            refine .pure ?_
            obtain ⟨hseconds, hnanos⟩ := Instant.parts_of_of_parts htime
            have hbytes : time .precise (some moment) = signed seconds ++ bigEndian 4 nanos := by
              rw [time, hseconds, hnanos, Int64.ofInt_toInt]
            rw [List.append_nil, ← hbytes]
            exact .written .precise (some moment)

theorem consumes_time (form : TimeForm) (part : CodecPart) :
    Consumes (·.time form part) fun moment bytes => bytes = time form (some moment) := by
  refine (consumes_optional_time form part).bind ?_
  intro moment front _ hfrom
  cases moment with
  | none => exact .fail _
  | some moment =>
      refine .pure ?_
      rw [List.append_nil]
      exact hfrom.eq_written fun _ => rfl

theorem count_of_bound {number : Nat} (h : number < valueCount 4) (part : CodecPart) :
    count number part = .ok (bigEndian 4 number) :=
  if_pos h

/-- The bytes of a record that is not skipped are those that its message is written as, up to ignored
nanoseconds. -/
theorem consumes_record (form : TimeForm) :
    Consumes (readRecord form) fun record bytes =>
      ∀ message ∈ record, ∃ written, RecordRewritten form message bytes written := by
  refine (consumes_unsigned 1 .payloadType).bind ?_
  rintro tag tagBytes - ⟨rfl, htag⟩
  refine (consumes_time form .enqueuedTime).bind ?_
  rintro enqueuedTime _ - rfl
  refine (consumes_optional_time form .clientTime).bind ?_
  intro clientTime clientBytes _ hclient
  refine (consumes_short_text .appId .appId).bind ?_
  intro appId appBytes _ happ
  refine (consumes_short_text .eventId .eventId).bind ?_
  intro eventId eventBytes _ hevent
  refine (consumes_unsigned 4 .payloadLength).bind ?_
  rintro length _ - ⟨rfl, hlength⟩
  refine (consumes_take length .payload).bind ?_
  rintro payload _ - ⟨rfl, rfl⟩
  dsimp only
  split
  next => exact .pure (by simp)
  next type htype =>
    split
    next => exact .pure (by simp)
    next =>
      refine .pure ?_
      rintro message ⟨⟩
      have htag : bigEndian 1 tag = [type.tag] := by
        rw [tag_bytes, ← PayloadType.of_tag_eq_some_iff.1 htype]
        congr 1
        exact (Nat.mod_eq_of_lt htag).symm
      have hwritten : writeRecord form ⟨appId, eventId, type, enqueuedTime, clientTime, payload⟩ =
          .ok ([type.tag] ++ time form (some enqueuedTime) ++ (time form clientTime ++
            (appBytes ++ (eventBytes ++ (bigEndian 4 payload.length ++ payload))))) := by
        simp only [writeRecord, happ, hevent, count_of_bound hlength, List.append_assoc]
        rfl
      rw [htag, ← List.append_assoc, List.append_nil]
      exact ⟨_, .intro hclient hwritten⟩

end WindowJoin.Wire

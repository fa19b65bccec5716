import WindowJoin.Proofs.Wire.Fields

/-!
# Event records read back

A message is written if its ids and its payload fit the bytes that hold their lengths
(`Message.Fits`). Its record is read back as what the form of its times keeps of it
(`Message.KeptAs`), or skipped if it has no event id (`Message.readBack`). `writes_record` says both.
-/

namespace WindowJoin

/-- The message as its record is read: one without an event id is skipped. -/
def Message.readBack (message : Message) : Option Message :=
  if message.eventId = "" then none else some message

/-- What is read of the first record goes in front of what is read of the others. -/
theorem to_list_append_filter_map {α β : Type} (read : α → Option β) (first : α) (others : List α) :
    (read first).toList ++ others.filterMap read = (first :: others).filterMap read := by
  rw [List.filterMap_cons]
  cases read first <;> rfl

/-- The ids and the payload of a message fit the bytes that hold their lengths. -/
structure Message.Fits (message : Message) : Prop where
  appId : Wire.TextFits message.appId
  eventId : Wire.TextFits message.eventId
  payload : Wire.CountFits message.payload.length

instance (message : Message) : Decidable message.Fits :=
  decidable_of_iff (_ ∧ _ ∧ _)
    ⟨fun ⟨appId, eventId, payload⟩ => ⟨appId, eventId, payload⟩,
      fun ⟨appId, eventId, payload⟩ => ⟨appId, eventId, payload⟩⟩

/-- What a form of times keeps of a message: its times as the form keeps them, and all else. -/
structure Message.KeptAs (form : Wire.TimeForm) (message kept : Message) : Prop where
  enqueuedTime : form.Keeps (some message.enqueuedTime) (some kept.enqueuedTime)
  clientTime : form.Keeps message.clientTime kept.clientTime
  others : kept =
    { message with enqueuedTime := kept.enqueuedTime, clientTime := kept.clientTime }

/-- The precise form keeps a message. -/
theorem Message.KeptAs.same (message : Message) : message.KeptAs .precise message :=
  ⟨.precise message.enqueuedTime, .same message.clientTime, rfl⟩

namespace Wire

theorem tag_bytes (type : PayloadType) : [type.tag] = bigEndian 1 type.tag.toNat := by
  cases type <;> decide

theorem writes_record {form : TimeForm} {message kept : Message} (hkept : message.KeptAs form kept) :
    Writes message.Fits (Reads (readRecord form) · kept.readBack) (writeRecord form message) := by
  obtain ⟨henqueued, hclient, hothers⟩ := hkept
  rw [hothers]
  refine (writes_short_text message.appId .appId .appId).bind (·.appId) ?_
  intro appId happId hreadAppId
  refine (writes_short_text message.eventId .eventId .eventId).bind (·.eventId) ?_
  intro eventId heventId hreadEventId
  refine (writes_count message.payload.length .payload .payloadLength).bind (·.payload) ?_
  intro length hlength hreadLength
  refine .written ⟨happId, heventId, hlength⟩ ?_
  have htag : message.payloadType.tag.toNat < valueCount 1 := message.payloadType.tag.toNat_lt
  rw [← List.singleton_append, tag_bytes]
  simp only [List.append_assoc]
  refine (reads_unsigned htag .payloadType).bind ?_
  refine (reads_time henqueued .enqueuedTime).bind ?_
  refine (reads_optional_time hclient .clientTime).bind ?_
  refine hreadAppId.bind (hreadEventId.bind (hreadLength.bind ?_))
  intro rest position
  have hpayload := reads_take message.payload .payload rest position
  have hkind : PayloadType.ofTag? message.payloadType.tag.toNat.toUInt8 =
      some message.payloadType := by
    rw [PayloadType.of_tag_eq_some_iff]
    exact UInt8.ofNat_toNat
  simp only [hpayload, Message.readBack]
  dsimp only [bind, Except.bind]
  rw [hkind]
  dsimp only
  split <;> rfl

end Wire

end WindowJoin

import WindowJoin.Log.Writer
import WindowJoin.Proofs.Checkpoint.RoundTrip
import WindowJoin.Proofs.Log.Grammar

/-!
# What a log holds that has been written

A writer appends the frame of each record that it writes, and of each kind that comes up once it
writes one record (`Writer.write_ok`). So the bytes of a log that has been written
(`Writer.Wrote`) are its opening and the frames of its records, behind which the log may be ended
(`Writer.Wrote.contains`), and each of these frames holds its record for a reader
(`Record.framed_frame`).
-/

namespace WindowJoin.Log

/-- The properties of a header are read back. -/
theorem properties_of_json_properties_json (properties : OrderedMap String) :
    propertiesOfJson (propertiesJson properties) = .ok properties := by
  have hentries := Json.read_document_entries Json.quoted
    (fun text rest _ => Json.read_text_quoted text rest) properties.entries
  rw [propertiesOfJson, propertiesJson, hentries]
  exact congrArg Except.ok properties.of_list_entries

/-- The frame that a record is written as. -/
def Record.frame (record : Record) : List UInt8 :=
  Log.frame record.kind record.payload

/-- The frames of a log, with the one that ends it if it is ended. -/
def logFrames (records : List Record) (ended : Bool) : List (List UInt8) :=
  records.map Record.frame ++ if ended then [Log.frame .finish []] else []

/-- A frame that is written is complete. -/
theorem framed_frame {kind : FrameKind} {payload : List UInt8} (h : payload.length ≤ maxPayload) :
    Framed kind payload (Log.frame kind payload) := by
  refine ⟨h, List.replicate (padding payload.length) 0, List.length_replicate, ?_⟩
  simp only [Log.frame, frameParts, List.flatten_cons, List.flatten_nil, List.append_nil]

/-- The payload that is written for a record holds it. -/
theorem Record.held_payload (record : Record) : record.HeldBy record.payload := by
  cases record with
  | header properties => exact properties_of_json_properties_json properties
  | checkpoint progress => exact join_of_json_to_json progress
  | regular payload => rfl

/-- The frame that is written for a record holds it. -/
theorem Record.framed_frame {record : Record} (h : record.payload.length ≤ maxPayload) :
    record.FramedIn record.frame :=
  ⟨record.payload, Log.framed_frame h, record.held_payload⟩

/-- The frames that are written for records hold them. -/
theorem framed_records {records : List Record}
    (hsizes : ∀ record ∈ records, record.payload.length ≤ maxPayload) :
    List.Forall₂ Record.FramedIn records (records.map Record.frame) :=
  List.forall₂_map_right_iff.2
    (List.forall₂_same.2 fun record h => Record.framed_frame (hsizes record h))

/-- A reader in front of the frames of a log that is ended reads its records, and then the log ends
behind the last frame. -/
theorem Reader.reads_ended {records : List Record} {reader : Reader} {more : List UInt8}
    {position : Nat} (hsizes : ∀ record ∈ records, record.payload.length ≤ maxPayload)
    (hsingle : ∀ kind : FrameKind, kind.Single →
      records.countP (·.kind = kind) + (reader.seen kind).toNat ≤ 1)
    (hat : reader.At ((logFrames records true).flatten ++ more) position)
    (hopen : reader.done = false) :
    ∃ later last, Reads reader records later ∧ later.next = (.ok none, last) ∧
      last.position = position + (logFrames records true).flatten.length := by
  have hframes : (logFrames records true).flatten =
      (records.map Record.frame).flatten ++ Log.frame .finish [] := by
    rw [logFrames, if_pos rfl, List.flatten_append, List.flatten_singleton]
  rw [hframes, List.append_assoc] at hat
  obtain ⟨later, hreads, hlater, hgoing⟩ :=
    reads_frames (framed_records hsizes) hat hopen hsingle
  obtain ⟨last, hlast, hnext⟩ := next_frame hlater hgoing (framed_frame (Nat.zero_le _))
  refine ⟨later, _, hreads, hnext, ?_⟩
  rw [hframes, List.length_append, ← Nat.add_assoc]
  exact hlast.position

namespace Sink

/-- An empty sink that takes every write, as memory does. -/
def inMemory : Sink := ⟨[], 0, fun _ _ _ => true⟩

/-- A write that goes through appends its part. -/
theorem write_ok {sink later : Sink} {part : List UInt8} (h : sink.write part = (.ok (), later)) :
    later.bytes = sink.bytes ++ part := by
  unfold write at h
  split at h
  next hempty =>
    cases h
    rw [List.isEmpty_iff.1 hempty, List.append_nil]
  next =>
    split at h
    next => cases h; rfl
    next => cases h

/-- Writes that all go through append their parts. -/
theorem write_all_ok {sink later : Sink} {parts : List (List UInt8)}
    (h : sink.writeAll parts = (.ok (), later)) : later.bytes = sink.bytes ++ parts.flatten := by
  induction parts generalizing sink with
  | nil =>
      cases h
      exact (List.append_nil _).symm
  | cons part parts ih =>
      rw [writeAll] at h
      split at h
      next middle hpart =>
        rw [ih h, write_ok hpart, List.flatten_cons, List.append_assoc]
      next => cases h

end Sink

namespace Writer

variable {writer later : Writer}

/-- The kinds of records that have been written, of those that come up once. -/
def written (writer : Writer) : FrameKind → Bool
  | .header => writer.wroteHeader
  | .checkpoint => writer.wroteCheckpoint
  | .regular => false
  | .finish => false

/-- The writer after a record of a kind. -/
def mark (writer : Writer) : FrameKind → Writer
  | .header => { writer with wroteHeader := true }
  | .checkpoint => { writer with wroteCheckpoint := true }
  | .regular => writer
  | .finish => writer

/-- A record of a kind marks that kind as written, and no other. -/
theorem written_mark (writer : Writer) (kind : FrameKind) {single : FrameKind}
    (h : single.Single) :
    (writer.mark kind).written single = (decide (kind = single) || writer.written single) := by
  rcases h with rfl | rfl <;> cases kind <;> rfl

theorem sink_mark (writer : Writer) (kind : FrameKind) :
    (writer.mark kind).sink = writer.sink := by
  cases kind <;> rfl

/-- A log is begun with its opening. -/
theorem start_ok {sink : Sink} (h : start sink = (.ok (), writer)) :
    writer.sink.bytes = sink.bytes ++ opening := by
  unfold start at h
  cases hparts : sink.writeAll
      [Wire.littleEndian 4 fileMagic, Wire.littleEndian 4 formatVersion] with
  | mk result after =>
      rw [hparts] at h
      cases h
      simpa [opening] using Sink.write_all_ok hparts

/-- A frame does not count as a record. -/
theorem write_frame_written (writer : Writer) (kind : FrameKind) (payload : List UInt8) :
    (writer.writeFrame kind payload).2.written = writer.written := by
  unfold writeFrame
  split <;> rfl

/-- A frame is written if its payload is not too large and its parts go through. -/
theorem write_frame_ok {kind : FrameKind} {payload : List UInt8}
    (h : writer.writeFrame kind payload = (.ok (), later)) :
    payload.length ≤ maxPayload ∧ later.sink.bytes = writer.sink.bytes ++ frame kind payload := by
  unfold writeFrame at h
  split at h
  next => cases h
  next hsize =>
    obtain ⟨hresult, rfl⟩ := Prod.mk.inj h
    exact ⟨Nat.not_lt.1 hsize, Sink.write_all_ok (Prod.ext hresult rfl)⟩

/-- A record is refused as a second one of its kind, or it is written as a frame, and counts if this
goes through. -/
theorem write_cases (writer : Writer) (record : Record) :
    (∃ error, writer.write record = (.error error, writer)) ∨
      writer.written record.kind = false ∧ writer.write record =
        match writer.writeFrame record.kind record.payload with
        | (.ok (), later) => (.ok (), later.mark record.kind)
        | failed => failed := by
  cases record with
  | header properties =>
      rw [write]
      split
      next => exact .inl ⟨_, rfl⟩
      next hwritten => exact .inr ⟨Bool.eq_false_iff.2 hwritten, rfl⟩
  | checkpoint progress =>
      rw [write]
      split
      next => exact .inl ⟨_, rfl⟩
      next hwritten => exact .inr ⟨Bool.eq_false_iff.2 hwritten, rfl⟩
  | regular payload =>
      refine .inr ⟨rfl, ?_⟩
      simp only [write, Record.kind, Record.payload]
      rcases writer.writeFrame .regular payload with ⟨_ | _, later⟩ <;> rfl

/-- A record is written as its frame, and if it is of a kind that comes up once, it is the first. -/
theorem write_ok {record : Record} (h : writer.write record = (.ok (), later)) :
    record.payload.length ≤ maxPayload ∧ later.sink.bytes = writer.sink.bytes ++ record.frame ∧
      writer.written record.kind = false ∧ ∀ single : FrameKind, single.Single →
        later.written single = (decide (record.kind = single) || writer.written single) := by
  rcases writer.write_cases record with ⟨error, hwrite⟩ | ⟨hunwritten, hwrite⟩
  · cases hwrite.symm.trans h
  rw [hwrite] at h
  split at h
  next middle hframe =>
    cases h
    obtain ⟨hsize, hbytes⟩ := write_frame_ok hframe
    refine ⟨hsize, by rw [sink_mark]; exact hbytes, hunwritten, fun single hsingle => ?_⟩
    have hwritten := writer.write_frame_written record.kind record.payload
    rw [hframe] at hwritten
    rw [written_mark middle _ hsingle, hwritten]
  next hfailed => exact absurd h (hfailed later)

/-- A failed call forgets nothing that has been written, and counts nothing. -/
theorem write_error {record : Record} {error : CodecError}
    (h : writer.write record = (.error error, later)) : later.written = writer.written := by
  rcases writer.write_cases record with ⟨_, hwrite⟩ | ⟨-, hwrite⟩
  · cases hwrite.symm.trans h
    rfl
  rw [hwrite] at h
  split at h
  next => cases h
  next =>
    have hwritten := writer.write_frame_written record.kind record.payload
    rwa [h] at hwritten

/-- A writer that has been started in an empty sink and has written these records, and the frame that
ends the log if it is ended. Calls that failed and left no bytes are passed over. -/
inductive Wrote : Writer → List Record → Bool → Prop where
  | start {sink : Sink} {writer : Writer} : sink.bytes = [] →
      Writer.start sink = (.ok (), writer) → Wrote writer [] false
  | write {writer later : Writer} {records : List Record} {record : Record} :
      Wrote writer records false → writer.write record = (.ok (), later) →
      Wrote later (records ++ [record]) false
  | refuse {writer later : Writer} {records : List Record} {record : Record} {error : CodecError} :
      Wrote writer records false → writer.write record = (.error error, later) →
      later.sink.bytes = writer.sink.bytes → Wrote later records false
  | finish {writer later : Writer} {records : List Record} :
      Wrote writer records false → writer.finish = (.ok (), later) → Wrote later records true

/-- What the sink of a writer holds: the opening of a log and the frames of its records. -/
structure Contains (writer : Writer) (records : List Record) (ended : Bool) : Prop where
  bytes : writer.sink.bytes = opening ++ (logFrames records ended).flatten
  sizes : ∀ record ∈ records, record.payload.length ≤ maxPayload
  single : ∀ single : FrameKind, single.Single →
    records.countP (·.kind = single) ≤ (writer.written single).toNat

variable {records : List Record}

/-- A log that has been begun holds no records. -/
theorem contains_start {sink : Sink} (hempty : sink.bytes = [])
    (hstart : start sink = (.ok (), writer)) : writer.Contains [] false := by
  refine ⟨?_, List.forall_mem_nil _, fun single _ => Nat.zero_le _⟩
  rw [start_ok hstart, hempty]
  simp [logFrames]

/-- A record that is written is held behind the others. -/
theorem Contains.write {record : Record} (h : writer.Contains records false)
    (hwrite : writer.write record = (.ok (), later)) :
    later.Contains (records ++ [record]) false := by
  obtain ⟨hsize, hbytes, hunwritten, hwritten⟩ := write_ok hwrite
  refine ⟨?_, ?_, fun single hsingle => ?_⟩
  · rw [hbytes, h.bytes]
    simp [logFrames]
  · exact List.forall_mem_append.2 ⟨h.sizes, List.forall_mem_singleton.2 hsize⟩
  · have hcount := h.single single hsingle
    rw [hwritten single hsingle, List.countP_append, List.countP_singleton]
    by_cases hkind : record.kind = single
    · rw [hkind] at hunwritten
      simpa [hkind, hunwritten] using hcount
    · simpa [hkind] using hcount

/-- A call that leaves no bytes and counts nothing changes nothing. -/
theorem Contains.refuse {ended : Bool} (h : writer.Contains records ended)
    (hbytes : later.sink.bytes = writer.sink.bytes) (hwritten : later.written = writer.written) :
    later.Contains records ended := by
  refine ⟨hbytes.trans h.bytes, h.sizes, ?_⟩
  rw [hwritten]
  exact h.single

theorem finish_written (writer : Writer) : writer.finish.2.written = writer.written :=
  writer.write_frame_written .finish []

/-- The frame that ends the log is held behind all records. -/
theorem Contains.finish (h : writer.Contains records false)
    (hfinish : writer.finish = (.ok (), later)) : later.Contains records true := by
  obtain ⟨-, hbytes⟩ := write_frame_ok hfinish
  have hwritten := writer.finish_written
  rw [hfinish] at hwritten
  refine ⟨?_, h.sizes, ?_⟩
  · rw [hbytes, h.bytes]
    simp [logFrames]
  · rw [hwritten]
    exact h.single

/-- The sink of a writer holds what it has written. -/
theorem Wrote.contains {ended : Bool} (h : writer.Wrote records ended) :
    writer.Contains records ended := by
  induction h with
  | start hempty hstart => exact contains_start hempty hstart
  | write _ hwrite ih => exact ih.write hwrite
  | refuse _ hwrite hbytes ih => exact ih.refuse hbytes (write_error hwrite)
  | finish _ hfinish ih => exact ih.finish hfinish

/-- Records of a kind that comes up once are written at most once. -/
theorem Contains.at_most_one {ended : Bool} (h : writer.Contains records ended) (kind : FrameKind)
    (hkind : kind.Single) : records.countP (·.kind = kind) ≤ 1 :=
  Nat.le_trans (h.single kind hkind) (Bool.toNat_le _)

/-- A log that has been ended is opened, and its records are read in turn up to its last byte. -/
theorem Wrote.read_back (h : writer.Wrote records true) {delivery : Delivery}
    (hsteady : delivery.Steady) :
    ∃ reader later last, Reader.start (.start writer.sink.bytes delivery) = .ok reader ∧
      reader.At (logFrames records true).flatten 8 ∧ reader.Reads records later ∧
      later.next = (.ok none, last) ∧ last.position = writer.sink.bytes.length ∧
      records.length ≤ writer.sink.bytes.length := by
  have hcontains := h.contains
  have hrest : (Source.start writer.sink.bytes delivery).rest =
      opening ++ (logFrames records true).flatten := hcontains.bytes
  obtain ⟨reader, hstart, hat, hopen, hunseen⟩ := Reader.start_opening hsteady hrest
  have hsingle (kind : FrameKind) (hkind : kind.Single) :
      records.countP (·.kind = kind) + (reader.seen kind).toNat ≤ 1 := by
    rw [hunseen kind]
    exact hcontains.at_most_one kind hkind
  have hframes : reader.At ((logFrames records true).flatten ++ []) 8 := by
    rwa [List.append_nil]
  obtain ⟨later, last, hreads, hnext, hposition⟩ :=
    Reader.reads_ended hcontains.sizes hsingle hframes hopen
  refine ⟨reader, later, last, hstart, hat, hreads, hnext, ?_, ?_⟩
  · rw [hposition, hcontains.bytes, List.length_append]
    rfl
  · have hlength := length_le_frames (framed_records hcontains.sizes)
    rw [hcontains.bytes, logFrames, List.flatten_append, List.length_append, List.length_append]
    omega

/-- Calls for the next record of a log that has been ended give its records, after each of which the
reader is at a multiple of the alignment, and then the end, behind the last byte. -/
theorem Wrote.calls (h : writer.Wrote records true) {delivery : Delivery}
    (hsteady : delivery.Steady) :
    ∃ reader taken, Reader.start (.start writer.sink.bytes delivery) = .ok reader ∧
      reader.position % alignment = 0 ∧
      taken.map Prod.fst = records.map (fun record => .ok (some record)) ∧
      (∀ call ∈ taken, ∃ record, call.1 = .ok (some record) ∧ call.2 % alignment = 0) ∧
      ∀ number, records.length < number →
        reader.calls true number = taken ++ [(.ok none, writer.sink.bytes.length)] := by
  obtain ⟨reader, later, last, hstart, hat, hreads, hend, hposition, -⟩ := h.read_back hsteady
  obtain ⟨taken, htaken, hcalls⟩ := Reader.calls_of_reads hreads hend fun record h => nomatch h
  rw [hposition] at hcalls
  refine ⟨reader, taken, hstart, by rw [hat.position]; rfl, htaken, ?_, hcalls⟩
  intro call hcall
  have hresult : call.1 ∈ taken.map Prod.fst := List.mem_map_of_mem hcall
  rw [htaken] at hresult
  obtain ⟨record, -, hrecord⟩ := List.mem_map.1 hresult
  have hmem : (.ok (some record), call.2) ∈ reader.calls true (records.length + 1) := by
    rw [hcalls _ (Nat.lt_succ_self _), hrecord]
    exact List.mem_append_left _ hcall
  exact ⟨record, hrecord.symm, Reader.calls_aligned hat rfl hmem⟩

end Writer

end WindowJoin.Log

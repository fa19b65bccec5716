import WindowJoin.Proofs.Log.Written

/-!
# Logs after failed calls

A call of a writer that fails leaves less than its frame in the sink, and often some of it
(`Writer.leaves_call`). The writer goes on at the place where the sink has stopped
(`Writer.Session`). As long as no call puts bytes behind such a piece of a frame, what is read are the
records whose calls went through, and then the end of the log or the error that it is cut off. Behind
the piece nothing can be relied on; the records in front of it are still read first
(`records_after_failures`).
-/

namespace WindowJoin.Log

/-- The calls of a writer. -/
inductive Operation where
  | write (record : Record)
  | finish

namespace Operation

/-- The type of the frame that a call writes. -/
def kind : Operation → FrameKind
  | .write record => record.kind
  | .finish => .finish

/-- The payload of the frame that a call writes. -/
def payload : Operation → List UInt8
  | .write record => record.payload
  | .finish => []

/-- The record that a call writes, if it writes one. -/
def records : Operation → List Record
  | .write record => [record]
  | .finish => []

end Operation

/-- What a log has come to by calls of which some have failed. It is whole as long as failed calls leave
no bytes, is torn by one that leaves a piece of its frame, and has this piece buried when a later call
puts bytes behind it. The records are those whose calls went through, and of a buried piece those in
front of it and those behind it. -/
inductive Progress where
  | whole (records : List Record)
  | ended (records : List Record)
  | torn (records : List Record)
  | buried (records behind : List Record)

/-- What a whole log comes to by a call that goes through. -/
def Progress.onto (records : List Record) : Operation → Progress
  | .write record => .whole (records ++ [record])
  | .finish => .ended records

/-- What a log comes to by another call, which goes through or not, and leaves bytes or not. -/
def Progress.after (operation : Operation) (through grew : Bool) : Progress → Progress
  | .whole records =>
    if through then .onto records operation else if grew then .torn records else .whole records
  | .ended records => .ended records
  | .torn records =>
    if through then .buried records operation.records
    else if grew then .buried records [] else .torn records
  | .buried records behind =>
    .buried records (if through then behind ++ operation.records else behind)

namespace Writer

variable {writer later : Writer} {records : List Record}

/-- One call of a writer. -/
def perform (writer : Writer) : Operation → Except CodecError Unit × Writer
  | .write record => writer.write record
  | .finish => writer.finish

/-- A writer that has been started in an empty sink, with what its log has come to by any calls, whatever
came of each of them. Only when the log is ended no more calls are made. -/
inductive Session : Writer → Progress → Prop where
  | start {sink : Sink} {writer : Writer} : sink.bytes = [] →
      Writer.start sink = (.ok (), writer) → Session writer (.whole [])
  | call {writer later : Writer} {progress : Progress} {operation : Operation}
      {result : Except CodecError Unit} :
      Session writer progress → (∀ records, progress ≠ .ended records) →
      writer.perform operation = (result, later) →
      Session later
        (progress.after operation result.isOk (decide (later.sink.bytes ≠ writer.sink.bytes)))

end Writer

namespace Sink

variable {sink later : Sink} {error : CodecError}

/-- Only bytes are refused, and then none of them is taken. -/
theorem write_error {part : List UInt8} (h : sink.write part = (.error error, later)) :
    part ≠ [] ∧ later.bytes = sink.bytes := by
  unfold write at h
  split at h
  next => cases h
  next hsome =>
    split at h
    next => cases h
    next =>
      cases h
      exact ⟨fun hnone => hsome (List.isEmpty_iff.2 hnone), rfl⟩

/-- Writes up to one that is refused leave a piece of what was to be written, and not all of it. -/
theorem write_all_error {parts : List (List UInt8)}
    (h : sink.writeAll parts = (.error error, later)) :
    ∃ piece more, parts.flatten = piece ++ more ∧ more ≠ [] ∧
      later.bytes = sink.bytes ++ piece := by
  induction parts generalizing sink with
  | nil => cases h
  | cons part parts ih =>
      rw [writeAll] at h
      split at h
      next middle hpart =>
        obtain ⟨piece, more, hflatten, hmore, hbytes⟩ := ih h
        refine ⟨part ++ piece, more, ?_, hmore, ?_⟩
        · rw [List.flatten_cons, hflatten, List.append_assoc]
        · rw [hbytes, write_ok hpart, List.append_assoc]
      next hpart =>
        cases h
        obtain ⟨hsome, hbytes⟩ := write_error hpart
        refine ⟨[], part ++ parts.flatten, rfl, by simp [hsome], ?_⟩
        rw [hbytes, List.append_nil]

end Sink

theorem frame_ne_nil (kind : FrameKind) (payload : List UInt8) : frame kind payload ≠ [] := by
  refine List.ne_nil_of_length_pos ?_
  rw [frame, frameParts, List.flatten_cons, List.length_append, Wire.length_little_endian]
  omega

namespace Writer

variable {writer later : Writer} {records : List Record}

/-- What a call leaves in the sink: its frame if it goes through, and otherwise less than its frame. -/
inductive Leaves (writer : Writer) (kind : FrameKind) (payload : List UInt8) :
    Except CodecError Unit × Writer → Prop where
  | frame {later : Writer} : later.sink.bytes = writer.sink.bytes ++ Log.frame kind payload →
      Leaves writer kind payload (.ok (), later)
  | piece {later : Writer} {error : CodecError} {piece more : List UInt8} :
      Log.frame kind payload = piece ++ more → more ≠ [] →
      (piece ≠ [] → payload.length ≤ maxPayload) →
      later.sink.bytes = writer.sink.bytes ++ piece →
      Leaves writer kind payload (.error error, later)

/-- A call that is refused before it has written anything leaves nothing. -/
theorem Leaves.nothing (writer : Writer) (kind : FrameKind) (payload : List UInt8)
    (error : CodecError) : Leaves writer kind payload (.error error, writer) :=
  .piece (List.nil_append _).symm (frame_ne_nil kind payload) (fun hsome => absurd rfl hsome)
    (List.append_nil _).symm

theorem leaves_frame (writer : Writer) (kind : FrameKind) (payload : List UInt8) :
    Leaves writer kind payload (writer.writeFrame kind payload) := by
  unfold writeFrame
  split
  next => exact .nothing writer kind payload _
  next hsize =>
    cases hparts : writer.sink.writeAll (frameParts kind payload) with
    | mk result sink =>
        cases result with
        | ok => exact .frame (Sink.write_all_ok hparts)
        | error error =>
            obtain ⟨piece, more, hframe, hmore, hbytes⟩ := Sink.write_all_error hparts
            exact .piece hframe hmore (fun _ => Nat.not_lt.1 hsize) hbytes

theorem leaves_call (writer : Writer) (operation : Operation) :
    Leaves writer operation.kind operation.payload (writer.perform operation) := by
  cases operation with
  | finish => exact leaves_frame writer .finish []
  | write record =>
      rcases writer.write_cases record with ⟨error, hwrite⟩ | ⟨-, hwrite⟩
      · rw [perform, hwrite]
        exact .nothing writer _ _ error
      · have hframe := leaves_frame writer record.kind record.payload
        rw [perform, hwrite]
        generalize writer.writeFrame record.kind record.payload = call at hframe
        cases hframe with
        | frame hbytes => exact .frame ((congrArg Sink.bytes (sink_mark _ _)).trans hbytes)
        | piece hframe hmore hsize hbytes => exact .piece hframe hmore hsize hbytes

/-- A failed call counts nothing as written. -/
theorem perform_error {operation : Operation} {error : CodecError}
    (h : writer.perform operation = (.error error, later)) : later.written = writer.written := by
  cases operation with
  | write record => exact write_error h
  | finish =>
      have hwritten := writer.finish_written
      rwa [show writer.finish = (.error error, later) from h] at hwritten

/-- How the sink of a writer holds a log that has come so far: behind a whole log that was written
earlier there may be a piece of a frame, or any bytes. -/
inductive Stands : Writer → Progress → Prop where
  | whole {writer : Writer} {records : List Record} :
      writer.Contains records false → Stands writer (.whole records)
  | ended {writer : Writer} {records : List Record} :
      writer.Contains records true → Stands writer (.ended records)
  | torn {writer earlier : Writer} {records : List Record} {kind : FrameKind}
      {payload piece more : List UInt8} :
      earlier.Contains records false → writer.sink.bytes = earlier.sink.bytes ++ piece →
      piece ≠ [] → more ≠ [] → Framed kind payload (piece ++ more) → Stands writer (.torn records)
  | buried {writer earlier : Writer} {records behind : List Record} :
      earlier.Contains records false → earlier.sink.bytes <+: writer.sink.bytes →
      Stands writer (.buried records behind)

/-- Calls take nothing out of the sink. -/
theorem grows_of_call {operation : Operation} {result : Except CodecError Unit}
    (h : writer.perform operation = (result, later)) :
    writer.sink.bytes <+: later.sink.bytes := by
  have hleaves := leaves_call writer operation
  rw [h] at hleaves
  cases hleaves with
  | frame hbytes => exact ⟨_, hbytes.symm⟩
  | piece _ _ _ hbytes => exact ⟨_, hbytes.symm⟩

/-- A failed call leaves no bytes, or a piece of a frame that is complete only with others. -/
theorem piece_of_failed {operation : Operation} {error : CodecError}
    (h : writer.perform operation = (.error error, later)) :
    later.sink.bytes = writer.sink.bytes ∨
      ∃ kind payload piece more, later.sink.bytes = writer.sink.bytes ++ piece ∧ piece ≠ [] ∧
        more ≠ [] ∧ Framed kind payload (piece ++ more) := by
  have hleaves := leaves_call writer operation
  rw [h] at hleaves
  cases hleaves with
  | @piece _ _ piece more hframe hmore hsize hbytes =>
      by_cases hpiece : piece = []
      · rw [hpiece, List.append_nil] at hbytes
        exact .inl hbytes
      · exact .inr ⟨_, _, piece, more, hbytes, hpiece, hmore, hframe ▸ framed_frame (hsize hpiece)⟩

/-- A call that goes through adds to a whole log what it was made for. -/
theorem Contains.call {operation : Operation} (h : writer.Contains records false)
    (hcall : writer.perform operation = (.ok (), later)) :
    later.Stands (.onto records operation) := by
  cases operation with
  | write record => exact .whole (h.write hcall)
  | finish => exact .ended (h.finish hcall)

/-- What holds of a log so far still holds after another call. -/
theorem Stands.call {progress : Progress} (h : writer.Stands progress)
    (hgoing : ∀ records, progress ≠ .ended records) {operation : Operation}
    {result : Except CodecError Unit} (hcall : writer.perform operation = (result, later)) :
    later.Stands
      (progress.after operation result.isOk (decide (later.sink.bytes ≠ writer.sink.bytes))) := by
  have hgrows := grows_of_call hcall
  cases h with
  | whole hcontains =>
      cases result with
      | ok => exact hcontains.call hcall
      | error error =>
          rcases piece_of_failed hcall with hsame | ⟨_, _, piece, _, hbytes, hpiece, hmore, hframed⟩
          · rw [decide_eq_false (not_not_intro hsame)]
            exact .whole (hcontains.refuse hsame (perform_error hcall))
          · have hgrew : later.sink.bytes ≠ writer.sink.bytes := by simpa [hbytes] using hpiece
            rw [decide_eq_true hgrew]
            exact .torn hcontains hbytes hpiece hmore hframed
  | ended => exact absurd rfl (hgoing _)
  | torn hcontains hbytes hpiece hmore hframed =>
      have hgrown := (List.prefix_append _ _).trans (hbytes ▸ hgrows)
      cases result with
      | ok => exact .buried hcontains hgrown
      | error error =>
          by_cases hsame : later.sink.bytes = writer.sink.bytes
          · rw [decide_eq_false (not_not_intro hsame)]
            exact .torn hcontains (hsame.trans hbytes) hpiece hmore hframed
          · rw [decide_eq_true hsame]
            exact .buried hcontains hgrown
  | buried hcontains hgrown => exact .buried hcontains (hgrown.trans hgrows)

theorem Session.stands {progress : Progress} (h : writer.Session progress) :
    writer.Stands progress := by
  induction h with
  | start hempty hstart => exact .whole (contains_start hempty hstart)
  | call _ hgoing hcall ih => exact ih.call hgoing hcall

/-- Bytes that begin with those of a whole log are opened, and its records are read first. -/
theorem Contains.read_front {ended : Bool} (h : writer.Contains records ended)
    {delivery : Delivery} (hsteady : delivery.Steady) {bytes behind : List UInt8}
    (hbytes : bytes = writer.sink.bytes ++ behind) :
    ∃ reader later position, Reader.start (.start bytes delivery) = .ok reader ∧
      reader.Reads records later ∧ later.done = false ∧
      later.At ((if ended then Log.frame .finish [] else []) ++ behind) position := by
  have hrest : (Source.start bytes delivery).rest = opening ++ ((records.map Record.frame).flatten ++
      ((if ended then Log.frame .finish [] else []) ++ behind)) := by
    rw [Source.start, hbytes, h.bytes, logFrames]
    cases ended <;> simp
  obtain ⟨reader, hstart, hat, hopen, hunseen⟩ := Reader.start_opening hsteady hrest
  obtain ⟨later, hreads, hlater, hgoing⟩ :=
    Reader.reads_frames (framed_records h.sizes) hat hopen fun kind hkind => by
      rw [hunseen kind]
      exact h.at_most_one kind hkind
  exact ⟨reader, later, _, hstart, hreads, hgoing, hlater⟩

end Writer

/-- All calls for the next record give these records, and then the end or an error. -/
def Reader.Gives (reader : Reader) (records : List Record)
    (ending : Except CodecError (Option Record)) : Prop :=
  ∀ number, records.length < number → (reader.calls true number).map Prod.fst =
    records.map (fun record => .ok (some record)) ++ [ending]

section Gives

variable {reader later last : Reader} {records : List Record}

theorem Reader.gives_of_reads (h : reader.Reads records later)
    {ending : Except CodecError (Option Record)} (hnext : later.next = (ending, last))
    (hends : ∀ record, ending ≠ .ok (some record)) : reader.Gives records ending := by
  intro number hnumber
  obtain ⟨taken, htaken, hcalls⟩ := calls_of_reads h hnext hends
  rw [hcalls number hnumber, List.map_append, htaken]
  rfl

theorem Reader.gives_end (h : reader.Reads records later) (hend : later.next = (.ok none, last)) :
    reader.Gives records (.ok none) :=
  gives_of_reads h hend fun _ hsome => nomatch hsome

theorem Reader.gives_error (h : reader.Reads records later) {error : CodecError}
    (herror : later.next = (.error error, last)) : reader.Gives records (.error error) :=
  gives_of_reads h herror fun _ hsome => nomatch hsome

end Gives

/-- What is read of a log that has come so far. -/
def Progress.ReadBy (reader : Reader) : Progress → Prop
  | .whole records | .ended records => reader.Gives records (.ok none)
  | .torn records => ∃ part place, reader.Gives records (.error (.truncated part place))
  | .buried records _ => ∀ number, ∃ others,
      (reader.calls true (records.length + number)).map Prod.fst =
        records.map (fun record => .ok (some record)) ++ others

/-- What is read of a log after any calls, whatever came of them. As long as nothing has been put behind
a piece of a frame that a failed call has left, these are the records whose calls went through, in their
order, and then the end, or behind such a piece the error that the log is cut off. Otherwise these
records are still read first, up to the piece. -/
theorem records_after_failures {writer : Writer} {progress : Progress}
    (h : writer.Session progress) {delivery : Delivery} (hsteady : delivery.Steady) :
    ∃ reader, Reader.start (.start writer.sink.bytes delivery) = .ok reader ∧
      progress.ReadBy reader := by
  cases h.stands with
  | whole hcontains =>
      obtain ⟨reader, later, position, hstart, hreads, hgoing, hlater⟩ :=
        hcontains.read_front hsteady (List.append_nil _).symm
      obtain ⟨last, hend⟩ := Reader.next_ending hlater hgoing .bytes
      exact ⟨reader, hstart, Reader.gives_end hreads hend⟩
  | ended hcontains =>
      obtain ⟨reader, later, position, hstart, hreads, hgoing, hlater⟩ :=
        hcontains.read_front hsteady (List.append_nil _).symm
      obtain ⟨last, hend⟩ :=
        Reader.next_ending hlater hgoing (.finish [] (framed_frame (Nat.zero_le _)))
      exact ⟨reader, hstart, Reader.gives_end hreads hend⟩
  | torn hcontains hbytes hpiece hmore hframed =>
      obtain ⟨reader, later, position, hstart, hreads, hgoing, hlater⟩ :=
        hcontains.read_front hsteady hbytes
      obtain ⟨last, part, place, hend⟩ := Reader.next_cut hlater hgoing hpiece hmore hframed
      exact ⟨reader, hstart, part, place, Reader.gives_error hreads hend⟩
  | buried hcontains hgrown =>
      obtain ⟨behind, hbytes⟩ := hgrown
      obtain ⟨reader, later, position, hstart, hreads, -⟩ :=
        hcontains.read_front hsteady hbytes.symm
      refine ⟨reader, hstart, fun number => ?_⟩
      obtain ⟨taken, htaken, hcalls⟩ := Reader.calls_beyond_reads hreads
      exact ⟨_, by rw [hcalls number, List.map_append, htaken]⟩

/-- A sink in memory that refuses its third write and its tenth. -/
def refusingSink : Sink := ⟨[], 0, fun writes _ _ => writes ≠ 2 ∧ writes ≠ 9⟩

/-- A writer whose first record has been refused. -/
def refusedLog : Writer := ((Writer.start refusingSink).2.write (.regular [1, 2, 3])).2

/-- The writer after a header without properties. -/
def retriedLog : Writer := (refusedLog.write (.header .empty)).2

/-- The writer after a record that has been refused behind its size. -/
def tornLog : Writer := (retriedLog.write (.regular [4, 5])).2

theorem records_after_failures_sample :
    tornLog.Session (.torn [.header .empty]) ∧ Delivery.bytewise.Steady ∧
      ∃ reader part place, Reader.start (.start tornLog.sink.bytes .bytewise) = .ok reader ∧
        reader.Gives [.header .empty] (.error (.truncated part place)) := by
  have hstarted : (Writer.start refusingSink).2.Session (.whole []) :=
    .start (show refusingSink.bytes = [] from rfl) rfl
  have hrefused : refusedLog.Session (.whole []) :=
    @Writer.Session.call _ _ _ (.write (.regular [1, 2, 3])) _ hstarted (fun _ h => nomatch h) rfl
  have hretried : retriedLog.Session (.whole [.header .empty]) :=
    @Writer.Session.call _ _ _ (.write (.header .empty)) _ hrefused (fun _ h => nomatch h) rfl
  have htorn : tornLog.Session (.torn [.header .empty]) :=
    @Writer.Session.call _ _ _ (.write (.regular [4, 5])) _ hretried (fun _ h => nomatch h) rfl
  obtain ⟨reader, hstart, part, place, hgives⟩ :=
    records_after_failures htorn Delivery.bytewise_steady
  exact ⟨htorn, Delivery.bytewise_steady, reader, part, place, hstart, hgives⟩

/-- The writer goes on behind the piece of a frame, and its next record goes through. -/
def buriedLog : Writer := (tornLog.write (.regular [6])).2

/-- What is taken for a frame: the words of the piece, and the first bytes of the frame behind it. -/
def mistakenFrame : List UInt8 :=
  [255, 255, 255, 255, 2, 0, 0, 0, 255, 255, 255, 255, 1, 0, 0, 0]

/-- A record that has been written behind a piece of a frame is not read back. Instead, its first bytes
are read as a record that has never been written, and the log is refused. -/
theorem written_behind_piece_lost :
    (tornLog.write (.regular [6])).1 = .ok () ∧
      ∃ reader, Reader.start (.start buriedLog.sink.bytes .bytewise) = .ok reader ∧
        reader.Gives [.header .empty, .regular [255, 255]] (.error (.unknownRecordType 6)) := by
  have hframes : List.Forall₂ Record.FramedIn [.header .empty, .regular [255, 255]]
      [(Record.header .empty).frame, mistakenFrame] :=
    .cons (Record.framed_frame (by decide))
      (.cons ⟨[255, 255], ⟨by decide, [255, 255, 1, 0, 0, 0], rfl, rfl⟩, rfl⟩ .nil)
  have hrest : (Source.start buriedLog.sink.bytes .bytewise).rest =
      opening ++ ([(Record.header .empty).frame, mistakenFrame].flatten ++
        ([6, 0, 0, 0] ++ [0, 0, 0, 0])) := by
    decide
  obtain ⟨reader, hstart, hat, hopen, hunseen⟩ :=
    Reader.start_opening Delivery.bytewise_steady hrest
  obtain ⟨later, hreads, hlater, hgoing⟩ := Reader.reads_frames hframes hat hopen fun kind hkind => by
    rw [hunseen kind]
    rcases hkind with rfl | rfl <;> decide
  obtain ⟨last, -, hword⟩ := Reader.read_word_append hlater rfl .recordType
  have hnext : later.next = (.error (.unknownRecordType 6), last) := by
    simp only [Reader.next, hgoing, hword]
    rfl
  exact ⟨rfl, reader, hstart, Reader.gives_error hreads hnext⟩

end WindowJoin.Log

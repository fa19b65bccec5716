import WindowJoin.Proofs.Log.Written

/-!
# Logs that are cut off

The first bytes of a log are its opening, whole frames, and a piece of the next frame (`take_flatten`).
The piece is never taken for a record, nor for the end of the log: a log that is cut off within a frame
gives the records in front of it and then the error that it is truncated, and only one that is cut off
between two frames ends as if it were whole (`cut_log_reads`).
-/

namespace WindowJoin.Log

/-- The place in a log where the frame with an index starts, which is where the one before it ends. -/
def frameStart (frames : List (List UInt8)) (index : Nat) : Nat :=
  (opening ++ (frames.take index).flatten).length

theorem length_opening : opening.length = 8 := by
  simp [opening]

/-- The first elements of blocks in a row are whole blocks, as many as lie within them, and a piece of
the next one, which is neither empty nor whole unless there is none. -/
theorem take_flatten {α : Type} (blocks : List (List α)) (length : Nat) :
    ∃ count piece, blocks.flatten.take length = (blocks.take count).flatten ++ piece ∧
      count ≤ blocks.length ∧
      (∀ index < blocks.length,
        index < count ↔ (blocks.take (index + 1)).flatten.length ≤ length) ∧
      (piece = [] ∨ ∃ more, piece ≠ [] ∧ more ≠ [] ∧ blocks[count]? = some (piece ++ more)) := by
  induction blocks generalizing length with
  | nil => exact ⟨0, [], by simp, Nat.le_refl _, by simp, .inl rfl⟩
  | cons block blocks ih =>
      rcases Nat.lt_or_ge length block.length with hwithin | hwhole
      · -- The first block is cut.
        refine ⟨0, block.take length, ?_, Nat.zero_le _, ?_, ?_⟩
        · simp [List.take_append_of_le_length (Nat.le_of_lt hwithin)]
        · intro index _
          simp only [List.take_succ_cons, List.flatten_cons, List.length_append]
          omega
        · by_cases hnone : block.take length = []
          · exact .inl hnone
          · refine .inr ⟨block.drop length, hnone, ?_, by simp⟩
            simpa using hwithin
      · obtain ⟨count, piece, htake, hbound, hcount, hpiece⟩ := ih (length - block.length)
        refine ⟨count + 1, piece, ?_, Nat.succ_le_succ hbound, ?_, ?_⟩
        · rw [List.flatten_cons, List.take_append, List.take_of_length_le hwhole, htake]
          simp
        · intro index hindex
          cases index with
          | zero => simpa using hwhole
          | succ index =>
              rw [Nat.succ_lt_succ_iff, hcount index (Nat.lt_of_succ_lt_succ hindex)]
              simp only [List.take_succ_cons, List.flatten_cons, List.length_append]
              omega
        · simpa using hpiece

/-- Frames start one behind the other. -/
theorem frame_start_mono (frames : List (List UInt8)) {first second : Nat} (h : first ≤ second) :
    frameStart frames first ≤ frameStart frames second := by
  have hlength := (List.take_prefix_take_left (l := frames) h).flatten.length_le
  rw [frameStart, frameStart, List.length_append, List.length_append]
  omega

/-- Behind a piece of a frame that is neither empty nor whole, no frame starts. -/
theorem not_frame_start {frames : List (List UInt8)} {count : Nat} {piece more : List UInt8}
    (hpiece : piece ≠ []) (hmore : more ≠ []) (h : frames[count]? = some (piece ++ more))
    (index : Nat) : frameStart frames index ≠ frameStart frames count + piece.length := by
  have hnext : frameStart frames (count + 1) =
      frameStart frames count + (piece.length + more.length) := by
    simp only [frameStart, List.take_add_one, h, Option.toList_some, List.flatten_append,
      List.flatten_singleton, List.length_append, Nat.add_assoc]
  have hpiece := List.length_pos_iff.2 hpiece
  have hmore := List.length_pos_iff.2 hmore
  rcases Nat.lt_or_ge count index with hbehind | hbefore
  · have hstart := frame_start_mono frames (Nat.succ_le_of_lt hbehind)
    rw [Nat.succ_eq_add_one] at hstart
    omega
  · have hstart := frame_start_mono frames hbefore
    omega

/-- All frames of a log are complete. -/
theorem framed_of_mem {records : List Record} {ended : Bool} {bytes : List UInt8}
    (hsizes : ∀ record ∈ records, record.payload.length ≤ maxPayload)
    (h : bytes ∈ logFrames records ended) : ∃ kind payload, Framed kind payload bytes := by
  rcases List.mem_append.1 h with hrecord | hfinish
  · obtain ⟨record, hmem, rfl⟩ := List.mem_map.1 hrecord
    exact ⟨_, _, framed_frame (hsizes record hmem)⟩
  · cases ended with
    | true =>
        obtain rfl := List.mem_singleton.1 hfinish
        exact ⟨_, _, framed_frame (Nat.zero_le _)⟩
    | false => cases hfinish

namespace Reader

variable {reader : Reader} {position : Nat}

/-- A log that is cut off within its opening is refused. -/
theorem start_cut {source : Source} (hsteady : source.delivery.Steady) {piece more : List UInt8}
    (hrest : source.rest = piece) (hcut : piece ++ more = opening) (hpiece : piece ≠ [])
    (hmore : more ≠ []) : ∃ part place, start source = .error (.truncated part place) := by
  have h := hrest ▸ start_at hsteady
  rcases cut_or_beyond hcut with hshort | ⟨behind, rfl, hcut'⟩
  · -- The bytes end within the magic word.
    rw [Wire.length_little_endian] at hshort
    obtain ⟨later, -, hread⟩ := read_word_short h hpiece hshort .fileMagic
    exact ⟨.fileMagic, 0, by simp only [start, hread]⟩
  · -- They end within the version, or right in front of it.
    obtain ⟨first, hfirst, hread⟩ := read_word_append h (Wire.length_little_endian 4 _) .fileMagic
    have hshort : behind.length < 4 := by
      have hlength := congrArg List.length hcut'
      have hpositive := List.length_pos_iff.2 hmore
      rw [List.length_append, Wire.length_little_endian] at hlength
      omega
    obtain ⟨later, -, hread'⟩ := read_exactly_short hfirst.toAt hshort .logVersion
    refine ⟨.logVersion, 4, ?_⟩
    simp only [start, hread, magic_read_back, ne_eq, not_true_eq_false, if_false, hread',
      Nat.zero_add]

/-- A reader in front of whole frames of a log and a piece of the next one reads the records of the
whole frames. Then the log ends, without an error only if there is no piece. -/
theorem reads_cut {records : List Record} {ended : Bool} {count : Nat} {piece : List UInt8}
    (hsizes : ∀ record ∈ records, record.payload.length ≤ maxPayload)
    (hsingle : ∀ kind : FrameKind, kind.Single → records.countP (·.kind = kind) ≤ 1)
    (hat : reader.At (((logFrames records ended).take count).flatten ++ piece) position)
    (hopen : reader.done = false) (hunseen : ∀ kind, reader.seen kind = false)
    (hbound : count ≤ (logFrames records ended).length)
    (hpiece : piece = [] ∨ ∃ more, piece ≠ [] ∧ more ≠ [] ∧
      (logFrames records ended)[count]? = some (piece ++ more)) :
    ∃ later ending last, Reads reader (records.take count) later ∧ later.next = (ending, last) ∧
      (piece = [] → ending = .ok none) ∧
      (piece ≠ [] → ∃ part place, ending = .error (.truncated part place)) := by
  have hsingle (taken : List Record) (htaken : taken.Sublist records) (kind : FrameKind)
      (hkind : kind.Single) :
      taken.countP (·.kind = kind) + (reader.seen kind).toNat ≤ 1 := by
    rw [hunseen kind]
    exact Nat.le_trans htaken.countP_le (hsingle kind hkind)
  rcases Nat.lt_or_ge records.length count with hall | hsome
  · -- The frame that ends the log is there as well.
    cases ended with
    | false =>
        simp only [logFrames, Bool.false_eq_true, if_false, List.append_nil,
          List.length_map] at hbound
        omega
    | true =>
        have hlength : (logFrames records true).length = records.length + 1 := by simp [logFrames]
        obtain rfl : count = records.length + 1 := by omega
        obtain rfl : piece = [] := by
          rcases hpiece with hnone | ⟨more, -, -, hmore⟩
          · exact hnone
          · rw [← hlength, List.getElem?_length] at hmore
            cases hmore
        rw [← hlength, List.take_length] at hat
        obtain ⟨later, last, hreads, hnext, -⟩ :=
          reads_ended hsizes (hsingle records (List.Sublist.refl _)) hat hopen
        rw [List.take_of_length_le (Nat.le_succ _)]
        exact ⟨later, _, last, hreads, hnext, fun _ => rfl, fun h => absurd rfl h⟩
  · have htake : (logFrames records ended).take count = (records.map Record.frame).take count :=
      List.take_append_of_le_length (by rwa [List.length_map])
    rw [htake] at hat
    obtain ⟨later, hreads, hlater, hgoing⟩ :=
      reads_frames (List.forall₂_take count (framed_records hsizes)) hat hopen
        (hsingle _ (List.take_sublist count records))
    rcases hpiece with rfl | ⟨more, hpiece, hmore, hframe⟩
    · obtain ⟨last, -, hnext⟩ := next_end hlater hgoing
      exact ⟨later, _, _, hreads, hnext, fun _ => rfl, fun h => absurd rfl h⟩
    · obtain ⟨kind, payload, hframed⟩ := framed_of_mem hsizes (List.mem_of_getElem? hframe)
      obtain ⟨last, part, place, hnext⟩ := next_cut hlater hgoing hpiece hmore hframed
      exact ⟨later, _, last, hreads, hnext, fun h => absurd h hpiece, fun _ => ⟨part, place, rfl⟩⟩

end Reader

/-- What is read of the first bytes of a log that has been written. Without any bytes there is no log,
and within the opening it is cut off. Otherwise the records are read whose frames are there as a whole,
with their padding, and no others; then the log ends without an error if it has been cut where a frame
starts or behind the last one, and is reported to be cut off if not. -/
theorem cut_log_reads {writer : Writer} {records : List Record} {ended : Bool}
    (h : writer.Wrote records ended) {delivery : Delivery} (hsteady : delivery.Steady)
    (length : Nat) :
    let frames := logFrames records ended
    let cut := writer.sink.bytes.take length
    writer.sink.bytes = opening ++ frames.flatten ∧
      (length = 0 → Reader.start (.start cut delivery) = .error .missingMagic) ∧
      (0 < length → length < 8 →
        ∃ part place, Reader.start (.start cut delivery) = .error (.truncated part place)) ∧
      (8 ≤ length → ∃ reader count ending, Reader.start (.start cut delivery) = .ok reader ∧
        (∀ index < records.length, index < count ↔ frameStart frames (index + 1) ≤ length) ∧
        (∀ number, records.length < number → (reader.calls true number).map Prod.fst =
          (records.take count).map (fun record => .ok (some record)) ++ [ending]) ∧
        ((∃ index, frameStart frames index = cut.length) → ending = .ok none) ∧
        ((¬ ∃ index, frameStart frames index = cut.length) →
          ∃ part place, ending = .error (.truncated part place))) := by
  intro frames cut
  have hcontains := h.contains
  have hbytes : writer.sink.bytes = opening ++ frames.flatten := hcontains.bytes
  refine ⟨hbytes, ?_, ?_, ?_⟩
  · rintro rfl
    have hat : Reader.At ⟨.start [] delivery, 0, false, false, false⟩ [] 0 :=
      Reader.start_at hsteady
    obtain ⟨later, -, hread⟩ := Reader.read_word_end hat .fileMagic
    simp only [cut, List.take_zero, Reader.start, hread]
  · intro hpositive hshort
    have hcut : cut = opening.take length := by
      rw [← length_opening] at hshort
      simp only [cut, hbytes, List.take_append_of_le_length (Nat.le_of_lt hshort)]
    refine Reader.start_cut hsteady hcut (List.take_append_drop length opening) ?_ ?_
    · exact List.ne_nil_of_length_pos (by rw [List.length_take, length_opening]; omega)
    · exact List.ne_nil_of_length_pos (by rw [List.length_drop, length_opening]; omega)
  · intro hopening
    obtain ⟨count, piece, htake, hbound, hcount, hpiece⟩ := take_flatten frames (length - 8)
    have hcut : (Source.start cut delivery).rest =
        opening ++ ((frames.take count).flatten ++ piece) := by
      simp only [Source.start, cut, hbytes, List.take_append, length_opening, htake,
        List.take_of_length_le (length_opening.symm ▸ hopening : opening.length ≤ length)]
    have hlength : cut.length = frameStart frames count + piece.length := by
      rw [frameStart, ← List.length_append, List.append_assoc, ← hcut]
      rfl
    obtain ⟨reader, hstart, hat, hopen, hunseen⟩ := Reader.start_opening hsteady hcut
    obtain ⟨later, ending, last, hreads, hnext, hwhole, hpart⟩ :=
      Reader.reads_cut hcontains.sizes hcontains.at_most_one hat hopen hunseen hbound hpiece
    refine ⟨reader, count, ending, hstart, ?_, ?_, ?_, ?_⟩
    · intro index hindex
      have hframe : index < frames.length := by
        simp only [frames, logFrames, List.length_append, List.length_map]
        omega
      rw [hcount index hframe, frameStart, List.length_append, length_opening]
      omega
    · intro number hnumber
      have hends (record : Record) : ending ≠ .ok (some record) := by
        by_cases hnone : piece = []
        · simp [hwhole hnone]
        · obtain ⟨part, place, herror⟩ := hpart hnone
          simp [herror]
      have hfew : (records.take count).length < number :=
        Nat.lt_of_le_of_lt (List.length_take_le' count records) hnumber
      obtain ⟨taken, htaken, hcalls⟩ := Reader.calls_of_reads hreads hnext hends
      rw [hcalls number hfew, List.map_append, htaken]
      rfl
    · rintro ⟨index, hindex⟩
      rcases hpiece with hnone | ⟨more, hsome, hmore, hframe⟩
      · exact hwhole hnone
      · exact absurd (hindex.trans hlength) (not_frame_start hsome hmore hframe index)
    · intro hno
      refine hpart ?_
      rintro rfl
      exact hno ⟨count, hlength.symm⟩

/-- A writer of a log in memory. -/
def openedLog : Writer := (Writer.start .inMemory).2

/-- The writer after a header without properties. -/
def headedLog : Writer := (openedLog.write (.header .empty)).2

/-- The writer after a record of three bytes. -/
def filledLog : Writer := (headedLog.write (.regular [1, 2, 3])).2

theorem wrote_filled_log : filledLog.Wrote [.header .empty, .regular [1, 2, 3]] false := by
  have hopened : openedLog.Wrote [] false := .start (show Sink.inMemory.bytes = [] from rfl) rfl
  have hheaded : headedLog.Wrote [.header .empty] false := .write hopened rfl
  exact .write hheaded rfl

/-- The header ends at 24 and the other record at 40, so a log that is cut off at 29 gives the header
only. -/
theorem cut_log_reads_sample :
    filledLog.Wrote [.header .empty, .regular [1, 2, 3]] false ∧ Delivery.bytewise.Steady ∧
      ∃ reader part place,
        Reader.start (.start (filledLog.sink.bytes.take 29) .bytewise) = .ok reader ∧
        (reader.calls true 3).map Prod.fst =
          [.ok (some (.header .empty)), .error (.truncated part place)] := by
  obtain ⟨-, -, -, hread⟩ := cut_log_reads wrote_filled_log Delivery.bytewise_steady 29
  obtain ⟨reader, count, ending, hstart, hcount, hcalls, -, hpart⟩ := hread (by decide)
  have hheader : 0 < count := (hcount 0 (by decide)).2 (by decide)
  have hrecord : ¬ 1 < count := fun h => absurd ((hcount 1 (by decide)).1 h) (by decide)
  obtain rfl : count = 1 := by omega
  have hwithin (index : Nat) := not_frame_start (show [255, 255, 255, 255, 3] ≠ [] by decide)
    (show [0, 0, 0, 1, 2, 3, 0, 0, 0, 0, 0] ≠ [] by decide)
    (show (logFrames [.header .empty, .regular [1, 2, 3]] false)[1]? = some _ from rfl) index
  obtain ⟨part, place, rfl⟩ := hpart fun ⟨index, hindex⟩ =>
    hwithin index (hindex.trans (by decide))
  exact ⟨wrote_filled_log, Delivery.bytewise_steady, reader, part, place, hstart,
    hcalls 3 (by decide)⟩

end WindowJoin.Log

import Mathlib.Tactic.SplitIfs
import WindowJoin.Proofs.Log.Delivery

/-!
# What the next call reads

A complete frame has a payload of a size that is allowed and any bytes as padding (`Framed`). A reader
in front of a complete frame goes past it and takes what it holds (`next_frame`); one whose bytes end
within a frame reports that they are cut off (`next_cut`). Otherwise it is at the end of the bytes or
fails (`next_cases`). What a frame holds becomes a record only if its payload is one of the record
(`Record.HeldBy`) and no record of its kind has been seen, if it is of a kind that comes up once
(`accept_record`, `accept_cases`).
-/

namespace WindowJoin.Log

open Wire (littleEndian ofLittleEndian)

/-- The bytes of a complete frame: its type, the size of its payload, the payload, and bytes of any
value up to the next multiple of the alignment. -/
def Framed (kind : FrameKind) (payload bytes : List UInt8) : Prop :=
  payload.length ≤ maxPayload ∧
    ∃ filler : List UInt8, filler.length = padding payload.length ∧
      bytes = littleEndian 4 kind.code ++ (littleEndian 4 payload.length ++ (payload ++ filler))

/-- The payload holds the record: it is a document with the properties or with the checkpoint, or it
is the payload of a regular record. -/
def Record.HeldBy (record : Record) (payload : List UInt8) : Prop :=
  match record with
  | .header properties => propertiesOfJson payload = .ok properties
  | .checkpoint progress => JoinCheckpoint.ofJson payload = .ok progress
  | .regular bytes => bytes = payload

/-- A word of four bytes is read as the number that it was written for. -/
theorem word_read_back {number : Nat} (h : number < Wire.valueCount 4) :
    ofLittleEndian (littleEndian 4 number) = number := by
  rw [Wire.of_little_endian_little_endian, Nat.mod_eq_of_lt h]

/-- Four bytes are the word of the number that they are read as. -/
theorem word_written {word : List UInt8} (h : word.length = 4) :
    littleEndian 4 (ofLittleEndian word) = word := by
  have hword := Wire.little_endian_of_little_endian word
  rwa [h] at hword

/-- The magic word is read as itself. -/
theorem magic_read_back : ofLittleEndian (littleEndian 4 fileMagic) = fileMagic :=
  word_read_back (by decide)

/-- The size of a payload fits its word. -/
theorem size_read_back {size : Nat} (h : size ≤ maxPayload) :
    ofLittleEndian (littleEndian 4 size) = size := by
  refine word_read_back (Nat.lt_of_le_of_lt h ?_)
  decide

/-- A type of frame fits its word. -/
theorem code_read_back (kind : FrameKind) :
    ofLittleEndian (littleEndian 4 kind.code) = kind.code :=
  word_read_back (by cases kind <;> decide)

theorem FrameKind.code_of_code {code : Nat} {kind : FrameKind} (h : ofCode? code = some kind) :
    code = kind.code := by
  unfold ofCode? at h
  split_ifs at h with hcode hcode hcode hcode <;> cases h <;> exact hcode

theorem FrameKind.code_ne_magic (kind : FrameKind) : kind.code ≠ fileMagic := by
  cases kind <;> decide

/-- Where a frame ends, in the steps in which it is read. -/
theorem frame_end (position : Nat) (kind : FrameKind) (payload filler : List UInt8) :
    position + (littleEndian 4 kind.code ++
        (littleEndian 4 payload.length ++ (payload ++ filler))).length =
      position + 4 + 4 + payload.length + filler.length := by
  simp only [List.length_append, Wire.length_little_endian]
  omega

/-- If bytes start in the same way, either one part is cut off within the other or it goes beyond
it. -/
theorem cut_or_beyond {α : Type} {piece more first rest : List α}
    (h : piece ++ more = first ++ rest) :
    piece.length < first.length ∨ ∃ behind, piece = first ++ behind ∧ behind ++ more = rest := by
  rcases List.append_eq_append_iff.1 h with ⟨missing, hfirst, hmore⟩ | ⟨behind, hpiece, hrest⟩
  · cases missing with
    | nil => exact .inr ⟨[], by simp [hfirst], by simp [hmore]⟩
    | cons => exact .inl (by simp [hfirst])
  · exact .inr ⟨behind, hpiece, hrest.symm⟩

namespace Reader

/-- The kinds of records that have been seen, of those that come up once. -/
def seen (reader : Reader) : FrameKind → Bool
  | .header => reader.seenHeader
  | .checkpoint => reader.seenCheckpoint
  | .regular => false
  | .finish => false

/-- The reader after a record of a kind. -/
def mark (reader : Reader) : FrameKind → Reader
  | .header => { reader with seenHeader := true }
  | .checkpoint => { reader with seenCheckpoint := true }
  | .regular => reader
  | .finish => reader

/-- A reader in front of some bytes, which it gets from a steady source, at a position. -/
structure At (reader : Reader) (rest : List UInt8) (position : Nat) : Prop where
  rest : reader.source.rest = rest
  steady : reader.source.delivery.Steady
  position : reader.position = position

variable {reader : Reader} {rest more : List UInt8} {position : Nat}

/-- A reader that has read as many bytes as it wanted, or all that were left. -/
theorem At.read_up_to (h : reader.At rest position) (wanted : Nat) :
    (reader.source.readUpTo wanted).1 = rest.take wanted ∧ ∀ position,
      At { reader with source := (reader.source.readUpTo wanted).2, position }
        (rest.drop wanted) position := by
  obtain ⟨htake, hdrop, hdelivery⟩ := Source.read_up_to_steady h.steady wanted
  rw [h.rest] at htake hdrop
  exact ⟨htake, fun position => ⟨hdrop, fun reads => hdelivery ▸ h.steady reads, rfl⟩⟩

/-- What a reader does while it takes bytes: it goes past them, and remembers what it has seen. -/
structure Past (reader later : Reader) (rest : List UInt8) (position : Nat) : Prop
    extends later.At rest position where
  seen : later.seen = reader.seen
  done : later.done = reader.done

/-- Bytes that are there are read, and the reader goes past them. -/
theorem read_exactly_append {bytes : List UInt8} (h : reader.At (bytes ++ more) position)
    {size : Nat} (hsize : bytes.length = size) (part : CodecPart) :
    ∃ later, reader.Past later more (position + size) ∧
      reader.readExactly size part = (.ok bytes, later) := by
  obtain ⟨hread, hat⟩ := h.read_up_to size
  rw [List.take_left' hsize] at hread
  rw [List.drop_left' hsize] at hat
  refine ⟨_, ⟨hat _, rfl, rfl⟩, ?_⟩
  simp only [readExactly, hread, hsize, if_true, h.position]

/-- Bytes that are not all there are used up as far as they go. -/
theorem read_exactly_short (h : reader.At rest position) {size : Nat} (hsize : rest.length < size)
    (part : CodecPart) :
    ∃ later, reader.Past later [] position ∧
      reader.readExactly size part = (.error (.truncated part position), later) := by
  obtain ⟨hread, hat⟩ := h.read_up_to size
  rw [List.take_of_length_le (Nat.le_of_lt hsize)] at hread
  rw [List.drop_of_length_le (Nat.le_of_lt hsize)] at hat
  refine ⟨_, ⟨hat _, rfl, rfl⟩, ?_⟩
  simp only [readExactly, hread, Nat.ne_of_lt hsize, if_false, h.position]

/-- A reader that wants a number of bytes gets them, or there are too few of them. -/
theorem read_exactly_cases (h : reader.At rest position) (size : Nat) (part : CodecPart) :
    (∃ bytes more later, rest = bytes ++ more ∧ bytes.length = size ∧
        reader.Past later more (position + size) ∧
        reader.readExactly size part = (.ok bytes, later)) ∨
      ∃ later, reader.Past later [] position ∧
        reader.readExactly size part = (.error (.truncated part position), later) := by
  rcases Nat.lt_or_ge rest.length size with hshort | hthere
  · exact .inr (read_exactly_short h hshort part)
  · have hlength : (rest.take size).length = size := List.length_take_of_le hthere
    have hsplit := (List.take_append_drop size rest).symm
    obtain ⟨later, hpast, hread⟩ := read_exactly_append (hsplit ▸ h) hlength part
    exact .inl ⟨_, _, later, hsplit, hlength, hpast, hread⟩

/-- A word that is there is read. -/
theorem read_word_append {word : List UInt8} (h : reader.At (word ++ more) position)
    (hword : word.length = 4) (part : CodecPart) :
    ∃ later, reader.Past later more (position + 4) ∧
      reader.readWordOrEnd part = (.ok (some (ofLittleEndian word)), later) := by
  obtain ⟨hread, hat⟩ := h.read_up_to 4
  rw [List.take_left' hword] at hread
  rw [List.drop_left' hword] at hat
  refine ⟨_, ⟨hat _, rfl, rfl⟩, ?_⟩
  simp only [readWordOrEnd, hread, hword, if_true, h.position]

/-- Where the bytes have ended, there is no word. -/
theorem read_word_end (h : reader.At [] position) (part : CodecPart) :
    ∃ later, reader.Past later [] position ∧ reader.readWordOrEnd part = (.ok none, later) := by
  obtain ⟨hread, hat⟩ := h.read_up_to 4
  refine ⟨_, ⟨hat _, rfl, rfl⟩, ?_⟩
  simp [readWordOrEnd, hread, h.position]

/-- A word that is there in part is no end: it is cut off. -/
theorem read_word_short (h : reader.At rest position) (hsome : rest ≠ [])
    (hrest : rest.length < 4) (part : CodecPart) :
    ∃ later, reader.Past later [] position ∧
      reader.readWordOrEnd part = (.error (.truncated part position), later) := by
  obtain ⟨hread, hat⟩ := h.read_up_to 4
  rw [List.take_of_length_le (Nat.le_of_lt hrest)] at hread
  rw [List.drop_of_length_le (Nat.le_of_lt hrest)] at hat
  refine ⟨_, ⟨hat _, rfl, rfl⟩, ?_⟩
  simp only [readWordOrEnd, hread, Nat.ne_of_lt hrest, if_false, List.isEmpty_iff, hsome,
    h.position]

/-- A reader that wants a word is at the end of the bytes, or gets the word, or the bytes end within
it. -/
theorem read_word_cases (h : reader.At rest position) (part : CodecPart) :
    (rest = [] ∧ ∃ later, reader.Past later [] position ∧
        reader.readWordOrEnd part = (.ok none, later)) ∨
      (∃ word more later, rest = word ++ more ∧ word.length = 4 ∧
        reader.Past later more (position + 4) ∧
        reader.readWordOrEnd part = (.ok (some (ofLittleEndian word)), later)) ∨
      ∃ later, reader.Past later [] position ∧
        reader.readWordOrEnd part = (.error (.truncated part position), later) := by
  by_cases hrest : rest = []
  · subst hrest
    exact .inl ⟨rfl, read_word_end h part⟩
  right
  rcases Nat.lt_or_ge rest.length 4 with hshort | hthere
  · exact .inr (read_word_short h hrest hshort part)
  · have hword : (rest.take 4).length = 4 := List.length_take_of_le hthere
    have hsplit := (List.take_append_drop 4 rest).symm
    obtain ⟨later, hpast, hread⟩ := read_word_append (hsplit ▸ h) hword part
    exact .inl ⟨_, _, later, hsplit, hword, hpast, hread⟩

/-- A payload that holds a record gives it, if no record of its kind has been seen. -/
theorem accept_record {record : Record} {payload : List UInt8} (h : record.HeldBy payload)
    (hseen : reader.seen record.kind = false) :
    reader.accept record.kind payload = (.ok (some record), reader.mark record.kind) := by
  cases record with
  | header properties =>
      have hseen : reader.seenHeader = false := hseen
      have h : propertiesOfJson payload = .ok properties := h
      simp [Record.kind, accept, mark, hseen, h]
  | checkpoint progress =>
      have hseen : reader.seenCheckpoint = false := hseen
      have h : JoinCheckpoint.ofJson payload = .ok progress := h
      simp [Record.kind, accept, mark, hseen, h]
  | regular bytes =>
      obtain rfl : bytes = payload := h
      rfl

/-- What a frame is taken for: the end of the log, a record that its payload holds and that may come
up, or an error. -/
theorem accept_cases (reader : Reader) (kind : FrameKind) (payload : List UInt8) :
    (kind = .finish ∧ reader.accept kind payload = (.ok none, { reader with done := true })) ∨
      (∃ record : Record, record.kind = kind ∧ record.HeldBy payload ∧
        reader.seen kind = false ∧
        reader.accept kind payload = (.ok (some record), reader.mark kind)) ∨
      ∃ error later, reader.accept kind payload = (.error error, later) ∧
        (later = reader ∨ later = reader.mark kind) := by
  cases kind with
  | finish => exact .inl ⟨rfl, rfl⟩
  | regular => exact .inr (.inl ⟨.regular payload, rfl, rfl, rfl, rfl⟩)
  | header =>
      right
      simp only [accept]
      split
      next => exact .inr ⟨_, reader, rfl, .inl rfl⟩
      next hseen =>
        cases hread : propertiesOfJson payload with
        | ok properties =>
            exact .inl ⟨.header properties, rfl, hread, Bool.eq_false_iff.2 hseen, rfl⟩
        | error fault => exact .inr ⟨_, _, rfl, .inr rfl⟩
  | checkpoint =>
      right
      simp only [accept]
      split
      next => exact .inr ⟨_, reader, rfl, .inl rfl⟩
      next hseen =>
        cases hread : JoinCheckpoint.ofJson payload with
        | ok progress =>
            exact .inl ⟨.checkpoint progress, rfl, hread, Bool.eq_false_iff.2 hseen, rfl⟩
        | error fault => exact .inr ⟨_, _, rfl, .inr rfl⟩

theorem Past.trans {first second third : Reader} {rest' : List UInt8} {position' : Nat}
    (h : first.Past second rest position) (h' : second.Past third rest' position') :
    first.Past third rest' position' :=
  { h' with seen := h'.seen.trans h.seen, done := h'.done.trans h.done }

/-- A reader in front of the rest of a complete frame goes past it and takes what it holds. -/
theorem read_frame_append {payload filler : List UInt8}
    (h : reader.At (littleEndian 4 payload.length ++ (payload ++ (filler ++ more))) position)
    (hsize : payload.length ≤ maxPayload) (hfiller : filler.length = padding payload.length)
    (kind : FrameKind) :
    ∃ later, reader.Past later more
        (position + 4 + payload.length + filler.length) ∧
      reader.readFrame kind = later.accept kind payload := by
  obtain ⟨first, hfirst, hread⟩ :=
    read_exactly_append h (Wire.length_little_endian 4 _) .recordSize
  obtain ⟨second, hsecond, hread'⟩ := read_exactly_append hfirst.toAt rfl .recordPayload
  obtain ⟨third, hthird, hread''⟩ := read_exactly_append hsecond.toAt hfiller .recordPadding
  refine ⟨third, hfiller ▸ (hfirst.trans hsecond).trans hthird, ?_⟩
  simp only [readFrame, hread, size_read_back hsize, Nat.not_lt.2 hsize, if_false, hread', hread'']

/-- A reader in front of a complete frame goes past it and takes what it holds. -/
theorem next_frame {kind : FrameKind} {payload bytes : List UInt8}
    (h : reader.At (bytes ++ more) position) (hopen : reader.done = false)
    (hframed : Framed kind payload bytes) :
    ∃ later, reader.Past later more (position + bytes.length) ∧
      reader.next = later.accept kind payload := by
  obtain ⟨hsize, filler, hfiller, rfl⟩ := hframed
  simp only [List.append_assoc] at h
  obtain ⟨first, hfirst, hread⟩ := read_word_append h (Wire.length_little_endian 4 _) .recordType
  obtain ⟨later, hlater, hread'⟩ := read_frame_append hfirst.toAt hsize hfiller kind
  refine ⟨later, ?_, ?_⟩
  · rw [frame_end]
    exact hfirst.trans hlater
  · simp only [next, hopen, hread, code_read_back, kind.code_ne_magic, if_false,
      FrameKind.of_code_code]
    exact hread'

/-- A reader whose bytes end within the rest of a frame reports that they are cut off. -/
theorem read_frame_cut {piece payload filler : List UInt8} (h : reader.At piece position)
    (hcut : piece ++ more = littleEndian 4 payload.length ++ (payload ++ filler))
    (hmore : more ≠ []) (hsize : payload.length ≤ maxPayload)
    (hfiller : filler.length = padding payload.length) (kind : FrameKind) :
    ∃ later part place, reader.readFrame kind = (.error (.truncated part place), later) := by
  rcases cut_or_beyond hcut with hshort | ⟨behindSize, rfl, hcut'⟩
  · -- The bytes end within the size.
    rw [Wire.length_little_endian] at hshort
    obtain ⟨later, -, hread⟩ := read_exactly_short h hshort .recordSize
    exact ⟨later, .recordSize, position, by simp only [readFrame, hread]⟩
  obtain ⟨first, hfirst, hread⟩ :=
    read_exactly_append h (Wire.length_little_endian 4 _) .recordSize
  rcases cut_or_beyond hcut' with hshort | ⟨behindPayload, rfl, hcut''⟩
  · -- The bytes end within the payload.
    obtain ⟨later, -, hread'⟩ := read_exactly_short hfirst.toAt hshort .recordPayload
    refine ⟨later, .recordPayload, position + 4, ?_⟩
    simp only [readFrame, hread, size_read_back hsize, Nat.not_lt.2 hsize, if_false, hread']
  obtain ⟨second, hsecond, hread'⟩ := read_exactly_append hfirst.toAt rfl .recordPayload
  -- What is left is the padding, and not all of it is there.
  have hshort : behindPayload.length < padding payload.length := by
    have hlength := congrArg List.length hcut''
    have hpositive := List.length_pos_iff.2 hmore
    rw [List.length_append] at hlength
    omega
  obtain ⟨later, -, hread''⟩ := read_exactly_short hsecond.toAt hshort .recordPadding
  refine ⟨later, .recordPadding, position + 4 + payload.length, ?_⟩
  simp only [readFrame, hread, size_read_back hsize, Nat.not_lt.2 hsize, if_false, hread', hread'']

/-- A reader whose bytes end within a frame reports that they are cut off. -/
theorem next_cut {kind : FrameKind} {piece payload : List UInt8} (h : reader.At piece position)
    (hopen : reader.done = false) (hsome : piece ≠ []) (hmore : more ≠ [])
    (hframed : Framed kind payload (piece ++ more)) :
    ∃ later part place, reader.next = (.error (.truncated part place), later) := by
  obtain ⟨hsize, filler, hfiller, hcut⟩ := hframed
  rcases cut_or_beyond hcut with hshort | ⟨behind, rfl, hcut'⟩
  · rw [Wire.length_little_endian] at hshort
    obtain ⟨later, -, hread⟩ := read_word_short h hsome hshort .recordType
    refine ⟨later, .recordType, position, ?_⟩
    simp only [next, hopen, hread]
    rfl
  obtain ⟨first, hfirst, hread⟩ := read_word_append h (Wire.length_little_endian 4 _) .recordType
  obtain ⟨later, part, place, hframe⟩ := read_frame_cut hfirst.toAt hcut' hmore hsize hfiller kind
  refine ⟨later, part, place, ?_⟩
  simp only [next, hopen, hread, code_read_back, kind.code_ne_magic, if_false,
    FrameKind.of_code_code]
  exact hframe

/-- At the end of the bytes, the log ends. -/
theorem next_end (h : reader.At [] position) (hopen : reader.done = false) :
    ∃ later, reader.Past later [] position ∧
      reader.next = (.ok none, { later with done := true }) := by
  obtain ⟨later, hlater, hread⟩ := read_word_end h .recordType
  refine ⟨later, hlater, ?_⟩
  simp only [next, hopen, hread]
  rfl

/-- A reader behind the type of a frame goes past the rest of it, or fails. -/
theorem read_frame_cases (h : reader.At rest position) (kind : FrameKind) :
    (∃ payload filler more later,
        rest = littleEndian 4 payload.length ++ (payload ++ (filler ++ more)) ∧
        payload.length ≤ maxPayload ∧ filler.length = padding payload.length ∧
        reader.Past later more (position + 4 + payload.length + filler.length) ∧
        reader.readFrame kind = later.accept kind payload) ∨
      ∃ error later rest' position', reader.Past later rest' position' ∧
        reader.readFrame kind = (.error error, later) := by
  unfold readFrame
  rcases read_exactly_cases h 4 .recordSize with
    ⟨word, more, first, rfl, hword, hfirst, hread⟩ | ⟨later, hlater, hread⟩
  case inr =>
    rw [hread]
    exact .inr ⟨_, later, _, _, hlater, rfl⟩
  rw [hread]
  dsimp only
  split
  next => exact .inr ⟨_, first, _, _, hfirst, rfl⟩
  next hsize =>
  rcases read_exactly_cases hfirst.toAt (ofLittleEndian word) .recordPayload with
    ⟨payload, more, second, rfl, hpayload, hsecond, hread⟩ | ⟨later, hlater, hread⟩
  case inr =>
    rw [hread]
    exact .inr ⟨_, later, _, _, hfirst.trans hlater, rfl⟩
  rw [hread]
  dsimp only
  rcases read_exactly_cases hsecond.toAt (padding (ofLittleEndian word)) .recordPadding with
    ⟨filler, more, third, rfl, hfiller, hthird, hread⟩ | ⟨later, hlater, hread⟩
  case inr =>
    rw [hread]
    exact .inr ⟨_, later, _, _, (hfirst.trans hsecond).trans hlater, rfl⟩
  rw [hread]
  rw [← hpayload] at hsize hfiller hthird
  refine .inl ⟨payload, filler, more, third, ?_, Nat.not_lt.1 hsize, hfiller, ?_, rfl⟩
  · rw [hpayload, word_written hword]
  · rw [hfiller]
    exact (hfirst.trans hsecond).trans hthird

/-- What a reader that goes on can find: the end of the bytes, a complete frame, or an error. -/
theorem next_cases (h : reader.At rest position) (hopen : reader.done = false) :
    (rest = [] ∧ ∃ later, reader.Past later [] position ∧
        reader.next = (.ok none, { later with done := true })) ∨
      (∃ kind payload bytes more later, rest = bytes ++ more ∧ Framed kind payload bytes ∧
        reader.Past later more (position + bytes.length) ∧
        reader.next = later.accept kind payload) ∨
      ∃ error later rest' position', reader.Past later rest' position' ∧
        reader.next = (.error error, later) := by
  rcases read_word_cases h .recordType with
    ⟨rfl, -⟩ | ⟨word, more, first, rfl, hword, hfirst, hread⟩ | ⟨later, hlater, hread⟩
  case inl => exact .inl ⟨rfl, next_end h hopen⟩
  case inr.inr =>
    refine .inr (.inr ⟨.truncated .recordType position, later, _, _, hlater, ?_⟩)
    simp only [next, hopen, hread]
    rfl
  right
  by_cases hmagic : ofLittleEndian word = fileMagic
  · refine .inr ⟨.magicMidStream, first, _, _, hfirst, ?_⟩
    simp only [next, hopen, hread, hmagic, if_true]
    rfl
  cases hkind : FrameKind.ofCode? (ofLittleEndian word) with
  | none =>
      refine .inr ⟨.unknownRecordType (ofLittleEndian word), first, _, _, hfirst, ?_⟩
      simp only [next, hopen, hread, hmagic, if_false, hkind]
      rfl
  | some kind =>
      have hnext : reader.next = first.readFrame kind := by
        simp only [next, hopen, hread, hmagic, if_false, hkind]
        rfl
      have hcode : littleEndian 4 kind.code = word := by
        rw [← FrameKind.code_of_code hkind, word_written hword]
      rcases read_frame_cases hfirst.toAt kind with
        ⟨payload, filler, more, later, rfl, hsize, hfiller, hlater, hframe⟩ |
        ⟨error, later, rest', position', hlater, hframe⟩
      · -- A complete frame, with the word that has been read as its type.
        refine .inl ⟨kind, payload, _, more, later, ?_, ⟨hsize, filler, hfiller, rfl⟩, ?_,
          hnext.trans hframe⟩
        · simp only [hcode, List.append_assoc]
        · rw [frame_end]
          exact hfirst.trans hlater
      · exact .inr ⟨error, later, rest', position', hfirst.trans hlater, hnext.trans hframe⟩

end Reader

end WindowJoin.Log

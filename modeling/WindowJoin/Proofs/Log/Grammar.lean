import Mathlib.Data.List.Forall2
import WindowJoin.Proofs.Log.Frames

/-!
# Which bytes are a log

A log is its opening, complete frames of its records, and an ending: the end of the bytes, or a frame
that ends it, whatever follows (`Holds`). A reader takes records from complete frames and from nothing
else (`next_record`, `reads_frames`, `frames_of_reads`), so it reads all records of some bytes without
an error exactly if they are a log, and then these are the records of their frames in order
(`reads_exactly_grammar`). Records of a kind that comes up once are given at most once, also by calls
after an error (`calls_single`).
-/

namespace WindowJoin.Log

open Wire (littleEndian ofLittleEndian)

/-- The bytes are a complete frame whose payload holds the record. -/
def Record.FramedIn (record : Record) (bytes : List UInt8) : Prop :=
  ∃ payload, Framed record.kind payload bytes ∧ record.HeldBy payload

/-- How a log may end: where its bytes end, or with a frame of the last type, whatever follows. -/
inductive Ending : List UInt8 → Prop where
  | bytes : Ending []
  | finish {payload bytes : List UInt8} (more : List UInt8) :
      Framed .finish payload bytes → Ending (bytes ++ more)

/-- A log holds at most one record of this kind. -/
def FrameKind.Single (kind : FrameKind) : Prop :=
  kind = .header ∨ kind = .checkpoint

/-- The bytes are a log that holds these records. -/
structure Holds (bytes : List UInt8) (records : List Record) : Prop where
  frames : ∃ frames ending, bytes = opening ++ (frames.flatten ++ ending) ∧
    List.Forall₂ Record.FramedIn records frames ∧ Ending ending
  single : ∀ kind : FrameKind, kind.Single → records.countP (·.kind = kind) ≤ 1

/-- A complete frame is not empty. -/
theorem Framed.length_pos {kind : FrameKind} {payload bytes : List UInt8}
    (h : Framed kind payload bytes) : 0 < bytes.length := by
  obtain ⟨-, filler, -, rfl⟩ := h
  simp only [List.length_append, Wire.length_little_endian]
  omega

/-- A complete frame fills a multiple of the alignment. -/
theorem Framed.length_mod {kind : FrameKind} {payload bytes : List UInt8}
    (h : Framed kind payload bytes) : bytes.length % alignment = 0 := by
  obtain ⟨-, filler, hfiller, rfl⟩ := h
  have hpadded := padded_mod payload.length
  simp only [List.length_append, Wire.length_little_endian, hfiller]
  unfold alignment at *
  omega

/-- There are no more records than bytes in their frames. -/
theorem length_le_frames {records : List Record} {frames : List (List UInt8)}
    (h : List.Forall₂ Record.FramedIn records frames) :
    records.length ≤ frames.flatten.length := by
  induction h with
  | nil => exact Nat.zero_le _
  | cons hframed _ ih =>
      obtain ⟨payload, hframed, -⟩ := hframed
      have hpositive := hframed.length_pos
      rw [List.length_cons, List.flatten_cons, List.length_append]
      omega

namespace Reader

variable {reader later : Reader} {rest more : List UInt8} {position : Nat}

/-- A record of a kind marks that kind as seen, and no other. -/
theorem seen_mark (reader : Reader) (kind : FrameKind) {single : FrameKind}
    (h : single.Single) :
    (reader.mark kind).seen single = (decide (kind = single) || reader.seen single) := by
  rcases h with rfl | rfl <;> cases kind <;> rfl

theorem At.mark (h : reader.At rest position) (kind : FrameKind) :
    (reader.mark kind).At rest position := by
  cases kind <;> exact ⟨h.rest, h.steady, h.position⟩

theorem done_mark (reader : Reader) (kind : FrameKind) :
    (reader.mark kind).done = reader.done := by
  cases kind <;> rfl

/-- Only kinds that come up once are remembered. -/
theorem unseen_of_not_single {kind : FrameKind} (h : ¬ kind.Single) :
    reader.seen kind = false := by
  cases kind with
  | header => exact absurd (.inl rfl) h
  | checkpoint => exact absurd (.inr rfl) h
  | regular => rfl
  | finish => rfl

/-- A reader that is done gives no record. -/
theorem not_done {record : Record} (h : reader.next = (.ok (some record), later)) :
    reader.done = false := by
  cases hdone : reader.done with
  | false => rfl
  | true => simp [next, hdone] at h

/-- A record that is read was in a complete frame, and if it is of a kind that comes up once, none of
its kind had been seen. -/
theorem next_record {record : Record} (h : reader.At rest position)
    (hnext : reader.next = (.ok (some record), later)) :
    ∃ bytes more, rest = bytes ++ more ∧ record.FramedIn bytes ∧
      later.At more (position + bytes.length) ∧ later.done = false ∧
      ∀ single : FrameKind, single.Single →
        (decide (record.kind = single)).toNat + (reader.seen single).toNat =
          (later.seen single).toNat := by
  have hopen := not_done hnext
  rcases next_cases h hopen with ⟨-, _, -, hread⟩ |
    ⟨kind, payload, bytes, more, past, rfl, hframed, hpast, hread⟩ | ⟨_, _, _, _, -, hread⟩
  · cases hread.symm.trans hnext
  · rw [hread] at hnext
    rcases past.accept_cases kind payload with ⟨-, haccept⟩ |
      ⟨taken, rfl, hheld, hunseen, haccept⟩ | ⟨_, _, haccept, -⟩
    · cases haccept.symm.trans hnext
    · cases haccept.symm.trans hnext
      refine ⟨bytes, more, rfl, ⟨payload, hframed, hheld⟩, hpast.toAt.mark _, ?_, ?_⟩
      · rw [done_mark, hpast.done, hopen]
      · intro single hsingle
        rw [seen_mark past record.kind hsingle, hpast.seen]
        by_cases hkind : record.kind = single
        · rw [hpast.seen, hkind] at hunseen
          simp [hkind, hunseen]
        · simp [hkind]
    · cases haccept.symm.trans hnext
  · cases hread.symm.trans hnext

/-- Where a log ends without an error, its bytes have ended or there is a frame that ends it. -/
theorem next_none (h : reader.At rest position) (hopen : reader.done = false)
    (hnext : reader.next = (.ok none, later)) : Ending rest := by
  rcases next_cases h hopen with ⟨rfl, -⟩ |
    ⟨kind, payload, bytes, more, past, rfl, hframed, -, hread⟩ | ⟨_, _, _, _, -, hread⟩
  · exact .bytes
  · rw [hread] at hnext
    rcases past.accept_cases kind payload with ⟨rfl, -⟩ | ⟨_, -, -, -, haccept⟩ |
      ⟨_, _, haccept, -⟩
    · exact .finish more hframed
    · cases haccept.symm.trans hnext
    · cases haccept.symm.trans hnext
  · cases hread.symm.trans hnext

/-- A reader in front of the frame of a record gives the record and goes past the frame, unless it has
seen one of a kind that comes up once. -/
theorem next_framed {record : Record} {bytes : List UInt8}
    (h : reader.At (bytes ++ more) position) (hopen : reader.done = false)
    (hframed : record.FramedIn bytes) (hunseen : reader.seen record.kind = false) :
    ∃ later, reader.next = (.ok (some record), later) ∧ later.At more (position + bytes.length) ∧
      later.done = false ∧ ∀ single : FrameKind, single.Single →
        later.seen single = (decide (record.kind = single) || reader.seen single) := by
  obtain ⟨payload, hframed, hheld⟩ := hframed
  obtain ⟨past, hpast, hread⟩ := next_frame h hopen hframed
  refine ⟨past.mark record.kind, ?_, hpast.toAt.mark _, ?_, ?_⟩
  · rw [hread, accept_record hheld (hpast.seen ▸ hunseen)]
  · rw [done_mark, hpast.done, hopen]
  · intro single hsingle
    rw [seen_mark past _ hsingle, hpast.seen]

/-- Calls for the next record give these records in turn. -/
inductive Reads : Reader → List Record → Reader → Prop where
  | nil (reader : Reader) : Reads reader [] reader
  | cons {reader middle later : Reader} {record : Record} {records : List Record} :
      reader.next = (.ok (some record), middle) → Reads middle records later →
      Reads reader (record :: records) later

/-- Records that are read in turn were in complete frames, one behind the other, and of those that
come up once none came up again. -/
theorem frames_of_reads {records : List Record} (h : Reads reader records later)
    (hat : reader.At rest position) (hopen : reader.done = false) :
    ∃ frames more, rest = frames.flatten ++ more ∧ List.Forall₂ Record.FramedIn records frames ∧
      later.At more (position + frames.flatten.length) ∧ later.done = false ∧
      ∀ single : FrameKind, single.Single →
        records.countP (·.kind = single) + (reader.seen single).toNat =
          (later.seen single).toNat := by
  induction h generalizing rest position with
  | nil reader => exact ⟨[], rest, rfl, .nil, hat, hopen, fun single _ => Nat.zero_add _⟩
  | @cons reader middle later record records hnext _ ih =>
      obtain ⟨bytes, behind, rfl, hframed, hmiddle, hgoing, hsingle⟩ := next_record hat hnext
      obtain ⟨frames, more, rfl, hframes, hlater, hdone, hsingles⟩ := ih hmiddle hgoing
      refine ⟨bytes :: frames, more, ?_, .cons hframed hframes, ?_, hdone, ?_⟩
      · rw [List.flatten_cons, List.append_assoc]
      · rw [List.flatten_cons, List.length_append, ← Nat.add_assoc]
        exact hlater
      · intro single h
        have hfirst := hsingle single h
        have hothers := hsingles single h
        rw [List.countP_cons]
        by_cases hkind : record.kind = single
        · simp only [hkind, decide_true, Bool.toNat_true, if_true] at hfirst ⊢
          omega
        · simp only [hkind, decide_false, Bool.toNat_false, Bool.false_eq_true, if_false] at hfirst ⊢
          omega

/-- A reader in front of complete frames reads their records, unless one of a kind that comes up once
would come up again. -/
theorem reads_frames {records : List Record} {frames : List (List UInt8)}
    (hframes : List.Forall₂ Record.FramedIn records frames)
    (hat : reader.At (frames.flatten ++ more) position) (hopen : reader.done = false)
    (hsingle : ∀ single : FrameKind, single.Single →
      records.countP (·.kind = single) + (reader.seen single).toNat ≤ 1) :
    ∃ later, Reads reader records later ∧ later.At more (position + frames.flatten.length) ∧
      later.done = false := by
  induction hframes generalizing reader position with
  | nil => exact ⟨reader, .nil reader, hat, hopen⟩
  | @cons record bytes records frames hframed _ ih =>
      rw [List.flatten_cons, List.append_assoc] at hat
      have hunseen : reader.seen record.kind = false := by
        by_cases h : record.kind.Single
        · have hcount := hsingle _ h
          rw [List.countP_cons, if_pos (decide_eq_true rfl)] at hcount
          exact Bool.toNat_eq_zero.1 (by omega)
        · exact unseen_of_not_single h
      obtain ⟨middle, hnext, hmiddle, hgoing, hseen⟩ := next_framed hat hopen hframed hunseen
      obtain ⟨later, hreads, hlater, hdone⟩ := ih hmiddle hgoing fun single h => by
        have hcount := hsingle single h
        rw [hseen single h]
        rw [List.countP_cons] at hcount
        by_cases hkind : record.kind = single
        · rw [if_pos (decide_eq_true hkind)] at hcount
          rw [decide_eq_true hkind, Bool.true_or, Bool.toNat_true]
          omega
        · rw [if_neg (by simpa using hkind)] at hcount
          rw [decide_eq_false hkind, Bool.false_or]
          exact hcount
      refine ⟨later, .cons hnext hreads, ?_, hdone⟩
      rw [List.flatten_cons, List.length_append, ← Nat.add_assoc]
      exact hlater

/-- A log whose bytes end here, or that a frame ends here, ends without an error. -/
theorem next_ending (h : reader.At rest position) (hopen : reader.done = false)
    (hending : Ending rest) : ∃ later, reader.next = (.ok none, later) := by
  cases hending with
  | bytes =>
      obtain ⟨later, -, hread⟩ := next_end h hopen
      exact ⟨_, hread⟩
  | finish more hframed =>
      obtain ⟨past, -, hread⟩ := next_frame h hopen hframed
      exact ⟨_, hread⟩

/-- Records that are read in turn up to the end are all records of the log. -/
theorem records_of_reads {records : List Record} (h : Reads reader records later) {last : Reader}
    (hend : later.next = (.ok none, last)) {steps : Nat} (hsteps : records.length < steps) :
    reader.records steps = .ok records := by
  induction h generalizing steps with
  | nil reader =>
      cases steps with
      | zero => cases hsteps
      | succ steps => simp only [Reader.records, hend]
  | cons hnext _ ih =>
      cases steps with
      | zero => cases hsteps
      | succ steps =>
          simp only [Reader.records, hnext, ih hend (Nat.lt_of_succ_lt_succ hsteps)]
          rfl

/-- Calls give the records that are read in turn, and go on behind them. -/
theorem calls_beyond_reads {records : List Record} (h : Reads reader records later) :
    ∃ taken, taken.map Prod.fst = records.map (fun record => .ok (some record)) ∧
      ∀ number, reader.calls true (records.length + number) = taken ++ later.calls true number := by
  induction h with
  | nil reader => exact ⟨[], rfl, fun number => by rw [List.length_nil, Nat.zero_add]; rfl⟩
  | @cons reader middle later record records hfirst _ ih =>
      obtain ⟨taken, htaken, hcalls⟩ := ih
      refine ⟨(.ok (some record), middle.position) :: taken, congrArg _ htaken, fun number => ?_⟩
      rw [List.length_cons, Nat.add_right_comm, calls, hfirst]
      exact congrArg _ (hcalls number)

/-- Calls up to the end, or up to the first error, give the records that are read in turn, and then what
the call behind them gives. -/
theorem calls_of_reads {records : List Record} (h : Reads reader records later) {last : Reader}
    {ending : Except CodecError (Option Record)} (hnext : later.next = (ending, last))
    (hends : ∀ record, ending ≠ .ok (some record)) :
    ∃ taken, taken.map Prod.fst = records.map (fun record => .ok (some record)) ∧
      ∀ number, records.length < number →
        reader.calls true number = taken ++ [(ending, last.position)] := by
  obtain ⟨taken, htaken, hcalls⟩ := calls_beyond_reads h
  refine ⟨taken, htaken, fun number hnumber => ?_⟩
  obtain ⟨more, rfl⟩ := Nat.exists_eq_add_of_lt hnumber
  rw [Nat.add_assoc, hcalls, calls, hnext]
  rcases ending with _ | _ | record
  · rfl
  · rfl
  · exact absurd rfl (hends record)

/-- All records of a log are read in turn, and then the log ends. The bound on their number is not
reached, since each of them takes up bytes. -/
theorem reads_of_records {records : List Record} {steps : Nat} (h : reader.At rest position)
    (hsteps : rest.length < steps) (hread : reader.records steps = .ok records) :
    ∃ later last, Reads reader records later ∧ later.next = (.ok none, last) := by
  induction steps generalizing reader rest position records with
  | zero => cases hsteps
  | succ steps ih =>
      rw [Reader.records] at hread
      split at hread
      next => cases hread
      next last hnext =>
        cases hread
        exact ⟨reader, last, .nil reader, hnext⟩
      next record middle hnext =>
        obtain ⟨bytes, more, rfl, ⟨payload, hframed, -⟩, hmiddle, -, -⟩ := next_record h hnext
        have hshorter : more.length < steps := by
          have hpositive := hframed.length_pos
          rw [List.length_append] at hsteps
          omega
        obtain ⟨others, hothers, hread⟩ := except_bind_ok hread
        cases hread
        obtain ⟨later, last, hreads, hend⟩ := ih hmiddle hshorter hothers
        exact ⟨later, last, .cons hnext hreads, hend⟩

/-- Wherever a record is given, a reader at a multiple of the alignment has gone to another one. -/
theorem calls_aligned (h : reader.At rest position) (haligned : position % alignment = 0)
    {number : Nat} {record : Record} {place : Nat}
    (hcall : (.ok (some record), place) ∈ reader.calls true number) : place % alignment = 0 := by
  induction number generalizing reader rest position with
  | zero => cases hcall
  | succ number ih =>
      obtain ⟨result, later, hnext⟩ : ∃ result later, reader.next = (result, later) :=
        ⟨_, _, rfl⟩
      rw [calls, hnext] at hcall
      rcases result with _ | _ | found
      · cases List.mem_singleton.1 hcall
      · cases List.mem_singleton.1 hcall
      · obtain ⟨bytes, more, rfl, ⟨payload, hframed, -⟩, hlater, -⟩ := next_record h hnext
        have hposition : (position + bytes.length) % alignment = 0 := by
          rw [Nat.add_mod, haligned, hframed.length_mod]
          rfl
        rcases List.mem_cons.1 hcall with hfirst | hothers
        · rw [(Prod.mk.inj hfirst).2, hlater.position]
          exact hposition
        · exact ih hlater hposition hothers

/-- A source that has not been read. -/
theorem start_at {source : Source} (hsteady : source.delivery.Steady) :
    At ⟨source, 0, false, false, false⟩ source.rest 0 :=
  ⟨rfl, hsteady, rfl⟩

/-- Bytes with the opening of a log in front are opened. -/
theorem start_opening {source : Source} (hsteady : source.delivery.Steady) {body : List UInt8}
    (hrest : source.rest = opening ++ body) :
    ∃ reader, start source = .ok reader ∧ reader.At body 8 ∧ reader.done = false ∧
      ∀ kind, reader.seen kind = false := by
  have h := start_at hsteady
  rw [hrest, opening, List.append_assoc] at h
  obtain ⟨first, hfirst, hread⟩ := read_word_append h (Wire.length_little_endian 4 _) .fileMagic
  obtain ⟨second, hsecond, hread'⟩ :=
    read_exactly_append hfirst.toAt (Wire.length_little_endian 4 _) .logVersion
  refine ⟨second, ?_, hsecond.toAt, (hfirst.trans hsecond).done, fun kind => ?_⟩
  · have hversion : ofLittleEndian (littleEndian 4 formatVersion) = formatVersion :=
      word_read_back (by decide)
    simp only [start, hread, magic_read_back, ne_eq, not_true_eq_false, if_false, hread', hversion,
      if_true]
  · rw [(hfirst.trans hsecond).seen]
    cases kind <;> rfl

/-- Bytes that are opened have the opening of a log in front. -/
theorem start_cases {source : Source} (hsteady : source.delivery.Steady)
    (h : start source = .ok reader) :
    ∃ body, source.rest = opening ++ body ∧ reader.At body 8 ∧ reader.done = false ∧
      ∀ kind, reader.seen kind = false := by
  unfold start at h
  rcases read_word_cases (start_at hsteady) .fileMagic with ⟨-, _, -, hread⟩ |
    ⟨word, more, first, hrest, hword, hfirst, hread⟩ | ⟨_, -, hread⟩
  · rw [hread] at h
    cases h
  · rw [hread] at h
    dsimp only at h
    split at h
    next => cases h
    next hmagic =>
    rcases read_exactly_cases hfirst.toAt 4 .logVersion with
      ⟨version, body, second, rfl, hversion, hsecond, hread'⟩ | ⟨_, -, hread'⟩
    · rw [hread'] at h
      dsimp only at h
      split at h
      next hformat =>
        cases h
        refine ⟨body, ?_, hsecond.toAt, (hfirst.trans hsecond).done, fun kind => ?_⟩
        · rw [opening, ← hformat, word_written hversion, ← Decidable.not_not.1 hmagic,
            word_written hword, List.append_assoc]
          exact hrest
        · rw [(hfirst.trans hsecond).seen]
          cases kind <;> rfl
      next => cases h
    · rw [hread'] at h
      cases h
  · rw [hread] at h
    cases h

/-- A call with this result has given a record of this kind. -/
def gave (kind : FrameKind) : Except CodecError (Option Record) → Bool
  | .ok (some record) => record.kind = kind
  | _ => false

/-- What a frame is taken for gives a record of a kind that comes up once only if none has been seen
before; then one has been seen. What has been seen stays so, also if the frame is refused. -/
theorem accept_seen (h : reader.At rest position) (kind : FrameKind) (payload : List UInt8) :
    (reader.accept kind payload).2.At rest position ∧ ∀ single : FrameKind, single.Single →
      (gave single (reader.accept kind payload).1).toNat + (reader.seen single).toNat ≤
        ((reader.accept kind payload).2.seen single).toNat := by
  have hmark (single : FrameKind) (hsingle : single.Single) :
      (reader.seen single).toNat ≤ ((reader.mark kind).seen single).toNat := by
    rw [seen_mark reader kind hsingle]
    cases reader.seen single with
    | false => exact Nat.zero_le _
    | true => exact Nat.le_of_eq (by rw [Bool.or_true])
  rcases reader.accept_cases kind payload with ⟨-, haccept⟩ |
    ⟨record, rfl, -, hunseen, haccept⟩ | ⟨error, later, haccept, hlater⟩
  · rw [haccept]
    exact ⟨⟨h.rest, h.steady, h.position⟩, fun single _ => Nat.le_of_eq (Nat.zero_add _)⟩
  · rw [haccept]
    refine ⟨h.mark _, fun single hsingle => ?_⟩
    by_cases hkind : record.kind = single
    · rw [seen_mark reader _ hsingle, decide_eq_true hkind, ← hkind, hunseen]
      simp [gave]
    · have hother : gave single (.ok (some record)) = false := decide_eq_false hkind
      rw [hother]
      simpa using hmark single hsingle
  · rw [haccept]
    rcases hlater with rfl | rfl
    · exact ⟨h, fun single _ => Nat.le_of_eq (Nat.zero_add _)⟩
    · refine ⟨h.mark _, fun single hsingle => ?_⟩
      simpa [gave] using hmark single hsingle

/-- The same of a call for the next record. -/
theorem next_seen (h : reader.At rest position) :
    (∃ rest position, reader.next.2.At rest position) ∧ ∀ single : FrameKind, single.Single →
      (gave single reader.next.1).toNat + (reader.seen single).toNat ≤
        (reader.next.2.seen single).toNat := by
  cases hopen : reader.done with
  | true =>
      have hnext : reader.next = (.ok none, reader) := by simp [next, hopen]
      rw [hnext]
      exact ⟨⟨rest, position, h⟩, fun single _ => Nat.le_of_eq (Nat.zero_add _)⟩
  | false =>
      rcases next_cases h hopen with ⟨rfl, later, hlater, hread⟩ |
        ⟨kind, payload, bytes, more, past, rfl, hframed, hpast, hread⟩ |
        ⟨error, later, rest', position', hlater, hread⟩
      · rw [hread]
        refine ⟨⟨[], position, hlater.rest, hlater.steady, hlater.position⟩, fun single _ => ?_⟩
        rw [← hlater.seen]
        exact Nat.le_of_eq (Nat.zero_add _)
      · rw [hread, ← hpast.seen]
        obtain ⟨hat, hseen⟩ := accept_seen hpast.toAt kind payload
        exact ⟨⟨_, _, hat⟩, hseen⟩
      · rw [hread, ← hlater.seen]
        exact ⟨⟨_, _, hlater.toAt⟩, fun single _ => Nat.le_of_eq (Nat.zero_add _)⟩

/-- Any number of calls, also beyond errors and the end, give a record of a kind that comes up once at
most once, and none if one has been seen before. -/
theorem calls_single (h : reader.At rest position) (untilEnd : Bool) (number : Nat)
    {single : FrameKind} (hsingle : single.Single) :
    (reader.calls untilEnd number).countP (fun call => gave single call.1) +
      (reader.seen single).toNat ≤ 1 := by
  induction number generalizing reader rest position with
  | zero => exact (Nat.zero_add _).symm ▸ Bool.toNat_le _
  | succ number ih =>
      obtain ⟨⟨rest', position', hlater⟩, hseen⟩ := next_seen h
      have hfirst := hseen single hsingle
      have hothers : ∀ goesOn : Bool, (if goesOn then calls untilEnd number reader.next.2
          else []).countP (fun call => gave single call.1) +
          (reader.next.2.seen single).toNat ≤ 1 := by
        intro goesOn
        cases goesOn with
        | true => exact ih hlater
        | false => exact (Nat.zero_add _).symm ▸ Bool.toNat_le _
      rw [calls, List.countP_cons, Nat.add_assoc]
      refine Nat.le_trans (Nat.add_le_add_left ?_ _) (hothers _)
      cases hgave : gave single reader.next.1 with
      | false => simpa [hgave] using hfirst
      | true => simpa [hgave] using hfirst

end Reader

/-- Whatever a source gives its bytes in: its records are read to the end without an error exactly if
its bytes are a log, and are then the records of the log in order. And whatever the bytes are, any
number of calls for the next record, also beyond errors and the end, give at most one header and at
most one checkpoint. -/
theorem reads_exactly_grammar {delivery : Delivery} (hsteady : delivery.Steady)
    (bytes : List UInt8) :
    (∀ records, readRecords (.start bytes delivery) = .ok records ↔ Holds bytes records) ∧
      ∀ reader, Reader.start (.start bytes delivery) = .ok reader →
        ∀ number, ∀ single : FrameKind, single.Single →
          (reader.calls false number).countP (fun call => Reader.gave single call.1) ≤ 1 := by
  refine ⟨fun records => ⟨fun hread => ?_, fun hlog => ?_⟩, ?_⟩
  · obtain ⟨reader, hstart, hread⟩ := except_bind_ok hread
    obtain ⟨body, hbytes, hat, hopen, hunseen⟩ := Reader.start_cases hsteady hstart
    have hsteps : body.length < (Source.start bytes delivery).rest.length + 1 := by
      rw [hbytes, List.length_append]
      omega
    obtain ⟨later, last, hreads, hend⟩ := Reader.reads_of_records hat hsteps hread
    obtain ⟨frames, more, rfl, hframes, hlater, hgoing, hsingle⟩ :=
      Reader.frames_of_reads hreads hat hopen
    refine ⟨⟨frames, more, hbytes, hframes, Reader.next_none hlater hgoing hend⟩, ?_⟩
    intro kind hkind
    have hcount := hsingle kind hkind
    have hbound := Bool.toNat_le (later.seen kind)
    omega
  · obtain ⟨⟨frames, ending, hbytes, hframes, hending⟩, hsingle⟩ := hlog
    have hrest : (Source.start bytes delivery).rest = opening ++ (frames.flatten ++ ending) := hbytes
    obtain ⟨reader, hstart, hat, hopen, hunseen⟩ := Reader.start_opening hsteady hrest
    obtain ⟨later, hreads, hlater, hgoing⟩ := Reader.reads_frames hframes hat hopen fun kind hkind =>
      by rw [hunseen kind]; exact hsingle kind hkind
    obtain ⟨last, hend⟩ := Reader.next_ending hlater hgoing hending
    have hsteps : records.length < (Source.start bytes delivery).rest.length + 1 := by
      have hlength := length_le_frames hframes
      rw [hrest, List.length_append, List.length_append]
      omega
    rw [readRecords, hstart]
    exact Reader.records_of_reads hreads hend hsteps
  · intro reader hstart number single hsingle
    obtain ⟨body, -, hat, -⟩ := Reader.start_cases hsteady hstart
    exact Nat.le_trans (Nat.le_add_right _ _) (Reader.calls_single hat false number hsingle)

/-- A log of one record, with a padding that is not zero, and a byte behind its end. -/
theorem reads_exactly_grammar_sample :
    Delivery.bytewise.Steady ∧
      readRecords (.start (opening ++
          ([255, 255, 255, 255, 3, 0, 0, 0, 1, 2, 3, 9, 9, 9, 9, 9] ++ (frame .finish [] ++ [7])))
        .bytewise) = .ok [.regular [1, 2, 3]] := by
  refine ⟨Delivery.bytewise_steady,
    ((reads_exactly_grammar Delivery.bytewise_steady _).1 _).2 ⟨?_, ?_⟩⟩
  · refine ⟨[[255, 255, 255, 255, 3, 0, 0, 0, 1, 2, 3, 9, 9, 9, 9, 9]], frame .finish [] ++ [7],
      rfl, ?_, ?_⟩
    · exact .cons ⟨[1, 2, 3], ⟨by decide, [9, 9, 9, 9, 9], rfl, rfl⟩, rfl⟩ .nil
    · exact .finish [7] ⟨Nat.zero_le _, [], rfl, rfl⟩
  · rintro kind (rfl | rfl) <;> decide

end WindowJoin.Log

import WindowJoin.Log.Reader

/-!
# Logs read in pieces

A source may give its bytes in pieces of any size and be interrupted between them. As long as each
read gives something while there is something left (`Delivery.Steady`), what is read of it does not
depend on the pieces: up to a number of bytes, it gives the first that many (`read_up_to_steady`). Two
readers that are at the same point in the same bytes then answer every call alike (`calls_alike`), and
a log reads the same however its bytes arrive (`delivery_irrelevant`).
-/

namespace WindowJoin.Log

/-- Every read may give at least one byte, so one that gives none is at the end of the bytes. -/
def Delivery.Steady (delivery : Delivery) : Prop :=
  ∀ reads, 0 < delivery.atMost reads

namespace Source

/-- An interrupted read leaves all bytes. -/
theorem read_interrupted {source later : Source} {wanted : Nat}
    (h : source.read wanted = (.interrupted, later)) :
    later.rest = source.rest ∧ later.delivery = source.delivery := by
  unfold read at h
  split at h
  next => cases h; exact ⟨rfl, rfl⟩
  next => cases h

/-- A read that succeeds takes bytes off the front, no more than wanted. -/
theorem read_bytes {source later : Source} {wanted : Nat} {given : List UInt8}
    (h : source.read wanted = (.bytes given, later)) :
    source.rest = given ++ later.rest ∧ given.length ≤ wanted ∧
      later.delivery = source.delivery := by
  unfold read at h
  split at h
  next => cases h
  next =>
    cases h
    refine ⟨(List.take_append_drop _ _).symm, ?_, rfl⟩
    exact Nat.le_trans (List.length_take_le _ _) (Nat.min_le_left _ _)

/-- From a steady source, a read for some bytes that gives none is at the end. -/
theorem read_none {source later : Source} (hsteady : source.delivery.Steady) {less : Nat}
    (h : source.read (less + 1) = (.bytes [], later)) : source.rest = [] := by
  unfold read at h
  split at h
  next => cases h
  next =>
    have hgiven := hsteady source.reads
    have htake : source.rest.take (min (less + 1) (source.delivery.atMost source.reads)) = [] := by
      injection (Prod.mk.inj h).1
    rcases List.take_eq_nil_iff.1 htake with hzero | hrest
    · omega
    · exact hrest

/-- From a steady source, the first bytes up to the number wanted are read, and the others are
left. -/
theorem read_up_to_steady {source : Source} (hsteady : source.delivery.Steady) (wanted : Nat) :
    (source.readUpTo wanted).1 = source.rest.take wanted ∧
      (source.readUpTo wanted).2.rest = source.rest.drop wanted ∧
      (source.readUpTo wanted).2.delivery = source.delivery := by
  fun_induction readUpTo source wanted with
  | case1 source => exact ⟨rfl, rfl, rfl⟩
  | case2 source less later hread ih =>
      obtain ⟨hrest, hdelivery⟩ := read_interrupted hread
      rw [hrest, hdelivery] at ih
      exact ih hsteady
  | case3 source less later hread =>
      obtain ⟨hrest, -, hdelivery⟩ := read_bytes hread
      have hend := read_none hsteady hread
      rw [hend, List.nil_append] at hrest
      simp only [hend, ← hrest, List.take_nil, List.drop_nil, true_and]
      exact hdelivery
  | case4 source less byte more later hread others last hothers ih =>
      obtain ⟨hrest, hlength, hdelivery⟩ := read_bytes hread
      rw [hdelivery, hothers] at ih
      obtain ⟨htake, hdrop, hlast⟩ := ih hsteady
      have htake' : (byte :: more).take (less + 1) = byte :: more := List.take_of_length_le hlength
      have hdrop' : (byte :: more).drop (less + 1) = [] := List.drop_of_length_le hlength
      simp only [Nat.succ_eq_add_one, hrest, List.take_append, List.drop_append, htake', hdrop',
        List.length_cons, List.nil_append]
      exact ⟨by rw [← htake], hdrop, hlast⟩

end Source

namespace Reader

/-- Two readers that are at the same point in the same bytes, each from a steady source. -/
structure Alike (first second : Reader) : Prop where
  rest : first.source.rest = second.source.rest
  steady : first.source.delivery.Steady ∧ second.source.delivery.Steady
  position : first.position = second.position
  seenHeader : first.seenHeader = second.seenHeader
  seenCheckpoint : first.seenCheckpoint = second.seenCheckpoint
  done : first.done = second.done

/-- The same result, and readers at the same point after it. -/
def Agree {α : Type} (first second : α × Reader) : Prop :=
  first.1 = second.1 ∧ first.2.Alike second.2

variable {first second : Reader}

/-- Readers that are alike read the same bytes and stay at the same point in them. -/
theorem read_up_to_alike (h : first.Alike second) (wanted : Nat) :
    (first.source.readUpTo wanted).1 = (second.source.readUpTo wanted).1 ∧
      ∀ position,
        Alike { first with source := (first.source.readUpTo wanted).2, position }
          { second with source := (second.source.readUpTo wanted).2, position } := by
  obtain ⟨hfirst, hsecond⟩ := h.steady
  obtain ⟨htake, hdrop, hdelivery⟩ := Source.read_up_to_steady hfirst wanted
  obtain ⟨htake', hdrop', hdelivery'⟩ := Source.read_up_to_steady hsecond wanted
  refine ⟨by rw [htake, htake', h.rest], fun position => { h with
    rest := ?_
    steady := ?_
    position := rfl }⟩
  · exact (hdrop.trans (congrArg _ h.rest)).trans hdrop'.symm
  · exact ⟨fun reads => hdelivery ▸ hfirst reads, fun reads => hdelivery' ▸ hsecond reads⟩

theorem read_exactly_alike (h : first.Alike second) (size : Nat) (part : CodecPart) :
    Agree (first.readExactly size part) (second.readExactly size part) := by
  obtain ⟨hbytes, halike⟩ := read_up_to_alike h size
  simp only [readExactly, hbytes, h.position]
  split
  · exact ⟨rfl, halike _⟩
  · exact ⟨rfl, h.position ▸ halike first.position⟩

theorem read_word_alike (h : first.Alike second) (part : CodecPart) :
    Agree (first.readWordOrEnd part) (second.readWordOrEnd part) := by
  obtain ⟨hbytes, halike⟩ := read_up_to_alike h 4
  simp only [readWordOrEnd, hbytes, h.position]
  split
  · exact ⟨rfl, halike _⟩
  · split
    · exact ⟨rfl, h.position ▸ halike first.position⟩
    · exact ⟨rfl, h.position ▸ halike first.position⟩

theorem accept_alike (h : first.Alike second) (kind : FrameKind) (payload : List UInt8) :
    Agree (first.accept kind payload) (second.accept kind payload) := by
  cases kind with
  | finish => exact ⟨rfl, { h with done := rfl }⟩
  | regular => exact ⟨rfl, h⟩
  | header =>
      simp only [accept, h.seenHeader]
      split
      · exact ⟨rfl, h⟩
      · cases propertiesOfJson payload <;> exact ⟨rfl, { h with seenHeader := rfl }⟩
  | checkpoint =>
      simp only [accept, h.seenCheckpoint]
      split
      · exact ⟨rfl, h⟩
      · cases JoinCheckpoint.ofJson payload <;> exact ⟨rfl, { h with seenCheckpoint := rfl }⟩

/-- Two calls that agree have both failed or both given a value. -/
theorem Agree.cases {α : Type} {one two : Except CodecError α × Reader} (h : Agree one two) :
    (∃ error first second, one = (.error error, first) ∧ two = (.error error, second) ∧
        first.Alike second) ∨
      ∃ value first second, one = (.ok value, first) ∧ two = (.ok value, second) ∧
        first.Alike second := by
  obtain ⟨result, first⟩ := one
  obtain ⟨result', second⟩ := two
  obtain ⟨rfl, halike⟩ : result = result' ∧ first.Alike second := h
  cases result with
  | error error => exact .inl ⟨error, first, second, rfl, rfl, halike⟩
  | ok value => exact .inr ⟨value, first, second, rfl, rfl, halike⟩

theorem read_frame_alike (h : first.Alike second) (kind : FrameKind) :
    Agree (first.readFrame kind) (second.readFrame kind) := by
  unfold readFrame
  rcases (read_exactly_alike h 4 .recordSize).cases with
    ⟨error, first, second, hfirst, hsecond, h⟩ | ⟨bytes, first, second, hfirst, hsecond, h⟩
  · rw [hfirst, hsecond]
    exact ⟨rfl, h⟩
  rw [hfirst, hsecond]
  dsimp only
  split
  · exact ⟨rfl, h⟩
  rcases (read_exactly_alike h (Wire.ofLittleEndian bytes) .recordPayload).cases with
    ⟨error, first, second, hfirst, hsecond, h⟩ | ⟨payload, first, second, hfirst, hsecond, h⟩
  · rw [hfirst, hsecond]
    exact ⟨rfl, h⟩
  rw [hfirst, hsecond]
  dsimp only
  rcases (read_exactly_alike h (padding (Wire.ofLittleEndian bytes)) .recordPadding).cases with
    ⟨error, first, second, hfirst, hsecond, h⟩ | ⟨filler, first, second, hfirst, hsecond, h⟩
  · rw [hfirst, hsecond]
    exact ⟨rfl, h⟩
  rw [hfirst, hsecond]
  exact accept_alike h kind payload

theorem next_alike (h : first.Alike second) : Agree first.next second.next := by
  unfold next
  rw [h.done]
  split
  · exact ⟨rfl, h⟩
  rcases (read_word_alike h .recordType).cases with
    ⟨error, first, second, hfirst, hsecond, h⟩ | ⟨word, first, second, hfirst, hsecond, h⟩
  · rw [hfirst, hsecond]
    exact ⟨rfl, h⟩
  rw [hfirst, hsecond]
  cases word with
  | none => exact ⟨rfl, { h with done := rfl }⟩
  | some code =>
      dsimp only
      split
      · exact ⟨rfl, h⟩
      · cases FrameKind.ofCode? code with
        | none => exact ⟨rfl, h⟩
        | some kind => exact read_frame_alike h kind

/-- Readers that are alike answer any number of calls alike. -/
theorem calls_alike (h : first.Alike second) (untilEnd : Bool) (number : Nat) :
    first.calls untilEnd number = second.calls untilEnd number := by
  induction number generalizing first second with
  | zero => rfl
  | succ more ih =>
      obtain ⟨hresult, hlater⟩ := next_alike h
      simp only [calls, hresult, hlater.position, ih hlater]

/-- Sources that are alike are opened alike. -/
theorem start_alike (one two : Source) (hrest : one.rest = two.rest)
    (hone : one.delivery.Steady) (htwo : two.delivery.Steady) :
    (∃ error, start one = .error error ∧ start two = .error error) ∨
      ∃ first second, start one = .ok first ∧ start two = .ok second ∧ first.Alike second := by
  have h : Alike ⟨one, 0, false, false, false⟩ ⟨two, 0, false, false, false⟩ :=
    ⟨hrest, ⟨hone, htwo⟩, rfl, rfl, rfl, rfl⟩
  unfold start
  rcases (read_word_alike h .fileMagic).cases with
    ⟨error, first, second, hfirst, hsecond, -⟩ | ⟨word, first, second, hfirst, hsecond, h⟩
  · rw [hfirst, hsecond]
    exact .inl ⟨error, rfl, rfl⟩
  rw [hfirst, hsecond]
  cases word with
  | none => exact .inl ⟨_, rfl, rfl⟩
  | some word =>
      dsimp only
      split
      · exact .inl ⟨_, rfl, rfl⟩
      rcases (read_exactly_alike h 4 .logVersion).cases with
        ⟨error, first, second, hfirst, hsecond, -⟩ | ⟨bytes, first, second, hfirst, hsecond, h⟩
      · rw [hfirst, hsecond]
        exact .inl ⟨error, rfl, rfl⟩
      rw [hfirst, hsecond]
      dsimp only
      split
      · exact .inr ⟨first, second, rfl, rfl, h⟩
      · exact .inl ⟨_, rfl, rfl⟩

end Reader

/-- What a log gives does not depend on how its bytes arrive: neither on how many of them each read
gives, as long as it gives some, nor on which reads are interrupted first. It is refused with the same
error or opened at the same position, and then any number of calls for the next record, also beyond
the end or an error, have the same results and leave the reader at the same positions. -/
theorem delivery_irrelevant {first second : Delivery} (hfirst : first.Steady)
    (hsecond : second.Steady) (bytes : List UInt8) (untilEnd : Bool) (number : Nat) :
    (Reader.start (.start bytes first)).map
        (fun reader => (reader.position, reader.calls untilEnd number)) =
      (Reader.start (.start bytes second)).map
        (fun reader => (reader.position, reader.calls untilEnd number)) := by
  rcases Reader.start_alike (.start bytes first) (.start bytes second) rfl hfirst hsecond with
    ⟨error, hone, htwo⟩ | ⟨reader, other, hone, htwo, h⟩
  · rw [hone, htwo]
  · rw [hone, htwo]
    exact congrArg Except.ok (Prod.ext h.position (Reader.calls_alike h untilEnd number))

namespace Delivery

/-- One byte at a time, and every other one only after an interruption. -/
def bytewise : Delivery := ⟨fun reads => reads % 2, fun _ => 1⟩

/-- As many bytes as are wanted, up to the largest payload. -/
def whole : Delivery := ⟨fun _ => 0, fun _ => maxPayload⟩

theorem bytewise_steady : bytewise.Steady :=
  fun _ => Nat.one_pos

theorem whole_steady : whole.Steady :=
  fun _ => show 0 < maxPayload by decide

end Delivery

theorem delivery_irrelevant_sample :
    Delivery.bytewise.Steady ∧ Delivery.whole.Steady ∧
      (Reader.start (.start (opening ++ (frame .regular [1, 2, 3] ++ [255])) .bytewise)).map
          (fun reader => (reader.position, reader.calls false 3)) =
        (Reader.start (.start (opening ++ (frame .regular [1, 2, 3] ++ [255])) .whole)).map
          (fun reader => (reader.position, reader.calls false 3)) :=
  ⟨Delivery.bytewise_steady, Delivery.whole_steady,
    delivery_irrelevant Delivery.bytewise_steady Delivery.whole_steady _ false 3⟩

/-- The record is given, then the error that the next frame is cut off, and then the end. -/
example :
    (Reader.start (.start (opening ++ (frame .regular [1, 2, 3] ++ [255])) .bytewise)).map
        (fun reader => (reader.position, reader.calls false 3)) =
      .ok (8, [(.ok (some (.regular [1, 2, 3])), 24), (.error (.truncated .recordType 24), 24),
        (.ok none, 24)]) := by
  cbv

end WindowJoin.Log

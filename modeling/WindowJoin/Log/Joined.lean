import WindowJoin.Log.Reader
import WindowJoin.Log.Writer
import WindowJoin.Wire.JoinedRecord

/-!
# Logs of joined batches

A log of joined batches holds, after optional properties and an optional checkpoint that the batches
go on from, one regular record for each batch. A batch that cannot be written leaves no record.
-/

namespace WindowJoin.Log

/-- What a log of joined batches holds. -/
structure JoinedLog where
  properties : OrderedMap String
  checkpoint : Option JoinCheckpoint
  batches : List JoinedBatch
  deriving DecidableEq

namespace JoinedLog

/-- A log with nothing in it. -/
def empty : JoinedLog :=
  ⟨.empty, none, []⟩

/-- The log with one more record. -/
def add (log : JoinedLog) : Record → Except CodecError JoinedLog
  | .header properties => .ok { log with properties }
  | .checkpoint checkpoint => .ok { log with checkpoint := some checkpoint }
  | .regular payload => do
    let batch ← Wire.decodeJoined payload
    .ok { log with batches := log.batches ++ [batch] }

/-- The rest of a log after what has been read. The first argument bounds the number of records. -/
def readFrom : Nat → Reader → JoinedLog → Except CodecError JoinedLog
  | 0, _, log => .ok log
  | steps + 1, reader, log =>
    match reader.next with
    | (.error error, _) => .error error
    | (.ok none, _) => .ok log
    | (.ok (some record), reader) => do readFrom steps reader (← log.add record)

/-- The log that a source gives. -/
def read (source : Source) : Except CodecError JoinedLog := do
  readFrom (source.rest.length + 1) (← Reader.start source) empty

end JoinedLog

/-- A log of joined batches that is being written, and the number of batches in it. -/
structure JoinedWriter where
  writer : Writer
  batches : Nat

namespace JoinedWriter

/-- A log that is begun in a sink, with properties and a checkpoint if they are given. -/
def start (sink : Sink) (properties : Option (OrderedMap String))
    (checkpoint : Option JoinCheckpoint) : Except CodecError JoinedWriter := do
  let (result, writer) := Writer.start sink
  result
  let (result, writer) := match properties with
    | some properties => writer.write (.header properties)
    | none => (.ok (), writer)
  result
  let (result, writer) := match checkpoint with
    | some checkpoint => writer.write (.checkpoint checkpoint)
    | none => (.ok (), writer)
  result
  .ok ⟨writer, 0⟩

/-- Writes a batch, if it can be encoded. -/
def write (log : JoinedWriter) (batch : JoinedBatch) : Except CodecError Unit × JoinedWriter :=
  match Wire.encodeJoined batch with
  | .error error => (.error error, log)
  | .ok payload =>
    match log.writer.write (.regular payload) with
    | (.ok (), writer) => (.ok (), ⟨writer, log.batches + 1⟩)
    | (.error error, writer) => (.error error, { log with writer })

/-- Writes batches in turn, and gives the errors of those that failed. -/
def writeAll (log : JoinedWriter) : List JoinedBatch → List CodecError × JoinedWriter
  | [] => ([], log)
  | batch :: rest =>
    let (result, log) := log.write batch
    let (errors, log) := log.writeAll rest
    match result with
    | .ok () => (errors, log)
    | .error error => (error :: errors, log)

/-- Ends the log, and gives the sink that it is in. -/
def finish (log : JoinedWriter) : Except CodecError Sink :=
  match log.writer.finish with
  | (.ok (), writer) => .ok writer.sink
  | (.error error, _) => .error error

end JoinedWriter

end WindowJoin.Log

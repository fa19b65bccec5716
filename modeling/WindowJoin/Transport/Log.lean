import WindowJoin.OrderedMap
import WindowJoin.Transport.Start
import WindowJoin.Error

/-!
# Partitioned event logs

The transport holds streams, a stream holds partitions, and a partition is a log of events to which
events are only ever added. Every change of a partition is announced, so that clients who wait look
again; `notices` counts the announcements. A client reads the events of one partition that its start
position admits, in the order of the log (`Client.poll`, `Client.read`).
-/

namespace WindowJoin

/-- The log of a partition, with the errors that the next reads of it meet. -/
structure PartitionLog where
  events : List RawEvent
  nextOffset : Nat
  closed : Bool
  failures : List TransportError
  deriving DecidableEq, Repr

namespace PartitionLog

/-- A log without events. -/
def empty : PartitionLog :=
  ⟨[], 0, false, []⟩

/-- Adds an event. Sequence numbers count the events, and offsets count their bytes, at least one for
each event. -/
def append (log : PartitionLog) (partition : String) (enqueuedTime : Instant)
    (body : List UInt8) : PartitionLog :=
  { log with
    events := log.events ++ [{
      offset := .ofNat log.nextOffset
      sequenceNumber := .ofNat log.events.length
      partition
      enqueuedTime
      body }]
    nextOffset := log.nextOffset + max body.length 1 }

end PartitionLog

/-- The streams with their partitions. -/
structure Transport where
  streams : OrderedMap (OrderedMap PartitionLog)
  /-- The number of announcements so far. -/
  notices : Nat

namespace Transport

/-- A transport without streams. -/
def empty : Transport :=
  ⟨.empty, 0⟩

/-- The log of a partition, if there is one. -/
def log? (transport : Transport) (stream partition : String) : Option PartitionLog :=
  (transport.streams.get? stream).bind (·.get? partition)

/-- The transport with the log of a partition replaced. -/
def setLog (transport : Transport) (stream partition : String) (log : PartitionLog) : Transport :=
  let partitions := (transport.streams.get? stream).getD .empty
  { transport with streams := transport.streams.insert stream (partitions.insert partition log) }

/-- Tells the clients who wait to look again. -/
def announce (transport : Transport) : Transport :=
  { transport with notices := transport.notices + 1 }

/-- Changes the log of a partition, which comes into being with the first change, and announces
it. -/
def update (transport : Transport) (stream partition : String)
    (change : PartitionLog → PartitionLog) : Transport :=
  (transport.setLog stream partition
    (change ((transport.log? stream partition).getD .empty))).announce

/-- Sets a stream up with partitions named by the numbers below a count. Logs that the stream had are
lost. -/
def addStream (transport : Transport) (stream : String) (count : Nat) : Transport :=
  let partitions := (List.range count).map fun number => (toString number, PartitionLog.empty)
  { transport with streams := transport.streams.insert stream (.ofList partitions) }

/-- Adds an event to a partition. -/
def append (transport : Transport) (stream partition : String) (enqueuedTime : Instant)
    (body : List UInt8) : Transport :=
  transport.update stream partition (·.append partition enqueuedTime body)

/-- The sequence number that the next event of a partition gets. -/
def nextSequenceNumber (transport : Transport) (stream partition : String) : Int64 :=
  .ofNat ((transport.log? stream partition).elim 0 (·.events.length))

/-- Marks a partition as complete. -/
def closePartition (transport : Transport) (stream partition : String) : Transport :=
  transport.update stream partition ({ · with closed := true })

/-- Marks all partitions of a stream as complete. -/
def closeStream (transport : Transport) (stream : String) : Transport :=
  match transport.streams.get? stream with
  | none => transport.announce
  | some partitions =>
    let closed := partitions.map fun log => { log with closed := true }
    announce { transport with streams := transport.streams.insert stream closed }

/-- Lets the next reads of a partition fail. -/
def injectFailures (transport : Transport) (stream partition : String)
    (failures : List TransportError) : Transport :=
  transport.update stream partition fun log => { log with failures := log.failures ++ failures }

/-- The partitions of a stream, in order. -/
def partitions (transport : Transport) (stream : String) : Except TransportError (List String) :=
  match transport.streams.get? stream with
  | some partitions => .ok (partitions.entries.map (·.1))
  | none => .error (.fatal ("unknown stream " ++ quotedText stream))

end Transport

/-- What one read of a partition gives. -/
inductive Received where
  /-- Events; none of them if the wait for one was in vain. -/
  | events (events : List RawEvent)
  /-- The partition is complete and has been read to its end. -/
  | endOfStream
  deriving DecidableEq, Repr

/-- A reader of one partition. -/
structure Client where
  stream : String
  partition : String
  start : StartPosition
  /-- The number of events of the log that it has gone past. -/
  position : Nat
  deriving DecidableEq, Repr

namespace Client

/-- A reader at the beginning of a partition, which has to exist. -/
def connect (transport : Transport) (stream partition : String) (start : StartPosition) :
    Except TransportError Client :=
  match transport.log? stream partition with
  | some _ => .ok ⟨stream, partition, start, 0⟩
  | none =>
    .error (.fatal ("unknown partition " ++ partition ++ " in stream " ++ quotedText stream))

/-- Goes along a log until a number of events is admitted or the log ends. Gives the number of events
gone past and those admitted. -/
def scan (start : StartPosition) : Nat → List RawEvent → Nat × List RawEvent
  | 0, _ => (0, [])
  | _ + 1, [] => (0, [])
  | limit + 1, event :: rest =>
    if start.admits event then
      let (passed, admitted) := scan start limit rest
      (passed + 1, event :: admitted)
    else
      let (passed, admitted) := scan start (limit + 1) rest
      (passed + 1, admitted)

/-- What a look at a partition gives: a result or an error, or nothing yet. -/
abbrev Glance := Option (Except TransportError Received)

/-- Looks for up to a number of events. An error that was injected comes first and is then gone. -/
def poll (client : Client) (transport : Transport) (limit : Nat) : Glance × Client × Transport :=
  match transport.log? client.stream client.partition with
  | none => (some (.error (.fatal ("partition " ++ client.partition ++ " is gone"))), client, transport)
  | some log =>
    match log.failures with
    | failure :: later =>
      (some (.error failure), client,
        transport.setLog client.stream client.partition { log with failures := later })
    | [] =>
      let (passed, admitted) := scan client.start (max limit 1) (log.events.drop client.position)
      (if admitted ≠ [] then some (.ok (.events admitted))
        else if log.closed then some (.ok .endOfStream)
        else none,
        { client with position := client.position + passed }, transport)

/-- Begins or goes on with a read. A client that has found nothing looks again when there has been an
announcement since, and gives up at the deadline. `seen` is the number of announcements at its last
look. -/
def read (client : Client) (transport : Transport) (limit now deadline : Nat)
    (seen : Option Nat) : Glance × Client × Transport :=
  let (glance, client, transport) :=
    if seen = some transport.notices then (none, client, transport)
    else client.poll transport limit
  (if glance.isNone && deadline ≤ now then some (.ok (.events [])) else glance, client, transport)

end Client

end WindowJoin

import WindowJoin.Simulation.Basic
import WindowJoin.Transport.Log

/-!
# Actions on a transport

What a script does to a transport, and single reads by clients while a few actions come at set times.
-/

namespace WindowJoin

/-- What a script does to a transport. -/
inductive TransportAction where
  | addStream (stream : String) (count : Nat)
  | append (stream partition : String) (time : Instant) (body : List UInt8)
  /-- Adds an event that holds these messages, if they can be encoded. -/
  | appendMessages (stream partition : String) (time : Instant) (messages : List Message)
  | closePartition (stream partition : String)
  | closeStream (stream : String)
  | inject (stream partition : String) (failures : List TransportError)

namespace TransportAction

/-- What an action answers: the sequence number of an event that it has added. -/
abbrev Answer := Except CodecError (Option Int64)

/-- Takes an action. -/
def perform (transport : Transport) : TransportAction → Answer × Transport
  | addStream stream count => (.ok none, transport.addStream stream count)
  | append stream partition time body =>
    (.ok (some (transport.nextSequenceNumber stream partition)),
      transport.append stream partition time body)
  | appendMessages stream partition time messages =>
    match Wire.encodeEventMessage messages with
    | .error error => (.error error, transport)
    | .ok body =>
      (.ok (some (transport.nextSequenceNumber stream partition)),
        transport.append stream partition time body)
  | closePartition stream partition => (.ok none, transport.closePartition stream partition)
  | closeStream stream => (.ok none, transport.closeStream stream)
  | inject stream partition failures =>
    (.ok none, transport.injectFailures stream partition failures)

/-- The transport after actions. -/
def performAll (actions : List TransportAction) (transport : Transport) : Transport :=
  actions.foldl (fun transport action => (action.perform transport).2) transport

end TransportAction

/-- A transport, the clients by name, the time, and what is to come. -/
structure TransportTrial where
  transport : Transport
  clients : List (String × Client)
  now : Nat
  upcoming : List (Nat × TransportAction)

namespace TransportTrial

/-- A transport at the beginning. -/
def start : TransportTrial :=
  ⟨.empty, [], 0, []⟩

/-- Connects a client under a name. -/
def connect (trial : TransportTrial) (name stream partition : String) (start : StartPosition) :
    Except TransportError TransportTrial := do
  let client ← Client.connect trial.transport stream partition start
  .ok { trial with clients := (name, client) :: trial.clients.filter (·.1 ≠ name) }

/-- Lets a client read, while an action may come a time after the read begins. Gives how long the
read took and its result; none if there is no such client. -/
def read? (trial : TransportTrial) (name : String) (limit timeout : Nat)
    (later : Option (Nat × TransportAction)) :
    Option (Nat × Except TransportError Received × TransportTrial) := do
  let client ← trial.clients.lookup name
  let upcoming := later.elim trial.upcoming fun (delay, action) =>
    schedule (trial.now + delay) action trial.upcoming
  let deadline := trial.now + timeout
  let waited := waitFor (fun now (client, transport, seen) =>
      let (glance, client, transport) := client.read transport limit now deadline seen
      (glance, (client, transport, some transport.notices)))
    (fun action (client, transport, seen) => (client, (action.perform transport).2, seen))
    deadline upcoming trial.now (client, trial.transport, none)
  let (client, transport, _) := waited.state
  let result ← waited.result
  some (waited.time - trial.now, result,
    { transport, clients := (name, client) :: trial.clients.filter (·.1 ≠ name), now := waited.time,
      upcoming := waited.upcoming })

end TransportTrial

end WindowJoin

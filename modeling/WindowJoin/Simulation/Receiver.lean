import WindowJoin.Receiver.Machine
import WindowJoin.Simulation.Transport

/-!
# A receiver under a script

The script acts on the transport that a receiver reads; a reader takes the batches out of the
receiver's source, from a given time on, and notes what the receiver shows at the end of the source.
-/

namespace WindowJoin

/-- What a script does to a receiver. -/
inductive ReceiverAction where
  | transport (action : TransportAction)
  | cancel
  | dropSource

/-- A receiver with the reader of its source. -/
structure ReceiverTrial where
  receiver : Receiver
  view : Receiver.View
  readFrom : Nat
  /-- The batches that were read and when, the last first. -/
  seen : List (Nat × MessageBatch)
  /-- What the receiver showed when the reader came to the end of the source. -/
  drained : Option ReceiverStatus

namespace ReceiverTrial

/-- A receiver at the beginning. -/
def start (transport : Transport) (client : Client) (backoff : BoundedBackoff) (capacity readFrom : Nat) :
    ReceiverTrial where
  receiver := .start client backoff
  view := { transport, source := .new client.partition capacity, cancelled := false, now := 0 }
  readFrom
  seen := []
  drained := none

/-- Takes an action. -/
def perform (trial : ReceiverTrial) : ReceiverAction → ReceiverTrial
  | .transport action =>
    { trial with view.transport := (action.perform trial.view.transport).2 }
  | .cancel => { trial with view.cancelled := true }
  | .dropSource => { trial with view.source := trial.view.source.dropReader }

/-- The reader takes the next batch, or notes the end of a source that it still has. -/
def read? (trial : ReceiverTrial) : Option ReceiverTrial :=
  if trial.view.now < trial.readFrom then none
  else
    match trial.view.source.channel.receive with
    | .item batch channel =>
      some { trial with view.source.channel := channel, seen := (trial.view.now, batch) :: trial.seen }
    | .ended =>
      if trial.view.source.channel.receiverOpen && trial.drained.isNone then
        some { trial with drained := some trial.view.source.status }
      else none
    | .empty => none

/-- The result of the receiver, which is a success until it has ended. -/
def result (trial : ReceiverTrial) : Except Failure Unit :=
  match trial.receiver.control with
  | .finished result => result
  | _ => .ok ()

/-- The receiver and its reader on virtual time. -/
def simulation (rules : ReceiverRules) : Simulation ReceiverTrial ReceiverAction where
  perform action trial := some (trial.perform action)
  steps trial :=
    (Receiver.transitions rules trial.receiver trial.view).map
        (fun (receiver, view) => { trial with receiver, view })
      ++ trial.read?.toList
  deadlines trial := trial.readFrom :: trial.receiver.deadlines
  finished trial := trial.receiver.isFinished
  cancel trial := { trial with view.cancelled := true }
  now trial := trial.view.now
  setNow now trial := { trial with view.now := now }

end ReceiverTrial

end WindowJoin

import WindowJoin.Backoff
import WindowJoin.PartitionSource
import WindowJoin.Receiver.Rules
import WindowJoin.Transport.Log

/-!
# The receiver of a partition

A receiver reads one partition and pushes its batches into the partition's source, in order. Events
that cannot be decoded are skipped. After an error that passes it waits and reads again, until too
many errors have come in a row; any other error ends it.

`Receiver.transitions` gives what a receiver can do next, given what it sees. No transition means
that it waits.
-/

namespace WindowJoin

namespace Receiver

/-- Where a receiver stands. -/
inductive Control where
  /-- About to read. -/
  | calling
  /-- Waiting for events until a deadline, with the number of announcements at the last look. -/
  | waiting (deadline seen : Nat)
  /-- Pushing the events that it has read. -/
  | pushing (events : List RawEvent)
  /-- Waiting after an error. -/
  | backingOff (deadline : Nat)
  | finished (result : Except Failure Unit)

end Receiver

/-- A receiver: its client, its schedule of waits after errors, and where it stands. -/
structure Receiver where
  client : Client
  backoff : BoundedBackoff
  control : Receiver.Control

namespace Receiver

/-- What a receiver sees and changes. -/
structure View where
  transport : Transport
  source : PartitionSource
  cancelled : Bool
  now : Nat

/-- A receiver at the beginning. -/
def start (client : Client) (backoff : BoundedBackoff) : Receiver :=
  ⟨client, backoff, .calling⟩

/-- Whether a receiver has ended. -/
def isFinished (receiver : Receiver) : Bool :=
  match receiver.control with
  | .finished _ => true
  | _ => false

/-- The end of a receiver, with which its end of the source goes. -/
def finish (receiver : Receiver) (view : View) (result : Except Failure Unit) : Receiver × View :=
  ({ receiver with control := .finished result }, { view with source := view.source.dropWriter })

/-- Goes on after a read. -/
def handle (rules : ReceiverRules) (receiver : Receiver) (view : View)
    (result : Except TransportError Received) : Receiver × View :=
  match result with
  | .ok (.events events) =>
    ({ receiver with backoff := receiver.backoff.reset, control := .pushing events },
      { view with source := { view.source with status := .receiving } })
  | .ok .endOfStream => finish receiver view (.ok ())
  | .error error =>
    if error.isTransient then
      if rules.maxRetries ≤ receiver.backoff.attempts then
        finish receiver view (.error (.retriesExhausted receiver.client.partition
          (receiver.backoff.attempts + 1) error.message))
      else
        let (delay, backoff) := receiver.backoff.next
        ({ receiver with backoff, control := .backingOff (delay.pauseEnd view.now) },
          { view with source := { view.source with status := .backingOff } })
    else
      finish receiver view (.error
        (.during (.receiving receiver.client.stream receiver.client.partition) (.transport error)))

/-- Begins or goes on with a read. -/
def read (rules : ReceiverRules) (receiver : Receiver) (view : View) (deadline : Nat)
    (seen : Option Nat) : List (Receiver × View) :=
  let (glance, client, transport) :=
    receiver.client.read view.transport rules.batchSize view.now deadline seen
  let receiver := { receiver with client }
  let view := { view with transport }
  match glance with
  | some result => [handle rules receiver view result]
  | none =>
    if seen = some transport.notices then []
    else [({ receiver with control := .waiting deadline transport.notices }, view)]

/-- What a receiver can do next. -/
def transitions (rules : ReceiverRules) (receiver : Receiver) (view : View) :
    List (Receiver × View) :=
  match receiver.control with
  | .calling =>
    if view.cancelled then [finish receiver view (.ok ())]
    else read rules receiver view (view.now + rules.timeout) none
  | .waiting deadline seen =>
    if view.cancelled then [finish receiver view (.ok ())]
    else read rules receiver view deadline (some seen)
  | .pushing [] => [({ receiver with control := .calling }, view)]
  | .pushing (event :: rest) =>
    match Wire.decodeBatch event with
    | .error _ => [({ receiver with control := .pushing rest }, view)]
    | .ok batch =>
      if view.cancelled then [finish receiver view (.ok ())]
      else
        match view.source.push batch with
        | .sent channel =>
          [({ receiver with control := .pushing rest },
            { view with source := { view.source with channel } })]
        | .refused => [finish receiver view (.ok ())]
        | .full => []
  | .backingOff deadline =>
    (if view.cancelled then [finish receiver view (.ok ())] else [])
      ++ if deadline ≤ view.now then [({ receiver with control := .calling }, view)] else []
  | .finished _ => []

/-- The times at which a waiting receiver goes on by itself. -/
def deadlines (receiver : Receiver) : List Nat :=
  match receiver.control with
  | .waiting deadline _ | .backingOff deadline => [deadline]
  | _ => []

end Receiver

end WindowJoin

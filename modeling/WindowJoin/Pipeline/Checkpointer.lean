import WindowJoin.Channel
import WindowJoin.Storage.Checkpoints
import WindowJoin.Ticker

/-!
# The keeper of the join checkpoint

The consumer of a pipeline commits each joined batch once it has dealt with it. The checkpointer
moves its checkpoint forward with each commit, passing over those that would move it back, and stores
it at intervals, on request, and at its end, if it has changed since it was last stored. Everyone may
look at the checkpoint that it has published, stored or not. It takes commands in the order in which
they were sent, so a flush stores every commit that was sent before it.

`Checkpointer.transitions` gives what a checkpointer can do next, given what it sees. No transition
means that it waits; more than one means that the order is not fixed.
-/

namespace WindowJoin

namespace Checkpointer

/-- What a checkpointer is told. Requests have numbers, under which they are answered. -/
inductive Command where
  /-- A joined batch at this position has been dealt with. -/
  | commit (partition : String) (offset : Int64) (enqueuedTime : Instant)
  /-- Store the checkpoint. -/
  | flush (request : Nat)
  /-- Store the checkpoint and end. -/
  | shutdown (request : Nat)
  deriving DecidableEq, Repr

namespace Command

/-- The command that commits a joined batch. -/
def commitBatch (batch : JoinedBatch) : Command :=
  commit batch.partition batch.offset batch.enqueuedTime

/-- The number of a request that waits for an answer. -/
def request? : Command → Option Nat
  | commit .. => none
  | flush request | shutdown request => some request

end Command

/-- The number of commands that can wait for a checkpointer. -/
def commandCapacity : Nat := 64

/-- Why the checkpoint is stored. -/
inductive Purpose where
  /-- The interval is over. -/
  | routine
  | flush (request : Nat)
  | shutdown (request : Nat)
  /-- There will be no more commands. -/
  | leaving
  deriving DecidableEq, Repr

/-- Where a checkpointer stands. -/
inductive Control where
  | listening
  /-- Storing the checkpoint, with the next attempt at a time. -/
  | storing (attempts : Attempts) (time : Nat) (purpose : Purpose)
  | finished
  deriving DecidableEq, Repr

/-- How and how often the checkpoint is stored. -/
structure Rules where
  store : CheckpointStore
  blobName : String
  /-- The milliseconds from one routine to the next. -/
  interval : Nat
  deriving DecidableEq, Repr

/-- The answers to requests, by their numbers. -/
abbrev Replies := List (Nat × Except Failure Unit)

/-- What a checkpointer sees and changes. -/
structure View where
  commands : Channel Command
  replies : Replies
  blobs : Guarded MemoryBlobs
  cancelled : Bool
  now : Nat

/-- The answer to a request for which there is no checkpointer. -/
def stopped : Failure :=
  .componentFailed "checkpointer" "checkpoint actor has stopped"

end Checkpointer

/-- A checkpointer: its checkpoint, the one that others see, whether it has changed since it was
stored, the ticker of the routine, and where it stands. -/
structure Checkpointer where
  checkpoint : JoinCheckpoint
  published : JoinCheckpoint
  dirty : Bool
  ticker : Ticker
  control : Checkpointer.Control
  deriving DecidableEq

namespace Checkpointer

/-- A checkpointer that goes on from a checkpoint. Its first routine comes an interval later. -/
def start (rules : Rules) (checkpoint : JoinCheckpoint) (now : Nat) : Checkpointer where
  checkpoint
  published := checkpoint
  dirty := false
  ticker := (Ticker.start rules.interval now).tick now
  control := .listening

/-- The end of a checkpointer. Requests that wait are answered to that effect. -/
def finish (actor : Checkpointer) (view : View) : Checkpointer × View :=
  let requests := view.commands.queue.filterMap Command.request?
  ({ actor with control := .finished },
    { view with
      commands := view.commands.dropReceiver
      replies := view.replies ++ requests.map fun request => (request, .error stopped) })

/-- Goes on after the checkpoint has been stored, or could not be. -/
def conclude (actor : Checkpointer) (view : View) (purpose : Purpose)
    (result : Except Failure Unit) : Checkpointer × View :=
  match purpose with
  | .routine => ({ actor with control := .listening }, view)
  | .flush request =>
    ({ actor with control := .listening }, { view with replies := view.replies ++ [(request, result)] })
  | .shutdown request =>
    finish actor { view with replies := view.replies ++ [(request, result)] }
  | .leaving => finish actor view

/-- Begins to store the checkpoint, if it has changed. -/
def persist (rules : Rules) (actor : Checkpointer) (view : View) (purpose : Purpose) :
    Checkpointer × View :=
  if actor.dirty then
    ({ actor with
        control := .storing (.start rules.store.maxAttempts rules.store.backoff) view.now purpose },
      view)
  else actor.conclude view purpose (.ok ())

/-- Takes a commit in and publishes the checkpoint, unless that would move it back. -/
def commit (actor : Checkpointer) (partition : String) (offset : Int64)
    (enqueuedTime : Instant) : Checkpointer :=
  match actor.checkpoint.move partition offset enqueuedTime with
  | (.ok (), checkpoint) => { actor with checkpoint, published := checkpoint, dirty := true }
  | (.error _, checkpoint) => { actor with checkpoint }

/-- Makes an attempt to store the checkpoint. -/
def attempt (rules : Rules) (actor : Checkpointer) (view : View) (attempts : Attempts)
    (purpose : Purpose) : Checkpointer × View :=
  let (result, blobs) := (Guarded.access MemoryBlobs.access).write rules.blobName
    actor.checkpoint.toJson view.blobs
  let view := { view with blobs }
  match attempts.judge result with
  | .again delay attempts =>
    ({ actor with control := .storing attempts (delay.pauseEnd view.now) purpose }, view)
  | .done (.ok ()) => conclude { actor with dirty := false } view purpose (.ok ())
  | .done (.error error) =>
    actor.conclude view purpose (.error (Activity.writingJoinCheckpoint.storageFailure error))

/-- Does what a command says. -/
def obey (rules : Rules) (actor : Checkpointer) (view : View) : Command → Checkpointer × View
  | .commit partition offset enqueuedTime => (actor.commit partition offset enqueuedTime, view)
  | .flush request => actor.persist rules view (.flush request)
  | .shutdown request => actor.persist rules view (.shutdown request)

/-- What a checkpointer can do next. -/
def transitions (rules : Rules) (actor : Checkpointer) (view : View) : List (Checkpointer × View) :=
  match actor.control with
  | .listening =>
    (if view.cancelled then [actor.persist rules view .leaving] else [])
      ++ (if actor.ticker.due ≤ view.now then
          [persist rules { actor with ticker := actor.ticker.tick view.now } view .routine]
        else [])
      ++ match view.commands.receive with
        | .item command commands => [actor.obey rules { view with commands } command]
        | .ended => [actor.persist rules view .leaving]
        | .empty => []
  | .storing attempts time purpose =>
    if time ≤ view.now then [actor.attempt rules view attempts purpose] else []
  | .finished => []

/-- The times at which a waiting checkpointer goes on by itself. -/
def deadlines (actor : Checkpointer) : List Nat :=
  match actor.control with
  | .listening => [actor.ticker.due]
  | .storing _ time _ => [time]
  | .finished => []

end Checkpointer

end WindowJoin

import WindowJoin.Merge.Machine
import WindowJoin.Simulation.Basic

/-!
# A merge under a script

The script pushes batches into the partitions of a merge and closes them; a reader takes what comes
out, from a given time on.
-/

namespace WindowJoin

/-- What a script does to a merge. -/
inductive MergeAction where
  | push (partition : String) (batch : MessageBatch)
  | setStatus (partition : String) (status : ReceiverStatus)
  | close (partition : String)
  | cancel
  | dropOutput
  | setWall (time : Instant)

/-- What is seen of a merge: a batch that came out, or a push that was refused. -/
inductive MergeSighting where
  | batch (batch : MessageBatch)
  | refusedPush
  deriving DecidableEq, Repr

/-- A merge with its reader. -/
structure MergeTrial where
  control : Merge.Control
  view : Merge.View
  readFrom : Nat
  /-- What was seen and when, the last first. -/
  seen : List (Nat × MergeSighting)

namespace MergeTrial

/-- A merge of partitions at the beginning. -/
def start (partitions : List String) (capacity outputCapacity : Nat) (wall : Instant)
    (readFrom : Nat) : MergeTrial where
  control := .top
  view := {
    slots := partitions.map fun partition => .new (.new partition capacity)
    output := .new outputCapacity
    cancelled := false
    now := 0
    wall }
  readFrom
  seen := []

/-- Adds what is seen now. -/
def see (trial : MergeTrial) (sighting : MergeSighting) : MergeTrial :=
  { trial with seen := (trial.view.now, sighting) :: trial.seen }

/-- Changes the source of a partition. -/
def update (trial : MergeTrial) (partition : String)
    (change : PartitionSource → PartitionSource) : MergeTrial :=
  let slots := trial.view.slots.map fun slot =>
    if slot.source.partition = partition then { slot with source := change slot.source } else slot
  { trial with view := { trial.view with slots } }

/-- Takes an action. A push waits while the channel of the partition is full. -/
def perform : MergeAction → MergeTrial → Option MergeTrial
  | .push partition batch, trial =>
    match trial.view.slots.find? (·.source.partition = partition) with
    | none => some trial
    | some slot =>
      match slot.source.push batch with
      | .sent channel => some (trial.update partition ({ · with channel }))
      | .refused => some (trial.see .refusedPush)
      | .full => none
  | .setStatus partition status, trial => some (trial.update partition ({ · with status }))
  | .close partition, trial => some (trial.update partition (·.dropWriter))
  | .cancel, trial => some { trial with view := { trial.view with cancelled := true } }
  | .dropOutput, trial =>
    some { trial with view := { trial.view with output := trial.view.output.dropReceiver } }
  | .setWall wall, trial => some { trial with view := { trial.view with wall } }

/-- The reader takes the next batch. -/
def read? (trial : MergeTrial) : Option MergeTrial :=
  if trial.view.now < trial.readFrom then none
  else
    match trial.view.output.receive with
    | .item batch output =>
      some ({ trial with view := { trial.view with output } }.see (.batch batch))
    | _ => none

/-- The merge and its reader on virtual time. -/
def simulation (rules : MergeRules) : Simulation MergeTrial MergeAction where
  perform := perform
  steps trial :=
    (Merge.transitions rules trial.control trial.view).map
        (fun (control, view) => { trial with control, view })
      ++ trial.read?.toList
  deadlines trial := trial.readFrom :: Merge.deadlines trial.control
  finished trial := trial.control = .finished
  cancel trial := { trial with view := { trial.view with cancelled := true } }
  now trial := trial.view.now
  setNow now trial := { trial with view := { trial.view with now } }

end MergeTrial

end WindowJoin

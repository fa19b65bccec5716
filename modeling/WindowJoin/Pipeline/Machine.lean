import WindowJoin.Pipeline.FanOut
import WindowJoin.Pipeline.Opening
import WindowJoin.Pipeline.Supervision

/-!
# The pipeline

A pipeline reads two streams, joins them, and gives what comes out to a consumer. Each stream has a
receiver for every partition and a merge; behind the join there may be a fan-out and billing. All of
them run under supervision. A checkpointer, which supervision does not stop, keeps the checkpoint
that the consumer commits to.

A pipeline starts in phases: billing goes on from its checkpoint; then the receivers run, and the
first batch of every partition is waited for, stream after stream; then the rest runs.

`Pipeline.transitions` gives what a pipeline can do next, given what it sees: the steps of all its
parts. No transition means that it waits; more than one means that the order is not fixed.
-/

namespace WindowJoin

namespace Pipeline

/-- How far a pipeline has started. -/
inductive Phase where
  /-- Reading the billing checkpoint, with the next attempt at a time. -/
  | resuming (attempts : Attempts) (time : Nat)
  /-- Waiting for the first batches of the partitions of a stream. -/
  | awaiting (role : Role) (waits : List Merge.Wait)
  | running
  | failed (failure : Failure)
  deriving DecidableEq, Repr

end Pipeline

/-- The state of a pipeline. -/
structure Pipeline where
  settings : Pipeline.Settings
  mergeRules : MergeRules
  joinRules : JoinRules
  phase : Pipeline.Phase
  interactions : Pipeline.Side
  observations : Pipeline.Side
  join : JoinRun
  /-- What comes out of the join, on its way to the fan-out. -/
  joined : Channel JoinOutput
  fanOut : FanOut.Control
  /-- The records of the joined batches, on their way to billing. -/
  records : Channel (List BillingRecord)
  billing : BillingRun
  checkpointer : Checkpointer
  /-- The components that have come to their ends without notice by supervision so far. -/
  endings : List (Component × Ending)
  supervision : Supervision

namespace Pipeline

/-- What a pipeline sees and changes. -/
structure View where
  transport : Transport
  blobs : Guarded MemoryBlobs
  reporter : UsageReporter
  outputs : Channel JoinOutput
  commands : Channel Checkpointer.Command
  replies : Checkpointer.Replies
  cancelled : Bool
  now : Nat
  wall : Instant

/-- The side that reads the stream with a role. -/
def side (pipeline : Pipeline) : Role → Side
  | .interactions => pipeline.interactions
  | .observations => pipeline.observations

/-- The pipeline with a side replaced. -/
def setSide (pipeline : Pipeline) (role : Role) (side : Side) : Pipeline :=
  match role with
  | .interactions => { pipeline with interactions := side }
  | .observations => { pipeline with observations := side }

/-- Whether the join and the parts in front of it are to stop. -/
def stopsJoin (pipeline : Pipeline) (view : View) : Bool :=
  view.cancelled || pipeline.supervision.stopsJoin

/-- Whether the parts behind the join are to stop. -/
def stopsAll (pipeline : Pipeline) (view : View) : Bool :=
  view.cancelled || pipeline.supervision.stopsAll

/-- Leaves the ending of a component, if it has come to one, to supervision. -/
def ends (pipeline : Pipeline) (component : Component) : Option Ending → Pipeline
  | none => pipeline
  | some ending => { pipeline with endings := pipeline.endings ++ [(component, ending)] }

/-! ## The start -/

/-- The number of components under supervision. -/
def componentCount (pipeline : Pipeline) : Nat :=
  pipeline.interactions.receivers.length + pipeline.observations.receivers.length
    + (if pipeline.settings.billed then 5 else 3)

/-- Begins to wait for the first batches of the partitions of a stream. -/
def await (pipeline : Pipeline) (view : View) (role : Role) : Pipeline :=
  let side := pipeline.side role
  let slots := side.slots.map (·.fill)
  let deadline := pauseEnd view.now pipeline.settings.config.startupTimeout
  let waits := slots.zipIdx.filterMap fun (slot, index) =>
    if slot.source.head.isSome || slot.source.exhausted then none else some ⟨index, deadline⟩
  { pipeline.setSide role { side with slots } with phase := .awaiting role waits }

/-- Lets the receivers and the checkpointer run. -/
def launch (pipeline : Pipeline) (view : View) : Pipeline :=
  await
    { pipeline with
      checkpointer := .start pipeline.settings.checkpointer pipeline.checkpointer.checkpoint view.now }
    view .interactions

/-- Lets the rest of the pipeline run, under supervision. -/
def runAll (pipeline : Pipeline) (view : View) : Pipeline :=
  { pipeline with
    phase := .running
    interactions.merge := some .top
    observations.merge := some .top
    join := .start pipeline.joinRules view.now view.wall
    supervision := .start pipeline.componentCount }

/-- A pipeline at the beginning, which goes on from a checkpoint if there is one. -/
def start (settings : Settings) (checkpoint : Option JoinCheckpoint) (view : View) :
    Except Failure Pipeline := do
  let opened ← openStreams settings checkpoint view.transport view.wall
  let capacity := settings.config.joinOutputCapacity
  let pipeline : Pipeline := {
    settings
    mergeRules := opened.merge
    joinRules := opened.join
    phase := .resuming (.start settings.store.maxAttempts settings.store.backoff) view.now
    interactions := opened.interactions
    observations := opened.observations
    join := .start opened.join view.now view.wall
    joined := .new capacity
    fanOut := .listening
    records := .new capacity
    billing := .start (.ofCheckpoint .empty)
    checkpointer := .start settings.checkpointer (checkpoint.getD .empty) view.now
    endings := []
    supervision := .start 0 }
  .ok (if settings.billed then pipeline else pipeline.launch view)

/-- Makes an attempt to read the billing checkpoint. -/
def resume (pipeline : Pipeline) (view : View) (attempts : Attempts) : Pipeline × View :=
  let rules := pipeline.settings.billing
  let (result, blobs) := (Guarded.access MemoryBlobs.access).read rules.blobName view.blobs
  let view := { view with blobs }
  match attempts.judge result with
  | .again delay attempts =>
    ({ pipeline with phase := .resuming attempts (delay.pauseEnd view.now) }, view)
  | .done (.error error) =>
    ({ pipeline with
        phase := .failed (Activity.readingBillingCheckpoint.storageFailure error) },
      view)
  | .done (.ok data) =>
    let account := BillingAccount.ofCheckpoint
      (CheckpointStore.checkpointIn BillingCheckpoint.ofJson data)
    (launch { pipeline with billing := .start account } view, view)

/-- The steps of the start. -/
def startSteps (pipeline : Pipeline) (view : View) : List (Pipeline × View) :=
  match pipeline.phase with
  | .resuming attempts time => if time ≤ view.now then [pipeline.resume view attempts] else []
  | .awaiting .interactions [] => [(pipeline.await view .observations, view)]
  | .awaiting .observations [] => [(pipeline.runAll view, view)]
  | .awaiting role (first :: rest) =>
    let side := pipeline.side role
    (first :: rest).filterMap fun wait =>
      match side.slots[wait.slot]? with
      | none => none
      | some slot =>
        match slot.source.continueWait (pipeline.stopsJoin view) view.now wait.deadline with
        | (none, _) => none
        | (some _, source) =>
          some ({ pipeline.setSide role
                { side with slots := side.slots.set wait.slot { slot with source } } with
              phase := .awaiting role ((first :: rest).erase wait) },
            view)
  | .running | .failed _ => []

/-! ## The parts at work -/

/-- Whether the receivers and the checkpointer run. -/
def receives (pipeline : Pipeline) : Bool :=
  match pipeline.phase with
  | .awaiting .. | .running => true
  | _ => false

/-- The steps of the receivers of a stream. -/
def receiverSteps (pipeline : Pipeline) (view : View) (role : Role) : List (Pipeline × View) :=
  let side := pipeline.side role
  ((side.receivers.zip side.slots).zipIdx).flatMap fun ((receiver, slot), index) =>
    let seen : Receiver.View :=
      ⟨view.transport, slot.source, pipeline.stopsJoin view, view.now⟩
    (Receiver.transitions pipeline.settings.config.receiverRules receiver seen).map
      fun (receiver, seen) =>
        let side := { side with
          receivers := side.receivers.set index receiver
          slots := side.slots.set index { slot with source := seen.source } }
        let ending := match receiver.control with
          | .finished result => some (Ending.ofResult result)
          | _ => none
        ((pipeline.setSide role side).ends (.receiver side.stream receiver.client.partition) ending,
          { view with transport := seen.transport })

/-- The steps of the merge of a stream. -/
def mergeSteps (pipeline : Pipeline) (view : View) (role : Role) : List (Pipeline × View) :=
  let side := pipeline.side role
  match side.merge with
  | none => []
  | some control =>
    let seen : Merge.View :=
      ⟨side.slots, side.merged, pipeline.stopsJoin view, view.now, view.wall⟩
    (Merge.transitions pipeline.mergeRules control seen).map fun (control, seen) =>
      let side := { side with slots := seen.slots, merge := some control, merged := seen.output }
      let ending := if control = .finished then some .succeeded else none
      ((pipeline.setSide role side).ends (.merge side.stream) ending, view)

/-- The steps of the join, whose output goes to the fan-out if there is billing. -/
def joinSteps (pipeline : Pipeline) (view : View) : List (Pipeline × View) :=
  let billed := pipeline.settings.billed
  let seen : JoinRun.View := {
    interactions := pipeline.interactions.merged
    observations := pipeline.observations.merged
    output := if billed then pipeline.joined else view.outputs
    cancelled := pipeline.stopsJoin view
    now := view.now
    wall := view.wall }
  (JoinRun.transitions pipeline.joinRules pipeline.join seen).map fun (join, seen) =>
    let ending := match join.control with
      | .finished => some Ending.succeeded
      | .broken => some Ending.panicked
      | _ => none
    (ends
        { pipeline with
          join
          interactions.merged := seen.interactions
          observations.merged := seen.observations
          joined := if billed then seen.output else pipeline.joined }
        .join ending,
      { view with outputs := if billed then view.outputs else seen.output })

/-- The steps of the fan-out. -/
def fanOutSteps (pipeline : Pipeline) (view : View) : List (Pipeline × View) :=
  let seen : FanOut.View :=
    ⟨pipeline.joined, view.outputs, pipeline.records, pipeline.stopsAll view⟩
  (FanOut.transitions pipeline.fanOut seen).map fun (fanOut, seen) =>
    (ends { pipeline with fanOut, joined := seen.input, records := seen.records } .fanOut
        (if fanOut = .finished then some .succeeded else none),
      { view with outputs := seen.output })

/-- The steps of billing. -/
def billingSteps (pipeline : Pipeline) (view : View) : List (Pipeline × View) :=
  let seen : BillingRun.View :=
    ⟨pipeline.records, view.blobs, view.reporter, pipeline.stopsAll view, view.now⟩
  (BillingRun.transitions pipeline.settings.billing pipeline.billing seen).map
    fun (billing, seen) =>
      let ending := match billing.control with
        | .finished result => some (Ending.ofResult result)
        | _ => none
      (ends { pipeline with billing, records := seen.input } .billing ending,
        { view with blobs := seen.blobs, reporter := seen.reporter })

/-- The steps of the checkpointer. -/
def checkpointerSteps (pipeline : Pipeline) (view : View) : List (Pipeline × View) :=
  let seen : Checkpointer.View :=
    ⟨view.commands, view.replies, view.blobs, view.cancelled, view.now⟩
  (Checkpointer.transitions pipeline.settings.checkpointer pipeline.checkpointer seen).map
    fun (checkpointer, seen) =>
      ({ pipeline with checkpointer },
        { view with commands := seen.commands, replies := seen.replies, blobs := seen.blobs })

/-- The step of supervision: the oldest ending that it has not noted. -/
def supervisionSteps (pipeline : Pipeline) (view : View) : List (Pipeline × View) :=
  match pipeline.endings with
  | [] => []
  | (component, ending) :: endings =>
    [({ pipeline with endings, supervision := pipeline.supervision.note component ending }, view)]

/-- The steps of the parts that run from the first batches on. -/
def runningSteps (pipeline : Pipeline) (view : View) : List (Pipeline × View) :=
  pipeline.supervisionSteps view
    ++ pipeline.mergeSteps view .interactions ++ pipeline.mergeSteps view .observations
    ++ pipeline.joinSteps view
    ++ (if pipeline.settings.billed then pipeline.fanOutSteps view ++ pipeline.billingSteps view
      else [])

/-- What a pipeline can do next. -/
def transitions (pipeline : Pipeline) (view : View) : List (Pipeline × View) :=
  pipeline.startSteps view
    ++ (if pipeline.receives then
        pipeline.receiverSteps view .interactions ++ pipeline.receiverSteps view .observations
          ++ pipeline.checkpointerSteps view
      else [])
    ++ (if pipeline.phase = .running then pipeline.runningSteps view else [])

/-- The times at which a waiting side goes on by itself. -/
def Side.deadlines (side : Side) : List Nat :=
  side.receivers.flatMap (·.deadlines) ++ (side.merge.elim [] Merge.deadlines)

/-- The times at which a waiting pipeline goes on by itself. -/
def deadlines (pipeline : Pipeline) : List Nat :=
  (match pipeline.phase with
    | .resuming _ time => [time]
    | .awaiting _ waits => waits.map (·.deadline)
    | _ => [])
    ++ (if pipeline.receives then
        pipeline.interactions.deadlines ++ pipeline.observations.deadlines
          ++ pipeline.checkpointer.deadlines
      else [])
    ++ (if pipeline.phase = .running then
        pipeline.join.deadlines pipeline.joinRules ++ pipeline.billing.deadlines
      else [])

/-- The result of a pipeline, once all its components have come to their ends. -/
def result? (pipeline : Pipeline) : Option (Except Failure Unit) :=
  if pipeline.phase = .running then pipeline.supervision.result? else none

end Pipeline

end WindowJoin

import WindowJoin.Pipeline.Machine
import WindowJoin.Simulation.Transport

/-!
# A pipeline under a script

The script acts on the transport, the stores and the wall clock around a pipeline. A consumer reads
what comes out, from a given time on, may commit each joined batch, and waits for the pipeline to come
to its end. When its time is up it cancels the pipeline. In the end it has the checkpoint stored and
shuts the checkpointer down, while what is left of the script goes on.
-/

namespace WindowJoin

/-- What a script does around a pipeline. -/
inductive PipelineAction where
  | transport (action : TransportAction)
  | cancel
  | setWall (time : Instant)
  | injectWrites (failures : List StorageError)

/-- How the consumer of a pipeline behaves. -/
structure Consumption where
  readFrom : Nat
  /-- The number of outputs after which it stops to read, if there is one. -/
  maxReads : Option Nat
  /-- The time until which it waits for outputs and for the end. -/
  patience : Nat
  commits : Bool
  /-- Whether it closes the output when it stops to read. -/
  closes : Bool
  deriving DecidableEq, Repr

/-- What a consumer asks of the checkpointer in the end. -/
inductive ClosingRequest where
  | flush
  | shutdown
  deriving DecidableEq, Repr

/-- The command that makes a request. -/
def ClosingRequest.command (number : Nat) : ClosingRequest → Checkpointer.Command
  | flush => .flush number
  | shutdown => .shutdown number

/-- Where a consumer stands. -/
inductive Consumer where
  /-- Waiting for the pipeline to start. -/
  | starting
  | reading
  | committing (batch : JoinedBatch)
  /-- Waiting for the pipeline to come to its end. -/
  | waiting
  | done
  /-- Making requests of the checkpointer. -/
  | requesting (requests : List ClosingRequest)
  /-- Waiting for the answer to a request, before others. -/
  | asking (number : Nat) (requests : List ClosingRequest)
  deriving DecidableEq, Repr

/-- A pipeline with its consumer. -/
structure PipelineTrial where
  settings : Pipeline.Settings
  checkpoint : Option JoinCheckpoint
  /-- The pipeline, or the error that it could not be opened for, once that was tried. -/
  pipeline : Option (Except Failure Pipeline)
  view : Pipeline.View
  consumption : Consumption
  consumer : Consumer
  /-- The time at which the start was over. -/
  started : Option Nat
  /-- What was read and when, the last first. -/
  seen : List (Nat × JoinOutput)
  /-- The first error of a commit. -/
  commitError : Option Failure
  timedOut : Bool
  /-- The answers to the requests so far. -/
  answers : List (Except Failure Unit)

namespace PipelineTrial

/-- What is around a pipeline in the beginning. -/
def viewOf (settings : Pipeline.Settings) (transport : Transport) (blobs : Guarded MemoryBlobs)
    (reporter : UsageReporter) (wall : Instant) : Pipeline.View where
  transport
  blobs
  reporter
  outputs := .new settings.config.joinOutputCapacity
  commands := .new Checkpointer.commandCapacity
  replies := []
  cancelled := false
  now := 0
  wall

/-- A pipeline that is to be started from a checkpoint, if there is one. -/
def start (settings : Pipeline.Settings) (consumption : Consumption)
    (checkpoint : Option JoinCheckpoint) (view : Pipeline.View) : PipelineTrial where
  settings
  checkpoint
  pipeline := none
  view
  consumption
  consumer := .starting
  started := none
  seen := []
  commitError := none
  timedOut := false
  answers := []

/-- A pipeline that is to be started from the stored checkpoint. -/
def resume (settings : Pipeline.Settings) (consumption : Consumption) (view : Pipeline.View) :
    Except Failure PipelineTrial :=
  let loaded := settings.loadCheckpoint (Guarded.access MemoryBlobs.access) view.blobs
  match loaded.result with
  | .error error => .error (Activity.readingJoinCheckpoint.storageFailure error)
  | .ok checkpoint =>
    .ok (start settings consumption checkpoint
      { view with blobs := loaded.store, now := view.now + loaded.elapsed })

/-- Takes an action. -/
def perform (trial : PipelineTrial) : PipelineAction → PipelineTrial
  | .transport action =>
    { trial with view.transport := (action.perform trial.view.transport).2 }
  | .cancel => { trial with view.cancelled := true }
  | .setWall wall => { trial with view.wall := wall }
  | .injectWrites failures =>
    { trial with view.blobs.store := trial.view.blobs.store.injectWrites failures }

/-- Why the pipeline did not start, if it did not. -/
def startFailure? (trial : PipelineTrial) : Option Failure :=
  match trial.pipeline with
  | some (.error failure) => some failure
  | some (.ok pipeline) =>
    match pipeline.phase with
    | .failed failure => some failure
    | _ => none
  | none => none

/-- The result of the pipeline, once it has come to its end. -/
def result? (trial : PipelineTrial) : Option (Except Failure Unit) :=
  match trial.pipeline with
  | some (.ok pipeline) => pipeline.result?
  | _ => none

/-- Opens the pipeline, if that has not been tried. -/
def opened? (trial : PipelineTrial) : Option PipelineTrial :=
  match trial.pipeline with
  | none =>
    some { trial with pipeline := some (Pipeline.start trial.settings trial.checkpoint trial.view) }
  | some _ => none

/-- The steps of the pipeline. -/
def pipelineSteps (trial : PipelineTrial) : List PipelineTrial :=
  match trial.pipeline with
  | some (.ok pipeline) =>
    (pipeline.transitions trial.view).map fun (pipeline, view) =>
      { trial with pipeline := some (.ok pipeline), view }
  | _ => []

/-- The consumer stops to read. -/
def stopReading (trial : PipelineTrial) : PipelineTrial :=
  let outputs :=
    if trial.consumption.closes then trial.view.outputs.dropReceiver else trial.view.outputs
  { trial with consumer := .waiting, view := { trial.view with outputs } }

/-- Whether the time of the consumer is up. -/
def isLate (trial : PipelineTrial) : Bool :=
  trial.consumption.patience ≤ trial.view.now

/-- The consumer notices that the pipeline has started, or will not start. -/
def noticeStart? (trial : PipelineTrial) : Option PipelineTrial :=
  match trial.pipeline with
  | some (.ok pipeline) =>
    match pipeline.phase with
    | .running =>
      some { trial with consumer := .reading, started := some trial.view.now }
    | .failed _ => some { trial with consumer := .done }
    | _ => none
  | some (.error _) => some { trial with consumer := .done }
  | none => none

/-- The consumer reads the next output, or stops to read. -/
def read? (trial : PipelineTrial) : Option PipelineTrial :=
  if trial.view.now < trial.consumption.readFrom then none
  else if trial.consumption.maxReads.any (· ≤ trial.seen.length) then some trial.stopReading
  else
    match trial.view.outputs.receive with
    | .ended => some trial.stopReading
    | .empty => if trial.isLate then some trial.stopReading else none
    | .item item outputs =>
      let consumer := match trial.consumption.commits, item with
        | true, .joined batch => .committing batch
        | _, _ => .reading
      some { trial with
        consumer
        view.outputs := outputs
        seen := (trial.view.now, item) :: trial.seen }

/-- The consumer commits a batch. -/
def commit? (trial : PipelineTrial) (batch : JoinedBatch) : Option PipelineTrial :=
  match trial.view.commands.send (.commitBatch batch) with
  | .sent commands => some { trial with consumer := .reading, view.commands := commands }
  | .refused =>
    some { trial with
      consumer := .reading
      commitError := trial.commitError <|> some Checkpointer.stopped }
  | .full => none

/-- The consumer waits for the pipeline to come to its end, and cancels it when its time is up. -/
def await? (trial : PipelineTrial) : Option PipelineTrial :=
  if trial.result?.isSome then some { trial with consumer := .done }
  else if trial.isLate && !trial.timedOut then
    some { trial with view.cancelled := true, timedOut := true }
  else none

/-- The consumer notes an answer, and goes on with the requests that are left. -/
def answered (trial : PipelineTrial) (answer : Except Failure Unit)
    (requests : List ClosingRequest) : PipelineTrial :=
  { trial with answers := trial.answers ++ [answer], consumer := .requesting requests }

/-- The consumer makes the next request. -/
def request? (trial : PipelineTrial) : List ClosingRequest → Option PipelineTrial
  | [] => some { trial with consumer := .done }
  | request :: rest =>
    let number := trial.answers.length
    match trial.view.commands.send (request.command number) with
    | .sent commands => some { trial with consumer := .asking number rest, view.commands := commands }
    | .refused => some (trial.answered (.error Checkpointer.stopped) rest)
    | .full => none

/-- The step of the consumer. -/
def consume? (trial : PipelineTrial) : Option PipelineTrial :=
  match trial.consumer with
  | .starting => trial.noticeStart?
  | .reading => trial.read?
  | .committing batch => trial.commit? batch
  | .waiting => trial.await?
  | .done => none
  | .requesting requests => trial.request? requests
  | .asking number rest =>
    (trial.view.replies.lookup number).map fun answer => trial.answered answer rest

/-- The pipeline and its consumer on virtual time. -/
def simulation : Simulation PipelineTrial PipelineAction where
  perform action trial := some (trial.perform action)
  steps trial := trial.opened?.toList ++ trial.consume?.toList ++ trial.pipelineSteps
  deadlines trial :=
    [trial.consumption.readFrom, trial.consumption.patience]
      ++ match trial.pipeline with
        | some (.ok pipeline) => pipeline.deadlines
        | _ => []
  finished trial := trial.consumer = .done
  cancel trial := { trial with view.cancelled := true }
  now trial := trial.view.now
  setNow now trial := { trial with view.now := now }
  settled trial := trial.consumer = .done

/-- The pipeline under a script, up to the point where the consumer is done. -/
def run (trial : PipelineTrial) (script : List (Nat × PipelineAction)) :
    Simulated PipelineTrial PipelineAction :=
  simulation.run none script trial

/-- What the consumer asks for in the end. -/
def closingRequests : List ClosingRequest :=
  [.flush, .shutdown, .flush]

/-- The checkpoint is stored, the checkpointer shut down, and asked once more, while the rest of the
script goes on. -/
def close (trial : PipelineTrial) (script : List (Nat × PipelineAction)) : PipelineTrial :=
  (simulation.run none script { trial with consumer := .requesting closingRequests }).state

/-- The latest checkpoint that the checkpointer published. -/
def latest? (trial : PipelineTrial) : Option JoinCheckpoint :=
  match trial.pipeline with
  | some (.ok pipeline) => some pipeline.checkpointer.published
  | _ => none

end PipelineTrial

end WindowJoin

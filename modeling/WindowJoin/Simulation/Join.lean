import WindowJoin.Join.Machine
import WindowJoin.Simulation.Basic

/-!
# A join under a script

The script sends batches into the inputs of a running join and closes them; a reader takes what comes
out, from a given time on.
-/

namespace WindowJoin

/-- What a script does to a running join. -/
inductive JoinAction where
  | interactions (batch : MessageBatch)
  | observations (batch : MessageBatch)
  | closeInteractions
  | closeObservations
  | cancel
  | dropOutput
  | setWall (time : Instant)

/-- A running join with its reader. -/
structure JoinTrial where
  run : JoinRun
  view : JoinRun.View
  readFrom : Nat
  /-- What came out and when, the last first. -/
  seen : List (Nat × JoinOutput)

namespace JoinTrial

/-- The room in each input of the join. -/
def inputCapacity : Nat := 64

/-- A join at the beginning of its run. -/
def start (rules : JoinRules) (outputCapacity : Nat) (wall : Instant) (readFrom : Nat) :
    JoinTrial where
  run := .start rules 0 wall
  view := {
    interactions := .new inputCapacity
    observations := .new inputCapacity
    output := .new outputCapacity
    cancelled := false
    now := 0
    wall }
  readFrom
  seen := []

/-- Sends a batch into an input; a join that has ended takes none. -/
def send? (channel : Channel MessageBatch) (batch : MessageBatch) :
    Option (Channel MessageBatch) :=
  match channel.send batch with
  | .sent channel => some channel
  | .refused => some channel
  | .full => none

/-- Takes an action. A batch waits while its input is full. -/
def perform : JoinAction → JoinTrial → Option JoinTrial
  | .interactions batch, trial =>
    (send? trial.view.interactions batch).map fun channel =>
      { trial with view.interactions := channel }
  | .observations batch, trial =>
    (send? trial.view.observations batch).map fun channel =>
      { trial with view.observations := channel }
  | .closeInteractions, trial =>
    some { trial with view.interactions := trial.view.interactions.dropSender }
  | .closeObservations, trial =>
    some { trial with view.observations := trial.view.observations.dropSender }
  | .cancel, trial => some { trial with view.cancelled := true }
  | .dropOutput, trial => some { trial with view.output := trial.view.output.dropReceiver }
  | .setWall time, trial => some { trial with view.wall := time }

/-- The reader takes the next output. -/
def read? (trial : JoinTrial) : Option JoinTrial :=
  if trial.view.now < trial.readFrom then none
  else
    match trial.view.output.receive with
    | .item item output =>
      some { trial with view.output := output, seen := (trial.view.now, item) :: trial.seen }
    | _ => none

/-- The join and its reader on virtual time. -/
def simulation (rules : JoinRules) : Simulation JoinTrial JoinAction where
  perform := perform
  steps trial :=
    (JoinRun.transitions rules trial.run trial.view).map
        (fun (run, view) => { trial with run, view })
      ++ trial.read?.toList
  deadlines trial := trial.readFrom :: trial.run.deadlines rules
  finished trial := trial.run.isFinished
  cancel trial := { trial with view.cancelled := true }
  now trial := trial.view.now
  setNow now trial := { trial with view.now := now }

end JoinTrial

end WindowJoin

import WindowJoin.PartitionSource
import WindowJoin.Simulation.Basic
import WindowJoin.Time.Pause

/-!
# A source under single operations

Both ends of a partition's source, used by one hand after another, while a few actions come at set
times. A push that comes by itself has a writer of its own: it waits for room as long as it takes,
and the source stays open until it is done. Room goes to the pushes that wait in the order in which
they came, but they use it only when the hand waits.
-/

namespace WindowJoin

/-- What happens to a source by itself. -/
inductive SourceAction where
  | push (batch : MessageBatch)
  | dropWriter
  | cancel

/-- How a push ends. -/
inductive Pushed where
  | done
  | refused
  | blocked
  deriving DecidableEq, Repr

/-- A source with several writers: the one at hand and those of the pushes that come by
themselves. -/
structure SharedSource where
  source : PartitionSource
  /-- The batches of the pushes that wait for room, the first first. -/
  waiting : List MessageBatch
  /-- The number of pushes that are still to come. -/
  coming : Nat
  /-- Whether the writer at hand has gone. -/
  writerGone : Bool
  /-- Whether waits for a batch are cancelled. -/
  cancelled : Bool

namespace SharedSource

/-- Whether there is room beside that for the pushes that wait. -/
def hasRoom (shared : SharedSource) : Bool :=
  shared.source.channel.queue.length + shared.waiting.length < shared.source.channel.capacity

/-- Closes the source if no writer is left. -/
def closeIfLeft (shared : SharedSource) : SharedSource :=
  if shared.writerGone && shared.coming = 0 && shared.waiting.isEmpty then
    { shared with source := shared.source.dropWriter }
  else shared

/-- Pushes a batch if that need not wait. -/
def tryPush (batch : MessageBatch) (shared : SharedSource) : Option Pushed × SharedSource :=
  match shared.source.push batch with
  | .sent channel =>
    if shared.hasRoom then (some .done, { shared with source.channel := channel })
    else (none, shared)
  | .refused => (some .refused, shared)
  | .full => (none, shared)

/-- Lets batches that wait into a source, as far as there is room. Gives those that still wait. -/
def letIn : List MessageBatch → PartitionSource → List MessageBatch × PartitionSource
  | [], source => ([], source)
  | batch :: rest, source =>
    match source.push batch with
    | .sent channel => letIn rest { source with channel }
    | .refused => ([], source)
    | .full => (batch :: rest, source)

/-- Lets the pushes that wait go on. -/
def proceed (shared : SharedSource) : SharedSource :=
  let (waiting, source) := letIn shared.waiting shared.source
  closeIfLeft { shared with waiting, source }

/-- Takes an action. -/
def perform : SourceAction → SharedSource → SharedSource
  | .push batch, shared =>
    match tryPush batch { shared with coming := shared.coming - 1 } with
    | (some _, shared) => shared.closeIfLeft
    | (none, shared) => { shared with waiting := shared.waiting ++ [batch] }
  | .dropWriter, shared => closeIfLeft { shared with writerGone := true }
  | .cancel, shared => { shared with cancelled := true }

end SharedSource

/-- A source with its writers, the time, and what is to come. -/
structure SourceTrial where
  shared : SharedSource
  now : Nat
  upcoming : List (Nat × SourceAction)

namespace SourceTrial

/-- A source at the beginning. -/
def start (partition : String) (capacity : Nat) : SourceTrial :=
  ⟨⟨.new partition capacity, [], 0, false, false⟩, 0, []⟩

/-- The source. -/
def source (trial : SourceTrial) : PartitionSource :=
  trial.shared.source

/-- The source changed by hand. -/
def setSource (trial : SourceTrial) (source : PartitionSource) : SourceTrial :=
  { trial with shared.source := source }

/-- An action taken by hand. -/
def perform (trial : SourceTrial) (action : SourceAction) : SourceTrial :=
  { trial with shared := SharedSource.perform action trial.shared }

/-- Waits for a poll of the source until a deadline, and gives its result. -/
def wait {β : Type} (trial : SourceTrial) (deadline : Nat)
    (poll : Nat → SharedSource → Option β × SharedSource) : Option β × SourceTrial :=
  match poll trial.now trial.shared with
  | (some result, shared) => (some result, { trial with shared })
  | (none, shared) =>
    let waited := waitFor poll SharedSource.perform deadline trial.upcoming trial.now
      shared.proceed
    (waited.result, { shared := waited.state, now := waited.time, upcoming := waited.upcoming })

/-- Pushes a batch, and waits a bounded time for room. -/
def push (trial : SourceTrial) (batch : MessageBatch) (timeout : Nat) : Pushed × SourceTrial :=
  let deadline := pauseEnd trial.now timeout
  let (result, trial) := trial.wait deadline fun now shared =>
    match shared.tryPush batch with
    | (none, shared) => (if deadline ≤ now then some .blocked else none, shared)
    | done => done
  (result.getD .blocked, trial)

/-- What is to come, with an action a time from now. -/
def expect (trial : SourceTrial) (delay : Nat) (action : SourceAction) : SourceTrial :=
  let coming := match action with
    | .push _ => trial.shared.coming + 1
    | _ => trial.shared.coming
  { trial with
    shared.coming := coming
    upcoming := schedule (trial.now + delay) action trial.upcoming }

/-- Waits for a batch, while an action may come a time after the wait begins. Gives whether a batch
is there, and how long the wait took. -/
def waitForData (trial : SourceTrial) (timeout : Nat) (later : Option (Nat × SourceAction)) :
    Bool × Nat × SourceTrial :=
  let trial := later.elim trial fun (delay, action) => trial.expect delay action
  let deadline := pauseEnd trial.now timeout
  match trial.source.beginWait with
  | (some ready, source) => (ready, 0, trial.setSource source)
  | (none, source) =>
    let (ready, final) := (trial.setSource source).wait deadline fun now shared =>
      let (ready, source) := shared.source.continueWait shared.cancelled now deadline
      (ready, { shared with source })
    (ready.getD false, final.now - trial.now, final)

/-- Pops the next batch. -/
def pop (trial : SourceTrial) : Option MessageBatch × SourceTrial :=
  let (batch, source) := trial.source.pop
  (batch, trial.setSource source)

end SourceTrial

end WindowJoin

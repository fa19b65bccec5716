import WindowJoin.Channel
import WindowJoin.Join.Indexed
import WindowJoin.Ticker

/-!
# The join at work

A running join takes batches of interactions as they come. A batch of observations is held until the
interactions have come as far in time, have ended, or have been silent for too long; then it is
joined. At intervals the clock is looked at, so that windows close while no observation comes. When
both inputs have ended, every window is closed.

`JoinRun.transitions` gives what a running join can do next, given what it sees. No transition means
that it waits; more than one means that the order is not fixed.
-/

namespace WindowJoin

namespace JoinRun

/-- Where a running join stands. -/
inductive Control where
  /-- Waiting for something to happen. -/
  | listening
  /-- Sending what has come out; the join is over after it if it is the last. -/
  | sending (items : List JoinOutput) (last : Bool)
  | finished
  /-- The clock has left the range of spans. -/
  | broken
  deriving DecidableEq, Repr

end JoinRun

/-- A running join. -/
structure JoinRun where
  join : Join
  control : JoinRun.Control
  interactionsOpen : Bool
  observationsOpen : Bool
  /-- The batch of observations that waits for the interactions. -/
  held : Option MessageBatch
  /-- The time at which the last batch of interactions came in. -/
  lastInteraction : Nat
  ticker : Ticker
  deriving DecidableEq

namespace JoinRun

/-- What a running join sees and changes. -/
structure View where
  interactions : Channel MessageBatch
  observations : Channel MessageBatch
  output : Channel JoinOutput
  cancelled : Bool
  now : Nat
  wall : Instant
  deriving DecidableEq

/-- A join at the beginning of its run. -/
def start (rules : JoinRules) (now : Nat) (wall : Instant) : JoinRun where
  join := .new wall
  control := .listening
  interactionsOpen := true
  observationsOpen := true
  held := none
  lastInteraction := now
  ticker := .start rules.punctuationInterval now

/-- The end of a run, with which its ends of the channels go. -/
def stop (run : JoinRun) (view : View) (control : Control) : JoinRun × View :=
  ({ run with control },
    { view with
      interactions := view.interactions.dropReceiver
      observations := view.observations.dropReceiver
      output := view.output.dropSender })

/-- Whether the batch that is held is to be joined now. -/
def releases (rules : JoinRules) (run : JoinRun) (now : Nat) (held : MessageBatch) : Bool :=
  !run.interactionsOpen || run.join.caughtUp held
    || run.lastInteraction + rules.interactionWait ≤ now

/-- Joins the batch that is held, if it is to be joined now. -/
def release (rules : JoinRules) (run : JoinRun) (view : View) : JoinRun × List JoinOutput :=
  match run.held with
  | none => (run, [])
  | some held =>
    if run.releases rules view.now held then
      let (join, out) := run.join.addObservations rules view.wall held
      ({ run with join, held := none }, out)
    else (run, [])

/-- Goes on after something has happened and this has come out: a batch that is held may be joined,
and with the end of both inputs every window is closed. -/
def settle (rules : JoinRules) (run : JoinRun) (view : View) (out : List JoinOutput) :
    JoinRun × View :=
  let (run, joined) := run.release rules view
  if !run.interactionsOpen && !run.observationsOpen && run.held.isNone then
    let (join, closed) := run.join.close
    ({ run with join, control := .sending (out ++ joined ++ closed) true }, view)
  else ({ run with control := .sending (out ++ joined) false }, view)

/-- Takes what is there of the interactions. -/
def takeInteractions (rules : JoinRules) (run : JoinRun) (view : View) : List (JoinRun × View) :=
  if run.interactionsOpen then
    match view.interactions.receive with
    | .item batch interactions =>
      let join := run.join.addInteractions rules batch
      [settle rules { run with join, lastInteraction := view.now } { view with interactions } []]
    | .ended => [settle rules { run with interactionsOpen := false } view []]
    | .empty => []
  else []

/-- Takes what is there of the observations, unless a batch is held. -/
def takeObservations (rules : JoinRules) (run : JoinRun) (view : View) : List (JoinRun × View) :=
  if run.observationsOpen && run.held.isNone then
    match view.observations.receive with
    | .item batch observations =>
      [settle rules { run with held := some batch } { view with observations } []]
    | .ended =>
      let (join, out) := run.join.close
      [settle rules { run with join, observationsOpen := false } view out]
    | .empty => []
  else []

/-- The time until which a batch is held at most. -/
def holdDeadline? (rules : JoinRules) (run : JoinRun) : Option Nat :=
  if run.interactionsOpen && run.held.isSome then
    some (run.lastInteraction + rules.interactionWait)
  else none

/-- Looks at the clock when the ticker is due. -/
def takeTick (rules : JoinRules) (run : JoinRun) (view : View) : List (JoinRun × View) :=
  if run.ticker.due ≤ view.now then
    let run := { run with ticker := run.ticker.tick view.now }
    match run.join.punctuate? rules view.wall with
    | some (join, out) => [settle rules { run with join } view out]
    | none => [stop run view .broken]
  else []

/-- What a running join can do next. -/
def transitions (rules : JoinRules) (run : JoinRun) (view : View) : List (JoinRun × View) :=
  match run.control with
  | .listening =>
    (if view.cancelled then [stop run view .finished] else [])
      ++ takeInteractions rules run view
      ++ takeObservations rules run view
      ++ (if (run.holdDeadline? rules).any (· ≤ view.now) then [settle rules run view []] else [])
      ++ takeTick rules run view
  | .sending [] last =>
    if last then [stop run view .finished] else [({ run with control := .listening }, view)]
  | .sending (item :: rest) last =>
    if view.cancelled then [stop run view .finished]
    else
      match view.output.send item with
      | .sent output => [({ run with control := .sending rest last }, { view with output })]
      | .refused => [stop run view .finished]
      | .full => []
  | .finished | .broken => []

/-- The times at which a waiting join goes on by itself. -/
def deadlines (rules : JoinRules) (run : JoinRun) : List Nat :=
  match run.control with
  | .listening => run.ticker.due :: (run.holdDeadline? rules).toList
  | _ => []

/-- Whether a run has ended. -/
def isFinished (run : JoinRun) : Bool :=
  match run.control with
  | .finished | .broken => true
  | _ => false

end JoinRun

end WindowJoin

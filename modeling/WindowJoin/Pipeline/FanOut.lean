import WindowJoin.Channel
import WindowJoin.Message

/-!
# The fan-out of the joined output

With billing, what comes out of the join goes two ways. The fan-out takes what is there, up to a
number of items, hands the records of the joined batches among them to billing, and only then sends
the items on. So the consumer never has a batch that billing does not have.

`FanOut.transitions` gives what a fan-out can do next, given what it sees. No transition means that
it waits; more than one means that the order is not fixed.
-/

namespace WindowJoin

namespace FanOut

/-- Where a fan-out stands. -/
inductive Control where
  | listening
  /-- Handing the records of these items to billing. -/
  | billing (items : List JoinOutput)
  /-- Sending these items on. -/
  | forwarding (items : List JoinOutput)
  | finished
  deriving DecidableEq, Repr

/-- What a fan-out sees and changes. -/
structure View where
  input : Channel JoinOutput
  output : Channel JoinOutput
  records : Channel (List BillingRecord)
  cancelled : Bool
  deriving DecidableEq, Repr

/-- The largest number of items that are taken at once. -/
def chunkLimit : Nat := 64

/-- The records of the joined batches among items. -/
def recordsOf (items : List JoinOutput) : List BillingRecord :=
  items.filterMap fun
    | .joined batch => some batch.billingRecord
    | .orphan _ => none

/-- The end of a fan-out, with which its ends of the channels go. -/
def finish (view : View) : Control × View :=
  (.finished,
    { view with
      input := view.input.dropReceiver
      output := view.output.dropSender
      records := view.records.dropSender })

/-- Goes on with items that have been taken. Billing is left out if it has no part in them. -/
def take (items : List JoinOutput) : Control :=
  if (recordsOf items).isEmpty then .forwarding items else .billing items

/-- What a fan-out can do next. -/
def transitions (control : Control) (view : View) : List (Control × View) :=
  match control with
  | .listening =>
    (if view.cancelled then [finish view] else [])
      ++ match view.input.receive with
        | .item _ _ =>
          let (items, input) := view.input.drain chunkLimit
          [(take items, { view with input })]
        | .ended => [finish view]
        | .empty => []
  | .billing items =>
    if view.cancelled then [finish view]
    else
      match view.records.send (recordsOf items) with
      | .sent records => [(.forwarding items, { view with records })]
      | .refused => [finish view]
      | .full => []
  | .forwarding [] => [(.listening, view)]
  | .forwarding (item :: rest) =>
    if view.cancelled then [finish view]
    else
      match view.output.send item with
      | .sent output => [(.forwarding rest, { view with output })]
      | .refused => [finish view]
      | .full => []
  | .finished => []

end FanOut

end WindowJoin

import WindowJoin.Error

/-!
# Supervision

The components of a pipeline run until each has come to its end, and the pipeline is over when all
have. The first component that fails decides the result, and stops every other. A join that has
succeeded stops what is before it; what is behind it goes on until it has dealt with the rest.
-/

namespace WindowJoin

/-- The components of a pipeline. -/
inductive Component where
  | receiver (stream partition : String)
  | merge (stream : String)
  | join
  | fanOut
  | billing
  deriving DecidableEq, Repr

/-- The name of a component in messages. -/
def Component.name : Component → String
  | receiver stream partition => s!"receiver for {stream} partition {partition}"
  | merge stream => s!"merge of {stream}"
  | join => "join"
  | fanOut => "output fan-out"
  | billing => "billing"

/-- How a component comes to its end. -/
inductive Ending where
  | succeeded
  | failed (failure : Failure)
  | panicked
  /-- The task of the component is gone, and which component that was is not known. -/
  | lost (reason : String)
  deriving DecidableEq, Repr

/-- The failure in the ending of a component. -/
def Ending.failure? (component : Component) : Ending → Option Failure
  | succeeded => none
  | failed failure => some failure
  | panicked => some (.componentPanicked component.name)
  | lost reason => some (.componentFailed "pipeline task" reason)

/-- The ending that a result means. -/
def Ending.ofResult : Except Failure Unit → Ending
  | .ok () => succeeded
  | .error failure => failed failure

/-- What supervision knows: the number of components that have not come to their end, the first
failure, and whether the components before and with the join are to stop. -/
structure Supervision where
  running : Nat
  failure : Option Failure
  stopsJoin : Bool
  deriving DecidableEq, Repr

namespace Supervision

/-- Supervision of a number of components. -/
def start (components : Nat) : Supervision :=
  ⟨components, none, false⟩

/-- Whether every component is to stop. -/
def stopsAll (supervision : Supervision) : Bool :=
  supervision.failure.isSome

/-- Takes note of the ending of a component. -/
def note (supervision : Supervision) (component : Component) (ending : Ending) : Supervision where
  running := supervision.running - 1
  failure := supervision.failure <|> ending.failure? component
  stopsJoin :=
    supervision.stopsJoin || ending ≠ .succeeded || component = .join

/-- The result, once every component has come to its end. -/
def result? (supervision : Supervision) : Option (Except Failure Unit) :=
  if supervision.running = 0 then some (supervision.failure.elim (.ok ()) .error) else none

end Supervision

end WindowJoin

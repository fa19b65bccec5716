/-!
# Settings of a receiver

How a receiver reads its partition, and how often it tries again.
-/

namespace WindowJoin

/-- The settings of a receiver. -/
structure ReceiverRules where
  /-- The milliseconds that one read waits for events. -/
  timeout : Nat
  /-- The number of events that one read asks for. -/
  batchSize : Nat
  /-- The number of errors in a row after which a receiver tries again. -/
  maxRetries : UInt32
  deriving DecidableEq, Repr

end WindowJoin

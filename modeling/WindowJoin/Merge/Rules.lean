/-!
# Settings of a merge

How long a merge waits for a partition. One whose events are old is read in bulk and is waited for
longer than one that delivers what happens now.
-/

namespace WindowJoin

/-- The settings of a merge. -/
structure MergeRules where
  /-- The milliseconds to wait for a partition that delivers new events. -/
  activeTimeout : Nat
  /-- The milliseconds to wait for a partition that delivers old events. -/
  historicalTimeout : Nat
  /-- The span beyond which an event is old. -/
  historicalThreshold : Int
  deriving DecidableEq, Repr

end WindowJoin

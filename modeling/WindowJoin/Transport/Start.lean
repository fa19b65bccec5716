import WindowJoin.Wire.EventBatch

/-!
# Start positions

Where the reading of a partition begins: after an offset, or at a time.
-/

namespace WindowJoin

/-- Where the reading of a partition begins. -/
inductive StartPosition where
  /-- The first event after an offset. -/
  | afterOffset (offset : Int64)
  /-- The first event taken in at or after a time. -/
  | atTime (time : Instant)
  deriving DecidableEq, Repr

/-- Whether an event is to be read. -/
def StartPosition.admits : StartPosition → RawEvent → Bool
  | afterOffset offset, event => offset < event.offset
  | atTime time, event => time ≤ event.enqueuedTime

end WindowJoin

import WindowJoin.Time.Duration

/-!
# Pauses

Waiting for a length of time, on a clock that counts milliseconds. No pause is longer than thirty
years of 365 days: one that is meant to be longer is over after that time.
-/

namespace WindowJoin

/-- The milliseconds in the longest pause. -/
def longestPause : Nat := 946080000000

/-- The time at which a pause of a number of milliseconds is over. -/
def pauseEnd (start length : Nat) : Nat :=
  start + min length longestPause

/-- The fewest milliseconds that cover a number of nanoseconds. -/
def millisCovering (nanos : Nat) : Nat :=
  (nanos + (nanosPerMilli - 1)) / nanosPerMilli

/-- The time at which a pause for a duration is over: the clock shows the first millisecond by which
the whole duration has passed. -/
def Duration.pauseEnd (length : Duration) (start : Nat) : Nat :=
  WindowJoin.pauseEnd start (millisCovering length.toNanos)

/-- The time that pauses take one after the other. -/
def totalPause (lengths : List Duration) : Nat :=
  lengths.foldl (fun start length => length.pauseEnd start) 0

end WindowJoin

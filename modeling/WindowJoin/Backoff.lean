import WindowJoin.Time.Duration
import WindowJoin.Time.Pause

/-!
# Backoff

The waits between attempts: the first is `base`, each next one is twice as long, and none is longer
than `limit`. A success starts over. A wait that would double out of the range of durations becomes
the longest one, and the limit cuts it after that. The count of failures has 32 bits.
-/

namespace WindowJoin

/-- A schedule of waits, the wait that comes next, and the number of failures since the last
success. -/
structure BoundedBackoff where
  base : Duration
  limit : Duration
  upcoming : Duration
  attempts : UInt32
  deriving DecidableEq, Repr

namespace BoundedBackoff

/-- A schedule that starts. -/
def new (base limit : Duration) : BoundedBackoff :=
  ⟨base, limit, base, 0⟩

/-- The schedule that receivers and storage use. -/
def standard : BoundedBackoff :=
  new (.ofMillis 200) (.ofMillis 10000)

/-- Counts a failure and gives the wait before the next attempt. -/
def next (backoff : BoundedBackoff) : Duration × BoundedBackoff :=
  (min backoff.upcoming backoff.limit,
    { backoff with
      upcoming := min (backoff.upcoming.timesSaturating 2) backoff.limit
      attempts := backoff.attempts + 1 })

/-- Starts over after a success. -/
def reset (backoff : BoundedBackoff) : BoundedBackoff :=
  { backoff with upcoming := backoff.base, attempts := 0 }

/-- How a cancellable wait ends. -/
inductive WaitEnd where
  | elapsed (time : Nat)
  | cancelled (time : Nat)
  deriving DecidableEq, Repr

/-- Waits for the next delay from a point in time on, unless a cancellation comes first. A wait that
has no length ends at once, and a cancellation that came before cuts any other short. -/
def wait (backoff : BoundedBackoff) (now : Nat) (cancelAt : Option Nat) :
    WaitEnd × BoundedBackoff :=
  let (delay, backoff) := backoff.next
  let ending := delay.pauseEnd now
  match cancelAt with
  | some cancelAt =>
    if max now cancelAt < ending then (.cancelled (max now cancelAt), backoff)
    else (.elapsed ending, backoff)
  | none => (.elapsed ending, backoff)

/-- The time at which a wait ends. -/
def WaitEnd.time : WaitEnd → Nat
  | elapsed time | cancelled time => time

/-- A number of waits in turn: how each ends, and the failures counted by then. -/
def waits (cancelAt : Option Nat) : Nat → Nat → BoundedBackoff → List (WaitEnd × UInt32)
  | 0, _, _ => []
  | more + 1, now, backoff =>
    let (outcome, backoff) := backoff.wait now cancelAt
    (outcome, backoff.attempts) :: waits cancelAt more outcome.time backoff

end BoundedBackoff

end WindowJoin

import WindowJoin.Backoff
import WindowJoin.Error
import WindowJoin.Time.Pause

/-!
# Trying again

An operation on a store that fails for a passing reason is tried again after a wait, up to a number
of attempts, which the schedule of the waits counts. `Attempts.judge` decides after each attempt;
`retry` makes all attempts in turn and gives the waits between them.
-/

namespace WindowJoin

/-- The attempts of one operation: how many there may be, and the waits between them. The schedule of
the waits has counted the attempts that failed so far. -/
structure Attempts where
  limit : UInt32
  backoff : BoundedBackoff
  deriving DecidableEq, Repr

/-- What follows an attempt. -/
inductive Verdict (α : Type) where
  | done (result : Except StorageError α)
  | again (delay : Duration) (attempts : Attempts)

namespace Attempts

/-- The attempts of one operation; there is at least one. -/
def start (maxAttempts : UInt32) (backoff : BoundedBackoff) : Attempts :=
  ⟨max maxAttempts 1, backoff⟩

/-- Decides whether the result of an attempt is the last one. -/
def judge {α : Type} (attempts : Attempts) (result : Except StorageError α) : Verdict α :=
  match result with
  | .ok _ => .done result
  | .error error =>
    if error.isTransient && attempts.backoff.attempts + 1 < attempts.limit then
      let (delay, backoff) := attempts.backoff.next
      .again delay { attempts with backoff }
    else .done result

end Attempts

/-- What an operation with all its attempts gives: the result of the last, the state of the store,
and the waits in between. -/
structure Retried (σ α : Type) where
  result : Except StorageError α
  store : σ
  delays : List Duration

/-- The time that operations take with their waits. -/
def Retried.elapsed {σ α : Type} (run : Retried σ α) : Nat :=
  totalPause run.delays

/-- Makes attempts until one succeeds, fails for a lasting reason, or is the last. The first number
bounds the attempts after the present one. -/
def retryFrom {σ α : Type} (attempt : σ → Except StorageError α × σ) :
    Nat → Attempts → σ → Retried σ α
  | 0, _, store =>
    let (result, store) := attempt store
    ⟨result, store, []⟩
  | later + 1, attempts, store =>
    let (result, store) := attempt store
    match attempts.judge result with
    | .done result => ⟨result, store, []⟩
    | .again delay attempts =>
      let run := retryFrom attempt later attempts store
      { run with delays := delay :: run.delays }

/-- Makes up to a number of attempts, at least one. -/
def retry {σ α : Type} (maxAttempts : UInt32) (backoff : BoundedBackoff)
    (attempt : σ → Except StorageError α × σ) (store : σ) : Retried σ α :=
  retryFrom attempt (maxAttempts.toNat - 1) (.start maxAttempts backoff) store

end WindowJoin

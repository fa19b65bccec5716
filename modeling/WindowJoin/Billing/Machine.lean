import WindowJoin.Billing.Account
import WindowJoin.Channel

/-!
# Billing at work

Running billing takes lists of records as they come, counts them, and settles after each. Attempts to
store the checkpoint are not cut short by a cancellation.

`BillingRun.transitions` gives what it can do next, given what it sees. No transition means that it
waits; more than one means that the order is not fixed.
-/

namespace WindowJoin

namespace BillingRun

/-- Where running billing stands. -/
inductive Control where
  | listening
  /-- Storing the checkpoint, with the next attempt at a time. -/
  | storing (attempts : Attempts) (time : Nat)
  /-- The checkpoint is stored, and the count is to be reported. -/
  | reporting
  | finished (result : Except Failure Unit)

/-- How billing stores its checkpoint. -/
structure Rules where
  store : CheckpointStore
  blobName : String
  deriving DecidableEq, Repr

end BillingRun

/-- Running billing. -/
structure BillingRun where
  account : BillingAccount
  control : BillingRun.Control

namespace BillingRun

/-- What running billing sees and changes. -/
structure View where
  input : Channel (List BillingRecord)
  blobs : Guarded MemoryBlobs
  reporter : UsageReporter
  cancelled : Bool
  now : Nat

/-- Billing at the beginning of its run. -/
def start (account : BillingAccount) : BillingRun :=
  ⟨account, .listening⟩

/-- The end of a run, with which its end of the channel goes. -/
def finish (run : BillingRun) (view : View) (result : Except Failure Unit) : BillingRun × View :=
  ({ run with control := .finished result }, { view with input := view.input.dropReceiver })

/-- Whether a run has ended. -/
def isFinished (run : BillingRun) : Bool :=
  match run.control with
  | .finished _ => true
  | _ => false

/-- Takes records in, and goes on to settle if there is anything to report. -/
def take (rules : Rules) (run : BillingRun) (now : Nat) (records : List BillingRecord) :
    BillingRun :=
  let account := run.account.accumulate records
  { account
    control :=
      if account.accumulated = 0 then .listening
      else .storing (.start rules.store.maxAttempts rules.store.backoff) now }

/-- What running billing can do next. -/
def transitions (rules : Rules) (run : BillingRun) (view : View) : List (BillingRun × View) :=
  match run.control with
  | .listening =>
    (if view.cancelled then [finish run view (.ok ())] else [])
      ++ match view.input.receive with
        | .item records input => [(run.take rules view.now records, { view with input })]
        | .ended => [finish run view (.ok ())]
        | .empty => []
  | .storing attempts time =>
    if time ≤ view.now then
      let (result, blobs) := (Guarded.access MemoryBlobs.access).write rules.blobName
        run.account.checkpoint.toJson view.blobs
      let control : Control :=
        match attempts.judge result with
        | .again delay attempts => .storing attempts (delay.pauseEnd view.now)
        | .done (.ok ()) => .reporting
        | .done (.error _) => .listening
      [({ run with control }, { view with blobs })]
    else []
  | .reporting =>
    match run.account.report view.reporter with
    | (.ok (), account, reporter) => [(⟨account, .listening⟩, { view with reporter })]
    | (.error failure, account, reporter) =>
      [finish { run with account } { view with reporter } (.error failure)]
  | .finished _ => []

/-- The times at which waiting billing goes on by itself. -/
def deadlines (run : BillingRun) : List Nat :=
  match run.control with
  | .storing _ time => [time]
  | _ => []

end BillingRun

end WindowJoin

import WindowJoin.Config.Tracing
import WindowJoin.Error
import WindowJoin.Join.Batch
import WindowJoin.Merge.Rules
import WindowJoin.Receiver.Rules
import WindowJoin.Text.LowerCase

/-!
# The configuration

Every setting has a default. Times are milliseconds in the range of 64-bit words. `validate` refuses
settings that make no sense together; the settings of the parts of the process are derived with
`receiverRules`, `mergeRules?` and `joinRules?`, of which the latter two fail if a time does not fit
a span.
-/

namespace WindowJoin

/-- The settings of the process. -/
structure Config where
  interactionStream : String := "interaction"
  observationStream : String := "observation"
  /-- The time after an interaction in which observations join it. -/
  joinWindow : Nat := 3600000
  punctuationSlack : Nat := 5000
  addPunctuationSlack : Bool := true
  punctuationTimeout : Nat := 10000
  punctuationInterval : Nat := 1000
  activeReadTimeout : Nat := 1000
  historicalReadTimeout : Nat := 10000
  historicalThreshold : Nat := 300000
  receiveTimeout : Nat := 5000
  receiveBatchSize : Nat := 100
  maxReceiveRetries : Nat := 30
  /-- The time to wait for the first batch of every partition of a stream. -/
  startupTimeout : Nat := 30000
  partitionQueueCapacity : Nat := 16
  mergeOutputCapacity : Nat := 64
  joinOutputCapacity : Nat := 64
  interactionWaitTimeout : Nat := 5000
  /-- Where reading starts without a checkpoint. -/
  warmStart : Option Instant := none
  useClientTimestamp : Bool := false
  checkpointInterval : Nat := 30000
  checkpointBlobName : String := "joiner-checkpoint.json"
  billingBlobName : String := "billing-checkpoint.json"
  storageMaxAttempts : Nat := 5
  metricsPort : Option Nat := none
  logLevel : Option String := none
  tracing : Option TraceCollector := none

namespace Config

/-- The span of a time, unless it is too large for one. -/
def span? (setting : String) (millis : Nat) : Except Failure Int :=
  if millis < 0x8000000000000000 then .ok (spanOfMillis millis) else .error (.config (.tooLarge setting))

/-- The window of the join. -/
def joinWindow? (config : Config) : Except Failure Int :=
  span? "backward_event_join_window" config.joinWindow

/-- The log levels, in lower case. -/
def logLevels : List String :=
  ["trace", "debug", "info", "warn", "error"]

/-- The times that must not be zero, in the order in which they are checked. -/
def positiveTimes (config : Config) : List (String × Nat) :=
  [("punctuation_timeout", config.punctuationTimeout),
    ("punctuation_interval", config.punctuationInterval),
    ("active_partition_read_timeout", config.activeReadTimeout),
    ("historical_partition_read_timeout", config.historicalReadTimeout),
    ("event_hub_receive_timeout", config.receiveTimeout),
    ("startup_timeout", config.startupTimeout),
    ("interaction_wait_timeout", config.interactionWaitTimeout),
    ("checkpoint_interval", config.checkpointInterval)]

/-- The numbers that must not be zero, in the order in which they are checked. -/
def positiveNumbers (config : Config) : List (String × Nat) :=
  [("receive_batch_size", config.receiveBatchSize),
    ("partition_queue_capacity", config.partitionQueueCapacity),
    ("merge_output_capacity", config.mergeOutputCapacity),
    ("join_output_capacity", config.joinOutputCapacity),
    ("storage_max_attempts", config.storageMaxAttempts)]

/-- The first thing that is wrong with the values of the settings. -/
def fault? (config : Config) : Option ConfigFault :=
  if config.interactionStream = "" ∨ config.observationStream = "" then some .emptyStreamName
  else if config.interactionStream = config.observationStream then
    some (.sameStream config.interactionStream)
  else if config.joinWindow = 0 then some (.notPositive "backward_event_join_window")
  else
    match (config.positiveTimes ++ config.positiveNumbers).find? (·.2 = 0) with
    | some (setting, _) => some (.notPositive setting)
    | none =>
      match config.logLevel.map lowerCase with
      | none => none
      | some level => if level ∈ logLevels then none else some (.wrongLogLevel level)

/-- Refuses a configuration that makes no sense. -/
def validate (config : Config) : Except Failure Unit :=
  match config.fault? with
  | some fault => .error (.config fault)
  | none => do
    let _ ← config.joinWindow?
    .ok ()

/-- The settings of the receivers. -/
def receiverRules (config : Config) : ReceiverRules :=
  ⟨config.receiveTimeout, config.receiveBatchSize, config.maxReceiveRetries.toUInt32⟩

/-- The settings of the merges. -/
def mergeRules? (config : Config) : Except Failure MergeRules := do
  .ok ⟨config.activeReadTimeout, config.historicalReadTimeout,
    ← span? "historical_threshold" config.historicalThreshold⟩

/-- The settings of the join. -/
def joinRules? (config : Config) : Except Failure JoinRules := do
  let window ← config.joinWindow?
  let timeout ← span? "punctuation_timeout" config.punctuationTimeout
  let slack ← span? "punctuation_slack" config.punctuationSlack
  .ok {
    window
    punctuation := ⟨timeout, slack, config.addPunctuationSlack, config.useClientTimestamp⟩
    punctuationInterval := config.punctuationInterval
    interactionWait := config.interactionWaitTimeout }

end Config

end WindowJoin

import WindowJoin.Checkpoint
import WindowJoin.Config.Settings

/-!
# Configuration documents

A configuration is an object that names the settings it changes, or an array of them in order. Each
setting comes up at most once, unknown keys are passed over, and what is missing has its default.
`Config.settings` lists the settings with their keys; both directions follow it.
-/

namespace WindowJoin

open Json

/-- A setting as a document holds it: its key, a reader that changes a configuration, and a
writer. -/
structure Setting where
  key : String
  read : Config → List UInt8 → Except Fault (Config × List UInt8)
  write : Config → List UInt8

/-- The setting with a key, whose value is read and written in a form, and found in and put into a
configuration. -/
def Setting.of {α : Type} (key : String) (readValue : List UInt8 → Except Fault (α × List UInt8))
    (writeValue : α → List UInt8) (get : Config → α) (put : α → Config → Config) : Setting where
  key
  read config bytes := do
    let (value, rest) ← readValue bytes
    .ok (put value config, rest)
  write config := writeValue (get config)

namespace Json

/-- A number from zero to a bound. -/
def readNat (bound : Nat) (bytes : List UInt8) : Except Fault (Nat × List UInt8) := do
  let (value, rest) ← readInteger 0 bound bytes
  .ok (value.toNat, rest)

/-- A number as an integer. -/
def nat (value : Nat) : List UInt8 :=
  decimal value

end Json

namespace Setting

/-- A setting that is a text. -/
def ofText (key : String) (get : Config → String) (put : String → Config → Config) : Setting :=
  .of key readText quoted get put

/-- A setting that is a truth value. -/
def ofBool (key : String) (get : Config → Bool) (put : Bool → Config → Config) : Setting :=
  .of key readBool boolWord get put

/-- A setting that is a number of 64 bits: a time in milliseconds, or a size. -/
def ofWord (key : String) (get : Config → Nat) (put : Nat → Config → Config) : Setting :=
  .of key (readNat 0xFFFFFFFFFFFFFFFF) nat get put

/-- A setting that is a number of 32 bits. -/
def ofCount (key : String) (get : Config → Nat) (put : Nat → Config → Config) : Setting :=
  .of key (readNat 0xFFFFFFFF) nat get put

end Setting

namespace Config

/-- The settings in the order of arrays. -/
def settings : List Setting :=
  [.ofText "interaction_stream" (·.interactionStream)
      fun value config => { config with interactionStream := value },
    .ofText "observation_stream" (·.observationStream)
      fun value config => { config with observationStream := value },
    .ofWord "backward_event_join_window" (·.joinWindow)
      fun value config => { config with joinWindow := value },
    .ofWord "punctuation_slack" (·.punctuationSlack)
      fun value config => { config with punctuationSlack := value },
    .ofBool "add_punctuation_slack" (·.addPunctuationSlack)
      fun value config => { config with addPunctuationSlack := value },
    .ofWord "punctuation_timeout" (·.punctuationTimeout)
      fun value config => { config with punctuationTimeout := value },
    .ofWord "punctuation_interval" (·.punctuationInterval)
      fun value config => { config with punctuationInterval := value },
    .ofWord "active_partition_read_timeout" (·.activeReadTimeout)
      fun value config => { config with activeReadTimeout := value },
    .ofWord "historical_partition_read_timeout" (·.historicalReadTimeout)
      fun value config => { config with historicalReadTimeout := value },
    .ofWord "historical_threshold" (·.historicalThreshold)
      fun value config => { config with historicalThreshold := value },
    .ofWord "event_hub_receive_timeout" (·.receiveTimeout)
      fun value config => { config with receiveTimeout := value },
    .ofWord "receive_batch_size" (·.receiveBatchSize)
      fun value config => { config with receiveBatchSize := value },
    .ofCount "max_receive_retries" (·.maxReceiveRetries)
      fun value config => { config with maxReceiveRetries := value },
    .ofWord "startup_timeout" (·.startupTimeout)
      fun value config => { config with startupTimeout := value },
    .ofWord "partition_queue_capacity" (·.partitionQueueCapacity)
      fun value config => { config with partitionQueueCapacity := value },
    .ofWord "merge_output_capacity" (·.mergeOutputCapacity)
      fun value config => { config with mergeOutputCapacity := value },
    .ofWord "join_output_capacity" (·.joinOutputCapacity)
      fun value config => { config with joinOutputCapacity := value },
    .ofWord "interaction_wait_timeout" (·.interactionWaitTimeout)
      fun value config => { config with interactionWaitTimeout := value },
    .of "warmstart_start_date_time" (readOptional readInstant) (optional instant) (·.warmStart)
      fun value config => { config with warmStart := value },
    .ofBool "use_client_timestamp" (·.useClientTimestamp)
      fun value config => { config with useClientTimestamp := value },
    .ofWord "checkpoint_interval" (·.checkpointInterval)
      fun value config => { config with checkpointInterval := value },
    .ofText "checkpoint_blob_name" (·.checkpointBlobName)
      fun value config => { config with checkpointBlobName := value },
    .ofText "billing_blob_name" (·.billingBlobName)
      fun value config => { config with billingBlobName := value },
    .ofCount "storage_max_attempts" (·.storageMaxAttempts)
      fun value config => { config with storageMaxAttempts := value },
    .of "metrics_port" (readOptional (readNat 0xFFFF)) (optional nat) (·.metricsPort)
      fun value config => { config with metricsPort := value },
    .of "log_level" (readOptional readText) (optional quoted) (·.logLevel)
      fun value config => { config with logLevel := value },
    .of "tracing" (readOptional TraceCollector.read) (optional TraceCollector.write) (·.tracing)
      fun value config => { config with tracing := value }]

/-- What has been read of an object: the keys of the settings, and what they make. -/
structure Draft where
  keys : List String
  config : Config

/-- An entry of the object. -/
def readEntry (draft : Draft) (key : String) (bytes : List UInt8) :
    Except Fault (Draft × List UInt8) :=
  match settings.find? (·.key = key) with
  | none => do
    let rest ← skipValue (← afterColon bytes)
    .ok (draft, rest)
  | some setting =>
    if key ∈ draft.keys then .error .mismatch
    else do
      let (config, rest) ← setting.read draft.config (← afterColon bytes)
      .ok (⟨key :: draft.keys, config⟩, rest)

/-- The elements of an array, one for each setting in order as far as they go. -/
def readElements : List Setting → Bool → Config → List UInt8 → Except Fault (Config × List UInt8)
  | [], _, config, bytes => .ok (config, bytes)
  | setting :: later, first, config, bytes => do
    match ← nextElement first bytes with
    | none => .ok (config, bytes)
    | some bytes => do
      let (config, rest) ← setting.read config bytes
      readElements later false config rest

/-- A configuration, as an object or as an array. -/
def read (bytes : List UInt8) : Except Fault (Config × List UInt8) :=
  match skipBlanks bytes with
  | [] => .error .ended
  | byte :: rest =>
    if byte = byteOf '[' then do
      let (config, rest) ← readElements settings true {} rest
      let rest ← closeArray rest
      .ok (config, rest)
    else do
      let (draft, rest) ← readObject readEntry ⟨[], {}⟩ (byte :: rest)
      .ok (draft.config, rest)

/-- The document that holds a configuration. -/
def toJson (config : Config) : List UInt8 :=
  object (settings.map fun setting => (setting.key, setting.write config))

/-- The configuration in a document, if it makes sense. -/
def ofJson (bytes : List UInt8) : Except Failure Config := do
  let config ← (readDocument read bytes).mapError fun fault =>
    .during .parsingConfig (.serialization fault)
  config.validate
  .ok config

/-- The configuration in a file with these contents, or with this error in their place. -/
def ofFile (path : String) (contents : Except StorageError (List UInt8)) : Except Failure Config :=
  let text := contents.bind fun bytes =>
    match Utf8.decode? bytes with
    | some _ => .ok bytes
    | none => .error (.io .invalidData "stream did not contain valid UTF-8")
  match text with
  | .ok bytes => ofJson bytes
  | .error error => .error (.during (.readingConfig path) (.storage error))

end Config

end WindowJoin

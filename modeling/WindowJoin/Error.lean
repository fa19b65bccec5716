import WindowJoin.Json.Text
import WindowJoin.Text.Quoted

/-!
# What can go wrong

Errors are split by the boundary that they cross: transport, storage, the byte formats, and the
process as a whole. Each is a cause, and `message` says it in words. Transport and storage errors
know whether they pass by themselves, so that it makes sense to try again. What is done in turn
succeeds only if each part of it does (`except_bind_ok`).
-/

namespace WindowJoin

/-- An error of the connection to a stream. -/
inductive TransportError where
  | transient (reason : String)
  | fatal (reason : String)
  deriving DecidableEq, Repr

namespace TransportError

/-- The error may pass by itself. -/
def isTransient : TransportError → Bool
  | transient _ => true
  | fatal _ => false

/-- The error in words. -/
def message : TransportError → String
  | transient reason => "transient transport error: " ++ reason
  | fatal reason => "transport error: " ++ reason

end TransportError

/-- The kinds of input and output errors that are told apart. -/
inductive IoKind where
  | interrupted
  | timedOut
  | wouldBlock
  | permissionDenied
  | notFound
  | unexpectedEnd
  | invalidInput
  | invalidData
  | other
  deriving DecidableEq, Repr

/-- The codes of the failures that a database reports, as far as they are told apart. -/
inductive SqliteCode where
  | databaseBusy
  | databaseLocked
  | other
  deriving DecidableEq, Repr

/-- An error of the store that holds the checkpoints. -/
inductive StorageError where
  | io (kind : IoKind) (reason : String)
  /-- An error of a database, with the code of the failure if the database has reported one. -/
  | sqlite (code : Option SqliteCode) (reason : String)
  /-- The tables of a database could not be brought up to date. -/
  | migration (reason : String)
  | throttled (reason : String)
  | task (reason : String)
  deriving DecidableEq, Repr

namespace StorageError

/-- The error may pass by itself. -/
def isTransient : StorageError → Bool
  | io kind _ => kind = .interrupted || kind = .timedOut || kind = .wouldBlock
  | sqlite code _ => code = some .databaseBusy || code = some .databaseLocked
  | migration _ => false
  | throttled _ => true
  | task _ => false

/-- The error in words. -/
def message : StorageError → String
  | io _ reason => "storage I/O error: " ++ reason
  | sqlite _ reason => "sqlite error: " ++ reason
  | migration reason => "sqlite migration error: " ++ reason
  | throttled reason => "storage throttled: " ++ reason
  | task reason => "storage task failed: " ++ reason

end StorageError

/-- The parts of the byte formats that errors speak of. -/
inductive CodecPart where
  | payloadType
  | enqueuedTime
  | clientTime
  | appId
  | eventId
  | payloadLength
  | payload
  | offset
  | sequenceNumber
  | partitionId
  | sourceEventCount
  | groupCount
  | group
  | eventBatch
  | fileMagic
  | logVersion
  | recordType
  | recordSize
  | recordPayload
  | recordPadding
  | fileHeader
  | checkpoint
  deriving DecidableEq, Repr

/-- The name of a part in messages. -/
def CodecPart.name : CodecPart → String
  | payloadType => "payload type"
  | enqueuedTime => "enqueued time"
  | clientTime => "client time"
  | appId => "app id"
  | eventId => "event id"
  | payloadLength => "payload length"
  | payload => "payload"
  | offset => "offset"
  | sequenceNumber => "sequence number"
  | partitionId => "partition id"
  | sourceEventCount => "source event count"
  | groupCount => "group count"
  | group => "group"
  | eventBatch => "event batch"
  | fileMagic => "file magic"
  | logVersion => "log version"
  | recordType => "record type"
  | recordSize => "record size"
  | recordPayload => "record payload"
  | recordPadding => "record padding"
  | fileHeader => "file header"
  | checkpoint => "checkpoint"

/-- An error in transport payloads, joined records or logs. -/
inductive CodecError where
  | shortPreamble (length : Nat)
  | unsupportedPreamble (reserved version : UInt8)
  | unknownMessageType (code : Nat)
  | bodySizeMismatch (declared actual : Nat)
  | truncated (part : CodecPart) (position : Nat)
  | invalidUtf8 (part : CodecPart)
  | invalidTimestamp (millis : Int64)
  | invalidPreciseTimestamp (seconds : Int64) (nanos : Nat)
  | missingTimestamp (part : CodecPart)
  | fieldTooLong (part : CodecPart) (length : Nat)
  | missingMagic
  | magicMidStream
  | unsupportedVersion (version : Nat)
  | duplicateRecord (part : CodecPart)
  | unknownRecordType (code : Nat)
  | recordTooLarge (length : Nat)
  | json (part : CodecPart) (fault : Json.Fault)
  | io (reason : String)
  deriving DecidableEq, Repr

/-- A code in hexadecimal, with at least `width` digits. -/
def hexCode (width code : Nat) : String :=
  "0x" ++ String.ofList (hexDigits width code)

/-- The error in words. -/
def CodecError.message : CodecError → String
  | shortPreamble length => s!"message preamble too short: {length} bytes"
  | unsupportedPreamble reserved version =>
    s!"unsupported preamble: reserved={reserved} version={version}"
  | unknownMessageType code => "unknown message type " ++ hexCode 4 code
  | bodySizeMismatch declared actual =>
    s!"message declares {declared} body bytes but {actual} are present"
  | truncated part position => s!"truncated {part.name} at byte {position}"
  | invalidUtf8 part => s!"invalid utf-8 in {part.name}"
  | invalidTimestamp millis => s!"timestamp out of range: {millis} ms"
  | invalidPreciseTimestamp seconds nanos => s!"timestamp out of range: {seconds} s {nanos} ns"
  | missingTimestamp part => s!"{part.name} is missing"
  | fieldTooLong part length => s!"{part.name} too long: {length} bytes"
  | missingMagic => "log does not start with the file magic"
  | magicMidStream => "file magic found in the middle of the log"
  | unsupportedVersion version => s!"unsupported log version {version}"
  | duplicateRecord part => s!"log contains more than one {part.name} record"
  | unknownRecordType code => "unknown log record type " ++ hexCode 8 code
  | recordTooLarge length => s!"record payload too large: {length} bytes"
  | json part fault => s!"invalid JSON in {part.name}: {fault.category}"
  | io reason => "log I/O error: " ++ reason

/-- Why a configuration is refused. -/
inductive ConfigFault where
  | emptyStreamName
  | sameStream (name : String)
  | notPositive (setting : String)
  | wrongLogLevel (level : String)
  | tooLarge (setting : String)
  deriving DecidableEq, Repr

/-- The fault in words. -/
def ConfigFault.message : ConfigFault → String
  | emptyStreamName => "stream names must not be empty"
  | sameStream name => "interaction and observation streams are both " ++ quotedText name
  | notPositive setting => setting ++ " must be positive"
  | wrongLogLevel level => "wrong log level: " ++ level
  | tooLarge setting => setting ++ " is too large"

/-- What was being done when an error came up. -/
inductive Activity where
  | parsingConfig
  | readingConfig (path : String)
  | readingJoinCheckpoint
  | readingBillingCheckpoint
  | writingJoinCheckpoint
  | writingBillingCheckpoint
  | listingPartitions (stream : String)
  | openingPartition (stream partition : String)
  | receiving (stream partition : String)
  deriving DecidableEq, Repr

/-- The activity in words. -/
def Activity.message : Activity → String
  | parsingConfig => "error parsing joiner config"
  | readingConfig path => "error reading joiner config " ++ quotedText path
  | readingJoinCheckpoint => "error reading joiner checkpoint"
  | readingBillingCheckpoint => "error reading billing checkpoint"
  | writingJoinCheckpoint => "error writing joiner checkpoint"
  | writingBillingCheckpoint => "error writing billing checkpoint"
  | listingPartitions stream => s!"error listing partitions of {stream}"
  | openingPartition stream partition => s!"error opening {stream} partition {partition}"
  | receiving stream partition => s!"error receiving from {stream} partition {partition}"

/-- An error of the process as a whole. -/
inductive Failure where
  | partitionCountMismatch (interactions observations : Nat)
  | noPartitions (stream : String)
  | config (fault : ConfigFault)
  | transport (error : TransportError)
  | storage (error : StorageError)
  | codec (error : CodecError)
  | serialization (fault : Json.Fault)
  | retriesExhausted (partition : String) (attempts : UInt32) (last : String)
  | componentFailed (component reason : String)
  | componentPanicked (component : String)
  | during (activity : Activity) (cause : Failure)
  deriving DecidableEq, Repr

/-- The error in words. An error that came up during an activity is told by that activity. -/
def Failure.message : Failure → String
  | partitionCountMismatch interactions observations =>
    s!"interaction stream has {interactions} partitions but observation stream has " ++
      s!"{observations}; the streams must be symmetric"
  | noPartitions stream => s!"stream {quotedText stream} has no partitions"
  | config fault => "invalid configuration: " ++ fault.message
  | transport error => error.message
  | storage error => error.message
  | codec error => error.message
  | serialization fault => "serialization error: " ++ fault.category
  | retriesExhausted partition attempts last =>
    s!"receiver for partition {partition} gave up after {attempts} attempts: {last}"
  | componentFailed component reason => s!"{component} failed: {reason}"
  | componentPanicked component => s!"{component} panicked"
  | during activity _ => activity.message

/-- Of two parts in turn, the first has given a value, and the second has gone on with it. -/
theorem except_bind_ok {ε α β : Type} {first : Except ε α} {rest : α → Except ε β} {result : β}
    (h : first >>= rest = .ok result) : ∃ value, first = .ok value ∧ rest value = .ok result := by
  cases first with
  | error error => cases h
  | ok value => exact ⟨value, rfl, h⟩

end WindowJoin

import WindowJoin.Backoff
import WindowJoin.Billing.Account
import WindowJoin.Billing.Machine
import WindowJoin.Channel
import WindowJoin.Checkpoint
import WindowJoin.Config.Document
import WindowJoin.Config.Settings
import WindowJoin.Config.Tracing
import WindowJoin.Error
import WindowJoin.Join.Batch
import WindowJoin.Join.Indexed
import WindowJoin.Join.Machine
import WindowJoin.Join.Scan
import WindowJoin.Json.Number
import WindowJoin.Json.Reader
import WindowJoin.Json.Real
import WindowJoin.Json.Text
import WindowJoin.Json.Value
import WindowJoin.Log.Frame
import WindowJoin.Log.Joined
import WindowJoin.Log.Reader
import WindowJoin.Log.Writer
import WindowJoin.Merge.Machine
import WindowJoin.Merge.Rules
import WindowJoin.Message
import WindowJoin.ObservationClock
import WindowJoin.OrderedMap
import WindowJoin.PartitionSource
import WindowJoin.Pipeline.Checkpointer
import WindowJoin.Pipeline.FanOut
import WindowJoin.Pipeline.Machine
import WindowJoin.Pipeline.Opening
import WindowJoin.Pipeline.Supervision
import WindowJoin.Proofs.Backoff
import WindowJoin.Proofs.Billing.Deferred
import WindowJoin.Proofs.Billing.History
import WindowJoin.Proofs.Billing.Intake
import WindowJoin.Proofs.Billing.Turn
import WindowJoin.Proofs.Checkpoint.Commits
import WindowJoin.Proofs.Checkpoint.Keeper
import WindowJoin.Proofs.Checkpoint.Rereading
import WindowJoin.Proofs.Checkpoint.Resumption
import WindowJoin.Proofs.Checkpoint.RoundTrip
import WindowJoin.Proofs.Checkpoint.Stored
import WindowJoin.Proofs.Checkpoint.Turn
import WindowJoin.Proofs.Checkpoint.Updates
import WindowJoin.Proofs.Clock.Polling
import WindowJoin.Proofs.Clock.Spans
import WindowJoin.Proofs.Config.NormalForm
import WindowJoin.Proofs.Config.Spans
import WindowJoin.Proofs.Conservation
import WindowJoin.Proofs.Join.Accounting
import WindowJoin.Proofs.Join.Attachment
import WindowJoin.Proofs.Join.Carried
import WindowJoin.Proofs.Join.CaughtUp
import WindowJoin.Proofs.Join.Closing
import WindowJoin.Proofs.Join.Deadlines
import WindowJoin.Proofs.Join.History
import WindowJoin.Proofs.Join.Holding
import WindowJoin.Proofs.Join.Index
import WindowJoin.Proofs.Join.Refinement
import WindowJoin.Proofs.Join.Runs
import WindowJoin.Proofs.Join.Turn
import WindowJoin.Proofs.Join.Windows
import WindowJoin.Proofs.Json.Number
import WindowJoin.Proofs.Json.Object
import WindowJoin.Proofs.Json.Text
import WindowJoin.Proofs.Log.Cut
import WindowJoin.Proofs.Log.Delivery
import WindowJoin.Proofs.Log.Failures
import WindowJoin.Proofs.Log.Frames
import WindowJoin.Proofs.Log.Grammar
import WindowJoin.Proofs.Log.Joined
import WindowJoin.Proofs.Log.Written
import WindowJoin.Proofs.Merge.Accounts
import WindowJoin.Proofs.Merge.Choices
import WindowJoin.Proofs.Merge.History
import WindowJoin.Proofs.Merge.Rounds
import WindowJoin.Proofs.Merge.Sorted
import WindowJoin.Proofs.Merge.Stock
import WindowJoin.Proofs.Merge.Turn
import WindowJoin.Proofs.PartitionSource
import WindowJoin.Proofs.Pipeline.Committing
import WindowJoin.Proofs.Pipeline.Delivery
import WindowJoin.Proofs.Pipeline.Downstream
import WindowJoin.Proofs.Pipeline.Ends
import WindowJoin.Proofs.Pipeline.FanOut
import WindowJoin.Proofs.Pipeline.Forwarding
import WindowJoin.Proofs.Pipeline.Joining
import WindowJoin.Proofs.Pipeline.Lane
import WindowJoin.Proofs.Pipeline.Merging
import WindowJoin.Proofs.Pipeline.Opened
import WindowJoin.Proofs.Pipeline.Order
import WindowJoin.Proofs.Pipeline.Restart
import WindowJoin.Proofs.Pipeline.Supervised
import WindowJoin.Proofs.Pipeline.Turn
import WindowJoin.Proofs.Pipeline.World
import WindowJoin.Proofs.Receiver.Retrying
import WindowJoin.Proofs.Receiver.Turn
import WindowJoin.Proofs.Storage.Directory
import WindowJoin.Proofs.Storage.Faithful
import WindowJoin.Proofs.Storage.Retrying
import WindowJoin.Proofs.Time.Dates
import WindowJoin.Proofs.Time.Millis
import WindowJoin.Proofs.Time.Moves
import WindowJoin.Proofs.Time.Reading
import WindowJoin.Proofs.Transport.Events
import WindowJoin.Proofs.Transport.Receiving
import WindowJoin.Proofs.Transport.Session
import WindowJoin.Proofs.Wire.Consumed
import WindowJoin.Proofs.Wire.Fields
import WindowJoin.Proofs.Wire.Joined
import WindowJoin.Proofs.Wire.JoinedBytes
import WindowJoin.Proofs.Wire.Payloads
import WindowJoin.Proofs.Wire.Records
import WindowJoin.Receiver.Machine
import WindowJoin.Receiver.Rules
import WindowJoin.Resume
import WindowJoin.Simulation.Basic
import WindowJoin.Simulation.Billing
import WindowJoin.Simulation.Join
import WindowJoin.Simulation.Merge
import WindowJoin.Simulation.Pipeline
import WindowJoin.Simulation.Receiver
import WindowJoin.Simulation.Source
import WindowJoin.Simulation.Store
import WindowJoin.Simulation.Transport
import WindowJoin.Storage.Blobs
import WindowJoin.Storage.Checkpoints
import WindowJoin.Storage.Directory
import WindowJoin.Storage.Retry
import WindowJoin.Text.LowerCase
import WindowJoin.Text.Quoted
import WindowJoin.Text.Unprintable
import WindowJoin.Text.Utf8
import WindowJoin.Text.White
import WindowJoin.Ticker
import WindowJoin.Time.Calendar
import WindowJoin.Time.Duration
import WindowJoin.Time.Instant
import WindowJoin.Time.Pause
import WindowJoin.Time.Rfc3339
import WindowJoin.Transport.Log
import WindowJoin.Transport.Start
import WindowJoin.Wire.Cursor
import WindowJoin.Wire.EventBatch
import WindowJoin.Wire.EventRecord
import WindowJoin.Wire.JoinedRecord
import WindowJoin.Wire.Preamble
import WindowJoin.Wire.Words

import WindowJoin.Join.Batch

/-!
# The join without an index

The same join, held as nothing but its clock and the list of its open batches. Each observation is
looked for among the groups of all batches, oldest first. This is what the indexed join is measured
against.
-/

namespace WindowJoin

/-- A join as its clock and its open batches, oldest first. -/
structure ScanJoin where
  clock : ObservationClock
  pending : List OpenBatch
  deriving DecidableEq, Repr

namespace ScanJoin

/-- A join before its first batch. -/
def new (now : Instant) : ScanJoin :=
  ⟨.new now, []⟩

/-- Whether a group starts with an interaction of this event id. -/
def groupMatches (eventId : String) : List Message → Bool
  | [] => false
  | first :: _ => !first.isDictionary && first.eventId = eventId

/-- The batches with a message added to the first group that matches; none if no group does. -/
def attachTo? (message : Message) : List OpenBatch → Option (List OpenBatch)
  | [] => none
  | entry :: rest =>
    match entry.batch.groups.findIdx? (groupMatches message.eventId) with
    | some group => some (entry.attach group message :: rest)
    | none => (attachTo? message rest).map (entry :: ·)

/-- The batches with the messages of a batch of observations added, and the orphans among them. -/
def attachAll (batch : MessageBatch) : List Message → List OpenBatch →
    List OpenBatch × List JoinOutput
  | [], pending => (pending, [])
  | message :: rest, pending =>
    if message.isDictionary then attachAll batch rest pending
    else
      match attachTo? message pending with
      | some attached => attachAll batch rest attached
      | none =>
        let (final, out) := attachAll batch rest pending
        (final, batch.orphan message :: out)

/-- Moves to a clock: the longest list of batches in front whose deadlines it has passed comes
out. -/
def flush (join : ScanJoin) (clock : ObservationClock) : ScanJoin × List JoinOutput :=
  let passed (entry : OpenBatch) : Bool := entry.deadline < clock.watermark
  (⟨clock, join.pending.dropWhile passed⟩,
    (join.pending.takeWhile passed).map fun entry => .joined entry.batch)

/-- The join after an event, with what comes out; none if punctuation leaves the range of spans. -/
def step? (rules : JoinRules) (join : ScanJoin) :
    JoinEvent → Option (ScanJoin × List JoinOutput)
  | .interactions batch =>
    some (⟨join.clock, join.pending ++ [.ofInteractions rules batch]⟩, [])
  | .observations now batch =>
    let (flushed, closed) := join.flush (join.clock.observe rules.punctuation now batch)
    let (pending, orphans) := attachAll batch batch.messages flushed.pending
    some (⟨flushed.clock, pending⟩, closed ++ orphans)
  | .silence now => (join.clock.punctuate? rules.punctuation now).map join.flush
  | .close => some (join.flush join.clock.close)

/-- The join after a list of events, with all that comes out. -/
def run? (rules : JoinRules) (join : ScanJoin) :
    List JoinEvent → Option (ScanJoin × List JoinOutput)
  | [] => some (join, [])
  | event :: rest => do
    let (next, out) ← join.step? rules event
    let (final, later) ← next.run? rules rest
    some (final, out ++ later)

end ScanJoin

end WindowJoin

import WindowJoin.Merge.Rules
import WindowJoin.PartitionSource
import WindowJoin.Time.Pause

/-!
# The merge of the partitions of a stream

A merge sends the batches of many partitions on in the order of their times. In every round it waits
a bounded time for each partition that has nothing at its head, then sends the earliest head; of two
heads with the same time that of the partition that comes first. A partition that stays silent is
not waited for until it has delivered again.

`Merge.transitions` gives what a merge can do next, given what it sees. No transition means that it
waits; more than one means that the order is not fixed. A merge looks at its partitions one after the
other, and their writers go on meanwhile: each transition reads or takes from one channel at most.
-/

namespace WindowJoin

/-- What a merge knows of a partition. -/
inductive Liveness where
  | unknown
  /-- The batch at the head is old. -/
  | historical
  | active
  /-- Nothing is at the head. -/
  | inactive
  /-- Nothing is at the head, and the receiver waits after an error. -/
  | paused
  deriving DecidableEq, Repr

/-- A partition in a merge. -/
structure MergeSlot where
  source : PartitionSource
  liveness : Liveness
  closed : Bool
  deriving DecidableEq, Repr

namespace MergeSlot

/-- A partition of which nothing is known. -/
def new (source : PartitionSource) : MergeSlot :=
  ⟨source, .unknown, false⟩

/-- The time to wait for a partition with nothing at its head. -/
def timeout? (rules : MergeRules) (slot : MergeSlot) : Option Nat :=
  match slot.liveness with
  | .unknown | .active => some rules.activeTimeout
  | .historical => some rules.historicalTimeout
  | .inactive | .paused => none

/-- The slot with a batch at its head if there is one. -/
def fill (slot : MergeSlot) : MergeSlot :=
  if slot.closed then slot else { slot with source := slot.source.fill }

/-- The batch at the head of a slot that has been filled. -/
def head? (slot : MergeSlot) : Option MessageBatch :=
  if slot.closed then none else slot.source.head

/-- What is looked at of a partition to bring what is known of it up to date. -/
inductive Question where
  /-- The batch at its head. -/
  | head
  /-- Whether it is drained, if nothing was at its head. -/
  | drained
  /-- What its receiver does, if it is not drained. -/
  | status
  deriving DecidableEq, Repr

/-- The slot after one look at its partition, by the time of the wall clock, and what is looked at
next, if anything. -/
def update (rules : MergeRules) (wall : Instant) (slot : MergeSlot) :
    Question → MergeSlot × Option Question
  | .head =>
    if slot.closed then (slot, none)
    else
      let filled := { slot with source := slot.source.fill }
      match filled.source.head with
      | some batch =>
        ({ filled with
          liveness :=
            if rules.historicalThreshold < wall.since batch.enqueuedTime then .historical
            else .active }, none)
      | none => (filled, some .drained)
  | .drained =>
    let filled := { slot with source := slot.source.fill }
    if slot.source.isDrained then ({ filled with closed := true }, none)
    else (filled, some .status)
  | .status =>
    ({ slot with liveness := if slot.source.status = .backingOff then .paused else .inactive }, none)

end MergeSlot

namespace Merge

/-- A wait for a partition, by its place. It may end in vain from the deadline on, and need not end at
once: a timer that starts a little later is covered. -/
structure Wait where
  slot : Nat
  deadline : Nat
  deriving DecidableEq, Repr

/-- Where a merge stands. -/
inductive Control where
  /-- At the start of a round. -/
  | top
  /-- Looking at the partitions from a place on for those to wait for. -/
  | surveying (index : Nat) (waits : List Wait)
  /-- Waiting for partitions; when no wait is left, what is known of them is brought up to date. -/
  | filling (waits : List Wait)
  /-- Bringing what is known of the partitions from a place on up to date, by the time that the wall
  clock showed before. -/
  | updating (index : Nat) (question : MergeSlot.Question) (wall : Instant)
  /-- Looking at the heads from a place on, to choose the next batch. -/
  | choosing (index : Nat)
  /-- Sending the batch that was chosen. -/
  | sending (batch : MessageBatch)
  /-- Waiting for any partition, because all were silent. -/
  | idling (deadline : Nat)
  | finished
  deriving DecidableEq, Repr

/-- What a merge sees and changes. -/
structure View where
  slots : List MergeSlot
  output : Channel MessageBatch
  cancelled : Bool
  now : Nat
  wall : Instant
  deriving DecidableEq, Repr

namespace View

/-- The view with another slot in a place. -/
def set (view : View) (index : Nat) (slot : MergeSlot) : View :=
  { view with slots := view.slots.set index slot }

/-- The view after the batch at the head of a partition has been taken. -/
def pop (view : View) (index : Nat) : View :=
  { view with
    slots := view.slots.modify index fun slot =>
      { slot with source := { slot.source with head := none } } }

end View

/-- The end of a merge, with which its ends of the channels go. -/
def finish (view : View) : Control × View :=
  (.finished,
    { view with
      slots := view.slots.map fun slot => { slot with source := slot.source.dropReader }
      output := view.output.dropSender })

/-- The wait for a partition that has been looked at, if nothing is at its head and it is waited
for. -/
def waitFor? (rules : MergeRules) (now index : Nat) (slot : MergeSlot) : Option Wait :=
  if slot.closed || slot.source.head.isSome || slot.source.exhausted then none
  else (slot.timeout? rules).map fun timeout => ⟨index, pauseEnd now timeout⟩

/-- Looks at the partition in a place, and notes the wait for it. After the last one the merge
waits. -/
def survey (rules : MergeRules) (view : View) (index : Nat) (waits : List Wait) : Control × View :=
  match view.slots[index]? with
  | none => (.filling waits, view)
  | some slot =>
    (.surveying (index + 1) (waits ++ (waitFor? rules view.now index slot.fill).toList),
      view.set index slot.fill)

/-- Whether a head comes before another: by time, then by place. -/
def headBefore (first second : Instant × Nat) : Bool :=
  first.1 < second.1 || first.1 = second.1 && first.2 < second.2

/-- The first of a list of heads. -/
def firstHead? : List (Instant × Nat) → Option (Instant × Nat)
  | [] => none
  | head :: rest =>
    match firstHead? rest with
    | none => some head
    | some other => if headBefore other head then some other else some head

/-- The place of the partition whose head is sent next. -/
def chosen? (slots : List MergeSlot) : Option Nat :=
  (firstHead? (slots.zipIdx.filterMap fun (slot, index) =>
    slot.head?.map fun batch => (batch.enqueuedTime, index))).map (·.2)

/-- Where a merge is after a look at the partition in a place. -/
def goOn (index : Nat) (wall : Instant) : Option MergeSlot.Question → Control
  | some question => .updating index question wall
  | none => .updating (index + 1) .head wall

/-- Brings what is known of the partition in a place up to date by one look. After the last one the
merge goes on to choose, or finds that every partition is drained. -/
def refresh (rules : MergeRules) (view : View) (index : Nat) (question : MergeSlot.Question)
    (wall : Instant) : Control × View :=
  match view.slots[index]? with
  | none => if view.slots.all (·.closed) then finish view else (.choosing 0, view)
  | some slot =>
    let (updated, next) := slot.update rules wall question
    (goOn index wall next, view.set index updated)

/-- Looks at the head in a place. After the last one the merge chooses the next batch, or finds that
all partitions are silent. What has come in since the partitions were brought up to date counts as
well, if it came before the look. -/
def choose (rules : MergeRules) (view : View) (index : Nat) : Control × View :=
  match view.slots[index]? with
  | some slot => (.choosing (index + 1), view.set index slot.fill)
  | none =>
    match chosen? view.slots with
    | none => (.idling (pauseEnd view.now rules.activeTimeout), view)
    | some place =>
      match (view.slots[place]?).bind (·.head?) with
      | none => (.top, view)
      | some batch => (.sending batch, view.pop place)

/-- Goes on with a wait for a partition: the slots after it if it is over, else nothing. -/
def pollSlot? (view : View) (wait : Wait) : Option (List MergeSlot) :=
  match view.slots[wait.slot]? with
  | none => some view.slots
  | some slot =>
    match slot.source.continueWait view.cancelled view.now wait.deadline with
    | (some _, source) => some (view.slots.set wait.slot { slot with source })
    | (none, _) => none

/-- What a merge can do next. -/
def transitions (rules : MergeRules) (control : Control) (view : View) : List (Control × View) :=
  match control with
  | .top => if view.cancelled then [finish view] else [(.surveying 0 [], view)]
  | .surveying index waits => [survey rules view index waits]
  | .filling [] => [(.updating 0 .head view.wall, view)]
  | .filling (first :: rest) =>
    (first :: rest).filterMap fun wait =>
      (pollSlot? view wait).map fun slots =>
        (.filling ((first :: rest).erase wait), { view with slots })
  | .updating index question wall => [refresh rules view index question wall]
  | .choosing index => [choose rules view index]
  | .sending batch =>
    if view.cancelled then [finish view]
    else
      match view.output.send batch with
      | .sent output => [(.top, { view with output })]
      | .refused => [finish view]
      | .full => []
  | .idling deadline =>
    view.slots.zipIdx.filterMap fun (slot, index) =>
      if slot.closed then none
      else (pollSlot? view ⟨index, deadline⟩).map fun slots => (.top, { view with slots })
  | .finished => []

/-- The times at which a waiting merge goes on by itself. -/
def deadlines : Control → List Nat
  | .filling waits => waits.map (·.deadline)
  | .idling deadline => [deadline]
  | _ => []

end Merge

end WindowJoin

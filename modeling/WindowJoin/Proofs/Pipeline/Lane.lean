import WindowJoin.Proofs.Merge.Stock
import WindowJoin.Proofs.Transport.Events
import WindowJoin.Receiver.Machine

/-!
# The lane of a partition

A lane leads from the log of a partition to the merge: the receiver reads the log and pushes what it
can decode into the source, and the merge pops it there. `Lane` says that nothing is lost on the way,
that is, that what has been popped of the partition is the beginning of what can be decoded of the
events that are admitted. `Receiver.Move` lists what a step of the receiver can do; read
`Lane.receive` first: every move keeps the lane.
-/

namespace WindowJoin

namespace Wire

/-- The batches in events, without the events that cannot be decoded. -/
def decoded (events : List RawEvent) : List MessageBatch :=
  events.filterMap fun event => (decodeBatch event).toOption

theorem decoded_append (first second : List RawEvent) :
    decoded (first ++ second) = decoded first ++ decoded second :=
  List.filterMap_append

/-- A batch stands at the position of its event. -/
theorem decode_batch_position {event : RawEvent} {batch : MessageBatch}
    (h : decodeBatch event = .ok batch) :
    ∃ content : DecodedEvents, batch = ⟨event.offset, event.sequenceNumber, event.partition,
      event.enqueuedTime, content.eventCount, content.messages⟩ := by
  unfold decodeBatch at h
  cases hsplit : splitPayload event.body with
  | error error => simp [hsplit, bind, Except.bind] at h
  | ok payload =>
      cases hevents : decodeEventBody payload.2 with
      | error error => simp [hsplit, hevents, bind, Except.bind] at h
      | ok content =>
          simp only [hsplit, hevents, bind, Except.bind, Except.ok.injEq] at h
          exact ⟨content, h.symm⟩

theorem decoded_partition {events : List RawEvent} {partition : String}
    (h : ∀ event ∈ events, event.partition = partition) {batch : MessageBatch}
    (hbatch : batch ∈ decoded events) : batch.partition = partition := by
  obtain ⟨event, hevent, hdecoded⟩ := List.mem_filterMap.mp hbatch
  cases hresult : decodeBatch event with
  | error error => simp [hresult, Except.toOption] at hdecoded
  | ok found =>
      rw [hresult] at hdecoded
      obtain rfl := Option.some.inj hdecoded
      obtain ⟨content, rfl⟩ := decode_batch_position hresult
      exact h event hevent

end Wire

/-! ## Receivers -/

namespace Receiver

/-- The events that a receiver is still to deal with: those that it has read and those in the log. -/
def ahead (receiver : Receiver) (events : List RawEvent) : List RawEvent :=
  match receiver.control with
  | .pushing held => held ++ receiver.client.remaining events
  | .finished _ => []
  | _ => receiver.client.remaining events

/-- The receiver has pushed the beginning of what can be decoded of the events of its partition. -/
structure Feeds (receiver : Receiver) (events : List RawEvent) (pushed : List MessageBatch) :
    Prop where
  bounded : receiver.client.position ≤ events.length
  conserved : Conserved (Wire.decoded (events.filter receiver.client.start.admits))
    (Wire.decoded (receiver.ahead events)) pushed (receiver.isFinished = false)

variable {receiver next : Receiver} {events : List RawEvent} {pushed : List MessageBatch}

theorem Feeds.finish (h : receiver.Feeds events pushed) (result : Except Failure Unit) :
    Feeds { receiver with control := .finished result } events pushed where
  bounded := h.bounded
  conserved := .stopped h.conserved.begins (by simp [isFinished])

/-- A receiver that is still to deal with the same events has pushed the same batches. -/
theorem Feeds.congr (h : receiver.Feeds events pushed) (hworking : receiver.isFinished = false)
    (hstart : next.client.start = receiver.client.start)
    (hbounded : next.client.position ≤ events.length)
    (hahead : Wire.decoded (next.ahead events) = Wire.decoded (receiver.ahead events)) :
    next.Feeds events pushed where
  bounded := hbounded
  conserved := by
    rw [hstart, hahead]
    exact h.conserved.mono fun _ => hworking

/-- The events that are added to the log are ahead of the receiver. -/
theorem Feeds.grow (h : receiver.Feeds events pushed) (added : List RawEvent) :
    receiver.Feeds (events ++ added) pushed where
  bounded := by
    rw [List.length_append]
    exact Nat.le_add_right_of_le h.bounded
  conserved := by
    have hconserved := h.conserved
    rw [List.filter_append, Wire.decoded_append]
    have hremaining : receiver.client.remaining (events ++ added) =
        receiver.client.remaining events ++ added.filter receiver.client.start.admits := by
      rw [Client.remaining, List.drop_append_of_le_length h.bounded, List.filter_append,
        Client.remaining]
    cases hcontrol : receiver.control with
    | finished result =>
        rw [ahead, hcontrol]
        refine .stopped ?_ (by simp [isFinished, hcontrol])
        exact hconserved.begins.trans (List.prefix_append ..)
    | calling | waiting | backingOff =>
        simp only [ahead, hcontrol] at hconserved ⊢
        rw [hremaining, Wire.decoded_append]
        exact hconserved.accept (by simp [isFinished, hcontrol]) _ _
    | pushing held =>
        simp only [ahead, hcontrol] at hconserved ⊢
        rw [hremaining, ← List.append_assoc, Wire.decoded_append (held ++ _)]
        exact hconserved.accept (by simp [isFinished, hcontrol]) _ _

end Receiver

/-! ## Sources -/

/-- What has been pushed into a source has been popped or is in stock. -/
def Stock.Passes (stock : Stock) (pushed popped : List MessageBatch) : Prop :=
  Conserved pushed stock.batches popped (stock.readable = true)

theorem PartitionSource.stock_send {source : PartitionSource} {batch : MessageBatch}
    {channel : Channel MessageBatch} (hsend : source.push batch = .sent channel)
    {pushed popped : List MessageBatch} (h : source.stock.Passes pushed popped) :
    ({ source with channel } : PartitionSource).stock.Passes (pushed ++ [batch]) popped := by
  obtain ⟨hopen, rfl⟩ := Channel.send_eq hsend
  have haccepted := h.accept hopen [batch] (source.channel.receiverOpen = true)
  rwa [PartitionSource.stock, List.append_assoc] at haccepted

namespace Receiver

/-- What a transition does: it ends the receiver, lets it turn to something else with the same batches
ahead of it, reads, or pushes the batch that is next. -/
inductive Move (receiver : Receiver) (view : View) : Receiver × View → Prop where
  | finish (result : Except Failure Unit) : Move receiver view (finish receiver view result)
  | turn {control : Control} : receiver.isFinished = false →
      (∀ events, Wire.decoded (({ receiver with control } : Receiver).ahead events) =
        Wire.decoded (receiver.ahead events)) →
      Move receiver view ({ receiver with control }, view)
  | read {glance : Client.Glance} {next : Receiver × View} : receiver.isFinished = false →
      (∀ events, receiver.ahead events = receiver.client.remaining events) →
      receiver.client.Reads view.transport (glance, next.1.client, next.2.transport) →
      next.2.source.stock = view.source.stock →
      (next.1.isFinished = true ∨ ∀ events,
        next.1.ahead events = Client.Glance.events glance ++ next.1.client.remaining events) →
      Move receiver view next
  | push {event : RawEvent} {rest : List RawEvent} {batch : MessageBatch}
      {channel : Channel MessageBatch} : receiver.control = .pushing (event :: rest) →
      Wire.decodeBatch event = .ok batch → view.source.push batch = .sent channel →
      Move receiver view ({ receiver with control := .pushing rest },
        { view with source := { view.source with channel } })

variable {rules : ReceiverRules} {receiver : Receiver} {view : View} {next : Receiver × View}
  {pushed popped : List MessageBatch}

theorem read_move {deadline : Nat} {seen : Option Nat}
    (h : next ∈ read rules receiver view deadline seen) (hworking : receiver.isFinished = false)
    (hahead : ∀ events, receiver.ahead events = receiver.client.remaining events) :
    receiver.Move view next := by
  have hreads := receiver.client.read_reads view.transport rules.batchSize view.now deadline seen
  unfold read at h
  generalize receiver.client.read view.transport rules.batchSize view.now deadline seen = result
    at h hreads
  obtain ⟨glance, client, transport⟩ := result
  cases glance with
  | none =>
      dsimp only at h
      split at h
      · cases h
      · obtain rfl := List.mem_singleton.mp h
        exact .read hworking hahead hreads rfl (.inr fun _ => rfl)
  | some result =>
      obtain rfl := List.mem_singleton.mp h
      unfold handle
      split
      · exact .read hworking hahead hreads rfl (.inr fun _ => rfl)
      · exact .read hworking hahead hreads rfl (.inl rfl)
      · split
        · split
          · exact .read hworking hahead hreads rfl (.inl rfl)
          · exact .read hworking hahead hreads rfl (.inr fun _ => rfl)
        · exact .read hworking hahead hreads rfl (.inl rfl)

/-- Every transition of a receiver is a move. -/
theorem transitions_move (h : next ∈ transitions rules receiver view) :
    receiver.Move view next := by
  unfold transitions at h
  cases hcontrol : receiver.control with
  | calling | waiting =>
      simp only [hcontrol] at h
      split at h
      · obtain rfl := List.mem_singleton.mp h
        exact .finish _
      · exact read_move h (by simp [isFinished, hcontrol]) fun _ => by simp [ahead, hcontrol]
  | pushing held =>
      have hworking : receiver.isFinished = false := by simp [isFinished, hcontrol]
      simp only [hcontrol] at h
      cases held with
      | nil =>
          obtain rfl := List.mem_singleton.mp h
          exact .turn hworking fun events => by simp [ahead, hcontrol]
      | cons event rest =>
          cases hdecoded : Wire.decodeBatch event with
          | error error =>
              simp only [hdecoded, List.mem_singleton] at h
              obtain rfl := h
              -- The event that cannot be decoded is skipped, which changes nothing of what can be.
              refine .turn hworking ?_
              intro events
              simp [ahead, hcontrol, Wire.decoded, hdecoded, Except.toOption]
          | ok batch =>
              simp only [hdecoded] at h
              split at h
              · obtain rfl := List.mem_singleton.mp h
                exact .finish _
              · split at h
                next channel hsend =>
                  obtain rfl := List.mem_singleton.mp h
                  exact .push hcontrol hdecoded hsend
                · obtain rfl := List.mem_singleton.mp h
                  exact .finish _
                · cases h
  | backingOff deadline =>
      simp only [hcontrol] at h
      rcases List.mem_append.mp h with h | h
      · split at h
        · obtain rfl := List.mem_singleton.mp h
          exact .finish _
        · cases h
      · split at h
        · obtain rfl := List.mem_singleton.mp h
          -- The receiver reads again where it was when the read failed.
          exact .turn (by simp [isFinished, hcontrol]) fun events => by simp [ahead, hcontrol]
        · cases h
  | finished result => simp [hcontrol] at h

namespace Move

/-- A receiver changes nothing of the events. -/
theorem events (h : receiver.Move view next) (stream partition : String) :
    next.2.transport.events stream partition = view.transport.events stream partition := by
  cases h with
  | read hworking hahead hreads hsource hnext => exact hreads.events stream partition
  | finish | turn | push => rfl

theorem partition (h : receiver.Move view next) :
    next.2.source.stock.partition = view.source.stock.partition := by
  cases h with
  | read hworking hahead hreads hsource hnext => rw [hsource]
  | finish | turn | push => rfl

/-- A receiver goes on with its partition from its start position. -/
theorem client (h : receiver.Move view next) :
    next.1.client = { receiver.client with position := next.1.client.position } := by
  cases h with
  | read hworking hahead hreads hsource hnext => exact hreads.reader
  | finish | turn | push => rfl

end Move

theorem ahead_of_finished (h : receiver.isFinished = true) (events : List RawEvent) :
    receiver.ahead events = [] := by
  unfold isFinished at h
  split at h
  next result hcontrol => rw [ahead, hcontrol]
  next => cases h

/-- A batch that is pushed is the next one ahead. -/
theorem Feeds.push {event : RawEvent} {rest events : List RawEvent} {batch : MessageBatch}
    (h : receiver.Feeds events pushed) (hcontrol : receiver.control = .pushing (event :: rest))
    (hdecoded : Wire.decodeBatch event = .ok batch) :
    Feeds { receiver with control := .pushing rest } events (pushed ++ [batch]) where
  bounded := h.bounded
  conserved := by
    have hahead : Wire.decoded (receiver.ahead events) =
        [batch] ++ Wire.decoded (rest ++ receiver.client.remaining events) := by
      simp [ahead, hcontrol, Wire.decoded, hdecoded, Except.toOption]
    have hconserved := h.conserved
    rw [hahead] at hconserved
    exact (hconserved.give [batch]).mono fun _ => by simp [isFinished, hcontrol]

/-- A move of a receiver loses nothing of what is to be pushed. -/
theorem Move.feeds (h : receiver.Move view next) (hfeeds : receiver.Feeds
      (view.transport.events receiver.client.stream receiver.client.partition) pushed)
    (hstock : view.source.stock.Passes pushed popped) :
    ∃ pushed, next.1.Feeds
        (view.transport.events receiver.client.stream receiver.client.partition) pushed ∧
      next.2.source.stock.Passes pushed popped := by
  have hclient := h.client
  cases h with
  | finish result => exact ⟨pushed, hfeeds.finish result, hstock⟩
  | turn hworking hahead =>
      exact ⟨pushed, hfeeds.congr hworking rfl hfeeds.bounded (hahead _), hstock⟩
  | read hworking hahead hreads hsource hnext =>
      refine ⟨pushed, ?_, hsource ▸ hstock⟩
      have hstart : next.1.client.start = receiver.client.start := by rw [hclient]
      have hbounded := hreads.bounded hfeeds.bounded
      rcases hnext with hfinished | hheld
      · -- What the last read gave is lost with the receiver.
        refine ⟨hbounded, ?_⟩
        rw [hstart, ahead_of_finished hfinished]
        exact .stopped hfeeds.conserved.begins (by simp [hfinished])
      · refine hfeeds.congr hworking hstart hbounded ?_
        rw [hheld, hahead, hreads.remaining]
  | push hcontrol hdecoded hsend =>
      exact ⟨_, hfeeds.push hcontrol hdecoded, PartitionSource.stock_send hsend hstock⟩

end Receiver

/-! ## Lanes -/

/-- The batches of a partition among others. -/
def ofPartition (partition : String) (batches : List MessageBatch) : List MessageBatch :=
  batches.filter (·.partition = partition)

theorem of_partition_same {partition : String} {batch : MessageBatch}
    (h : batch.partition = partition) (batches : List MessageBatch) :
    ofPartition partition (batches ++ [batch]) = ofPartition partition batches ++ [batch] := by
  simp [ofPartition, h]

theorem of_partition_other {partition : String} {batch : MessageBatch}
    (h : batch.partition ≠ partition) (batches : List MessageBatch) :
    ofPartition partition (batches ++ [batch]) = ofPartition partition batches := by
  simp [ofPartition, h]

/-- A receiver reads its partition from the start position of that partition, and of what it pushes
nothing is lost until it is popped. -/
structure Lane (stream : String) (startOf : String → StartPosition) (transport : Transport)
    (popped : List MessageBatch) (receiver : Receiver) (stock : Stock) : Prop where
  client : receiver.client =
    ⟨stream, stock.partition, startOf stock.partition, receiver.client.position⟩
  flow : ∃ pushed, receiver.Feeds (transport.events stream stock.partition) pushed ∧
    stock.Passes pushed (ofPartition stock.partition popped)

namespace Lane

variable {stream : String} {startOf : String → StartPosition} {transport next : Transport}
  {popped : List MessageBatch} {receiver : Receiver} {stock : Stock}

/-- What has been pushed is the beginning of what can be decoded. -/
theorem pushed_begins {events : List RawEvent} {pushed : List MessageBatch}
    (h : Lane stream startOf transport popped receiver stock)
    (hfeeds : receiver.Feeds events pushed) :
    pushed <+: Wire.decoded (events.filter (startOf stock.partition).admits) := by
  have hbegins := hfeeds.conserved.begins
  rwa [h.client] at hbegins

/-- What has been popped of a partition is the beginning of what can be decoded of it. -/
theorem begins (h : Lane stream startOf transport popped receiver stock) :
    ofPartition stock.partition popped <+: Wire.decoded
      ((transport.events stream stock.partition).filter (startOf stock.partition).admits) := by
  obtain ⟨pushed, hfeeds, hstock⟩ := h.flow
  exact hstock.begins.trans (h.pushed_begins hfeeds)

/-- The batches in stock bear the name of the partition. -/
theorem partition_of_mem (h : Lane stream startOf transport popped receiver stock)
    (hlabelled : transport.Labelled) {batch : MessageBatch} (hbatch : batch ∈ stock.batches) :
    batch.partition = stock.partition := by
  obtain ⟨pushed, hfeeds, hstock⟩ := h.flow
  have hdecoded := (h.pushed_begins hfeeds).subset (hstock.mem_input hbatch)
  refine Wire.decoded_partition ?_ hdecoded
  intro event hevent
  exact hlabelled stream stock.partition event (List.mem_filter.mp hevent).1

theorem step (h : Lane stream startOf transport popped receiver stock)
    (hstep : transport.Step next) : Lane stream startOf next popped receiver stock where
  client := h.client
  flow := by
    obtain ⟨pushed, hfeeds, hstock⟩ := h.flow
    obtain ⟨added, hevents, -⟩ := Transport.step_events hstep stream stock.partition
    rw [hevents]
    exact ⟨pushed, hfeeds.grow added, hstock⟩

theorem congr (h : Lane stream startOf transport popped receiver stock)
    (hevents : ∀ stream partition,
      next.events stream partition = transport.events stream partition) :
    Lane stream startOf next popped receiver stock where
  client := h.client
  flow := by
    rw [hevents]
    exact h.flow

theorem finish (h : Lane stream startOf transport popped receiver stock)
    (result : Except Failure Unit) :
    Lane stream startOf transport popped { receiver with control := .finished result } stock where
  client := h.client
  flow := by
    obtain ⟨pushed, hfeeds, hstock⟩ := h.flow
    exact ⟨pushed, hfeeds.finish result, hstock⟩

/-- A move of the receiver keeps its lane. -/
theorem receive {view : Receiver.View} {after : Receiver × Receiver.View}
    (h : Lane stream startOf view.transport popped receiver view.source.stock)
    (hmove : receiver.Move view after) :
    Lane stream startOf after.2.transport popped after.1 after.2.source.stock := by
  obtain ⟨pushed, hfeeds, hstock⟩ := h.flow
  have hstream : receiver.client.stream = stream := by rw [h.client]
  have hpartition : receiver.client.partition = view.source.stock.partition := by rw [h.client]
  rw [← hstream, ← hpartition] at hfeeds
  obtain ⟨after_pushed, hafter, hpassed⟩ := hmove.feeds hfeeds hstock
  refine ⟨?_, after_pushed, ?_, ?_⟩
  · rw [hmove.partition, hmove.client, h.client]
  · rwa [hmove.events, hmove.partition, ← hstream, ← hpartition]
  · rwa [hmove.partition]

/-- The batch in front is popped. -/
theorem pop {batch : MessageBatch} {rest : List MessageBatch} {readable : Bool}
    {partition : String}
    (h : Lane stream startOf transport popped receiver ⟨partition, batch :: rest, readable⟩)
    (hlabelled : transport.Labelled) :
    Lane stream startOf transport (popped ++ [batch]) receiver ⟨partition, rest, readable⟩ where
  client := h.client
  flow := by
    have hpartition : batch.partition = partition :=
      h.partition_of_mem hlabelled List.mem_cons_self
    obtain ⟨pushed, hfeeds, hstock⟩ := h.flow
    refine ⟨pushed, hfeeds, ?_⟩
    show Conserved pushed rest (ofPartition partition (popped ++ [batch])) _
    rw [of_partition_same hpartition]
    exact hstock.give [batch]

/-- A batch of another partition is popped. -/
theorem pass {batch : MessageBatch} (h : Lane stream startOf transport popped receiver stock)
    (hother : batch.partition ≠ stock.partition) :
    Lane stream startOf transport (popped ++ [batch]) receiver stock where
  client := h.client
  flow := by
    rw [of_partition_other hother]
    exact h.flow

/-- The merge goes, and what is in stock with it. -/
theorem drop (h : Lane stream startOf transport popped receiver stock) :
    Lane stream startOf transport popped receiver ⟨stock.partition, [], false⟩ where
  client := h.client
  flow := by
    obtain ⟨pushed, hfeeds, hstock⟩ := h.flow
    exact ⟨pushed, hfeeds, .stopped hstock.begins Bool.false_ne_true⟩

end Lane

end WindowJoin

import WindowJoin.Proofs.Pipeline.Opened
import WindowJoin.Proofs.Pipeline.Order

/-!
# What the consumer receives

In every world that comes about from the start of a pipeline the stages fit together
(`reachable_in_order`). Hence the joined batches of a partition that the consumer has received are
those of the beginning of its log, in order and each once (`delivered_in_order`), whatever order the
steps were taken in and whatever failed, was cancelled or broke off on the way.
-/

namespace WindowJoin

/-- The joined batch stands at the position of the event, counts the records of the event, and its
groups start with the messages of the event, in order. -/
structure RawEvent.DeliveredAs (event : RawEvent) (joined : JoinedBatch) : Prop where
  offset : joined.offset = event.offset
  sequenceNumber : joined.sequenceNumber = event.sequenceNumber
  partition : joined.partition = event.partition
  enqueuedTime : joined.enqueuedTime = event.enqueuedTime
  content : ∃ batch, Wire.decodeBatch event = .ok batch ∧ joined.eventCount = batch.eventCount ∧
    joined.groups.map List.head? = batch.messages.map some

namespace Wire

/-- Whether an event can be decoded. -/
def decodes (event : RawEvent) : Bool :=
  (decodeBatch event).isOk

/-- What carries the batch of an event delivers the event. -/
theorem delivered_as_of_carried {event : RawEvent} {batch : MessageBatch} {joined : JoinedBatch}
    (hdecoded : decodeBatch event = .ok batch) (hcarried : batch.CarriedBy joined) :
    event.DeliveredAs joined := by
  have hcontent : ∃ batch, decodeBatch event = .ok batch ∧ joined.eventCount = batch.eventCount ∧
      joined.groups.map List.head? = batch.messages.map some :=
    ⟨batch, hdecoded, hcarried.eventCount, hcarried.heads⟩
  obtain ⟨content, rfl⟩ := decode_batch_position hdecoded
  exact ⟨hcarried.offset, hcarried.sequenceNumber, hcarried.partition, hcarried.enqueuedTime,
    hcontent⟩

/-- What carries the first batches in events delivers the first events that can be decoded. -/
theorem delivered_of_decoded {events : List RawEvent} {count : Nat} {joined : List JoinedBatch}
    (h : ((decoded events).take count).Forall₂ MessageBatch.CarriedBy joined) :
    ((events.filter decodes).take count).Forall₂ RawEvent.DeliveredAs joined := by
  induction events generalizing count joined with
  | nil =>
      rw [decoded, List.filterMap_nil, List.take_nil] at h
      rw [List.filter_nil, List.take_nil, List.forall₂_nil_left_iff.mp h]
      exact .nil
  | cons event rest ih =>
      cases hresult : decodeBatch event with
      | error error =>
          rw [decoded, List.filterMap_cons_none (by rw [hresult]; rfl)] at h
          rw [List.filter_cons_of_neg (by simp [decodes, hresult, Except.isOk, Except.toBool])]
          exact ih h
      | ok batch =>
          rw [decoded, List.filterMap_cons_some (by rw [hresult]; rfl)] at h
          rw [List.filter_cons_of_pos (by simp [decodes, hresult, Except.isOk, Except.toBool])]
          cases count with
          | zero =>
              rw [List.take_zero] at h ⊢
              rw [List.forall₂_nil_left_iff.mp h]
              exact .nil
          | succ count =>
              rw [List.take_succ_cons] at h ⊢
              cases h with
              | cons hcarried hrest =>
                  exact .cons (delivered_as_of_carried hresult hcarried) (ih hrest)

end Wire

/-- The batches of one partition are carried by the joined batches of that partition. -/
theorem carried_of_partition {batches : List MessageBatch} {joined : List JoinedBatch}
    (h : batches.Forall₂ MessageBatch.CarriedBy joined) (partition : String) :
    (ofPartition partition batches).Forall₂ MessageBatch.CarriedBy
      (joined.filter (·.partition = partition)) := by
  induction h with
  | nil => exact .nil
  | @cons batch other _ _ hcarried _ ih =>
      by_cases hpartition : batch.partition = partition
      · have hother : other.partition = partition := hcarried.partition.trans hpartition
        rw [ofPartition, List.filter_cons_of_pos (by simpa using hpartition),
          List.filter_cons_of_pos (by simpa using hother)]
        exact .cons hcarried ih
      · have hother : other.partition ≠ partition := fun heq =>
          hpartition (hcarried.partition.symm.trans heq)
        rw [ofPartition, List.filter_cons_of_neg (by simpa using hpartition),
          List.filter_cons_of_neg (by simpa using hother)]
        exact ih

namespace Pipeline

variable {stream : String} {startOf : String → StartPosition} {pipeline : Pipeline} {view : View}
  {delivered : List JoinOutput} {past : Histories}

/-- The joined batches that have been received carry the first batches that were popped. -/
theorem Orderly.delivered_carries (h : Orderly stream startOf pipeline view delivered past) :
    ∃ batches, batches <+: past.popped ∧
      batches.Forall₂ MessageBatch.CarriedBy (joinedOf delivered) := by
  obtain ⟨come, hcarried, hconserved⟩ := h.joins
  have hgiven : delivered <+: past.given := by
    have hforwards := h.forwards
    unfold Forwards at hforwards
    split at hforwards
    next =>
      obtain ⟨forwarded, hfanned, houtputs⟩ := hforwards
      exact houtputs.begins.trans hfanned.begins
    next => exact hforwards ▸ List.prefix_rfl
  have hcome : delivered <+: come := hgiven.trans (h.gives.begins.trans hconserved.begins)
  have hjoined : joinedOf delivered <+: joinedOf come ++ pipeline.join.join.batches :=
    (hcome.filterMap _).trans (List.prefix_append ..)
  refine ⟨past.taken.take (joinedOf delivered).length, ?_, ?_⟩
  · exact (List.take_prefix ..).trans (h.sends.passes.begins.trans h.sends.conserved.begins)
  · -- What has been received is the beginning of what has come out or is still open.
    have htaken := List.forall₂_take (joinedOf delivered).length hcarried
    rwa [← List.prefix_iff_eq_take.mp hjoined] at htaken

/-- The joined batches of a partition that have been received are those of the first events of
the partition that are admitted and can be decoded. -/
theorem Orderly.delivered_of_partition (h : Orderly stream startOf pipeline view delivered past)
    (partition : String) :
    let events := view.transport.events stream partition
    let received := (joinedOf delivered).filter (·.partition = partition)
    (((events.filter (startOf partition).admits).filter Wire.decodes).take
      received.length).Forall₂ RawEvent.DeliveredAs received := by
  intro events received
  obtain ⟨batches, hpopped, hcarried⟩ := h.delivered_carries
  have hpartition := carried_of_partition hcarried partition
  have hbegins : ofPartition partition batches <+:
      Wire.decoded (events.filter (startOf partition).admits) :=
    (hpopped.filter _).trans (h.lanes.begins partition)
  have htake := List.prefix_iff_eq_take.mp hbegins
  rw [hpartition.length_eq] at htake
  rw [htake] at hpartition
  exact Wire.delivered_of_decoded hpartition

/-- What the consumer does with the outputs keeps the stages fitting together. -/
theorem Orderly.consume (h : Orderly stream startOf pipeline view delivered past)
    (outputs : Channel JoinOutput) (items : List JoinOutput)
    (houtputs : ∀ sent received, view.outputs.Passes sent received →
      outputs.Passes sent (received ++ items)) :
    InOrder stream startOf pipeline { view with outputs } (delivered ++ items) := by
  have hgives := h.gives
  have hforwards := h.forwards
  by_cases hbilled : pipeline.settings.billed = true
  · rw [joinOutput, if_pos hbilled] at hgives
    rw [Forwards, if_pos hbilled] at hforwards
    obtain ⟨forwarded, hconserved, hpasses⟩ := hforwards
    refine ⟨past, { h with gives := ?_, forwards := ?_ }⟩
    · rw [joinOutput, if_pos hbilled]
      exact hgives
    · rw [Forwards, if_pos hbilled]
      exact ⟨forwarded, hconserved, houtputs _ _ hpasses⟩
  · rw [joinOutput, if_neg hbilled] at hgives
    rw [Forwards, if_neg hbilled] at hforwards
    -- Without a fan-out the consumer receives from the join itself.
    refine ⟨{ past with given := past.given ++ items }, { h with gives := ?_, forwards := ?_ }⟩
    · rw [joinOutput, if_neg hbilled]
      exact houtputs _ _ hgives
    · rw [Forwards, if_neg hbilled, hforwards]

/-- A pipeline at the beginning has taken nothing in. -/
theorem start_in_order {settings : Settings} {checkpoint : Option JoinCheckpoint} {capacity : Nat}
    (hlabelled : view.transport.Labelled) (houtputs : view.outputs = .new capacity)
    (h : Pipeline.start settings checkpoint view = .ok pipeline) :
    InOrder settings.config.interactionStream
      (interactionStart checkpoint (settings.config.warmStart.getD view.wall)) pipeline view
      [] := by
  unfold Pipeline.start at h
  obtain ⟨opened, hopened, h⟩ := except_bind_ok h
  obtain ⟨hlanes, hmerge, hmerged⟩ := open_streams_lanes hopened
  have hsends : Merge.Sends opened.interactions.merge opened.interactions.merged [] [] [] := by
    rw [hmerge, hmerged]
    exact ⟨.start _, Channel.passes_new _⟩
  have hpasses : view.outputs.Passes [] [] := houtputs ▸ Channel.passes_new capacity
  have hjoins := JoinRun.start_joins opened.join view.now view.wall
  refine ⟨⟨[], [], [], [], []⟩, ?_⟩
  by_cases hbilled : settings.billed = true
  · simp only [if_pos hbilled] at h
    obtain rfl := Except.ok.inj h
    refine ⟨hlabelled, hlanes, hsends, hjoins, ?_, ?_, fun _ => ⟨hmerge, rfl, rfl⟩⟩
    · rw [joinOutput, if_pos hbilled]
      exact Channel.passes_new _
    · rw [Forwards, if_pos hbilled]
      exact ⟨[], .start _, hpasses⟩
  · simp only [if_neg hbilled] at h
    obtain rfl := Except.ok.inj h
    refine Orderly.launch ⟨hlabelled, hlanes, hsends, hjoins, ?_, ?_, fun _ => ⟨hmerge, rfl, rfl⟩⟩
      (by simp) view
    · rw [joinOutput, if_neg hbilled]
      exact hpasses
    · rw [Forwards, if_neg hbilled]

end Pipeline

namespace World

variable {stream : String} {startOf : String → StartPosition} {world next : World}
  {settings : Pipeline.Settings} {checkpoint : Option JoinCheckpoint} {view : Pipeline.View}
  {capacity : Nat}

/-- The stages of the pipeline of a world fit together. -/
def InOrder (stream : String) (startOf : String → StartPosition) (world : World) : Prop :=
  world.pipeline.InOrder stream startOf world.view world.delivered

/-- Whatever happens next, the stages still fit together. -/
theorem step_in_order (h : world.InOrder stream startOf) (hstep : world.Step next) :
    next.InOrder stream startOf := by
  obtain ⟨past, h⟩ := h
  cases hstep with
  | run hnext => exact Pipeline.transitions_orderly h hnext
  | crash hcrash => exact Pipeline.crash_orderly h hcrash
  | @receive item outputs hreceive =>
      exact h.consume outputs [item] fun _ _ hpasses => hpasses.receive hreceive
  | refuse =>
      have hconsumed := h.consume world.view.outputs.refuse [] fun _ _ hpasses => by
        rw [List.append_nil]
        exact hpasses.refuse
      rwa [List.append_nil] at hconsumed
  | leave =>
      have hconsumed := h.consume world.view.outputs.dropReceiver [] fun _ _ hpasses => by
        rw [List.append_nil]
        exact hpasses.drop_receiver
      rwa [List.append_nil] at hconsumed
  | transport htransport =>
      exact ⟨past, { h with
        labelled := Transport.step_labelled htransport h.labelled
        lanes := h.lanes.step htransport }⟩
  | outside =>
      exact ⟨past, { h with }⟩

/-- In every world that comes about the stages fit together. -/
theorem reachable_in_order (hbuilt : view.transport.Built) (houtputs : view.outputs = .new capacity)
    (h : Reachable settings checkpoint view world) :
    world.InOrder settings.config.interactionStream
      (interactionStart checkpoint (settings.config.warmStart.getD view.wall)) := by
  induction h with
  | start hstart =>
      exact Pipeline.start_in_order (Transport.built_labelled hbuilt) houtputs hstart
  | step _ hstep ih => exact step_in_order ih hstep

/-- Of each partition of the interactions, the joined batches that the consumer has received so far
are those of the first events that its start position admits and that can be decoded, one by one in
the order of the log. -/
theorem delivered_in_order (hbuilt : view.transport.Built) (houtputs : view.outputs = .new capacity)
    (h : Reachable settings checkpoint view world) (partition : String) :
    let fallback := settings.config.warmStart.getD view.wall
    let start := interactionStart checkpoint fallback partition
    let events := world.view.transport.events settings.config.interactionStream partition
    let received := (joinedOf world.delivered).filter (·.partition = partition)
    (((events.filter start.admits).filter Wire.decodes).take received.length).Forall₂
      RawEvent.DeliveredAs received := by
  obtain ⟨past, horderly⟩ := reachable_in_order hbuilt houtputs h
  exact horderly.delivered_of_partition partition

/-- The body of an event with one message. -/
def sampleBody : List UInt8 :=
  [0, 0, 0, 1, 0, 0, 0, 31, 1, 0, 0, 0, 0, 0, 0, 0, 0, 128, 0, 0, 0, 0, 0, 0, 0, 0, 3, 97, 112, 112,
    0, 2, 101, 49, 0, 0, 0, 1, 1]

/-- Each stream has one partition. The interactions are an event that cannot be decoded and one with
a message; then both streams are complete. -/
def sampleTransport : Transport :=
  ((((Transport.empty.addStream "interaction" 1).addStream "observation" 1).append "interaction" "0"
    .epoch []).append "interaction" "0" .epoch sampleBody).closeStream "interaction"
    |>.closeStream "observation"

def sampleView : Pipeline.View where
  transport := sampleTransport
  blobs := ⟨.empty, []⟩
  reporter := .empty
  outputs := .new 64
  commands := .new 1
  replies := []
  cancelled := false
  now := 0
  wall := .epoch

def sampleSettings : Pipeline.Settings :=
  ⟨{}, .standard, .standard, false⟩

/-- The first transition is taken until a joined batch has come out, and that is received. -/
def sampleRun? : Option World :=
  (Pipeline.start sampleSettings none sampleView).toOption.bind fun pipeline =>
    run? (List.replicate 43 (.transition 0) ++ [.receive]) ⟨pipeline, sampleView, []⟩

theorem sample_built : sampleTransport.Built := by
  have hempty : Transport.empty.Built := .refl
  have hstreams := (hempty.step (.addStream "interaction" 1 rfl)).step
    (.addStream "observation" 1 (by decide +kernel))
  have hevents := (hstreams.step (.append "interaction" "0" .epoch [])).step
    (.append "interaction" "0" .epoch sampleBody)
  exact (hevents.step (.closeStream "interaction")).step (.closeStream "observation")

theorem sample_reachable {world : World} (h : sampleRun? = some world) :
    Reachable sampleSettings none sampleView world :=
  reachable_of_start h

/-- The event that cannot be decoded is left out, and the other one is delivered. -/
theorem delivered_in_order_sample :
    ∃ world, Reachable sampleSettings none sampleView world ∧
      let events := world.view.transport.events "interaction" "0"
      let received := (joinedOf world.delivered).filter (·.partition = "0")
      events.length = 2 ∧ received.map (·.sequenceNumber) = [1] ∧
        (((events.filter (interactionStart none .epoch "0").admits).filter Wire.decodes).take
          received.length).Forall₂ RawEvent.DeliveredAs received := by
  have hsome : sampleRun?.isSome = true := by decide +kernel
  obtain ⟨world, hworld⟩ := Option.isSome_iff_exists.mp hsome
  have hevents : sampleRun?.map (fun world =>
      (world.view.transport.events "interaction" "0").length) = some 2 := by decide +kernel
  have hreceived : sampleRun?.map (fun world =>
      ((joinedOf world.delivered).filter (·.partition = "0")).map (·.sequenceNumber)) =
      some [1] := by decide +kernel
  rw [hworld] at hevents hreceived
  refine ⟨world, sample_reachable hworld, Option.some.inj hevents, Option.some.inj hreceived, ?_⟩
  exact delivered_in_order sample_built rfl (sample_reachable hworld) "0"

end World

end WindowJoin

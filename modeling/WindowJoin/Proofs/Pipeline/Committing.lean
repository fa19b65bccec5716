import WindowJoin.Proofs.Checkpoint.Commits
import WindowJoin.Proofs.Pipeline.Delivery
import WindowJoin.Proofs.Pipeline.Downstream

/-!
# What is committed and what is billed

A consumer commits joined batches that it has received, and nothing else writes checkpoints
(`World.Committing.Step`). Then every event up to the offset in the stored join checkpoint has been
delivered in a joined batch of which billing has the record (`World.Committing.committed_accounted`):
the stored billing checkpoint covers it, or it is counted or on its way to billing, or billing has
ended. Whenever billing has nothing left to do, that comes to the first of these (`Pipeline.Holds.billed`).
Only the first outlives a crash, and the join checkpoint does not wait for it
(`World.Committing.committed_unbilled`).
-/

namespace WindowJoin

/-- The sequence numbers of the events increase strictly, from 0 on. -/
def Numbered (events : List RawEvent) : Prop :=
  events.Pairwise (fun first second => first.sequenceNumber < second.sequenceNumber) ∧
    ∀ event ∈ events, -1 < event.sequenceNumber

theorem exists_of_forall₂_left {α β : Type} {rel : α → β → Prop} {items : List α}
    {others : List β} (h : items.Forall₂ rel others) {item : α} (hitem : item ∈ items) :
    ∃ other ∈ others, rel item other := by
  induction h with
  | nil => cases hitem
  | cons hrel _ ih =>
      rcases List.mem_cons.mp hitem with rfl | hitem
      · exact ⟨_, List.mem_cons_self, hrel⟩
      · obtain ⟨other, hother, hrel⟩ := ih hitem
        exact ⟨other, List.mem_cons_of_mem _ hother, hrel⟩

/-- What is in order on one side is in order on the other. -/
theorem pairwise_of_forall₂ {α β : Type} {rel : α → β → Prop} {before : α → α → Prop}
    {after : β → β → Prop} (hrel : ∀ {first second first' second'}, rel first first' →
      rel second second' → before first second → after first' second')
    {items : List α} {others : List β} (h : items.Forall₂ rel others)
    (hitems : items.Pairwise before) : others.Pairwise after := by
  induction h with
  | nil => exact .nil
  | @cons item other items others hfirst hrest ih =>
      obtain ⟨hbefore, hitems⟩ := List.pairwise_cons.mp hitems
      refine .cons (fun last hlast => ?_) (ih hitems)
      obtain ⟨found, hfound, hlast⟩ := exists_of_forall₂_left hrest.flip hlast
      exact hrel hfirst hlast (hbefore found hfound)

theorem mem_joined_of {items : List JoinOutput} {batch : JoinedBatch} :
    batch ∈ joinedOf items ↔ .joined batch ∈ items := by
  rw [joinedOf, List.mem_filterMap]
  constructor
  · rintro ⟨item, hitem, hjoined⟩
    cases item with
    | joined other =>
        obtain rfl := Option.some.inj hjoined
        exact hitem
    | orphan observation => cases hjoined
  · exact fun hitem => ⟨_, hitem, rfl⟩

/-- The records of joined batches are in the order of the batches. -/
theorem FanOut.records_of_eq (items : List JoinOutput) :
    FanOut.recordsOf items = (joinedOf items).map JoinedBatch.billingRecord := by
  rw [FanOut.recordsOf, joinedOf, List.map_filterMap]
  refine List.filterMap_congr fun item _ => ?_
  cases item <;> rfl

/-- If the joined batches of a partition deliver the first of these events, in order, then one of them
delivers each event that is not behind another of them. -/
theorem delivered_up_to {events : List RawEvent} {received : List JoinedBatch}
    (h : (events.take received.length).Forall₂ RawEvent.DeliveredAs received)
    (hincreasing : Increasing events) {last : JoinedBatch} (hlast : last ∈ received)
    {event : RawEvent} (hevent : event ∈ events) (hle : event.offset ≤ last.offset) :
    ∃ batch ∈ received, event.DeliveredAs batch := by
  rw [← List.take_append_drop received.length events] at hevent hincreasing
  rcases List.mem_append.mp hevent with htaken | hbehind
  · exact exists_of_forall₂_left h htaken
  · -- An event that is left lies behind the one of the last batch.
    obtain ⟨other, hother, hdelivered⟩ := exists_of_forall₂_left h.flip hlast
    have hless := (List.pairwise_append.mp hincreasing).2.2 other hother event hbehind
    have hoffset : last.offset = other.offset := hdelivered.offset
    rw [hoffset] at hle
    exact absurd hless (Int64.not_lt.mpr hle)

/-- The records of a partition have increasing numbers if its joined batches deliver the first of the
events of a numbered log. -/
theorem numbers_before {events : List RawEvent} {batches : List JoinedBatch} {partition : String}
    (h : (events.take (batches.filter (·.partition = partition)).length).Forall₂
      RawEvent.DeliveredAs (batches.filter (·.partition = partition)))
    (hnumbered : Numbered events) {batch : JoinedBatch} {before after : List JoinedBatch}
    (hbatches : batches = before ++ batch :: after) (hpartition : batch.partition = partition) :
    -1 < batch.sequenceNumber ∧ ∀ other ∈ before, other.partition = batch.partition →
      other.sequenceNumber < batch.sequenceNumber := by
  subst hpartition
  have hfilter : batches.filter (·.partition = batch.partition) =
      before.filter (·.partition = batch.partition) ++
        batch :: after.filter (·.partition = batch.partition) := by
    rw [hbatches, List.filter_append, List.filter_cons_of_pos (by simp)]
  rw [hfilter] at h
  constructor
  · obtain ⟨event, hevent, hdelivered⟩ :=
      exists_of_forall₂_left h.flip (List.mem_append_right _ List.mem_cons_self)
    have hnumber : batch.sequenceNumber = event.sequenceNumber := hdelivered.sequenceNumber
    rw [hnumber]
    exact hnumbered.2 event (List.mem_of_mem_take hevent)
  · intro other hother hsame
    have hordered : (before.filter (·.partition = batch.partition) ++
        batch :: after.filter (·.partition = batch.partition)).Pairwise
          fun first second => first.sequenceNumber < second.sequenceNumber := by
      refine pairwise_of_forall₂ (fun hfirst hsecond hless => ?_) h
        (hnumbered.1.sublist (List.take_sublist _ _))
      rw [hfirst.sequenceNumber, hsecond.sequenceNumber]
      exact hless
    refine (List.pairwise_append.mp hordered).2.2 other ?_ batch List.mem_cons_self
    exact List.mem_filter.mpr ⟨hother, by simpa using hsame⟩

namespace Pipeline

/-- Where the record of a joined batch is: the stored checkpoint of billing covers it, it is counted
and not reported yet, it is on its way to billing, or billing has ended. -/
inductive Holds (stored : BillingCheckpoint) (counted : List BillingRecord) (pipeline : Pipeline)
    (record : BillingRecord) : Prop where
  | stored : stored.Covers record → Holds stored counted pipeline record
  | counted : record ∈ counted → Holds stored counted pipeline record
  | queued : record ∈ pipeline.records.queue.flatten → Holds stored counted pipeline record
  | ended : pipeline.billing.isFinished = true → Holds stored counted pipeline record

variable {settings : Settings} {pipeline : Pipeline} {view : View} {delivered : List JoinOutput}
  {units : List (List BillingRecord)} {counted : List BillingRecord}

/-- When billing works, has no list waiting and no events to report, a record is covered or bills no
events. -/
theorem Holds.billed {stored : BillingCheckpoint} {record : BillingRecord}
    (h : Holds stored counted pipeline record) (hworks : pipeline.billing.isFinished = false)
    (hqueue : pipeline.records.queue = []) (hcounted : totalEvents counted = 0) :
    stored.Covers record ∨ record.eventCount = 0 := by
  cases h with
  | stored hcovers => exact .inl hcovers
  | counted hmem =>
      refine .inr (List.sum_eq_zero_iff_forall_eq_nat.mp hcounted _ ?_)
      exact List.mem_map_of_mem hmem
  | queued hmem =>
      rw [hqueue] at hmem
      cases hmem
  | ended hended =>
      rw [hworks] at hended
      cases hended

/-- What the consumer has received, billing has been handed before. -/
theorem Downstream.holds (h : Downstream settings pipeline view delivered units counted)
    {batch : JoinedBatch} {before after : List JoinedBatch}
    (hdelivered : joinedOf delivered = before ++ batch :: after)
    (hnumber : -1 < batch.sequenceNumber) (hbefore : ∀ other ∈ before,
      other.partition = batch.partition → other.sequenceNumber < batch.sequenceNumber) :
    Holds (settings.billing.stored view.blobs) counted pipeline batch.billingRecord := by
  cases hended : pipeline.billing.isFinished with
  | true => exact .ended hended
  | false =>
      obtain ⟨handed, forwarded, hrecords, hconserved, houtput⟩ := h.hands
      have hsent : FanOut.recordsOf delivered <+: handed.flatten :=
        (houtput.begins.filterMap _).trans hconserved.begins
      -- As long as billing works, nothing on the way to it is lost.
      obtain ⟨lost, hhanded, hnone⟩ := hrecords
      rw [hnone (h.listens hended), List.append_nil] at hhanded
      obtain ⟨further, hfurther⟩ := hsent
      rw [FanOut.records_of_eq, hdelivered, hhanded, List.map_append, List.map_cons,
        List.flatten_append, List.append_assoc, List.cons_append, eq_comm,
        List.append_eq_append_iff] at hfurther
      rcases hfurther with ⟨later, hbehind, hqueue⟩ | ⟨later, htaken, hqueue⟩
      · refine .queued ?_
        rw [hqueue]
        exact List.mem_append_right _ List.mem_cons_self
      · cases later with
        | nil =>
            refine .queued ?_
            rw [List.nil_append] at hqueue
            rw [← hqueue]
            exact List.mem_cons_self
        | cons first rest =>
            obtain ⟨rfl, -⟩ := List.cons.inj hqueue
            have hrecords : ∀ other ∈ before.map JoinedBatch.billingRecord,
                other.partition = batch.partition →
                other.sequenceNumber < batch.sequenceNumber := by
              intro other hother hsame
              obtain ⟨joined, hjoined, rfl⟩ := List.mem_map.mp hother
              exact hbefore joined hjoined hsame
            rcases h.accounts.accounted htaken hnumber hrecords with hstored | hcounted
            · exact .stored hstored
            · exact .counted hcounted

end Pipeline

namespace World

/-- A world at the start of a pipeline with no checkpoint stored and no command sent. -/
structure Fresh (settings : Pipeline.Settings) (view : Pipeline.View) : Prop where
  built : view.transport.Built
  outputs : ∃ capacity, view.outputs = .new capacity
  commands : view.commands.queue = []
  join : view.blobs.store.get? settings.config.checkpointBlobName = none
  billing : view.blobs.store.get? settings.config.billingBlobName = none

namespace Committing

/-- What may happen next if the consumer commits only what it has received and no other hand writes
into the stores. Reads and writes may fail at any time. -/
inductive Step (world : World) : World → Prop where
  | run {pipeline : Pipeline} {view : Pipeline.View} :
      (pipeline, view) ∈ world.pipeline.transitions world.view →
      Step world ⟨pipeline, view, world.delivered⟩
  | crash {pipeline : Pipeline} {view : Pipeline.View} :
      world.pipeline.Crash world.view (pipeline, view) →
      Step world ⟨pipeline, view, world.delivered⟩
  | receive {item : JoinOutput} {outputs : Channel JoinOutput} :
      world.view.outputs.receive = .item item outputs →
      Step world { world with
        view := { world.view with outputs }, delivered := world.delivered ++ [item] }
  | refuse : Step world { world with
      view := { world.view with outputs := world.view.outputs.refuse } }
  | leave : Step world { world with
      view := { world.view with outputs := world.view.outputs.dropReceiver } }
  | transport {transport : Transport} : world.view.transport.Step transport →
      Step world { world with view := { world.view with transport } }
  /-- The consumer commits a joined batch that it has received. -/
  | commit {batch : JoinedBatch} {commands : Channel Checkpointer.Command} :
      .joined batch ∈ world.delivered →
      world.view.commands.send (.commitBatch batch) = .sent commands →
      Step world { world with view := { world.view with commands } }
  /-- The consumer asks for the checkpoint to be stored. -/
  | request {command : Checkpointer.Command} {commands : Channel Checkpointer.Command} :
      command.request?.isSome = true → world.view.commands.send command = .sent commands →
      Step world { world with view := { world.view with commands } }
  /-- There will be no more commands. -/
  | hangUp : Step world { world with
      view := { world.view with commands := world.view.commands.dropSender } }
  | outside (blobs : Guarded MemoryBlobs) (reporter : UsageReporter)
      (replies : Checkpointer.Replies) (cancelled : Bool) (now : Nat) (wall : Instant) :
      (∀ name, blobs.store.get? name = world.view.blobs.store.get? name) →
      Step world { world with
        view := { world.view with blobs, reporter, replies, cancelled, now, wall } }

/-- The worlds that come about in this way from the start of a pipeline without a checkpoint. -/
inductive Reachable (settings : Pipeline.Settings) (view : Pipeline.View) : World → Prop where
  | start {pipeline : Pipeline} : Pipeline.start settings none view = .ok pipeline →
      Reachable settings view ⟨pipeline, view, []⟩
  | step {world next : World} : Reachable settings view world → Step world next →
      Reachable settings view next

variable {settings : Pipeline.Settings} {view : Pipeline.View} {world next : World}

/-- All of it may happen to a world anyway. -/
theorem Step.step (h : Step world next) : world.Step next := by
  cases h with
  | run hnext => exact .run hnext
  | crash hcrash => exact .crash hcrash
  | receive hreceive => exact .receive hreceive
  | refuse => exact .refuse
  | leave => exact .leave
  | transport htransport => exact .transport htransport
  | commit | request | hangUp =>
      exact .outside world.view.blobs world.view.reporter _ world.view.replies world.view.cancelled
        world.view.now world.view.wall
  | outside blobs reporter replies cancelled now wall hblobs =>
      exact .outside blobs reporter world.view.commands replies cancelled now wall

theorem Reachable.reachable (h : Reachable settings view world) :
    World.Reachable settings none view world := by
  induction h with
  | start hstart => exact .start hstart
  | step _ hstep ih => exact ih.step hstep.step

/-- The parts behind the join account for everything. -/
def Accounted (settings : Pipeline.Settings) (world : World) : Prop :=
  ∃ units counted, Pipeline.Downstream settings world.pipeline world.view world.delivered units
    counted

theorem step_accounted (hbilled : settings.billed = true)
    (hnames : settings.config.checkpointBlobName ≠ settings.config.billingBlobName)
    (h : Accounted settings world) (hstep : Step world next) : Accounted settings next := by
  obtain ⟨units, counted, h⟩ := h
  cases hstep with
  | run hnext => exact Pipeline.transitions_downstream hbilled hnames h hnext
  | crash hcrash => exact ⟨units, counted, Pipeline.crash_downstream hbilled h hcrash⟩
  | @receive item outputs hreceive =>
      refine ⟨units, counted, { h with
        hands := h.hands.congr (fun _ => id) fun _ hpasses => hpasses.receive hreceive
        keeps := h.keeps.mono ?_ }⟩
      rintro partition offset ⟨batch, hbatch, hposition⟩
      exact ⟨batch, List.mem_append_left _ hbatch, hposition⟩
  | refuse =>
      exact ⟨units, counted, { h with
        hands := h.hands.congr (fun _ => id) fun _ hpasses => hpasses.refuse }⟩
  | leave =>
      exact ⟨units, counted, { h with
        hands := h.hands.congr (fun _ => id) fun _ hpasses => hpasses.drop_receiver }⟩
  | transport | hangUp => exact ⟨units, counted, { h with keeps := { h.keeps with } }⟩
  | @commit batch commands hreceived hsend =>
      refine ⟨units, counted, { h with keeps := h.keeps.send hsend ?_ }⟩
      intro partition offset enqueuedTime hcommand
      cases hcommand
      exact ⟨batch, hreceived, rfl, rfl⟩
  | @request command commands hrequest hsend =>
      refine ⟨units, counted, { h with keeps := h.keeps.send hsend ?_ }⟩
      rintro partition offset enqueuedTime rfl
      cases hrequest
  | outside blobs reporter replies cancelled now wall hblobs =>
      exact ⟨units, counted, { h.congr_blobs hblobs with }⟩

theorem reachable_accounted (hbilled : settings.billed = true)
    (hnames : settings.config.checkpointBlobName ≠ settings.config.billingBlobName)
    (hfresh : Fresh settings view) (h : Reachable settings view world) :
    Accounted settings world := by
  induction h with
  | start hstart =>
      obtain ⟨capacity, houtputs⟩ := hfresh.outputs
      refine ⟨[], [], Pipeline.start_downstream hbilled houtputs hfresh.commands ?_ ?_ hstart⟩
      · exact congrArg (CheckpointStore.checkpointIn JoinCheckpoint.ofJson) hfresh.join
      · exact congrArg (CheckpointStore.checkpointIn BillingCheckpoint.ofJson) hfresh.billing
  | step _ hstep ih => exact step_accounted hbilled hnames ih hstep

/-- Whatever order things happen in and whichever reads and writes fail: every event up to the offset in
the stored join checkpoint has been delivered in a joined batch whose record the stored billing
checkpoint covers, or the record is counted and not yet reported, or on its way to billing, or billing
has ended. -/
theorem committed_accounted (hbilled : settings.billed = true)
    (hnames : settings.config.checkpointBlobName ≠ settings.config.billingBlobName)
    (hfresh : Fresh settings view) (h : Reachable settings view world) :
    ∃ counted, world.pipeline.billing.account.accumulated = totalEvents counted ∧
      ∀ partition offset,
        ((settings.checkpointer.stored world.view.blobs).progress partition).offset = some offset →
        let start := interactionStart none (settings.config.warmStart.getD view.wall) partition
        let log := world.view.transport.events settings.config.interactionStream partition
        Increasing log → Numbered log →
        ∀ event ∈ log, start.admits event = true → Wire.decodes event = true →
          event.offset ≤ offset →
          ∃ batch, .joined batch ∈ world.delivered ∧ event.DeliveredAs batch ∧
            Pipeline.Holds (settings.billing.stored world.view.blobs) counted world.pipeline
              batch.billingRecord := by
  obtain ⟨capacity, houtputs⟩ := hfresh.outputs
  obtain ⟨units, counted, hdown⟩ := reachable_accounted hbilled hnames hfresh h
  refine ⟨counted, hdown.accounts.amount, ?_⟩
  intro partition offset hstored start log hincreasing hnumbered event hevent hadmits hdecodes hle
  obtain ⟨last, hlast, hpartition, rfl⟩ := hdown.keeps.stored partition offset hstored
  obtain ⟨past, horderly⟩ := reachable_in_order hfresh.built houtputs h.reachable
  have hreceived := horderly.delivered_of_partition partition
  dsimp only at hreceived
  have hmem : event ∈ (log.filter start.admits).filter Wire.decodes :=
    List.mem_filter.mpr ⟨List.mem_filter.mpr ⟨hevent, hadmits⟩, hdecodes⟩
  have hnumbers : Numbered ((log.filter start.admits).filter Wire.decodes) :=
    ⟨(hnumbered.1.filter _).filter _, fun other hother =>
      hnumbered.2 other (List.mem_of_mem_filter (List.mem_of_mem_filter hother))⟩
  have hlastReceived : last ∈ (joinedOf world.delivered).filter (·.partition = partition) :=
    List.mem_filter.mpr ⟨mem_joined_of.mpr hlast, by simpa using hpartition⟩
  obtain ⟨batch, hbatch, hdelivered⟩ :=
    delivered_up_to hreceived ((hincreasing.filter _).filter _) hlastReceived hmem hle
  obtain ⟨hjoined, hsame⟩ := List.mem_filter.mp hbatch
  obtain ⟨before, after, hbatches⟩ := List.append_of_mem hjoined
  obtain ⟨hnumber, hbefore⟩ := numbers_before hreceived hnumbers hbatches (by simpa using hsame)
  exact ⟨batch, mem_joined_of.mp hjoined, hdelivered, hdown.holds hbatches hnumber hbefore⟩

/-! ## A checkpoint behind billing -/

/-- What a run in a chosen order leads to comes about in this way, too. -/
theorem Reachable.run {choices : List Choice} (hreachable : Reachable settings view world)
    (h : world.run? choices = some next) : Reachable settings view next := by
  induction choices generalizing world with
  | nil =>
      obtain rfl := Option.some.inj h
      exact hreachable
  | cons choice rest ih =>
      rw [run?, List.foldlM_cons] at h
      obtain ⟨between, hchoose, hrest⟩ := Option.bind_eq_some_iff.mp h
      refine ih (hreachable.step ?_) hrest
      rcases choose_cases hchoose with ⟨pipeline, view, hnext, rfl⟩ | ⟨item, outputs, hreceive, rfl⟩
      · exact .run hnext
      · exact .receive hreceive

def billedSettings : Pipeline.Settings :=
  { sampleSettings with billed := true }

/-- The first write will fail for good. -/
def fullView : Pipeline.View :=
  { sampleView with
    blobs := ⟨MemoryBlobs.empty.injectWrites [.task "full"], []⟩
    commands := .new Checkpointer.commandCapacity }

/-- The first transition is taken until billing has given up storing its checkpoint, and then the joined
batch is received. -/
def unstoredRun? : Option World :=
  (Pipeline.start billedSettings none fullView).toOption.bind fun pipeline =>
    run? (List.replicate 54 (.transition 0) ++ [.receive]) ⟨pipeline, fullView, []⟩

def sampleEvent : RawEvent :=
  ⟨1, 1, "0", .epoch, sampleBody⟩

/-- What the event is delivered as. -/
def sampleJoined : JoinedBatch :=
  ⟨1, 1, "0", .epoch, 1, [[⟨"app", "e1", .interaction, .epoch, none, [1]⟩]]⟩

/-- The consumer commits the joined batch and has the checkpoint stored. -/
def commitSample (world : World) : World :=
  { world with view := { world.view with commands :=
    ⟨Checkpointer.commandCapacity, [.commitBatch sampleJoined, .flush 0], true, true⟩ } }

/-- The keeper takes the commit in and stores the join checkpoint. -/
def unbilledRun? : Option World :=
  unstoredRun?.bind fun world => run? (List.replicate 3 (.transition 0)) (commitSample world)

def committedSample : JoinCheckpoint :=
  .ofList [("0", ⟨some 1, some .epoch⟩)]

/-- The state of affairs behind the run: the joined batch is committed and counted, and billing has
nothing stored. -/
structure Unbilled (world : World) : Prop where
  reachable : Reachable billedSettings fullView world
  blobs : world.view.blobs =
    ⟨⟨.ofList [("joiner-checkpoint.json", committedSample.toJson)], [], 1⟩, []⟩
  delivered : world.delivered = [.joined sampleJoined]
  events : world.view.transport.events "interaction" "0" =
    [⟨0, 0, "0", .epoch, []⟩, sampleEvent]
  works : world.pipeline.billing.isFinished = false

/-- The consumer may do this when the joined batch has been received and no command waits. -/
theorem Reachable.commit_sample (h : Reachable settings view world)
    (hreceived : .joined sampleJoined ∈ world.delivered)
    (hcommands : world.view.commands = .new Checkpointer.commandCapacity) :
    Reachable settings view (commitSample world) := by
  have hcommit : world.view.commands.send (.commitBatch sampleJoined) =
      .sent ⟨Checkpointer.commandCapacity, [.commitBatch sampleJoined], true, true⟩ := by
    rw [hcommands]
    rfl
  have hasked : (Checkpointer.Command.flush 0).request?.isSome = true := rfl
  exact (h.step (.commit hreceived hcommit)).step (.request hasked rfl)

theorem unbilled_world : ∃ world, Unbilled world := by
  have hsome : unbilledRun?.isSome = true := by decide +kernel
  have hdelivered : unstoredRun?.map (·.delivered) = some [.joined sampleJoined] := by
    decide +kernel
  have hcommands : unstoredRun?.map (·.view.commands) = some (.new Checkpointer.commandCapacity) := by
    decide +kernel
  have hblobs : unbilledRun?.map (·.view.blobs) =
      some ⟨⟨.ofList [("joiner-checkpoint.json", committedSample.toJson)], [], 1⟩, []⟩ := by
    decide +kernel
  have hkept : unbilledRun?.map (·.delivered) = some [.joined sampleJoined] := by decide +kernel
  have hevents : unbilledRun?.map (·.view.transport.events "interaction" "0") =
      some [⟨0, 0, "0", .epoch, []⟩, sampleEvent] := by decide +kernel
  have hworks : unbilledRun?.map (·.pipeline.billing.isFinished) = some false := by decide +kernel
  obtain ⟨world, hworld⟩ := Option.isSome_iff_exists.mp hsome
  obtain ⟨before, hbefore, hrun⟩ := Option.bind_eq_some_iff.mp hworld
  obtain ⟨pipeline, hstart, hfirst⟩ := Option.bind_eq_some_iff.mp hbefore
  have hreachable : Reachable billedSettings fullView before :=
    (Reachable.start (except_ok_of_option hstart)).run hfirst
  rw [hbefore] at hdelivered hcommands
  rw [hworld] at hblobs hkept hevents hworks
  have hall : before.delivered = [.joined sampleJoined] := Option.some.inj hdelivered
  have hreceived : .joined sampleJoined ∈ before.delivered := by
    rw [hall]
    exact List.mem_cons_self
  refine ⟨world, ?_, Option.some.inj hblobs, Option.some.inj hkept, Option.some.inj hevents,
    Option.some.inj hworks⟩
  exact (hreachable.commit_sample hreceived (Option.some.inj hcommands)).run hrun

/-- The store holds the join checkpoint of the sample, and nothing of billing. -/
theorem Unbilled.stored (h : Unbilled world) :
    billedSettings.checkpointer.stored world.view.blobs = committedSample ∧
      billedSettings.billing.stored world.view.blobs = .empty := by
  rw [h.blobs]
  constructor
  · show CheckpointStore.checkpointIn JoinCheckpoint.ofJson (some committedSample.toJson) = _
    rw [CheckpointStore.checkpointIn, join_of_json_to_json]
  · rfl

theorem fresh_full : Fresh billedSettings fullView :=
  ⟨sample_built, ⟨64, rfl⟩, rfl, rfl, rfl⟩

/-- The joined batch is committed and stored as such, while its record is only counted. -/
theorem committed_accounted_sample :
    ∃ world counted, Reachable billedSettings fullView world ∧
      world.pipeline.billing.account.accumulated = totalEvents counted ∧
      ∃ batch, .joined batch ∈ world.delivered ∧ sampleEvent.DeliveredAs batch ∧
        Pipeline.Holds (billedSettings.billing.stored world.view.blobs) counted world.pipeline
          batch.billingRecord := by
  obtain ⟨world, h⟩ := unbilled_world
  obtain ⟨counted, hamount, hholds⟩ :=
    committed_accounted rfl (by decide) fresh_full h.reachable
  have hoffset : ((billedSettings.checkpointer.stored world.view.blobs).progress "0").offset =
      some 1 := by
    rw [h.stored.1]
    rfl
  have hevent := hholds "0" 1 hoffset
  dsimp only at hevent
  rw [show billedSettings.config.interactionStream = "interaction" from rfl, h.events] at hevent
  obtain ⟨batch, hbatch, hdelivered, hholds⟩ := hevent (by unfold Increasing; decide)
    (by unfold Numbered; decide) sampleEvent (by simp) (by decide) (by decide +kernel) (by decide)
  exact ⟨world, counted, h.reachable, hamount, batch, hbatch, hdelivered, hholds⟩

/-- The stored join checkpoint has come to a joined batch with an event that the stored billing
checkpoint does not cover, while billing works. A restart does not read the event again. -/
theorem committed_unbilled :
    Fresh billedSettings fullView ∧
      ∃ world batch offset event, Reachable billedSettings fullView world ∧
        world.pipeline.billing.isFinished = false ∧
        .joined batch ∈ world.delivered ∧ batch.eventCount ≠ 0 ∧
        ((billedSettings.checkpointer.stored world.view.blobs).progress batch.partition).offset =
          some offset ∧
        batch.offset ≤ offset ∧
        ¬ (billedSettings.billing.stored world.view.blobs).Covers batch.billingRecord ∧
        event ∈ world.view.transport.events "interaction" batch.partition ∧
        event.offset = batch.offset ∧
        ∀ fallback, (interactionStart (some (billedSettings.checkpointer.stored world.view.blobs))
          fallback batch.partition).admits event = false := by
  obtain ⟨world, h⟩ := unbilled_world
  obtain ⟨hjoin, hbilling⟩ := h.stored
  refine ⟨fresh_full, world, sampleJoined, 1, sampleEvent, h.reachable, h.works, ?_, by decide, ?_,
    by decide, ?_, ?_, rfl, fun fallback => ?_⟩
  · rw [h.delivered]
    exact List.mem_cons_self
  · rw [hjoin]
    rfl
  · rw [hbilling]
    unfold BillingCheckpoint.Covers
    decide
  · show sampleEvent ∈ world.view.transport.events "interaction" "0"
    rw [h.events]
    exact List.mem_cons_of_mem _ List.mem_cons_self
  · rw [hjoin]
    rfl

end Committing

end World

end WindowJoin

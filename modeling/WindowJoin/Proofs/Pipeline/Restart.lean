import WindowJoin.Proofs.Checkpoint.RoundTrip
import WindowJoin.Proofs.Pipeline.Delivery

/-!
# A restart and the partitions without a commit

A pipeline that was started without a checkpoint is started again from the one that it has stored. A
partition that the stored checkpoint does not name begins anew. `restart_of_uncommitted`: with a
configured warm start it is read from the same time as before, and without one from the time of the
restart, so that of the events that were to be read before, exactly those that come in from then on
are still to be read.
-/

namespace WindowJoin

/-- A key with a value is among the entries. -/
theorem OrderedMap.key_mem_of_get {α : Type} {map : OrderedMap α} {key : String} {value : α}
    (h : map.get? key = some value) : key ∈ map.entries.map (·.1) := by
  obtain ⟨entries, sorted⟩ := map
  change lookup key entries = some value at h
  show key ∈ entries.map (·.1)
  clear sorted
  induction entries with
  | nil => cases h
  | cons entry rest ih =>
      rw [lookup] at h
      split at h
      next heq =>
        rw [heq]
        exact List.mem_cons_self
      next => exact List.mem_cons_of_mem _ (ih h)

namespace Pipeline

variable {settings : Settings} {checkpoint : Option JoinCheckpoint} {view : View}
  {pipeline : Pipeline}

/-- A partition that has a log is among those of its stream. -/
theorem mem_partitions_of {transport : Transport} {stream partition : String}
    {partitions : List String} (h : partitionsOf transport stream = .ok partitions)
    (hlog : (transport.log? stream partition).isSome = true) : partition ∈ partitions := by
  obtain ⟨log, hlog⟩ := Option.isSome_iff_exists.mp hlog
  obtain ⟨logs, hlogs, hlog⟩ := Option.bind_eq_some_iff.mp hlog
  unfold partitionsOf Transport.partitions at h
  rw [hlogs] at h
  dsimp only at h
  split at h
  next => cases h
  next => cases h
  next names hresult =>
    obtain rfl := Except.ok.inj h
    obtain rfl := Except.ok.inj hresult
    exact OrderedMap.key_mem_of_get hlog

/-- A pipeline at the beginning has a receiver for every partition of the interactions that has a log,
at the start position of the partition. -/
theorem start_receives (h : Pipeline.start settings checkpoint view = .ok pipeline)
    {partition : String}
    (hlog : (view.transport.log? settings.config.interactionStream partition).isSome = true) :
    ∃ receiver ∈ pipeline.interactions.receivers, receiver.client.partition = partition ∧
      receiver.client.start =
        interactionStart checkpoint (settings.config.warmStart.getD view.wall) partition := by
  unfold Pipeline.start at h
  obtain ⟨opened, hopened, h⟩ := except_bind_ok h
  obtain ⟨partitions, -, hpartitions, hside, -⟩ := open_streams_sides hopened
  obtain ⟨receivers, hreceivers, hside⟩ := except_bind_ok hside
  have hopenedReceivers : opened.interactions.receivers = receivers := by
    rw [← Except.ok.inj hside]
  have hpipeline : pipeline.interactions.receivers = receivers := by
    rw [← hopenedReceivers, ← Except.ok.inj h]
    split
    · rfl
    · rfl
  have hmem := List.mem_map_of_mem (f := fun partition : String => Receiver.start
    ⟨settings.config.interactionStream, partition,
      interactionStart checkpoint (settings.config.warmStart.getD view.wall) partition, 0⟩
    settings.receiverBackoff) (mem_partitions_of hpartitions hlog)
  rw [connect_all_eq hreceivers, List.map_map] at hpipeline
  exact ⟨_, hpipeline ▸ hmem, rfl, rfl⟩

end Pipeline

/-- The receiver at the end of a lane reads from the start position of its partition. -/
theorem Lanes.start_of_mem {stream : String} {startOf : String → StartPosition}
    {transport : Transport} {popped : List MessageBatch} {receivers : List Receiver}
    {stocks : List Stock} (h : Lanes stream startOf transport popped receivers stocks)
    {receiver : Receiver} (hmem : receiver ∈ receivers) :
    receiver.client.start = startOf receiver.client.partition := by
  obtain ⟨index, hindex⟩ := List.getElem?_of_mem hmem
  have hlt : index < stocks.length := by
    rw [← h.complete]
    exact (List.getElem?_eq_some_iff.mp hindex).1
  have hclient := (h.lane hindex (List.getElem?_eq_getElem hlt)).client
  rw [hclient]

/-- A partition without an entry is read from the fallback on. -/
theorem interaction_start_fresh {checkpoint : Option JoinCheckpoint} {partition : String}
    (h : (checkpoint.getD .empty).get? partition = none) (fallback : Instant) :
    interactionStart checkpoint fallback partition = .atTime fallback := by
  cases checkpoint with
  | none => rfl
  | some checkpoint =>
      rw [Option.getD_some] at h
      rw [interactionStart, Option.bind_some, h]

namespace World

/-- Let a pipeline that was started without a checkpoint have come to any state, and let it be started
again with the checkpoint that is stored then. A partition of the interactions that still has its log
and that the stored checkpoint does not name has a receiver again. Of the events that this partition
was to be read for before, the new receiver is to read all if there is a configured warm start, and
otherwise exactly those that come in at the time of the restart or later. -/
theorem restart_of_uncommitted {settings : Pipeline.Settings} {view : Pipeline.View}
    {capacity : Nat} {world : World} (hbuilt : view.transport.Built)
    (houtputs : view.outputs = .new capacity) (hrun : Reachable settings none view world)
    {checkpoint : Option JoinCheckpoint}
    (hload : (settings.loadCheckpoint (Guarded.access MemoryBlobs.access)
      world.view.blobs).result = .ok checkpoint)
    {restart : Pipeline.View} {second : Pipeline}
    (hrestart : Pipeline.start settings checkpoint restart = .ok second)
    {before : Receiver} (hbefore : before ∈ world.pipeline.interactions.receivers)
    (hlog : (restart.transport.log? settings.config.interactionStream
      before.client.partition).isSome = true)
    (huncommitted : (CheckpointStore.checkpointIn JoinCheckpoint.ofJson
      (world.view.blobs.store.get? settings.config.checkpointBlobName)).get?
        before.client.partition = none) :
    ∃ after ∈ second.interactions.receivers, after.client.partition = before.client.partition ∧
      ∀ event : RawEvent, before.client.start.admits event = true →
        (after.client.start.admits event = true ↔
          settings.config.warmStart.isSome = true ∨ restart.wall ≤ event.enqueuedTime) := by
  obtain ⟨past, horderly⟩ := reachable_in_order hbuilt houtputs hrun
  have hfirst : before.client.start = .atTime (settings.config.warmStart.getD view.wall) :=
    (horderly.lanes.start_of_mem hbefore).trans (interaction_start_fresh rfl _)
  obtain ⟨after, hafter, hsame, hstart⟩ := Pipeline.start_receives hrestart hlog
  rw [← (Pipeline.load_checkpoint_gives hload).1] at huncommitted
  refine ⟨after, hafter, hsame, fun event hadmitted => ?_⟩
  rw [hstart, interaction_start_fresh huncommitted]
  rw [hfirst] at hadmitted
  cases hwarm : settings.config.warmStart with
  | none => simp [StartPosition.admits]
  | some time =>
      rw [hwarm] at hadmitted
      simpa using hadmitted

/-! ## A partition that is left behind -/

/-- A number of seconds after the start of 1970. -/
def sampleTime (seconds : Int) : Instant :=
  Instant.epoch.addSaturating (seconds * nanosPerSecond)

/-- Each stream has two partitions. Those of the interactions have an event each. -/
def forkedTransport : Transport :=
  ((((Transport.empty.addStream "interaction" 2).addStream "observation" 2).append "interaction" "0"
    .epoch sampleBody).append "interaction" "1" (sampleTime 5) sampleBody).closeStream "interaction"
    |>.closeStream "observation"

def forkedView : Pipeline.View :=
  { sampleView with transport := forkedTransport, commands := .new 64 }

/-- The first transition is taken until a joined batch has come out, and that is received. -/
def firstReceived? : Option World :=
  (Pipeline.start sampleSettings none forkedView).toOption.bind fun pipeline =>
    run? (List.replicate 74 (.transition 0) ++ [.receive]) ⟨pipeline, forkedView, []⟩

/-- The consumer commits the joined batch and shuts the checkpointer down. -/
def sendCommit (world : World) : World :=
  { world with view := { world.view with commands :=
    { world.view.commands with queue := [.commit "0" 0 .epoch, .shutdown 0] } } }

/-- The checkpointer takes the commit in and stores its checkpoint. -/
def stoppedRun? : Option World :=
  firstReceived?.bind fun world => run? (List.replicate 3 (.transition 0)) world.sendCommit

/-- The pipeline is started again ten seconds after its first start. -/
def restartView (world : World) : Pipeline.View :=
  { world.view with
    outputs := .new 64
    commands := .new 1
    wall := sampleTime 10 }

/-- The first partition has been committed, and the second one has not. -/
def forkedCheckpoint : JoinCheckpoint :=
  .ofList [("0", ⟨some 0, some .epoch⟩)]

def forkedBlobs : Guarded MemoryBlobs :=
  ⟨⟨.ofList [("joiner-checkpoint.json", forkedCheckpoint.toJson)], [], 1⟩, []⟩

theorem forked_built : forkedTransport.Built := by
  have hempty : Transport.empty.Built := .refl
  have hstreams := (hempty.step (.addStream "interaction" 2 rfl)).step
    (.addStream "observation" 2 (by decide +kernel))
  have hevents := (hstreams.step (.append "interaction" "0" .epoch sampleBody)).step
    (.append "interaction" "1" (sampleTime 5) sampleBody)
  exact (hevents.step (.closeStream "interaction")).step (.closeStream "observation")

theorem stopped_reachable {world : World} (h : stoppedRun? = some world) :
    Reachable sampleSettings none forkedView world := by
  obtain ⟨received, hreceived, hrun⟩ := Option.bind_eq_some_iff.mp h
  have hreachable : Reachable sampleSettings none forkedView received := reachable_of_start hreceived
  exact reachable_of_run (hreachable.step (.outside ..)) hrun

theorem forked_loaded :
    (sampleSettings.loadCheckpoint (Guarded.access MemoryBlobs.access) forkedBlobs).result =
      .ok (some forkedCheckpoint) := by
  have hstored : CheckpointStore.checkpointIn JoinCheckpoint.ofJson
      (some forkedCheckpoint.toJson) = forkedCheckpoint := by
    rw [CheckpointStore.checkpointIn, join_of_json_to_json]
  show Except.ok (if (CheckpointStore.checkpointIn JoinCheckpoint.ofJson
    (some forkedCheckpoint.toJson)).isEmpty then none else some _) = _
  rw [hstored]
  rfl

/-- The pipeline stops with the joined batch of the first partition committed and stored, and is
started again. The second partition is then read from the time of the restart on. -/
theorem stopped_and_restarted :
    ∃ world second, Reachable sampleSettings none forkedView world ∧
      (sampleSettings.loadCheckpoint (Guarded.access MemoryBlobs.access) world.view.blobs).result =
        .ok (some forkedCheckpoint) ∧
      Pipeline.start sampleSettings (some forkedCheckpoint) world.restartView = .ok second ∧
      world.view.transport.log? "interaction" "1" = forkedTransport.log? "interaction" "1" ∧
      (∃ before ∈ world.pipeline.interactions.receivers,
        before.client = ⟨"interaction", "1", .atTime .epoch, 1⟩) ∧
      ∃ after ∈ second.interactions.receivers,
        after.client = ⟨"interaction", "1", .atTime (sampleTime 10), 0⟩ := by
  have hsome : stoppedRun?.isSome = true := by decide +kernel
  obtain ⟨world, hworld⟩ := Option.isSome_iff_exists.mp hsome
  have hblobs : stoppedRun?.map (·.view.blobs) = some forkedBlobs := by decide +kernel
  have hlog : stoppedRun?.map (·.view.transport.log? "interaction" "1") =
      some (forkedTransport.log? "interaction" "1") := by decide +kernel
  have hbefore : stoppedRun?.map (·.pipeline.interactions.receivers.map (·.client)) =
      some [⟨"interaction", "0", .atTime .epoch, 1⟩, ⟨"interaction", "1", .atTime .epoch, 1⟩] := by
    decide +kernel
  have hafter : stoppedRun?.bind (fun world =>
      (Pipeline.start sampleSettings (some forkedCheckpoint) world.restartView).toOption.map
        (·.interactions.receivers.map (·.client))) =
      some [⟨"interaction", "0", .afterOffset 0, 0⟩,
        ⟨"interaction", "1", .atTime (sampleTime 10), 0⟩] := by decide +kernel
  rw [hworld] at hblobs hlog hbefore hafter
  obtain ⟨second, hsecond, hclients⟩ := Option.map_eq_some_iff.mp hafter
  have hstored : world.view.blobs = forkedBlobs := Option.some.inj hblobs
  have hreceivers : world.pipeline.interactions.receivers.map (·.client) = _ :=
    Option.some.inj hbefore
  refine ⟨world, second, stopped_reachable hworld, hstored ▸ forked_loaded,
    except_ok_of_option hsecond, Option.some.inj hlog, ?_, ?_⟩
  · refine List.mem_map.mp ?_
    rw [hreceivers]
    exact List.mem_cons_of_mem _ List.mem_cons_self
  · refine List.mem_map.mp ?_
    rw [hclients]
    exact List.mem_cons_of_mem _ List.mem_cons_self

/-- Without a warm start the second partition is read from the time of the restart on. -/
theorem restart_of_uncommitted_sample :
    ∃ world second, Reachable sampleSettings none forkedView world ∧
      Pipeline.start sampleSettings (some forkedCheckpoint) world.restartView = .ok second ∧
      ∃ before ∈ world.pipeline.interactions.receivers, before.client.partition = "1" ∧
        ∃ after ∈ second.interactions.receivers,
          after.client.partition = before.client.partition ∧
          ∀ event : RawEvent, before.client.start.admits event = true →
            (after.client.start.admits event = true ↔
              sampleSettings.config.warmStart.isSome = true ∨
                sampleTime 10 ≤ event.enqueuedTime) := by
  obtain ⟨world, second, hrun, hload, hrestart, hlog, ⟨before, hbefore, hclient⟩, -⟩ :=
    stopped_and_restarted
  have hpartition : before.client.partition = "1" := by rw [hclient]
  have hexists : (world.restartView.transport.log? sampleSettings.config.interactionStream
      before.client.partition).isSome = true := by
    rw [hpartition]
    show (world.view.transport.log? "interaction" "1").isSome = true
    rw [hlog]
    decide +kernel
  have huncommitted : (CheckpointStore.checkpointIn JoinCheckpoint.ofJson
      (world.view.blobs.store.get? sampleSettings.config.checkpointBlobName)).get?
        before.client.partition = none := by
    rw [← (Pipeline.load_checkpoint_gives hload).1, hpartition]
    rfl
  exact ⟨world, second, hrun, hrestart, before, hbefore, hpartition,
    restart_of_uncommitted forked_built rfl hrun hload hrestart hbefore hexists huncommitted⟩

/-- The event of the second partition was to be read before, and is not to be read after the
restart, although no event of the partition has been committed. -/
theorem restart_skips_uncommitted :
    ∃ world second, Reachable sampleSettings none forkedView world ∧
      (sampleSettings.loadCheckpoint (Guarded.access MemoryBlobs.access) world.view.blobs).result =
        .ok (some forkedCheckpoint) ∧
      forkedView.wall ≤ world.restartView.wall ∧
      Pipeline.start sampleSettings (some forkedCheckpoint) world.restartView = .ok second ∧
      forkedCheckpoint.get? "1" = none ∧
      ∃ before ∈ world.pipeline.interactions.receivers,
        ∃ after ∈ second.interactions.receivers,
          before.client.partition = "1" ∧ after.client.partition = "1" ∧
          ∃ event ∈ world.restartView.transport.events "interaction" "1",
            before.client.start.admits event = true ∧
              after.client.start.admits event = false := by
  obtain ⟨world, second, hrun, hload, hrestart, hlog, ⟨before, hbefore, hclient⟩,
    after, hafter, hrestarted⟩ := stopped_and_restarted
  have hevent : ⟨0, 0, "1", sampleTime 5, sampleBody⟩ ∈
      world.restartView.transport.events "interaction" "1" := by
    show _ ∈ (world.view.transport.log? "interaction" "1").elim [] (·.events)
    rw [hlog]
    decide +kernel
  refine ⟨world, second, hrun, hload, ?_, hrestart, rfl, before, hbefore, after, hafter,
    by rw [hclient], by rw [hrestarted], _, hevent, ?_, ?_⟩
  · show Instant.epoch ≤ sampleTime 10
    decide +kernel
  · rw [hclient]
    decide +kernel
  · rw [hrestarted]
    decide +kernel

end World

end WindowJoin

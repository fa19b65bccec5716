import WindowJoin.Pipeline.Opening
import WindowJoin.Proofs.Pipeline.Merging
import WindowJoin.Proofs.Storage.Faithful

/-!
# The lanes of a stream that has been opened

The checkpoint that a pipeline goes on from is the stored one (`load_checkpoint_gives`). Every
partition of the interactions has one lane, from the start position that the checkpoint gives it, and
nothing has been popped from any (`open_streams_lanes`).
-/

namespace WindowJoin

/-- A map without entries is the empty one. -/
theorem OrderedMap.eq_empty {α : Type} {map : OrderedMap α} (h : map.isEmpty = true) :
    map = .empty := by
  obtain ⟨entries, sorted⟩ := map
  obtain rfl : entries = [] := List.isEmpty_iff.mp h
  rfl

namespace Pipeline

/-- What is loaded is the stored checkpoint, where none stands for an empty one, and the document stays
as it is. -/
theorem load_checkpoint_gives {settings : Settings} {blobs : Guarded MemoryBlobs}
    {checkpoint : Option JoinCheckpoint}
    (h : (settings.loadCheckpoint (Guarded.access MemoryBlobs.access) blobs).result =
      .ok checkpoint) :
    checkpoint.getD .empty = CheckpointStore.checkpointIn JoinCheckpoint.ofJson
        (blobs.store.get? settings.config.checkpointBlobName) ∧
      (settings.loadCheckpoint (Guarded.access MemoryBlobs.access) blobs).store.store.get?
        settings.config.checkpointBlobName =
          blobs.store.get? settings.config.checkpointBlobName := by
  rw [Settings.loadCheckpoint] at h ⊢
  dsimp only at h ⊢
  cases hresult : (settings.store.loadJoin (Guarded.access MemoryBlobs.access)
      settings.config.checkpointBlobName blobs).result with
  | error error =>
      rw [hresult] at h
      cases h
  | ok loaded =>
      rw [hresult] at h
      obtain ⟨hloaded, hkept⟩ := CheckpointStore.load_gives
        (MemoryBlobs.access_faithful settings.config.checkpointBlobName).guarded settings.store
        hresult
      refine ⟨?_, hkept⟩
      rw [← hloaded, ← Except.ok.inj h]
      dsimp only
      split
      next hempty => exact (OrderedMap.eq_empty hempty).symm
      next => rfl

/-- The partitions of a stream have different names. -/
theorem partitions_of_distinct {transport : Transport} {stream : String}
    {partitions : List String} (h : partitionsOf transport stream = .ok partitions) :
    partitions.Nodup := by
  unfold partitionsOf Transport.partitions at h
  cases hfound : transport.streams.get? stream with
  | none => simp [hfound] at h
  | some logs =>
      -- The entries of a map ascend.
      have hnames : (logs.entries.map (·.1)).Nodup := by
        rw [List.Nodup, List.pairwise_map]
        refine logs.sorted.imp ?_
        intro first second hlt heq
        rw [heq] at hlt
        exact String.lt_irrefl _ hlt
      rw [hfound] at h
      dsimp only at h
      split at h
      · cases h
      · cases h
      next names hresult =>
        obtain rfl := Except.ok.inj h
        obtain rfl := Except.ok.inj hresult
        exact hnames

theorem connect_all_eq {transport : Transport} {stream : String} {backoff : BoundedBackoff}
    {starts : List (String × StartPosition)} {receivers : List Receiver}
    (h : connectAll transport stream backoff starts = .ok receivers) :
    receivers = starts.map fun start => .start ⟨stream, start.1, start.2, 0⟩ backoff := by
  induction starts generalizing receivers with
  | nil =>
      obtain rfl := Except.ok.inj h
      rfl
  | cons start rest ih =>
      unfold connectAll at h
      split at h
      next => cases h
      next client hconnect =>
        obtain ⟨others, hothers, hresult⟩ := except_bind_ok h
        obtain rfl := Except.ok.inj hresult
        have hclient : client = ⟨stream, start.1, start.2, 0⟩ := by
          unfold Client.connect at hconnect
          split at hconnect
          · exact (Except.ok.inj hconnect).symm
          · cases hconnect
        rw [List.map_cons, ih hothers, hclient]

/-- A receiver that has read nothing yet has everything ahead of it. -/
theorem start_lane (transport : Transport) (stream partition : String)
    (startOf : String → StartPosition) (backoff : BoundedBackoff) (capacity : Nat) :
    Lane stream startOf transport [] (.start ⟨stream, partition, startOf partition, 0⟩ backoff)
      (PartitionSource.new partition capacity).stock where
  client := rfl
  flow := by
    refine ⟨[], ⟨Nat.zero_le _, [], ?_, fun _ => rfl⟩, .start _⟩
    rw [List.nil_append, List.append_nil]
    rfl

theorem open_side_lanes {settings : Settings} {transport : Transport} {stream : String}
    {partitions : List String} {startOf : String → StartPosition} {side : Side}
    (hdistinct : partitions.Nodup)
    (h : openSide settings transport stream
      (partitions.map fun partition => (partition, startOf partition)) = .ok side) :
    Lanes stream startOf transport [] side.receivers (stocksOf side.slots) ∧ side.merge = none ∧
      side.merged = .new settings.config.mergeOutputCapacity := by
  obtain ⟨receivers, hreceivers, hside⟩ := except_bind_ok h
  obtain rfl := Except.ok.inj hside
  refine ⟨?_, rfl, rfl⟩
  show Lanes _ _ _ _ receivers (stocksOf ((partitions.map fun partition =>
    (partition, startOf partition)).map fun entry =>
      MergeSlot.new (.new entry.1 settings.config.partitionQueueCapacity)))
  have hstocks : stocksOf ((partitions.map fun partition => (partition, startOf partition)).map
      fun entry => MergeSlot.new (.new entry.1 settings.config.partitionQueueCapacity)) =
      partitions.map fun partition =>
        (PartitionSource.new partition settings.config.partitionQueueCapacity).stock := by
    rw [stocksOf, List.map_map, List.map_map]
    rfl
  rw [hstocks, connect_all_eq hreceivers, List.map_map]
  refine ⟨?_, ?_, ?_, by simp⟩
  · intro index receiver stock hreceiver hstock
    rw [List.getElem?_map, Option.map_eq_some_iff] at hreceiver hstock
    obtain ⟨partition, hpartition, rfl⟩ := hreceiver
    obtain ⟨same, hsame, rfl⟩ := hstock
    obtain rfl := Option.some.inj (hpartition.symm.trans hsame)
    exact start_lane ..
  · rw [List.length_map, List.length_map]
  · rw [List.map_map]
    show (partitions.map fun partition => partition).Nodup
    rwa [List.map_id']

/-- When streams have been opened, the partitions of the interactions have been found, and each is
read from its start position. The side of the observations has been opened, too. -/
theorem open_streams_sides {settings : Settings} {checkpoint : Option JoinCheckpoint}
    {transport : Transport} {wall : Instant} {opened : Opened}
    (h : openStreams settings checkpoint transport wall = .ok opened) :
    ∃ partitions starts,
      partitionsOf transport settings.config.interactionStream = .ok partitions ∧
        openSide settings transport settings.config.interactionStream
          (partitions.map fun partition => (partition,
            interactionStart checkpoint (settings.config.warmStart.getD wall) partition)) =
          .ok opened.interactions ∧
        openSide settings transport settings.config.observationStream starts =
          .ok opened.observations := by
  unfold openStreams at h
  obtain ⟨_, -, h⟩ := except_bind_ok h
  obtain ⟨merge, -, h⟩ := except_bind_ok h
  obtain ⟨join, -, h⟩ := except_bind_ok h
  obtain ⟨interactions, hinteractions, h⟩ := except_bind_ok h
  obtain ⟨observations, -, h⟩ := except_bind_ok h
  dsimp only at h
  split at h
  · cases h
  · obtain ⟨side, hside, h⟩ := except_bind_ok h
    obtain ⟨other, hother, h⟩ := except_bind_ok h
    obtain rfl := Except.ok.inj h
    exact ⟨interactions, _, hinteractions, hside, hother⟩

theorem open_streams_lanes {settings : Settings} {checkpoint : Option JoinCheckpoint}
    {transport : Transport} {wall : Instant} {opened : Opened}
    (h : openStreams settings checkpoint transport wall = .ok opened) :
    Lanes settings.config.interactionStream
        (interactionStart checkpoint (settings.config.warmStart.getD wall)) transport []
        opened.interactions.receivers (stocksOf opened.interactions.slots) ∧
      opened.interactions.merge = none ∧
      opened.interactions.merged = .new settings.config.mergeOutputCapacity := by
  obtain ⟨partitions, -, hpartitions, hside, -⟩ := open_streams_sides h
  exact open_side_lanes (partitions_of_distinct hpartitions) hside

end Pipeline

end WindowJoin

import WindowJoin.Proofs.Checkpoint.Commits
import WindowJoin.Proofs.Checkpoint.RoundTrip
import WindowJoin.Proofs.Pipeline.Delivery
import WindowJoin.Proofs.Storage.Faithful
import WindowJoin.Proofs.Transport.Session
import WindowJoin.Resume

/-!
# Going on after a checkpoint

The joined batches of a partition are committed in the order of its log, among those of other
partitions, to a checkpoint that starts empty. The checkpoint is stored, loaded again, and says where
a new client of the partition starts. `resume_loses_nothing`: whatever this client reads and whatever
is added to the log in the meantime, it delivers every event behind the last committed one, in order
and each once. It delivers committed events again only if the times of the log decrease somewhere.
-/

namespace WindowJoin

/-- The events behind an offset are the end of a log. -/
theorem filter_after_suffix {events : List RawEvent} (h : Increasing events) (offset : Int64) :
    events.filter (StartPosition.admits (.afterOffset offset)) <:+ events := by
  induction events with
  | nil => exact List.suffix_refl []
  | cons event rest ih =>
      obtain ⟨hfirst, hrest⟩ := List.pairwise_cons.mp h
      by_cases hadmits : offset < event.offset
      · have hall : (event :: rest).filter (StartPosition.admits (.afterOffset offset)) =
            event :: rest := by
          refine List.filter_eq_self.mpr fun other hother => ?_
          rcases List.mem_cons.mp hother with rfl | hother
          · exact decide_eq_true hadmits
          · exact decide_eq_true (Int64.lt_trans hadmits (hfirst other hother))
        rw [hall]
      · rw [List.filter_cons_of_neg (by simpa [StartPosition.admits] using hadmits)]
        exact (ih hrest).trans (List.suffix_cons event rest)

/-- A client that starts after the offset of an event is to be given every event behind a later
one. -/
theorem filter_after_later {past following : List RawEvent} {last standing : RawEvent}
    (h : Increasing (past ++ last :: following)) (hstanding : standing ∈ past ++ [last]) :
    (past ++ last :: following).filter (StartPosition.admits (.afterOffset standing.offset)) =
      (past ++ [last]).filter (StartPosition.admits (.afterOffset standing.offset)) ++
        following := by
  rw [List.append_cons] at h ⊢
  rw [List.filter_append]
  congr 1
  refine List.filter_eq_self.mpr fun event hevent => decide_eq_true ?_
  exact (List.pairwise_append.mp h).2.2 standing hstanding event hevent

/-- Nothing up to an event lies behind it. -/
theorem filter_after_last {past : List RawEvent} {last : RawEvent}
    (h : Increasing (past ++ [last])) :
    (past ++ [last]).filter (StartPosition.admits (.afterOffset last.offset)) = [] := by
  refine List.filter_eq_nil_iff.mpr fun event hevent hadmits => ?_
  have hless : last.offset < event.offset := of_decide_eq_true hadmits
  rcases List.mem_append.mp hevent with hpast | hlast
  · have hbefore := (List.pairwise_append.mp h).2.2 event hpast last List.mem_cons_self
    exact Int64.lt_asymm hbefore hless
  · rw [List.mem_singleton.mp hlast] at hless
    exact Int64.lt_irrefl hless

/-- A checkpoint that has been stored is loaded again. -/
theorem CheckpointStore.load_saved {σ : Type} {access : BlobAccess σ} {name : String}
    {blob : σ → Option (List UInt8)} (hfaithful : access.Faithful name blob)
    (settings : CheckpointStore) {checkpoint loaded : JoinCheckpoint} {store restarted : σ}
    (hsave : (settings.saveJoin access name checkpoint store).result = .ok ())
    (hkept : blob restarted = blob (settings.saveJoin access name checkpoint store).store)
    (hload : (settings.loadJoin access name restarted).result = .ok loaded) :
    loaded = checkpoint := by
  obtain ⟨hloaded, -⟩ := load_gives hfaithful settings hload
  rw [hloaded, hkept, saveJoin, save_sets hfaithful.writes_whole settings hsave, checkpointIn,
    join_of_json_to_json]

/-- A client connects to a partition that has events. -/
theorem Client.connect_of_events {transport : Transport} {stream partition : String}
    (h : transport.events stream partition ≠ []) (start : StartPosition) :
    connect transport stream partition start = .ok ⟨stream, partition, start, 0⟩ := by
  unfold connect
  split
  next => rfl
  next hnone =>
    rw [Transport.events, hnone] at h
    exact absurd rfl h

/-- After commits the reading of their partition goes on behind one of the events committed, and if
the times of these never decrease, behind the last one. -/
theorem start_of_commits {commits : List JoinedBatch} {partition : String} {past : List RawEvent}
    {last : RawEvent} (hlast : Wire.decodes last = true) (hincreasing : Increasing (past ++ [last]))
    (hcommits : ((past ++ [last]).filter Wire.decodes).Forall₂ RawEvent.CommittedBy
      (commits.filter (·.partition = partition))) (fallback : Instant) :
    ∃ standing ∈ past ++ [last],
      interactionStart (some (commits.foldl JoinCheckpoint.apply .empty)) fallback partition =
        .afterOffset standing.offset ∧
      (Timely (past ++ [last]) → standing = last) := by
  have hend : ((past ++ [last]).filter Wire.decodes).getLast? = some last := by
    rw [List.filter_append, List.filter_cons_of_pos hlast]
    exact List.getLast?_concat
  have hstands := JoinCheckpoint.commits_stand hcommits (List.Pairwise.filter _ hincreasing)
  generalize hcommitted : (past ++ [last]).filter Wire.decodes = committed at hstands hend
  generalize hprogress : OrderedMap.get? _ partition = progress at hstands
  cases hstands with
  | fresh => cases hend
  | @event standing _ hmem hstanding =>
      refine ⟨standing, List.mem_of_mem_filter (hcommitted ▸ hmem), ?_, fun htimely => ?_⟩
      · rw [interactionStart, Option.bind_some, hprogress]
        rfl
      · have hcommittedTimely : Timely committed := hcommitted ▸ List.Pairwise.filter _ htimely
        exact Option.some.inj ((hstanding hcommittedTimely).symm.trans hend)

/-- A client that starts after an event is to be given what the log holds behind the event, also when
the log has grown. -/
theorem due_of_continues {session : Session} {transport : Transport} {stream partition : String}
    {past later : List RawEvent} {last standing : RawEvent}
    (hlog : transport.events stream partition = past ++ last :: later)
    (hmem : standing ∈ past ++ [last])
    (h : session.Continues ⟨stream, partition, .afterOffset standing.offset, 0⟩ transport)
    (hincreasing : Increasing session.events) :
    ∃ appended, session.events = past ++ last :: (later ++ appended) ∧
      session.due = (past ++ [last]).filter
        (StartPosition.admits (.afterOffset standing.offset)) ++ (later ++ appended) := by
  obtain ⟨appended, happended⟩ := h.grown
  have hevents : session.events = past ++ last :: (later ++ appended) := by
    rw [happended]
    show transport.events stream partition ++ appended = _
    rw [hlog, List.append_assoc, List.cons_append]
  refine ⟨appended, hevents, ?_⟩
  rw [hevents] at hincreasing
  rw [Session.due, hevents, h.client]
  exact filter_after_later hincreasing hmem

/-- Let the batches of a partition up to some event be committed, in the order of the log and among
commits of other partitions, to a checkpoint that starts empty, and let the checkpoint be stored and
loaded again. Then a client can start where the loaded checkpoint says, and in every state that it
comes to, by reads of any kind and while the transport changes in any way, as long as the offsets of
the log increase, it has delivered the beginning of the events to be read, each once, and delivers the
rest with enough looks. These are all events behind the last committed one and, if times of the
committed part of the log decrease somewhere, perhaps the end of that part. -/
theorem resume_loses_nothing {σ : Type} {access : BlobAccess σ} {name : String}
    {blob : σ → Option (List UInt8)} (hfaithful : access.Faithful name blob)
    (settings : CheckpointStore) {commits : List JoinedBatch} {loaded : JoinCheckpoint}
    {store restarted : σ} (fallback : Instant) {transport : Transport} {stream partition : String}
    {past later : List RawEvent} {last : RawEvent}
    (hlog : transport.events stream partition = past ++ last :: later)
    (hincreasing : Increasing (past ++ last :: later)) (hlast : Wire.decodes last = true)
    (hcommits : ((past ++ [last]).filter Wire.decodes).Forall₂ RawEvent.CommittedBy
      (commits.filter (·.partition = partition)))
    (hsave : (settings.saveJoin access name (commits.foldl JoinCheckpoint.apply .empty)
      store).result = .ok ())
    (hkept : blob restarted = blob (settings.saveJoin access name
      (commits.foldl JoinCheckpoint.apply .empty) store).store)
    (hload : (settings.loadJoin access name restarted).result = .ok loaded) :
    ∃ client redelivered,
      Client.connect transport stream partition
          (interactionStart (some loaded) fallback partition) = .ok client ∧
        redelivered <:+ past ++ [last] ∧ (Timely (past ++ [last]) → redelivered = []) ∧
        ∀ session, Session.Reaches (.start client transport) session →
          Increasing (session.transport.events stream partition) →
          ∃ appended, session.transport.events stream partition =
              past ++ last :: (later ++ appended) ∧
            session.delivered.Nodup ∧ session.Delivers (redelivered ++ (later ++ appended)) := by
  obtain rfl := settings.load_saved hfaithful hsave hkept hload
  have hpast : Increasing (past ++ [last]) := by
    rw [List.append_cons] at hincreasing
    exact (List.pairwise_append.mp hincreasing).1
  obtain ⟨standing, hmem, hstart, hstanding⟩ := start_of_commits hlast hpast hcommits fallback
  rw [hstart]
  refine ⟨_, (past ++ [last]).filter (StartPosition.admits (.afterOffset standing.offset)),
    Client.connect_of_events (by simp [hlog]) _, filter_after_suffix hpast standing.offset, ?_, ?_⟩
  · intro htimely
    rw [hstanding htimely]
    exact filter_after_last hpast
  · intro session hreaches hsession
    have hcontinues := Session.reaches_continues rfl hreaches
    have hevents : session.transport.events stream partition = session.events := by
      rw [Session.events, hcontinues.client]
    rw [hevents] at hsession ⊢
    obtain ⟨appended, hall, hdue⟩ := due_of_continues hlog hmem hcontinues hsession
    have hdelivers := Session.kept_delivers hcontinues.kept
    have hsublist : session.delivered.Sublist session.events :=
      hdelivers.begins.sublist.trans List.filter_sublist
    exact ⟨appended, hall, (hsession.sublist hsublist).nodup, hdue ▸ hdelivers⟩

/-! ## A resumption -/

namespace Resumption

/-- A payload without records. -/
def sampleBody : List UInt8 :=
  [0, 0, 0, 1, 0, 0, 0, 0]

def sampleEvent (offset number : Int64) (time : Instant) : RawEvent :=
  ⟨offset, number, "0", time, sampleBody⟩

/-- The second event was taken in at an earlier time than the first. -/
def sampleEvents : List RawEvent :=
  [sampleEvent 0 0 .latest, sampleEvent 8 1 .epoch, sampleEvent 16 2 .latest]

def sampleTransport : Transport :=
  ((Transport.empty.append "in" "0" .latest sampleBody).append "in" "0" .epoch sampleBody).append
    "in" "0" .latest sampleBody

/-- The first two events are committed, with another partition in between. -/
def sampleCommits : List JoinedBatch :=
  [⟨0, 0, "0", .latest, 0, []⟩, ⟨40, 9, "1", .epoch, 1, []⟩, ⟨8, 1, "0", .epoch, 0, []⟩]

def sampleCheckpoint : JoinCheckpoint :=
  sampleCommits.foldl JoinCheckpoint.apply .empty

def sampleSettings : CheckpointStore :=
  ⟨3, .standard⟩

def sampleStore : MemoryBlobs :=
  (sampleSettings.saveJoin MemoryBlobs.access "checkpoint" sampleCheckpoint .empty).store

theorem sample_loaded :
    (sampleSettings.loadJoin MemoryBlobs.access "checkpoint" sampleStore).result =
      .ok sampleCheckpoint := by
  show Except.ok (CheckpointStore.checkpointIn JoinCheckpoint.ofJson
    (some sampleCheckpoint.toJson)) = _
  rw [CheckpointStore.checkpointIn, join_of_json_to_json]

/-- The commit of the second event is refused, so a client is given it again, and then the third. -/
theorem resume_loses_nothing_sample :
    ∃ client session redelivered,
      Client.connect sampleTransport "in" "0"
          (interactionStart (some sampleCheckpoint) .epoch "0") = .ok client ∧
        Session.Reaches (.start client sampleTransport) session ∧
        session.delivered.map (·.offset) = [8, 16] ∧ session.delivered.Nodup ∧
        redelivered <:+ sampleEvents.take 2 ∧
        session.Delivers (redelivered ++ sampleEvents.drop 2) := by
  obtain ⟨client, redelivered, hconnect, hsuffix, -, hsessions⟩ :=
    resume_loses_nothing (MemoryBlobs.access_faithful "checkpoint") sampleSettings .epoch
      (show sampleTransport.events "in" "0" = [sampleEvent 0 0 .latest] ++
        sampleEvent 8 1 .epoch :: [sampleEvent 16 2 .latest] by decide)
      (by unfold Increasing; decide) (by decide) (.cons ⟨rfl, rfl⟩ (.cons ⟨rfl, rfl⟩ .nil))
      (show (sampleSettings.saveJoin MemoryBlobs.access "checkpoint" sampleCheckpoint
        .empty).result = .ok () from rfl) rfl sample_loaded
  obtain rfl : ⟨"in", "0", .afterOffset 0, 0⟩ = client := Except.ok.inj hconnect
  let first : Session := .start ⟨"in", "0", .afterOffset 0, 0⟩ sampleTransport
  have hlook : first.Reaches (first.look ⟨5, 0, 0⟩) := .single (.look _)
  obtain ⟨appended, hevents, hnodup, hdelivers⟩ :=
    hsessions _ hlook (by unfold Increasing; decide)
  have hnothing : appended = [] := by
    have hlog : (first.look ⟨5, 0, 0⟩).transport.events "in" "0" = sampleEvents := by decide
    rw [hlog] at hevents
    exact List.self_eq_append_right.mp (hevents : sampleEvents = sampleEvents ++ appended)
  rw [hnothing] at hdelivers
  exact ⟨_, _, redelivered, hconnect, hlook, by decide, hnodup, hsuffix, hdelivers⟩

end Resumption

end WindowJoin

import Mathlib.Logic.Relation
import WindowJoin.Transport.Log

/-!
# The events of a partition

`Transport.Step` is what may happen to a transport from outside: events are added, partitions are
closed, reads are made to fail, and new streams are set up, but no log is ever lost. So the events of
a partition only grow (`step_events`), and all of them bear its name (`Transport.Built`). A read
changes nothing of them: what it gives is the next part of what the client has yet to read
(`Client.read_reads`).
-/

namespace WindowJoin

theorem OrderedMap.get_map {α β : Type} (change : α → β) (source : OrderedMap α) (key : String) :
    (source.map change).get? key = (source.get? key).map change := by
  obtain ⟨entries, sorted⟩ := source
  show lookup key (entries.map fun entry => (entry.1, change entry.2)) =
    (lookup key entries).map change
  clear sorted
  induction entries with
  | nil => rfl
  | cons entry rest ih =>
      rw [List.map_cons, lookup, lookup]
      split
      · rfl
      · exact ih

/-- A map made of entries with one value has no other. -/
theorem OrderedMap.of_list_value {α : Type} {value : α} {entries : List (String × α)}
    (h : ∀ entry ∈ entries, entry.2 = value) {key : String} {found : α}
    (hfound : (ofList entries).get? key = some found) : found = value := by
  suffices hfold : ∀ (entries : List (String × α)) (map : OrderedMap α),
      (∀ entry ∈ entries, entry.2 = value) →
      (∀ key found, map.get? key = some found → found = value) → ∀ key found,
      (entries.foldl (fun map entry => map.insert entry.1 entry.2) map).get? key = some found →
        found = value from hfold entries empty h nofun key found hfound
  intro entries
  induction entries with
  | nil => exact fun map _ hmap => hmap
  | cons entry rest ih =>
      intro map hentries hmap
      refine ih _ (fun other hother => hentries other (List.mem_cons_of_mem _ hother)) ?_
      intro key found hfound
      rw [get_insert] at hfound
      split at hfound
      · rw [← Option.some.inj hfound]
        exact hentries entry List.mem_cons_self
      · exact hmap key found hfound

namespace Transport

/-- The events in the log of a partition; none if there is no such partition. -/
def events (transport : Transport) (stream partition : String) : List RawEvent :=
  (transport.log? stream partition).elim [] (·.events)

/-- Every event bears the name of its partition. -/
def Labelled (transport : Transport) : Prop :=
  ∀ stream partition, ∀ event ∈ transport.events stream partition, event.partition = partition

/-- What may happen to a transport. A stream that exists is not set up again. -/
inductive Step (transport : Transport) : Transport → Prop where
  | addStream (stream : String) (count : Nat) :
      transport.streams.get? stream = none → Step transport (transport.addStream stream count)
  | append (stream partition : String) (enqueuedTime : Instant) (body : List UInt8) :
      Step transport (transport.append stream partition enqueuedTime body)
  | closePartition (stream partition : String) :
      Step transport (transport.closePartition stream partition)
  | closeStream (stream : String) : Step transport (transport.closeStream stream)
  | injectFailures (stream partition : String) (failures : List TransportError) :
      Step transport (transport.injectFailures stream partition failures)

/-- The transport has come about step by step from one without streams. -/
def Built (transport : Transport) : Prop :=
  Relation.ReflTransGen Step .empty transport

theorem Built.step {transport next : Transport} (h : transport.Built)
    (hstep : transport.Step next) : next.Built :=
  h.tail hstep

theorem log_set_log (transport : Transport) (stream partition other part : String)
    (log : PartitionLog) : (transport.setLog stream partition log).log? other part =
      if other = stream ∧ part = partition then some log else transport.log? other part := by
  rw [log?, setLog, OrderedMap.get_insert]
  by_cases hstream : other = stream
  · subst hstream
    rw [if_pos rfl, Option.bind_some, OrderedMap.get_insert]
    by_cases hpart : part = partition
    · rw [if_pos hpart, if_pos ⟨rfl, hpart⟩]
    · rw [if_neg hpart, if_neg fun h => hpart h.2, log?]
      cases transport.streams.get? other with
      | none => rfl
      | some partitions => rfl
  · rw [if_neg hstream, if_neg fun h => hstream h.1]
    rfl

theorem events_set_log (transport : Transport) (stream partition other part : String)
    (log : PartitionLog) : (transport.setLog stream partition log).events other part =
      if other = stream ∧ part = partition then log.events else transport.events other part := by
  rw [events, log_set_log]
  split
  · rfl
  · rfl

theorem events_update (transport : Transport) (stream partition other part : String)
    (change : PartitionLog → PartitionLog) :
    (transport.update stream partition change).events other part =
      if other = stream ∧ part = partition then
        (change ((transport.log? stream partition).getD .empty)).events
      else transport.events other part :=
  events_set_log ..

theorem events_get_d (transport : Transport) (stream partition : String) :
    ((transport.log? stream partition).getD .empty).events = transport.events stream partition := by
  rw [events]
  cases transport.log? stream partition with
  | none => rfl
  | some log => rfl

/-- A change that leaves the events of a log leaves those of all partitions. -/
theorem events_update_same (transport : Transport) (stream partition other part : String)
    {change : PartitionLog → PartitionLog} (h : ∀ log, (change log).events = log.events) :
    (transport.update stream partition change).events other part =
      transport.events other part := by
  rw [events_update]
  split
  next heq => rw [h, events_get_d, heq.1, heq.2]
  next => rfl

theorem events_add_stream {transport : Transport} {stream : String}
    (h : transport.streams.get? stream = none) (count : Nat) (other part : String) :
    (transport.addStream stream count).events other part = transport.events other part := by
  unfold events log? addStream
  rw [OrderedMap.get_insert]
  split
  next heq =>
    subst heq
    rw [h, Option.bind_some]
    cases hlog : (OrderedMap.ofList ((List.range count).map fun number =>
        (toString number, PartitionLog.empty))).get? part with
    | none => rfl
    | some log =>
        have hempty : log = .empty := by
          refine OrderedMap.of_list_value ?_ hlog
          intro entry hentry
          obtain ⟨number, -, rfl⟩ := List.mem_map.mp hentry
          rfl
        rw [hempty]
        rfl
  next => rfl

theorem events_close_stream (transport : Transport) (stream other part : String) :
    (transport.closeStream stream).events other part = transport.events other part := by
  unfold closeStream
  split
  next => rfl
  next partitions hpartitions =>
    show ((OrderedMap.get? (transport.streams.insert stream _) other).bind _).elim [] _ = _
    rw [OrderedMap.get_insert]
    split
    next heq =>
      subst heq
      rw [Option.bind_some, OrderedMap.get_map, events, log?, hpartitions, Option.bind_some]
      cases partitions.get? part with
      | none => rfl
      | some log => rfl
    next => rfl

variable {transport next : Transport}

/-- A step adds events that bear the name of their partition, if any. -/
theorem step_events (h : transport.Step next) (stream partition : String) :
    ∃ added, next.events stream partition = transport.events stream partition ++ added ∧
      ∀ event ∈ added, event.partition = partition := by
  suffices hsame : next.events stream partition = transport.events stream partition ∨
      ∃ event : RawEvent, event.partition = partition ∧
        next.events stream partition = transport.events stream partition ++ [event] by
    rcases hsame with hsame | ⟨event, hevent, hadded⟩
    · exact ⟨[], by rw [hsame, List.append_nil], by simp⟩
    · exact ⟨[event], hadded, by simpa using hevent⟩
  cases h with
  | addStream other count hnew => exact .inl (events_add_stream hnew count stream partition)
  | append other part time body =>
      rw [append, events_update]
      split
      next heq =>
        obtain ⟨rfl, rfl⟩ := heq
        rw [← events_get_d]
        exact .inr ⟨_, rfl, rfl⟩
      next => exact .inl rfl
  | closePartition other part =>
      unfold closePartition
      exact .inl (events_update_same _ _ _ _ _ fun _ => rfl)
  | closeStream other => exact .inl (events_close_stream _ _ _ _)
  | injectFailures other part failures =>
      unfold injectFailures
      exact .inl (events_update_same _ _ _ _ _ fun _ => rfl)

theorem step_labelled (h : transport.Step next) (hlabelled : transport.Labelled) :
    next.Labelled := by
  intro stream partition event hevent
  obtain ⟨added, hevents, hadded⟩ := step_events h stream partition
  rw [hevents, List.mem_append] at hevent
  rcases hevent with hevent | hevent
  · exact hlabelled stream partition event hevent
  · exact hadded event hevent

theorem Labelled.congr (h : transport.Labelled) (hevents : ∀ stream partition,
    next.events stream partition = transport.events stream partition) : next.Labelled := by
  intro stream partition event hevent
  rw [hevents] at hevent
  exact h stream partition event hevent

/-- A transport that has come about step by step is labelled. -/
theorem built_labelled (h : transport.Built) : transport.Labelled := by
  induction h with
  | refl =>
      intro stream partition event hevent
      cases hevent
  | tail _ hstep ih => exact step_labelled hstep ih

end Transport

/-! ## Reads -/

namespace Client

/-- What a client has yet to read of the events of its partition. -/
def remaining (client : Client) (events : List RawEvent) : List RawEvent :=
  (events.drop client.position).filter client.start.admits

/-- The events that a look at a partition gives. -/
def Glance.events : Glance → List RawEvent
  | some (.ok (.events events)) => events
  | _ => []

/-- A read has gone past the part of the log that it gives, and has changed nothing of the events. -/
structure Reads (client : Client) (transport : Transport) (result : Glance × Client × Transport) :
    Prop where
  reader : result.2.1 = { client with position := result.2.1.position }
  events (stream partition : String) :
    result.2.2.events stream partition = transport.events stream partition
  bounded : client.position ≤ (transport.events client.stream client.partition).length →
    result.2.1.position ≤ (transport.events client.stream client.partition).length
  remaining : client.remaining (transport.events client.stream client.partition) =
    Glance.events result.1 ++
      result.2.1.remaining (transport.events client.stream client.partition)

/-- A scan gives what is admitted of the events that it goes past. -/
theorem scan_splits (start : StartPosition) (limit : Nat) (events : List RawEvent) :
    (scan start limit events).1 ≤ events.length ∧
      events.filter start.admits = (scan start limit events).2 ++
        (events.drop (scan start limit events).1).filter start.admits := by
  induction events generalizing limit with
  | nil => cases limit <;> exact ⟨Nat.le_refl 0, rfl⟩
  | cons event rest ih =>
      cases limit with
      | zero => exact ⟨Nat.zero_le _, rfl⟩
      | succ limit =>
          rw [scan]
          split
          next hadmits =>
            obtain ⟨hle, hfilter⟩ := ih limit
            refine ⟨Nat.succ_le_succ hle, ?_⟩
            rw [List.filter_cons_of_pos hadmits, hfilter]
            rfl
          next hadmits =>
            obtain ⟨hle, hfilter⟩ := ih (limit + 1)
            refine ⟨Nat.succ_le_succ hle, ?_⟩
            rw [List.filter_cons_of_neg hadmits, hfilter]
            rfl

theorem reads_nothing (client : Client) (transport : Transport) {glance : Glance}
    (h : Glance.events glance = []) : client.Reads transport (glance, client, transport) where
  reader := rfl
  events _ _ := rfl
  bounded hbounded := hbounded
  remaining := by rw [h, List.nil_append]

theorem poll_reads (client : Client) (transport : Transport) (limit : Nat) :
    client.Reads transport (client.poll transport limit) := by
  unfold poll
  split
  next => exact reads_nothing client transport rfl
  next log hlog =>
    have hevents : transport.events client.stream client.partition = log.events := by
      rw [Transport.events, hlog]
      rfl
    split
    next failure later hfailures =>
      refine ⟨rfl, ?_, id, rfl⟩
      intro stream partition
      -- Only the failures of the log are replaced.
      rw [Transport.events_set_log]
      split
      next heq => rw [heq.1, heq.2, hevents]
      next => rfl
    next =>
      obtain ⟨hle, hfilter⟩ :=
        scan_splits client.start (max limit 1) (log.events.drop client.position)
      refine ⟨rfl, fun _ _ => rfl, ?_, ?_⟩
      · intro hbounded
        rw [hevents] at hbounded ⊢
        rw [List.length_drop] at hle
        show client.position + _ ≤ _
        omega
      · rw [hevents, Client.remaining, hfilter]
        show _ = Glance.events (if _ then _ else _) ++ _
        rw [Client.remaining, ← List.drop_drop]
        congr 1
        split
        next => rfl
        next hnone =>
          -- Nothing was admitted, so the end of the stream or no result at all gives no events.
          rw [Classical.not_not] at hnone
          rw [hnone]
          split <;> rfl

/-- A read gives the next events that the client has yet to read. -/
theorem read_reads (client : Client) (transport : Transport) (limit now deadline : Nat)
    (seen : Option Nat) :
    client.Reads transport (client.read transport limit now deadline seen) := by
  have hlook : client.Reads transport (if seen = some transport.notices then
      (none, client, transport) else client.poll transport limit) := by
    split
    · exact reads_nothing client transport rfl
    · exact poll_reads client transport limit
  unfold read
  generalize (if seen = some transport.notices then
    (none, client, transport) else client.poll transport limit) = look at hlook
  obtain ⟨glance, reader, after⟩ := look
  refine ⟨hlook.reader, hlook.events, hlook.bounded, ?_⟩
  rw [hlook.remaining]
  congr 1
  show _ = Glance.events (if _ then _ else _)
  split
  next hnone =>
    -- At the deadline a look that gave nothing becomes a read of no events.
    simp only [Bool.and_eq_true, Option.isNone_iff_eq_none] at hnone
    rw [hnone.1]
    rfl
  next => rfl

end Client

end WindowJoin

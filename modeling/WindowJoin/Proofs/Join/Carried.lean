import Mathlib.Data.List.Forall2
import WindowJoin.Join.Indexed

/-!
# What a joined batch keeps of its interactions

`batch.CarriedBy joined` says that a joined batch stands at the position of a batch of interactions
and that its groups start with the messages of that batch, in order. A batch that comes in carries
itself, and observations that are added behind the first messages change nothing about it
(`CarriedBy.attach`).
-/

namespace WindowJoin

/-- The joined batch has the position and the event count of the batch, and its groups start with
the messages of the batch. -/
structure MessageBatch.CarriedBy (batch : MessageBatch) (joined : JoinedBatch) : Prop where
  offset : joined.offset = batch.offset
  sequenceNumber : joined.sequenceNumber = batch.sequenceNumber
  partition : joined.partition = batch.partition
  enqueuedTime : joined.enqueuedTime = batch.enqueuedTime
  eventCount : joined.eventCount = batch.eventCount
  heads : joined.groups.map List.head? = batch.messages.map some

/-- The joined batch with a message added to one of its groups. -/
def JoinedBatch.attach (joined : JoinedBatch) (group : Nat) (message : Message) : JoinedBatch :=
  { joined with groups := joined.groups.modify group (· ++ [message]) }

/-- A message added behind a first one leaves the first messages of the groups as they are. -/
theorem heads_attach (message : Message) {groups : List (List Message)} {group : Nat}
    (h : groups[group]? ≠ some []) :
    (groups.modify group (· ++ [message])).map List.head? = groups.map List.head? := by
  apply List.ext_getElem?
  intro position
  rw [List.getElem?_map, List.getElem?_map, List.getElem?_modify]
  cases hfound : groups[position]? with
  | none => rfl
  | some messages =>
      by_cases heq : group = position
      · subst heq
        cases messages with
        | nil => exact absurd hfound h
        | cons => simp
      · simp [heq]

namespace MessageBatch

/-- A batch is carried by what it becomes as it comes in. -/
theorem carried_by_to_joined (batch : MessageBatch) : batch.CarriedBy batch.toJoined where
  offset := rfl
  sequenceNumber := rfl
  partition := rfl
  enqueuedTime := rfl
  eventCount := rfl
  heads := by simp [toJoined]

/-- Every group starts with a message. -/
theorem CarriedBy.group_ne_nil {batch : MessageBatch} {joined : JoinedBatch}
    (h : batch.CarriedBy joined) (group : Nat) : joined.groups[group]? ≠ some [] := by
  intro hgroup
  have hhead : (joined.groups.map List.head?)[group]? = some none := by
    rw [List.getElem?_map, hgroup]
    rfl
  rw [h.heads, List.getElem?_map, Option.map_eq_some_iff] at hhead
  obtain ⟨_, -, hsome⟩ := hhead
  cases hsome

/-- Observations are added without loss of what is carried. -/
theorem CarriedBy.attach {batch : MessageBatch} {joined : JoinedBatch}
    (h : batch.CarriedBy joined) (group : Nat) (message : Message) :
    batch.CarriedBy (joined.attach group message) where
  offset := h.offset
  sequenceNumber := h.sequenceNumber
  partition := h.partition
  enqueuedTime := h.enqueuedTime
  eventCount := h.eventCount
  heads := (heads_attach message (h.group_ne_nil group)).trans h.heads

end MessageBatch

/-- A change behind the front of a list is a change to the whole list. -/
theorem modify_behind {α : Type} (front rest : List α) (position : Nat) (change : α → α) :
    (front ++ rest).modify (front.length + position) change =
      front ++ rest.modify position change := by
  induction front with
  | nil => simp
  | cons first front ih =>
      rw [List.cons_append, List.length_cons, Nat.add_right_comm, List.modify_succ_cons,
        List.cons_append, ih]

/-- Joined batches carry what they have carried when a message is added to one of them. -/
theorem carried_modify {interactions : List MessageBatch} {joined : List JoinedBatch}
    (h : interactions.Forall₂ MessageBatch.CarriedBy joined) (position group : Nat)
    (message : Message) :
    interactions.Forall₂ MessageBatch.CarriedBy
      (joined.modify position (·.attach group message)) := by
  refine List.forall₂_iff_get.mpr ⟨?_, ?_⟩
  · rw [List.length_modify, h.length_eq]
  · intro other hleft hright
    have hcarried := (List.forall₂_iff_get.mp h).2 other hleft (by simpa using hright)
    simp only [List.get_eq_getElem, List.getElem_modify] at hcarried ⊢
    split
    · exact hcarried.attach group message
    · exact hcarried

/-- The joined batches among what comes out of a join. -/
def joinedOf (out : List JoinOutput) : List JoinedBatch :=
  out.filterMap fun
    | .joined batch => some batch
    | .orphan _ => none

/-- The orphans among what comes out of a join. -/
def orphansOf (out : List JoinOutput) : List OrphanObservation :=
  out.filterMap fun
    | .joined _ => none
    | .orphan observation => some observation

@[simp] theorem joined_of_append (first second : List JoinOutput) :
    joinedOf (first ++ second) = joinedOf first ++ joinedOf second :=
  List.filterMap_append

@[simp] theorem orphans_of_append (first second : List JoinOutput) :
    orphansOf (first ++ second) = orphansOf first ++ orphansOf second :=
  List.filterMap_append

@[simp] theorem joined_of_joined {α : Type} (batchOf : α → JoinedBatch) (entries : List α) :
    joinedOf (entries.map fun entry => .joined (batchOf entry)) = entries.map batchOf := by
  induction entries with
  | nil => rfl
  | cons entry rest ih => exact congrArg (_ :: ·) ih

@[simp] theorem orphans_of_joined {α : Type} (batchOf : α → JoinedBatch) (entries : List α) :
    orphansOf (entries.map fun entry => .joined (batchOf entry)) = [] := by
  induction entries with
  | nil => rfl
  | cons entry rest ih => exact ih

@[simp] theorem joined_of_orphans (batch : MessageBatch) (messages : List Message) :
    joinedOf (messages.map batch.orphan) = [] := by
  induction messages with
  | nil => rfl
  | cons message rest ih => exact ih

namespace Join

/-- The open batches. -/
def batches (join : Join) : List JoinedBatch :=
  join.pending.map (·.batch)

theorem flush_pending_batches (watermark : Instant) (pending : List PendingBatch)
    (index : PlaceIndex) :
    joinedOf (flushPending watermark pending index).1 ++
        (flushPending watermark pending index).2.1.map (·.batch) = pending.map (·.batch) := by
  induction pending generalizing index with
  | nil => rfl
  | cons entry rest ih =>
      rw [flushPending]
      split
      · exact congrArg (entry.batch :: ·) (ih _)
      · rfl

theorem flush_batches (join : Join) (clock : ObservationClock) :
    joinedOf (join.flush clock).2 ++ (join.flush clock).1.batches = join.batches :=
  flush_pending_batches ..

theorem add_interactions_batches (rules : JoinRules) (join : Join) (batch : MessageBatch) :
    (join.addInteractions rules batch).batches = join.batches ++ [batch.toJoined] := by
  rw [batches, addInteractions, List.map_append]
  rfl

theorem add_observations_eq (rules : JoinRules) (join : Join) (now : Instant)
    (batch : MessageBatch) :
    let flushed := join.flush (join.clock.observe rules.punctuation now batch)
    let attached := attachAll batch batch.messages flushed.1
    join.addObservations rules now batch = (attached.1, flushed.2 ++ attached.2) :=
  rfl

end Join

end WindowJoin

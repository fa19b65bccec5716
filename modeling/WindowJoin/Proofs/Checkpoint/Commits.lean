import Mathlib.Data.List.Basic
import WindowJoin.Checkpoint
import WindowJoin.Transport.Log

/-!
# Commits of a log

A checkpoint that starts empty and is given the batches of a partition in the order of its log stands
at an event of these (`commits_stand`). That may be an earlier event than the last one: a commit whose
time lies before that of the checkpoint is refused and moves nothing. Where the times never decrease
it is the last one. Commits of other partitions make no difference. No commit moves a checkpoint back
(`JoinCheckpoint.advance_ahead`).
-/

namespace WindowJoin

/-- The progress of a partition that has been consumed up to an event. -/
def RawEvent.progress (event : RawEvent) : Progress :=
  ⟨some event.offset, some event.enqueuedTime⟩

/-- The joined batch commits the position of the event. -/
structure RawEvent.CommittedBy (event : RawEvent) (batch : JoinedBatch) : Prop where
  offset : batch.offset = event.offset
  enqueuedTime : batch.enqueuedTime = event.enqueuedTime

/-- The offsets of the events increase strictly. -/
def Increasing (events : List RawEvent) : Prop :=
  events.Pairwise fun first second => first.offset < second.offset

/-- The times of the events never decrease. -/
def Timely (events : List RawEvent) : Prop :=
  events.Pairwise fun first second => first.enqueuedTime ≤ second.enqueuedTime

/-- The progress of a partition after the commits of events: there is none before the first commit,
then it stands at one of the events, and at the last one if their times never decrease. -/
inductive StandsAt : Option Progress → List RawEvent → Prop where
  | fresh : StandsAt none []
  | event {event : RawEvent} {events : List RawEvent} : event ∈ events →
      (Timely events → events.getLast? = some event) → StandsAt (some event.progress) events

namespace JoinCheckpoint

/-- An entry that is made for a partition is one for a partition that has come nowhere. -/
theorem enter_progress (checkpoint : JoinCheckpoint) (partition : String) :
    (checkpoint.enter partition).progress partition = checkpoint.progress partition := by
  unfold enter
  split
  next => rfl
  next hnew =>
    rw [Option.not_isSome_iff_eq_none] at hnew
    rw [progress, progress, OrderedMap.get_insert, if_pos rfl, hnew]
    rfl

/-- The entry does not show where it is filled at once. -/
theorem enter_insert (checkpoint : JoinCheckpoint) (partition : String) (progress : Progress) :
    (checkpoint.enter partition).insert partition progress =
      checkpoint.insert partition progress := by
  unfold enter
  split
  next => rfl
  next =>
    refine OrderedMap.ext_get fun other => ?_
    rw [OrderedMap.get_insert, OrderedMap.get_insert, OrderedMap.get_insert]
    split <;> rfl

/-- An entry that is made leaves nothing to be refused, so a refusal finds the checkpoint as it was. -/
theorem move_eq (checkpoint : JoinCheckpoint) (partition : String) (offset : Int64)
    (enqueuedTime : Instant) :
    checkpoint.move partition offset enqueuedTime =
      let current := checkpoint.progress partition
      if current.offset.any (offset < ·) || current.enqueuedTime.any (enqueuedTime < ·) then
        (.error ⟨partition, current.offset, offset, current.enqueuedTime, enqueuedTime⟩, checkpoint)
      else (.ok (), checkpoint.insert partition ⟨some offset, some enqueuedTime⟩) := by
  simp only [move, enter_progress, enter_insert]
  split
  next hback =>
    have hknown : (checkpoint.get? partition).isSome := by
      cases hentry : checkpoint.get? partition with
      | some progress => rfl
      | none => simp [progress, hentry, default] at hback
    rw [enter, if_pos hknown]
  next => rfl

/-- An advance is refused or sets the progress of its partition. -/
theorem advance_eq (checkpoint : JoinCheckpoint) (partition : String) (offset : Int64)
    (enqueuedTime : Instant) :
    checkpoint.advance partition offset enqueuedTime =
      let current := checkpoint.progress partition
      if current.offset.any (offset < ·) || current.enqueuedTime.any (enqueuedTime < ·) then
        .error ⟨partition, current.offset, offset, current.enqueuedTime, enqueuedTime⟩
      else .ok (checkpoint.insert partition ⟨some offset, some enqueuedTime⟩) := by
  simp only [advance, move_eq]
  split <;> rfl

/-- A commit moves its partition to its own position, or it is refused because of an offset or a time
of the partition that it lies before, and then changes nothing. -/
theorem apply_cases (checkpoint : JoinCheckpoint) (batch : JoinedBatch) :
    checkpoint.apply batch =
        checkpoint.insert batch.partition ⟨some batch.offset, some batch.enqueuedTime⟩ ∨
      checkpoint.apply batch = checkpoint ∧
        ((∃ offset, (checkpoint.progress batch.partition).offset = some offset ∧
            batch.offset < offset) ∨
          ∃ time, (checkpoint.progress batch.partition).enqueuedTime = some time ∧
            batch.enqueuedTime < time) := by
  simp only [apply, move_eq]
  split
  next hback =>
    simp only [Bool.or_eq_true, Option.any_eq_true, decide_eq_true_eq] at hback
    exact .inr ⟨rfl, hback⟩
  next => exact .inl rfl

/-- A commit of another partition leaves the progress of a partition alone. -/
theorem get_apply_other {checkpoint : JoinCheckpoint} {batch : JoinedBatch} {partition : String}
    (h : batch.partition ≠ partition) :
    (checkpoint.apply batch).get? partition = checkpoint.get? partition := by
  rcases checkpoint.apply_cases batch with hmoved | ⟨hkept, -⟩
  · rw [hmoved, OrderedMap.get_insert, if_neg h.symm]
  · rw [hkept]

/-- The commit of the next event of a log keeps a checkpoint at an event of the log. -/
theorem apply_stands {checkpoint : JoinCheckpoint} {batch : JoinedBatch} {event : RawEvent}
    {events : List RawEvent} (h : StandsAt (checkpoint.get? batch.partition) events)
    (hcommitted : event.CommittedBy batch) (hincreasing : Increasing (events ++ [event])) :
    StandsAt ((checkpoint.apply batch).get? batch.partition) (events ++ [event]) := by
  rcases checkpoint.apply_cases batch with hmoved | ⟨hkept, hback⟩
  · rw [hmoved, OrderedMap.get_insert, if_pos rfl, hcommitted.offset, hcommitted.enqueuedTime]
    exact .event List.mem_concat_self fun _ => List.getLast?_concat
  · rw [hkept]
    rw [progress] at hback
    generalize checkpoint.get? batch.partition = current at h hback
    cases h with
    | fresh => simp [default] at hback
    | @event standing _ hmem hlast =>
        refine .event (List.mem_append_left _ hmem) fun htimely => ?_
        -- The offset is not to blame, so the time is, and the times do decrease.
        have hoffset := (List.pairwise_append.mp hincreasing).2.2 _ hmem _ List.mem_cons_self
        have htime := (List.pairwise_append.mp htimely).2.2 _ hmem _ List.mem_cons_self
        rcases hback with ⟨offset, hstanding, hless⟩ | ⟨time, hstanding, hless⟩
        · obtain rfl : standing.offset = offset := Option.some.inj hstanding
          rw [hcommitted.offset] at hless
          exact absurd hless (Int64.lt_asymm hoffset)
        · obtain rfl : standing.enqueuedTime = time := Option.some.inj hstanding
          rw [hcommitted.enqueuedTime] at hless
          exact absurd (Instant.lt_of_lt_of_le hless htime) (Instant.lt_irrefl _)

/-- Commits of the next events of a log keep a checkpoint at an event of the log. -/
theorem apply_all_stands {checkpoint : JoinCheckpoint} {commits : List JoinedBatch}
    {partition : String} {before events : List RawEvent}
    (h : StandsAt (checkpoint.get? partition) before)
    (hcommits : events.Forall₂ RawEvent.CommittedBy
      (commits.filter (·.partition = partition)))
    (hincreasing : Increasing (before ++ events)) :
    StandsAt ((commits.foldl apply checkpoint).get? partition) (before ++ events) := by
  induction commits generalizing checkpoint before events with
  | nil =>
      cases hcommits
      rwa [List.append_nil]
  | cons batch commits ih =>
      rw [List.foldl_cons]
      by_cases hown : batch.partition = partition
      · subst hown
        rw [List.filter_cons_of_pos (by simp)] at hcommits
        cases hcommits with
        | @cons event _ events _ hcommitted hrest =>
            rw [List.append_cons] at hincreasing ⊢
            refine ih (apply_stands h hcommitted ?_) hrest hincreasing
            exact (List.pairwise_append.mp hincreasing).1
      · rw [List.filter_cons_of_neg (by simpa using hown)] at hcommits
        refine ih ?_ hcommits hincreasing
        rwa [get_apply_other hown]

/-- A checkpoint that starts empty stands at one of the events whose batches it has been given. -/
theorem commits_stand {commits : List JoinedBatch} {partition : String} {events : List RawEvent}
    (hcommits : events.Forall₂ RawEvent.CommittedBy (commits.filter (·.partition = partition)))
    (hincreasing : Increasing events) :
    StandsAt (OrderedMap.get? (commits.foldl apply .empty) partition) events := by
  have hempty : StandsAt (OrderedMap.get? (.empty : JoinCheckpoint) partition) [] := .fresh
  exact apply_all_stands hempty hcommits hincreasing

end JoinCheckpoint

/-! ## Moving forward -/

/-- What is known of one progress is known of another, and is not less there. -/
structure Progress.AtOrBehind (first second : Progress) : Prop where
  offset : ∀ offset, first.offset = some offset →
    ∃ later, second.offset = some later ∧ offset ≤ later
  enqueuedTime : ∀ time, first.enqueuedTime = some time →
    ∃ later, second.enqueuedTime = some later ∧ time ≤ later

theorem Progress.AtOrBehind.refl (progress : Progress) : progress.AtOrBehind progress :=
  ⟨fun offset h => ⟨offset, h, Int64.le_refl _⟩, fun time h => ⟨time, h, Instant.le_refl time⟩⟩

theorem Progress.AtOrBehind.trans {first second third : Progress} (h : first.AtOrBehind second)
    (h' : second.AtOrBehind third) : first.AtOrBehind third where
  offset offset hoffset := by
    obtain ⟨later, hlater, hle⟩ := h.offset offset hoffset
    obtain ⟨last, hlast, hle'⟩ := h'.offset later hlater
    exact ⟨last, hlast, Int64.le_trans hle hle'⟩
  enqueuedTime time htime := by
    obtain ⟨later, hlater, hle⟩ := h.enqueuedTime time htime
    obtain ⟨last, hlast, hle'⟩ := h'.enqueuedTime later hlater
    exact ⟨last, hlast, Instant.le_trans hle hle'⟩

namespace JoinCheckpoint

/-- Every partition has come at least as far in one checkpoint as in another, by offset and by
time. -/
def AtOrBehind (first second : JoinCheckpoint) : Prop :=
  ∀ partition, (first.progress partition).AtOrBehind (second.progress partition)

theorem AtOrBehind.refl (checkpoint : JoinCheckpoint) : checkpoint.AtOrBehind checkpoint :=
  fun _ => .refl _

theorem AtOrBehind.trans {first second third : JoinCheckpoint} (h : first.AtOrBehind second)
    (h' : second.AtOrBehind third) : first.AtOrBehind third :=
  fun partition => (h partition).trans (h' partition)

/-- A checkpoint that is moved forward does not fall behind. -/
theorem advance_ahead {checkpoint advanced : JoinCheckpoint} {partition : String} {offset : Int64}
    {enqueuedTime : Instant}
    (h : checkpoint.advance partition offset enqueuedTime = .ok advanced) :
    checkpoint.AtOrBehind advanced := by
  simp only [advance_eq] at h
  split at h
  next => cases h
  next hahead =>
    obtain rfl := Except.ok.inj h
    simp only [Bool.or_eq_true, Option.any_eq_true, decide_eq_true_eq, not_or, not_exists,
      not_and] at hahead
    intro other
    rw [progress, progress, OrderedMap.get_insert]
    split
    next heq =>
      subst heq
      exact ⟨fun current hcurrent => ⟨offset, rfl, Int64.not_lt.mp (hahead.1 current hcurrent)⟩,
        fun current hcurrent =>
          ⟨enqueuedTime, rfl, Instant.not_lt.mp (hahead.2 current hcurrent)⟩⟩
    next => exact .refl _

end JoinCheckpoint

end WindowJoin

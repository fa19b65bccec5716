import WindowJoin.Proofs.Checkpoint.Commits

/-!
# Updates of a checkpoint

Updates come to a checkpoint one after the other, each for one partition, and some of them are refused.
`JoinCheckpoint.Moves` says what one update does. After any number of them the entry of a partition is
what its own updates have made of it (`JoinCheckpoint.get_move_all`), and no partition has fallen behind
(`JoinCheckpoint.move_all_ahead`). `JoinCheckpoint.updates_sound` puts these together for all updates of
a run.
-/

namespace WindowJoin

/-- A position that a partition is to be moved to. -/
structure Update where
  partition : String
  offset : Int64
  enqueuedTime : Instant
  deriving DecidableEq

namespace Update

/-- The progress of a partition at the position. -/
def progress (update : Update) : Progress :=
  ⟨some update.offset, some update.enqueuedTime⟩

/-- Whether the position lies before a progress, by offset or by time. What is not known of a progress
lies before nothing. -/
def isBehind (update : Update) (progress : Progress) : Bool :=
  progress.offset.any (update.offset < ·) || progress.enqueuedTime.any (update.enqueuedTime < ·)

/-- The refusal of the update at a progress of its partition. It shows both. -/
def refusal (update : Update) (progress : Progress) : Regression :=
  ⟨update.partition, progress.offset, update.offset, progress.enqueuedTime, update.enqueuedTime⟩

/-- The entry of a partition after an update of that partition. -/
def entryAfter (entry : Option Progress) (update : Update) : Option Progress :=
  if update.isBehind (entry.getD default) then entry else some update.progress

end Update

namespace JoinCheckpoint

/-- Moves the partition of an update. -/
def moveBy (checkpoint : JoinCheckpoint) (update : Update) :
    Except Regression Unit × JoinCheckpoint :=
  checkpoint.move update.partition update.offset update.enqueuedTime

/-- The checkpoint after updates, whether they move it or are refused. -/
def moveAll (checkpoint : JoinCheckpoint) (updates : List Update) : JoinCheckpoint :=
  updates.foldl (fun current update => (current.moveBy update).2) checkpoint

/-- What an update does to a checkpoint. -/
inductive Moves (checkpoint : JoinCheckpoint) (update : Update) :
    Except Regression Unit × JoinCheckpoint → Prop where
  /-- The update lies behind. It is refused with the progress of its partition, and the checkpoint is
  as it was, down to the partitions that it has entries for. -/
  | refused : update.isBehind (checkpoint.progress update.partition) = true →
      Moves checkpoint update
        (.error (update.refusal (checkpoint.progress update.partition)), checkpoint)
  /-- The update sets the entry of its partition, and those of the others stay. -/
  | moved {next : JoinCheckpoint} :
      update.isBehind (checkpoint.progress update.partition) = false →
      next.get? update.partition = some update.progress →
      (∀ other, other ≠ update.partition → next.get? other = checkpoint.get? other) →
      Moves checkpoint update (.ok (), next)

theorem move_by_eq (checkpoint : JoinCheckpoint) (update : Update) :
    checkpoint.moveBy update =
      if update.isBehind (checkpoint.progress update.partition) then
        (.error (update.refusal (checkpoint.progress update.partition)), checkpoint)
      else (.ok (), checkpoint.insert update.partition update.progress) :=
  checkpoint.move_eq update.partition update.offset update.enqueuedTime

theorem move_by_moves (checkpoint : JoinCheckpoint) (update : Update) :
    Moves checkpoint update (checkpoint.moveBy update) := by
  rw [move_by_eq]
  split
  next hbehind => exact .refused hbehind
  next hahead =>
    refine .moved (Bool.eq_false_iff.mpr hahead) ?_ fun other hother => ?_
    · rw [OrderedMap.get_insert, if_pos rfl]
    · rw [OrderedMap.get_insert, if_neg hother]

/-- An update concerns the entry of its own partition only. -/
theorem get_move_by (checkpoint : JoinCheckpoint) (update : Update) (partition : String) :
    (checkpoint.moveBy update).2.get? partition =
      if update.partition = partition then update.entryAfter (checkpoint.get? partition)
      else checkpoint.get? partition := by
  have hmoves := checkpoint.move_by_moves update
  generalize checkpoint.moveBy update = outcome at hmoves
  cases hmoves with
  | refused hbehind =>
      split
      next hown =>
        subst hown
        exact (if_pos hbehind).symm
      next => rfl
  | moved hahead hset hothers =>
      split
      next hown =>
        subst hown
        rw [hset]
        exact (if_neg (Bool.eq_false_iff.mp hahead)).symm
      next hother => exact hothers partition (Ne.symm hother)

/-- The entry of a partition is what the updates of that partition make of it. -/
theorem get_move_all (checkpoint : JoinCheckpoint) (updates : List Update) (partition : String) :
    (checkpoint.moveAll updates).get? partition =
      (updates.filter (·.partition = partition)).foldl (fun entry update => update.entryAfter entry)
        (checkpoint.get? partition) := by
  induction updates generalizing checkpoint with
  | nil => rfl
  | cons update updates ih =>
      have hrest := ih (checkpoint.moveBy update).2
      rw [get_move_by] at hrest
      by_cases hown : update.partition = partition
      · rw [if_pos hown] at hrest
        rw [List.filter_cons_of_pos (by simpa using hown)]
        exact hrest
      · rw [if_neg hown] at hrest
        rw [List.filter_cons_of_neg (by simpa using hown)]
        exact hrest

theorem move_by_ahead (checkpoint : JoinCheckpoint) (update : Update) :
    checkpoint.AtOrBehind (checkpoint.moveBy update).2 := by
  have hmoves := checkpoint.move_by_moves update
  rcases hmove : checkpoint.moveBy update with ⟨result, next⟩
  rw [hmove] at hmoves
  cases hmoves with
  | refused => exact .refl checkpoint
  | moved =>
      have hadvance : checkpoint.advance update.partition update.offset update.enqueuedTime =
          .ok next := by
        rw [advance, ← moveBy, hmove]
        rfl
      exact advance_ahead hadvance

/-- No partition falls behind by updates. -/
theorem move_all_ahead (checkpoint : JoinCheckpoint) (updates : List Update) :
    checkpoint.AtOrBehind (checkpoint.moveAll updates) := by
  induction updates generalizing checkpoint with
  | nil => exact .refl checkpoint
  | cons update updates ih => exact (checkpoint.move_by_ahead update).trans (ih _)

theorem move_all_append (checkpoint : JoinCheckpoint) (before after : List Update) :
    checkpoint.moveAll (before ++ after) = (checkpoint.moveAll before).moveAll after :=
  List.foldl_append

/-- In every sequence of updates each one is refused without a trace or sets the entry of its own
partition, no partition ever falls behind, and any other sequence in which each partition has the same
updates in the same order ends with the same checkpoint. -/
theorem updates_sound (checkpoint : JoinCheckpoint) (updates : List Update) :
    (∀ before update after, updates = before ++ update :: after →
      Moves (checkpoint.moveAll before) update ((checkpoint.moveAll before).moveBy update)) ∧
    (∀ before after, updates = before ++ after →
      (checkpoint.moveAll before).AtOrBehind (checkpoint.moveAll updates)) ∧
    ∀ others : List Update,
      (∀ partition, others.filter (·.partition = partition) =
        updates.filter (·.partition = partition)) →
      checkpoint.moveAll others = checkpoint.moveAll updates := by
  refine ⟨fun before update _ _ => move_by_moves _ update, ?_, ?_⟩
  · rintro before after rfl
    rw [move_all_append]
    exact move_all_ahead _ after
  · intro others hothers
    refine OrderedMap.ext_get fun partition => ?_
    rw [get_move_all, get_move_all, hothers]

/-- Partition 0 is known by name only, and of partition 1 only the offset is. -/
def sampleCheckpoint : JoinCheckpoint :=
  .ofList [("0", ⟨none, none⟩), ("1", ⟨some 7, none⟩)]

/-- The updates of partitions 0, 1 and 2, of which the second of partition 0 and the first of partition 1
lie behind. -/
def sampleUpdates : List Update :=
  [⟨"0", 20, .epoch⟩, ⟨"1", 5, .latest⟩, ⟨"0", 30, .earliest⟩, ⟨"1", 7, .epoch⟩, ⟨"2", 1, .epoch⟩]

/-- The same updates, those of partition 0 last. -/
def sampleReordered : List Update :=
  [⟨"2", 1, .epoch⟩, ⟨"1", 5, .latest⟩, ⟨"1", 7, .epoch⟩, ⟨"0", 20, .epoch⟩, ⟨"0", 30, .earliest⟩]

theorem updates_sound_sample :
    Moves (sampleCheckpoint.moveAll [⟨"0", 20, .epoch⟩]) ⟨"1", 5, .latest⟩
        (.error ⟨"1", some 7, 5, none, .latest⟩, sampleCheckpoint.moveAll [⟨"0", 20, .epoch⟩]) ∧
      sampleCheckpoint.AtOrBehind (sampleCheckpoint.moveAll sampleUpdates) ∧
      sampleCheckpoint.moveAll sampleReordered = sampleCheckpoint.moveAll sampleUpdates := by
  obtain ⟨hmoves, hahead, hothers⟩ := updates_sound sampleCheckpoint sampleUpdates
  refine ⟨hmoves [⟨"0", 20, .epoch⟩] ⟨"1", 5, .latest⟩ _ rfl, hahead [] sampleUpdates rfl,
    hothers sampleReordered fun partition => ?_⟩
  by_cases hzero : "0" = partition
  · subst hzero
    decide
  by_cases hone : "1" = partition
  · subst hone
    decide
  simp [sampleReordered, sampleUpdates, List.filter_cons, hzero, hone]

end JoinCheckpoint

end WindowJoin

import Mathlib.Data.List.Pairwise
import WindowJoin.Proofs.Checkpoint.Commits
import WindowJoin.Proofs.Checkpoint.RoundTrip
import WindowJoin.Proofs.Time.Moves
import WindowJoin.Resume

/-!
# Observations of interactions that are read again

The observations start one window before the earliest time at which a partition of interactions is
resumed. `observations_reread`: where the log of a partition is in order of offset and of time, and
its saved time is that of the event at its saved offset, every event that is read again finds all the
observations from one window before it on among those that are read. The exception is a partition
whose checkpoint has an offset and no time: it goes on behind its offset, but the time that counts for
the observations is the fallback.
-/

namespace WindowJoin

namespace Instant

/-! ## The earliest resume time -/

/-- The earlier of two instants is one of them, and at or before both. -/
theorem min_cases (first second : Instant) :
    (first.min second = first ∨ first.min second = second) ∧
      first.min second ≤ first ∧ first.min second ≤ second := by
  unfold min
  split
  next hlt => exact ⟨.inr rfl, le_of_lt hlt, le_refl second⟩
  next hlt => exact ⟨.inl rfl, le_refl first, not_lt.mp hlt⟩

/-- The earliest of instants is one of them, and at or before all. -/
theorem fold_min_cases (times : List Instant) (first : Instant) :
    times.foldl min first ∈ first :: times ∧
      ∀ time ∈ first :: times, times.foldl min first ≤ time := by
  induction times generalizing first with
  | nil => exact ⟨List.mem_cons_self, fun time htime => List.mem_singleton.mp htime ▸ le_refl _⟩
  | cons second rest ih =>
      obtain ⟨heither, hfirst, hsecond⟩ := min_cases first second
      obtain ⟨hmem, hleast⟩ := ih (first.min second)
      have hmin : (second :: rest).foldl min first ≤ first.min second :=
        hleast _ List.mem_cons_self
      refine ⟨?_, fun time htime => ?_⟩
      · rcases List.mem_cons.mp hmem with hmem | hmem
        · rw [List.foldl_cons, hmem]
          rcases heither with heither | heither <;> rw [heither] <;> simp
        · exact List.mem_cons_of_mem _ (List.mem_cons_of_mem _ hmem)
      · rcases List.mem_cons.mp htime with rfl | htime
        · exact le_trans hmin hfirst
        rcases List.mem_cons.mp htime with rfl | htime
        · exact le_trans hmin hsecond
        · exact hleast time (List.mem_cons_of_mem _ htime)

end Instant

/-- The observations start one window before the time at which some partition of interactions is
resumed, and no partition is resumed earlier. -/
theorem observation_start_eq {partitions : List String} {partition : String}
    (hpartition : partition ∈ partitions) (checkpoint : JoinCheckpoint) (window : Int)
    (fallback : Instant) :
    ∃ first ∈ partitions,
      observationStart partitions (some checkpoint) window fallback =
        (resumeTime checkpoint fallback first).subSaturating window ∧
      ∀ other ∈ partitions,
        resumeTime checkpoint fallback first ≤ resumeTime checkpoint fallback other := by
  cases partitions with
  | nil => cases hpartition
  | cons head rest =>
      obtain ⟨hmem, hleast⟩ := Instant.fold_min_cases
        (rest.map (resumeTime checkpoint fallback)) (resumeTime checkpoint fallback head)
      rw [← List.map_cons] at hmem hleast
      obtain ⟨first, hfirst, heq⟩ := List.mem_map.mp hmem
      refine ⟨first, hfirst, ?_, fun other hother => ?_⟩
      · rw [heq]
        rfl
      · rw [heq]
        exact hleast _ (List.mem_map_of_mem hother)

/-! ## Events that are read again -/

/-- Where a checkpoint has both the offset and the time of a partition, they are those of one of its
events. -/
def JoinCheckpoint.SavedFrom (checkpoint : JoinCheckpoint) (partition : String)
    (log : List RawEvent) : Prop :=
  ∀ offset time, checkpoint.get? partition = some ⟨some offset, some time⟩ →
    ∃ event ∈ log, event.progress = ⟨some offset, some time⟩

/-- An event behind another one was not taken in before it. -/
theorem timely_of_offset {log : List RawEvent} (hincreasing : Increasing log) (htimely : Timely log)
    {first second : RawEvent} (hfirst : first ∈ log) (hsecond : second ∈ log)
    (h : first.offset < second.offset) : first.enqueuedTime ≤ second.enqueuedTime := by
  have hbefore : log.Pairwise fun event other =>
      event.offset < other.offset → event.enqueuedTime ≤ other.enqueuedTime := by
    refine htimely.imp ?_
    intro event other hle _
    exact hle
  have hbehind : log.Pairwise fun event other =>
      other.offset < event.offset → other.enqueuedTime ≤ event.enqueuedTime :=
    hincreasing.imp fun hlt hgt => absurd hgt (Int64.lt_asymm hlt)
  exact hbefore.forall_of_forall_of_flip (fun event _ _ => Instant.le_refl event.enqueuedTime)
    hbehind hfirst hsecond h

/-- No event that is read again was taken in before the time at which its partition is resumed, but
for those behind a saved offset that has no time with it. -/
theorem resume_le_of_admitted {checkpoint : JoinCheckpoint} {partition : String}
    {log : List RawEvent} (hincreasing : Increasing log) (htimely : Timely log)
    (hsaved : checkpoint.SavedFrom partition log) {fallback : Instant} {event : RawEvent}
    (hevent : event ∈ log)
    (hadmitted : (interactionStart (some checkpoint) fallback partition).admits event = true)
    (huntimed : ∀ offset, checkpoint.get? partition = some ⟨some offset, none⟩ →
      fallback ≤ event.enqueuedTime) :
    resumeTime checkpoint fallback partition ≤ event.enqueuedTime := by
  unfold interactionStart at hadmitted
  rw [resumeTime, JoinCheckpoint.progress]
  rw [Option.bind_some] at hadmitted
  cases hprogress : checkpoint.get? partition with
  | none =>
      rw [hprogress] at hadmitted
      exact of_decide_eq_true hadmitted
  | some progress =>
      rw [hprogress] at hadmitted
      obtain ⟨offset, time⟩ := progress
      cases offset with
      | none =>
          cases time with
          | none => exact of_decide_eq_true hadmitted
          | some time => exact of_decide_eq_true hadmitted
      | some offset =>
          cases time with
          | none => exact huntimed offset hprogress
          | some time =>
              obtain ⟨saved, hmem, hposition⟩ := hsaved offset time hprogress
              cases hposition
              exact timely_of_offset hincreasing htimely hmem hevent (of_decide_eq_true hadmitted)

/-- Let the log of a partition of interactions be in order of offset and of time, and let the
checkpoint that the reading goes on from have been saved from it. Then the observations start at or
before one window before every event of the partition that is read again, so that every observation
from there on is read. Excepted are events from before the fallback in a partition that has been
saved with its offset and without a time, which counts as resumed at the fallback, and events from the
second after a leap second in which some partition is resumed. -/
theorem observations_reread {checkpoint : JoinCheckpoint} {fallback : Instant} {window : Int}
    (hwindow : 0 ≤ window) {partitions : List String}
    {partition : String} (hpartition : partition ∈ partitions) {log : List RawEvent}
    (hincreasing : Increasing log) (htimely : Timely log)
    (hsaved : checkpoint.SavedFrom partition log) {event : RawEvent} (hevent : event ∈ log)
    (hadmitted : (interactionStart (some checkpoint) fallback partition).admits event = true)
    (huntimed : ∀ offset, checkpoint.get? partition = some ⟨some offset, none⟩ →
      fallback ≤ event.enqueuedTime)
    (hplain : ∀ other ∈ partitions,
      (resumeTime checkpoint fallback other).nanos < nanosPerSecond ∨
        event.enqueuedTime.seconds ≠ (resumeTime checkpoint fallback other).seconds + 1) :
    observationStart partitions (some checkpoint) window fallback ≤
        event.enqueuedTime.subSaturating window ∧
      ∀ observation : RawEvent,
        event.enqueuedTime.subSaturating window ≤ observation.enqueuedTime →
        (StartPosition.atTime (observationStart partitions (some checkpoint) window
          fallback)).admits observation = true := by
  obtain ⟨first, hfirst, hstart, hleast⟩ :=
    observation_start_eq hpartition checkpoint window fallback
  have hresume : resumeTime checkpoint fallback first ≤ event.enqueuedTime :=
    Instant.le_trans (hleast partition hpartition)
      (resume_le_of_admitted hincreasing htimely hsaved hevent hadmitted huntimed)
  have hbefore := Instant.sub_saturating_mono hwindow (hplain first hfirst) hresume
  rw [← hstart] at hbefore
  exact ⟨hbefore, fun observation hobservation =>
    decide_eq_true (Instant.le_trans hbefore hobservation)⟩

/-! ## Two partitions -/

namespace Rereading

/-- A number of seconds after the start of 1970. -/
def sampleTime (seconds : Int) : Instant :=
  Instant.epoch.addSaturating (seconds * nanosPerSecond)

def sampleEvent (partition : String) (offset : Int64) (seconds : Int) : RawEvent :=
  ⟨offset, 0, partition, sampleTime seconds, []⟩

/-- The events of the first partition. -/
def sampleLog : List RawEvent :=
  [sampleEvent "0" 0 40, sampleEvent "0" 8 40, sampleEvent "0" 16 50]

/-- The first partition is saved at its first event, and the second one at a time before that. -/
def sampleCheckpoint : JoinCheckpoint :=
  .ofList [("0", (sampleEvent "0" 0 40).progress), ("1", ⟨none, some (sampleTime 30)⟩)]

theorem sample_log_increasing : Increasing sampleLog := by
  unfold Increasing
  decide

theorem sample_log_timely : Timely sampleLog := by
  unfold Timely
  decide

/-- With a window of ten seconds, an observation of the time of the saved event is read, for the event
at the same time behind it. -/
theorem observations_reread_sample :
    sampleEvent "0" 8 40 ∈ sampleLog ∧
      (interactionStart (some sampleCheckpoint) (sampleTime 100) "0").admits
        (sampleEvent "0" 8 40) = true ∧
      (StartPosition.atTime (observationStart ["0", "1", "2"] (some sampleCheckpoint)
        (10 * nanosPerSecond) (sampleTime 100))).admits (sampleEvent "0" 0 35) = true := by
  have hlog : sampleCheckpoint.SavedFrom "0" sampleLog := fun offset time h =>
    ⟨sampleEvent "0" 0 40, List.mem_cons_self, Option.some.inj h⟩
  have hadmitted : (interactionStart (some sampleCheckpoint) (sampleTime 100) "0").admits
      (sampleEvent "0" 8 40) = true := by decide
  have hreread := observations_reread (show (0 : Int) ≤ 10 * nanosPerSecond by decide)
    (show "0" ∈ ["0", "1", "2"] by decide) sample_log_increasing sample_log_timely hlog
    (show sampleEvent "0" 8 40 ∈ sampleLog by decide) hadmitted (fun offset h => by cases h)
    (by decide)
  exact ⟨by decide, hadmitted, hreread.2 (sampleEvent "0" 0 35) (by decide)⟩

/-- The first partition is saved with its offset alone. -/
def sampleUntimed : JoinCheckpoint :=
  .ofList [("0", ⟨some 0, none⟩)]

/-- The checkpoint can be read from a document, and an event behind its offset is read again, but an
observation from within the window before the event is not. -/
theorem observation_of_untimed_left_out :
    JoinCheckpoint.ofJson sampleUntimed.toJson = .ok sampleUntimed ∧
      sampleUntimed.SavedFrom "0" sampleLog ∧ Increasing sampleLog ∧ Timely sampleLog ∧
      sampleEvent "0" 16 50 ∈ sampleLog ∧
      (interactionStart (some sampleUntimed) (sampleTime 100) "0").admits
        (sampleEvent "0" 16 50) = true ∧
      (sampleEvent "0" 16 50).enqueuedTime.subSaturating (10 * nanosPerSecond) ≤ sampleTime 55 ∧
      (StartPosition.atTime (observationStart ["0"] (some sampleUntimed) (10 * nanosPerSecond)
        (sampleTime 100))).admits (sampleEvent "0" 24 55) = false :=
  ⟨join_of_json_to_json sampleUntimed, fun _ _ h => (by cases h), sample_log_increasing,
    sample_log_timely, by decide, by decide, by decide, by decide⟩

end Rereading

end WindowJoin

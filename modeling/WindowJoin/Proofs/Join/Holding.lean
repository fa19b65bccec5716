import WindowJoin.Proofs.Join.Deadlines
import WindowJoin.Proofs.Join.History

/-!
# The clock while a batch of observations is held

A join looks at its clock at every tick, also while it holds a batch of observations. The clock counts
the time since the last batch of observations was joined (`Join.run_last_arrival`); as long as that is
less than the timeout, a tick moves no watermark and lets nothing out that was not passed before
(`JoinRun.History.tick_spares_window_of_held`). But a batch that is held does not count as an
observation, so after the timeout a tick may close the very windows that it is in
(`JoinRun.History.tick_closes_window_of_held`).
-/

namespace WindowJoin

/-- The time of the wall clock at which an event joins a batch of observations. -/
def JoinEvent.joinedAt? : JoinEvent → Option Instant
  | observations now _ => some now
  | _ => none

/-- The last time at which one of the events has joined a batch of observations, or that of the
start. -/
def lastJoined (start : Instant) (events : List JoinEvent) : Instant :=
  (events.filterMap JoinEvent.joinedAt?).getLast?.getD start

theorem last_joined_concat (start : Instant) (events : List JoinEvent) (event : JoinEvent) :
    lastJoined start (events ++ [event]) = event.joinedAt?.getD (lastJoined start events) := by
  rw [lastJoined, List.filterMap_append]
  cases hevent : event.joinedAt? with
  | none => simp [hevent, lastJoined]
  | some now => simp [hevent]

namespace ObservationClock

/-- Punctuation is no observation. -/
theorem punctuate_last_arrival {rules : Punctuation} {clock next : ObservationClock} {now : Instant}
    (h : clock.punctuate? rules now = some next) : next.lastArrival = clock.lastArrival := by
  simp only [punctuate?] at h
  split at h
  · cases h
    rfl
  · split at h
    · split at h
      · cases h
        rfl
      · cases h
    · cases h
      rfl

theorem moves_last_arrival {rules : Punctuation} {clock next : ObservationClock} {event : JoinEvent}
    (h : event.moves? rules clock = some next) :
    next.lastArrival = event.joinedAt?.getD clock.lastArrival := by
  cases event with
  | interactions batch =>
      cases h
      rfl
  | observations now batch =>
      cases h
      rfl
  | silence now => exact punctuate_last_arrival h
  | close =>
      cases h
      rfl

theorem punctuate_busy {rules : Punctuation} {clock : ObservationClock} {now : Instant}
    (h : now.since clock.lastArrival < rules.timeout) : clock.punctuate? rules now = some clock :=
  if_pos h

end ObservationClock

namespace Join

variable {rules : JoinRules} {join : Join} {events : List JoinEvent} {out : List JoinOutput}
  {now : Instant}

/-- The clock of a join knows when the last batch of observations was joined. -/
theorem run_last_arrival (h : (Join.new now).run? rules events = some (join, out)) :
    join.clock.lastArrival = lastJoined now events := by
  refine run_keeps (fun events join _ => join.clock.lastArrival = lastJoined now events)
    rfl ?_ h
  intro events between before event next come _ hlast hstep
  rw [last_joined_concat, ← hlast]
  exact ObservationClock.moves_last_arrival (step_moves hstep)

/-- A flush lets the batches out that stand in front of those that are left. -/
theorem flush_split (join : Join) (clock : ObservationClock) :
    ∃ closed, join.pending = closed ++ (join.flush clock).1.pending ∧
      (join.flush clock).2 = closed.map (.joined ·.batch) ∧
      ∀ entry ∈ closed, entry.deadline < clock.watermark := by
  obtain ⟨hout, hleft⟩ := flush_pending_split clock.watermark join.pending join.index
  refine ⟨join.pending.takeWhile (·.deadline < clock.watermark), ?_, hout, ?_⟩
  · show _ = _ ++ (flushPending clock.watermark join.pending join.index).2.1
    rw [hleft, List.takeWhile_append_dropWhile]
  · intro entry hentry
    simpa using List.mem_takeWhile_imp hentry

end Join

namespace JoinRun.History

variable {rules : JoinRules} {wall : Instant} {history : History} {out : List JoinOutput}
  {noticed : JoinRun} {seen : View} {held : MessageBatch}

/-- A tick comes while a batch of observations is held. If the last batch of observations has been
joined less than the timeout ago, the batches that the tick lets out are some that the watermark had
passed before; so none of them has a deadline at or after the time of the batch that is held, unless
the watermark was past that time already. -/
theorem tick_spares_window_of_held (h : Reachable rules wall history)
    (htick : Notice rules history.run history.view [.silence history.view.wall] out noticed seen)
    (hheld : history.run.held = some held)
    (hbusy : history.view.wall.since (lastJoined wall history.events) < rules.punctuation.timeout) :
    noticed.held = some held ∧ noticed.join.clock = history.run.join.clock ∧
      ∃ closed, history.run.join.pending = closed ++ noticed.join.pending ∧
        out = closed.map (.joined ·.batch) ∧
        (∀ entry ∈ closed, entry.deadline < history.run.join.clock.watermark) ∧
        (history.run.join.clock.watermark ≤ ObservationClock.timeFor rules.punctuation held →
          ∀ entry ∈ closed,
            entry.deadline < ObservationClock.timeFor rules.punctuation held) := by
  obtain ⟨come, hcome, -⟩ := h.accounted.joined
  rw [← Join.run_last_arrival hcome] at hbusy
  generalize hevents : [JoinEvent.silence history.view.wall] = events at htick
  cases htick with
  | tick hdue hpunctuated =>
      rw [Join.punctuate?, ObservationClock.punctuate_busy hbusy, Option.map_some,
        Option.some.injEq] at hpunctuated
      obtain ⟨closed, hsplit, hout, hpassed⟩ :=
        Join.flush_split history.run.join history.run.join.clock
      rw [hpunctuated] at hsplit hout
      refine ⟨hheld, ?_, closed, hsplit, hout, hpassed, fun htime entry hentry => ?_⟩
      · exact (congrArg (fun result => result.1.clock) hpunctuated).symm
      · exact Instant.lt_of_lt_of_le (hpassed entry hentry) htime
  | interactions | interactionsEnd | hold | observationsEnd | patience => cases hevents

/-- An observation from the window of the interaction that has been taken in. -/
def sampleObservation : MessageBatch :=
  Join.sampleBatch 1 5000 [("a", .observation)]

/-- The observation is held, and the wall clock shows some time. -/
def sampleHolds (wall : Instant) : History :=
  { sampleTaken with
    run := { sampleTaken.run with held := some sampleObservation }
    view := { sampleTaken.view with wall } }

theorem sample_holds_reachable (wall : Instant) :
    Reachable Join.sampleRules .epoch (sampleHolds wall) := by
  have hpushed := sample_taken_reachable.step
    (@Step.pushObservations _ _ sampleObservation _ rfl rfl)
  have hheld : Reachable Join.sampleRules .epoch (sampleHolds .epoch) :=
    (hpushed.step (.turn (.notice rfl (.hold rfl rfl rfl)))).step (.turn (.listen rfl))
  exact hheld.step (.elapse wall (Nat.le_refl _))

/-- A tick at once leaves the interaction open. -/
theorem tick_spares_window_of_held_sample :
    Reachable Join.sampleRules .epoch (sampleHolds .epoch) ∧
      ∃ noticed seen out, Notice Join.sampleRules (sampleHolds .epoch).run (sampleHolds .epoch).view
        [.silence .epoch] out noticed seen ∧
      ∃ closed, (sampleHolds .epoch).run.join.pending = closed ++ noticed.join.pending ∧
        ∀ entry ∈ closed, entry.deadline <
          ObservationClock.timeFor Join.sampleRules.punctuation sampleObservation := by
  have hreachable := sample_holds_reachable .epoch
  have htick : Notice Join.sampleRules (sampleHolds .epoch).run (sampleHolds .epoch).view
      [.silence .epoch] _ _ _ := .tick (by decide) rfl
  obtain ⟨-, -, closed, hsplit, -, -, hspared⟩ :=
    tick_spares_window_of_held hreachable htick rfl (by decide)
  exact ⟨hreachable, _, _, _, htick, closed, hsplit, hspared (by decide)⟩

/-- Half a minute and one second after the start. -/
def afterTimeout : Instant :=
  ⟨31, 0, by decide, by decide, by decide⟩

/-- A tick after the timeout lets the interaction out without the observation, which is held from
before the deadline. -/
theorem tick_closes_window_of_held :
    ∃ history entry noticed seen, Reachable Join.sampleRules .epoch history ∧
      history.run.held = some sampleObservation ∧ entry ∈ history.run.join.pending ∧
      Notice Join.sampleRules history.run history.view [.silence history.view.wall]
        [.joined entry.batch] noticed seen ∧
      ObservationClock.timeFor Join.sampleRules.punctuation sampleObservation ≤ entry.deadline := by
  have htick : Notice Join.sampleRules (sampleHolds afterTimeout).run
      (sampleHolds afterTimeout).view [.silence afterTimeout] _ _ _ := .tick (by decide) rfl
  exact ⟨_, _, _, _, sample_holds_reachable afterTimeout, rfl, List.mem_cons_self, htick, by decide⟩

end JoinRun.History

end WindowJoin

import WindowJoin.Config.Settings
import WindowJoin.Proofs.Join.Deadlines
import WindowJoin.Proofs.Join.History

/-!
# What the end of the observations closes

The end of the observations moves the watermark to the latest time, and every batch comes out whose
deadline is before it (`Join.all_out_iff`). So a join that ends because both of its inputs have ended
has sent all that it has taken in, if every deadline is before the watermark in the end
(`JoinRun.History.completed_gives_all_out`). A deadline beyond the range of times is put at the latest
time itself, which no watermark passes; its batch stays open and is lost with the join
(`Join.close_leaves_latest_open`).
-/

namespace WindowJoin

namespace Join

variable {rules : JoinRules} {join : Join} {event : JoinEvent} {events : List JoinEvent}
  {out : List JoinOutput} {now : Instant}

/-- After an event that moves the watermark no batch is open exactly if the watermark has passed the
deadlines of all batches of interactions that have come in. -/
theorem all_out_iff (h : (Join.new now).run? rules (events ++ [event]) = some (join, out))
    (hevent : event.interactions? = none) :
    join.pending = [] ↔ ∀ batch ∈ (events ++ [event]).filterMap JoinEvent.interactions?,
      rules.deadline batch < join.clock.watermark := by
  obtain ⟨passed, hdeadlines, hpassed⟩ := run_deadlines h
  constructor
  · intro hnone batch hbatch
    have hdeadline := List.mem_map_of_mem (f := rules.deadline) hbatch
    rw [hdeadlines, deadlines, hnone, List.map_nil, List.append_nil] at hdeadline
    exact hpassed _ hdeadline
  · intro hall
    obtain ⟨before, earlier, come, -, hstep, -⟩ := run_concat h
    cases hpending : join.deadlines with
    | nil => exact List.map_eq_nil_iff.mp hpending
    | cons oldest rest =>
        -- The oldest open batch is not passed, but its batch of interactions has come in.
        have hopen := oldest_not_passed hstep hevent (hpending ▸ rfl : oldest ∈ join.deadlines.head?)
        have hmem : oldest ∈ passed ++ join.deadlines := by simp [hpending]
        rw [← hdeadlines] at hmem
        obtain ⟨batch, hbatch, rfl⟩ := List.mem_map.mp hmem
        exact absurd (Instant.lt_of_lt_of_le (hall batch hbatch) hopen) (Instant.lt_irrefl _)

/-- The end of the observations moves the watermark to the latest time or beyond. -/
theorem latest_le_close
    (h : (Join.new now).run? rules (events ++ [.close]) = some (join, out)) :
    Instant.latest ≤ join.clock.watermark := by
  obtain ⟨before, earlier, come, -, hstep, -⟩ := run_concat h
  obtain rfl : _ = join := congrArg Prod.fst (Option.some.inj hstep)
  exact ObservationClock.le_max_right before.clock.watermark Instant.latest

end Join

namespace JoinRun.History

variable {rules : JoinRules} {wall : Instant} {history : History}

/-- A join whose inputs have both ended, and which has sent all that is to be sent, has taken in all
that was pushed, and its watermark is at the latest time or beyond. It has sent a joined batch for each
batch of interactions, in order, exactly if the watermark has passed all their deadlines. -/
theorem completed_gives_all_out (h : Reachable rules wall history)
    (hdone : history.run.control = .sending [] true) :
    history.received = history.pushed ∧
      Instant.latest ≤ history.run.join.clock.watermark ∧
      (history.received.Forall₂ MessageBatch.CarriedBy (joinedOf history.sent) ↔
        ∀ batch ∈ history.received, rules.deadline batch < history.run.join.clock.watermark) := by
  have haccounted := h.accounted
  have hworks : history.run.isFinished = false := by rw [isFinished, hdone]
  obtain ⟨come, hcome, lost, hsent, hlost⟩ := haccounted.joined
  obtain ⟨hended, before, hbefore⟩ := haccounted.closed [] hdone
  rw [hdone, hlost hworks, unsent, List.append_nil, List.append_nil] at hsent
  subst hsent
  have hclosed := hcome
  rw [hbefore] at hclosed
  refine ⟨?_, Join.latest_le_close hclosed, ?_⟩
  · obtain ⟨missed, hpushed, hmissed⟩ := haccounted.passed
    rw [(haccounted.ended hended).2, hmissed (haccounted.reads hworks), List.append_nil,
      List.append_nil] at hpushed
    exact hpushed.symm
  · have hcarried := (Join.run_loses_nothing hcome).1
    rw [received, hbefore, ← Join.all_out_iff hclosed rfl, ← hbefore]
    constructor
    · -- As many batches have come out as are carried by them and the open ones together.
      intro hall
      have hlengths := hcarried.length_eq.symm.trans hall.length_eq
      rw [List.length_append, List.length_map] at hlengths
      exact List.length_eq_zero_iff.mp (by omega)
    · intro hnone
      rwa [hnone, List.map_nil, List.append_nil] at hcarried

/-- An interaction is taken in, and both inputs end. -/
theorem completed_gives_all_out_sample :
    ∃ history, Reachable Join.sampleRules .epoch history ∧
      history.run.control = .sending [] true ∧ history.pushed.length = 1 ∧
      history.received.Forall₂ MessageBatch.CarriedBy (joinedOf history.sent) := by
  have hinputs := (sample_taken_reachable.step .endInteractions).step .endObservations
  have hended : Reachable Join.sampleRules .epoch
      { sampleTaken with
        run := { sampleTaken.run with interactionsOpen := false }
        view := ⟨⟨1, [], false, true⟩, ⟨1, [], false, true⟩, .new 1, false, 0, .epoch⟩ } :=
    (hinputs.step (.turn (.notice rfl (.interactionsEnd rfl rfl)))).step (.turn (.listen rfl))
  have hclosed := hended.step (.turn (.notice rfl (.observationsEnd rfl rfl rfl)))
  have hsent := hclosed.step (.turn (.send rfl rfl rfl))
  have hall := (completed_gives_all_out hsent rfl).2.2.mpr
  exact ⟨_, hsent, rfl, rfl, hall (by decide)⟩

end JoinRun.History

namespace Join

/-- A configuration whose window is longer than the range of times. -/
def endlessWindow : Config :=
  { joinWindow := 9000000000000000 }

/-- The configuration is accepted, and the end of the observations leaves an interaction open. -/
theorem close_leaves_latest_open :
    endlessWindow.validate = .ok () ∧
      ∃ rules join entry, endlessWindow.joinRules? = .ok rules ∧
        (Join.new .epoch).run? rules
          [.interactions (sampleBatch 0 0 [("a", .interaction)]), .close] = some (join, []) ∧
        join.pending = [entry] ∧ entry.deadline = Instant.latest ∧
        join.clock.watermark = Instant.latest :=
  ⟨rfl, _, _, _, rfl, rfl, rfl, rfl, rfl⟩

end Join

end WindowJoin

import Mathlib.Data.List.TakeWhile
import WindowJoin.Proofs.Join.Attachment

/-!
# Which windows the watermark has passed

An event brings a deadline with a batch of interactions, or it moves the watermark and takes away the
deadlines in front that the watermark has passed (`Join.step_deadlines`). So the deadlines that have
come in are those that the watermark has passed and behind them those of the open batches
(`Join.run_deadlines`), and the oldest open batch is not passed. A later one may be: batches come out
in the order in which they came in, and a batch waits for an older one with a later deadline
(`Join.passed_stands_behind_open`, `Join.passed_batch_stays_open`).
-/

namespace WindowJoin

/-- The first item that a drop of those in front leaves fails the test. -/
theorem head_of_drop_while {α : Type} {test : α → Bool} {items : List α} {first : α}
    (h : first ∈ (items.dropWhile test).head?) : test first = false := by
  have hhead := List.head?_dropWhile_not test items
  rw [Option.mem_def.mp h] at hhead
  exact hhead

namespace Join

/-- The deadlines of the open batches, oldest batch first. -/
def deadlines (join : Join) : List Instant :=
  join.pending.map (·.deadline)

variable {rules : JoinRules} {join next : Join} {event : JoinEvent} {events : List JoinEvent}
  {out : List JoinOutput}

theorem flush_deadlines (join : Join) (clock : ObservationClock) :
    (join.flush clock).1.clock = clock ∧
      (join.flush clock).1.deadlines = join.deadlines.dropWhile (· < clock.watermark) := by
  refine ⟨rfl, ?_⟩
  have hleft := (flush_pending_split clock.watermark join.pending join.index).2
  rw [deadlines, deadlines, List.dropWhile_map]
  exact congrArg (List.map (·.deadline)) hleft

/-- A batch of interactions brings its deadline. Every other event moves the watermark on, and takes
away the deadlines in front that the watermark has passed. -/
theorem step_deadlines (h : join.step? rules event = some (next, out)) :
    (∃ batch, event = .interactions batch ∧ next.clock = join.clock ∧
      next.deadlines = join.deadlines ++ [rules.deadline batch]) ∨
    event.interactions? = none ∧ join.clock.watermark ≤ next.clock.watermark ∧
      next.deadlines = join.deadlines.dropWhile (· < next.clock.watermark) := by
  rcases step_cases h with ⟨batch, rfl, rfl⟩ | ⟨hnone, clock, pending, hmoves, rfl, hmap⟩
  · exact .inl ⟨batch, rfl, rfl, List.map_append ..⟩
  · exact .inr ⟨hnone, ObservationClock.le_moves hmoves,
      (hmap (·.deadline) fun _ _ _ => rfl).trans (flush_deadlines join clock).2⟩

/-- The deadlines of the batches of interactions that have come in are some that the watermark has
passed and behind them those of the open batches. -/
theorem run_deadlines {now : Instant} (h : (Join.new now).run? rules events = some (join, out)) :
    ∃ passed, (events.filterMap JoinEvent.interactions?).map rules.deadline =
        passed ++ join.deadlines ∧
      ∀ deadline ∈ passed, deadline < join.clock.watermark := by
  refine run_keeps (fun events join _ => ∃ passed,
    (events.filterMap JoinEvent.interactions?).map rules.deadline = passed ++ join.deadlines ∧
      ∀ deadline ∈ passed, deadline < join.clock.watermark) ⟨[], rfl, by simp⟩ ?_ h
  rintro events between - event next come - ⟨passed, hpassed, hlapsed⟩ hstep
  rw [List.filterMap_append, List.map_append, hpassed]
  rcases step_deadlines hstep with ⟨batch, rfl, hclock, hdeadlines⟩ | ⟨hnone, hle, hdeadlines⟩
  · refine ⟨passed, ?_, hclock ▸ hlapsed⟩
    rw [hdeadlines, List.append_assoc]
    rfl
  · -- The deadlines that are taken away join those that have been passed before.
    refine ⟨passed ++ between.deadlines.takeWhile (· < next.clock.watermark), ?_, ?_⟩
    · simp [hnone, hdeadlines, List.append_assoc]
    · intro deadline hdeadline
      rcases List.mem_append.mp hdeadline with hold | hnew
      · exact Instant.lt_of_lt_of_le (hlapsed deadline hold) hle
      · simpa using List.mem_takeWhile_imp hnew

/-- With an event that moves the watermark, the oldest batch that stays open is not passed. -/
theorem oldest_not_passed (h : join.step? rules event = some (next, out))
    (hevent : event.interactions? = none) {deadline : Instant}
    (holdest : deadline ∈ next.deadlines.head?) : next.clock.watermark ≤ deadline := by
  rcases step_deadlines h with ⟨batch, rfl, -, -⟩ | ⟨-, -, hdeadlines⟩
  · cases hevent
  · rw [hdeadlines] at holdest
    exact Instant.not_lt.mp (by simpa using head_of_drop_while holdest)

/-- After every event that moves the watermark, a batch that is open although the watermark has passed
its deadline stands behind an older open batch with a deadline that is not passed. If the batches of
interactions come in with deadlines that never decrease, no batch is open whose deadline is passed. -/
theorem passed_stands_behind_open {now : Instant}
    (h : (Join.new now).run? rules (events ++ [event]) = some (join, out))
    (hevent : event.interactions? = none) :
    (∀ position entry, join.pending[position]? = some entry →
      entry.deadline < join.clock.watermark →
      0 < position ∧ ∃ oldest ∈ join.pending.head?, join.clock.watermark ≤ oldest.deadline) ∧
    (((events.filterMap JoinEvent.interactions?).map rules.deadline).Pairwise (· ≤ ·) →
      ∀ entry ∈ join.pending, join.clock.watermark ≤ entry.deadline) := by
  obtain ⟨before, earlier, come, -, hstep, -⟩ := run_concat h
  have holdest {oldest : PendingBatch} (hmem : oldest ∈ join.pending.head?) :
      join.clock.watermark ≤ oldest.deadline := by
    refine oldest_not_passed hstep hevent ?_
    rw [deadlines, List.head?_map, Option.mem_def.mp hmem]
    rfl
  refine ⟨?_, ?_⟩
  · intro position entry hentry hpassed
    cases hpending : join.pending with
    | nil => simp [hpending] at hentry
    | cons oldest rest =>
        have hopen := holdest (by rw [hpending]; rfl)
        refine ⟨Nat.pos_of_ne_zero ?_, oldest, rfl, hopen⟩
        rintro rfl
        obtain rfl : oldest = entry := by simpa [hpending] using hentry
        exact Instant.lt_irrefl _ (Instant.lt_of_lt_of_le hpassed hopen)
  · intro hordered entry hentry
    obtain ⟨passed, hpassed, -⟩ := run_deadlines h
    rw [List.filterMap_append] at hpassed
    simp only [List.filterMap_cons, hevent, List.filterMap_nil, List.append_nil] at hpassed
    rw [hpassed, deadlines] at hordered
    have hopen := (List.pairwise_append.mp hordered).2.1
    -- The oldest open batch is not passed, and the deadlines behind it are not earlier.
    cases hpending : join.pending with
    | nil => simp [hpending] at hentry
    | cons oldest rest =>
        have hfront := holdest (by rw [hpending]; rfl)
        rw [hpending, List.map_cons, List.pairwise_cons] at hopen
        rw [hpending] at hentry
        rcases List.mem_cons.mp hentry with rfl | hlater
        · exact hfront
        · exact Instant.le_trans hfront (hopen.1 _ (List.mem_map_of_mem hlater))

/-- Two batches come in, of which the older one is open until thirty seconds and the other one until
ten. -/
def lateThenEarly : List JoinEvent :=
  [.interactions (sampleBatch 0 20000 [("b", .interaction)]),
    .interactions (sampleBatch 1 0 [("a", .interaction)])]

/-- A batch of observations without messages, after fifteen seconds. -/
def fifteenSeconds : JoinEvent :=
  .observations .epoch (sampleBatch 2 15000 [])

theorem passed_stands_behind_open_sample :
    ∃ join out entry,
      (Join.new .epoch).run? sampleRules (lateThenEarly ++ [fifteenSeconds]) = some (join, out) ∧
      join.pending[1]? = some entry ∧ entry.deadline < join.clock.watermark ∧
      ∃ oldest ∈ join.pending.head?, join.clock.watermark ≤ oldest.deadline := by
  have hrun : (Join.new .epoch).run? sampleRules (lateThenEarly ++ [fifteenSeconds]) = some _ := rfl
  have hstands := (passed_stands_behind_open hrun rfl).1 1 _ rfl (by decide)
  exact ⟨_, _, _, hrun, rfl, by decide, hstands.2⟩

/-- After fifteen seconds nothing has come out, and the deadline of the second batch is passed. -/
theorem passed_batch_stays_open :
    ∃ join, (Join.new .epoch).run? sampleRules (lateThenEarly ++ [fifteenSeconds]) = some (join, []) ∧
      ∃ entry ∈ join.pending, entry.deadline < join.clock.watermark := by
  refine ⟨_, rfl, _, List.mem_cons_of_mem _ List.mem_cons_self, ?_⟩
  decide

end Join

end WindowJoin

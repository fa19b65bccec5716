import Mathlib.Logic.Relation
import WindowJoin.Proofs.Join.Attachment
import WindowJoin.Proofs.Join.History

/-!
# What has come in when a batch of observations is joined

A batch of observations is held until the interactions have come as far in time, or have ended, or
have been silent for too long. If they come in the order of their times, and the batch is not joined
because of a silence, then everything that comes in afterwards is at or after the time of the batch
(`JoinRun.History.joined_behind_interactions`): all earlier interactions are there. But the first
interactions at the very time of the batch let it go, and others of that time may still be on their
way (`JoinRun.History.joined_before_simultaneous`).
-/

namespace WindowJoin

/-- The latest time of interactions that a join knows is that of a batch that has come in. -/
theorem Join.run_latest {rules : JoinRules} {now time : Instant} {events : List JoinEvent}
    {join : Join} {out : List JoinOutput}
    (h : (Join.new now).run? rules events = some (join, out))
    (htime : join.latestInteraction = some time) :
    ∃ batch ∈ events.filterMap JoinEvent.interactions?, batch.enqueuedTime = time := by
  refine run_keeps (fun events join _ => ∀ time, join.latestInteraction = some time →
    ∃ batch ∈ events.filterMap JoinEvent.interactions?, batch.enqueuedTime = time)
    (fun _ hnone => by cases hnone) ?_ h time htime
  intro events between before event next come _ hknown hstep time htime
  rw [List.filterMap_append]
  have hearlier (hbefore : between.latestInteraction = some time) :
      ∃ batch ∈ events.filterMap JoinEvent.interactions? ++
        [event].filterMap JoinEvent.interactions?, batch.enqueuedTime = time := by
    obtain ⟨batch, hbatch, hsame⟩ := hknown time hbefore
    exact ⟨batch, List.mem_append_left _ hbatch, hsame⟩
  rcases step_cases hstep with ⟨batch, rfl, rfl⟩ | ⟨-, clock, pending, -, rfl, -⟩
  · have hnew : batch ∈ events.filterMap JoinEvent.interactions? ++
        [JoinEvent.interactions batch].filterMap JoinEvent.interactions? :=
      List.mem_append_right _ List.mem_cons_self
    cases hlatest : between.latestInteraction with
    | none => exact ⟨batch, hnew, by simpa [addInteractions, hlatest] using htime⟩
    | some latest =>
        simp only [addInteractions, hlatest, Option.elim_some, Option.some.injEq,
          Instant.max] at htime
        split at htime
        next => exact ⟨batch, hnew, htime⟩
        next => exact hearlier (htime ▸ hlatest)
  · exact hearlier htime

namespace JoinRun

/-- The interactions have come as far in time as a batch of observations, or have ended. -/
def reached (run : JoinRun) (batch : MessageBatch) : Bool :=
  !run.interactionsOpen || run.join.caughtUp batch

variable {rules : JoinRules} {run : JoinRun} {view : View} {next : JoinRun × View}
  {before after : List JoinEvent} {sent : List JoinOutput} {now : Instant} {batch : MessageBatch}

/-- A turn in which a batch of observations is joined takes no interactions in after it, and the join
goes on. -/
theorem Turn.after_joined
    (h : Turn rules run view (before ++ .observations now batch :: after) sent next) :
    after.filterMap JoinEvent.interactions? = [] ∧ next.1.isFinished = false := by
  generalize hevents : before ++ JoinEvent.observations now batch :: after = events at h
  cases h with
  | @notice events out noticed seen hcontrol hnotice =>
      have hsettling := History.settling_interactions rules noticed seen
      obtain ⟨join, held, come, last, -, hsettle, -, -⟩ := settle_spec rules noticed seen out
      refine ⟨?_, by rw [hsettle, isFinished]⟩
      -- What is taken notice of is no joining, so the joining is among what settles.
      have htail (start : List JoinEvent)
          (hsplit : start ++ JoinEvent.observations now batch :: after =
            noticed.settling rules seen) : after.filterMap JoinEvent.interactions? = [] := by
        rw [← hsplit, List.filterMap_append, List.append_eq_nil_iff] at hsettling
        exact hsettling.2
      cases hnotice with
      | interactions | observationsEnd | tick =>
          cases before with
          | nil => cases hevents
          | cons first rest => exact htail rest (List.cons.inj hevents).2
      | interactionsEnd | hold | patience => exact htail before hevents
  | breakOff | send | listen | complete | cancel | refuse => simp at hevents

namespace History

/-- One history leads to another by steps. -/
def Leads (rules : JoinRules) : History → History → Prop :=
  Relation.ReflTransGen (Step rules)

variable {wall : Instant} {history later : History}

theorem Leads.reachable (h : Leads rules history later) (hreachable : Reachable rules wall history) :
    Reachable rules wall later := by
  induction h with
  | refl => exact hreachable
  | tail _ hstep ih => exact ih.step hstep

/-- What has been taken in stays taken in, and what comes in later comes behind it. -/
theorem Leads.received_prefix (h : Leads rules history later) :
    history.received <+: later.received := by
  induction h with
  | refl => exact List.prefix_refl _
  | tail _ hstep ih =>
      cases hstep with
      | turn hturn =>
          rw [received_after]
          exact ih.trans (List.prefix_append ..)
      | pushInteractions | pushObservations | endInteractions | endObservations | receive | leave
      | cancel | elapse => exact ih

/-- A writer that has gone does not come back with a turn. -/
theorem turn_writer {events : List JoinEvent} (h : Turn rules run view events sent next) :
    next.2.interactions.senderOpen = view.interactions.senderOpen := by
  cases h with
  | @notice events out noticed seen hcontrol hnotice =>
      obtain ⟨join, held, come, last, -, hsettle, -, -⟩ := settle_spec rules noticed seen out
      rw [hsettle]
      cases hnotice with
      | interactions hopen hreceive => rw [(Channel.receive_eq hreceive).2]
      | interactionsEnd | hold | observationsEnd | patience | tick => rfl
  | breakOff | send | listen | complete | cancel | refuse => rfl

/-- Nothing is pushed by a writer that has gone. -/
theorem Leads.pushed_of_gone (h : Leads rules history later)
    (hgone : history.view.interactions.senderOpen = false) : later.pushed = history.pushed := by
  suffices hkept : later.view.interactions.senderOpen = false ∧ later.pushed = history.pushed from
    hkept.2
  induction h with
  | refl => exact ⟨hgone, rfl⟩
  | tail _ hstep ih =>
      cases hstep with
      | turn hturn => exact ⟨(turn_writer hturn).trans ih.1, ih.2⟩
      | pushInteractions hopen hsend =>
          rw [ih.1] at hopen
          cases hopen
      | endInteractions => exact ⟨rfl, ih.2⟩
      | pushObservations | endObservations | receive | leave | cancel | elapse => exact ih

/-- All interactions that are pushed have been taken in once the join works on after their end. -/
theorem Accounted.all_received (h : history.Accounted rules wall)
    (hworks : history.run.isFinished = false) (hended : history.run.interactionsOpen = false) :
    history.view.interactions.senderOpen = false ∧ history.pushed = history.received := by
  obtain ⟨hgone, hqueue⟩ := h.ended hended
  obtain ⟨missed, hpushed, hmissed⟩ := h.passed
  rw [hqueue, hmissed (h.reads hworks), List.append_nil, List.append_nil] at hpushed
  exact ⟨hgone, hpushed⟩

/-- When the interactions have come as far as a batch of observations, or have ended, then what is still
missing of them is not before the batch in time, if they are pushed in the order of their times. It is
at the very time of the batch only if the latest interactions so far are, and after the end of the
interactions nothing is missing. -/
theorem Reachable.missing_behind (h : Reachable rules wall history)
    (hworks : history.run.isFinished = false) (hreached : history.run.reached batch = true)
    (hlater : Leads rules history later)
    (hordered : later.pushed.Pairwise (·.enqueuedTime ≤ ·.enqueuedTime)) :
    ∃ missing, later.pushed = history.received ++ missing ∧
      ∀ interactions ∈ missing, history.run.interactionsOpen = true ∧
        batch.enqueuedTime ≤ interactions.enqueuedTime ∧
        (interactions.enqueuedTime = batch.enqueuedTime →
          history.run.join.latestInteraction = some batch.enqueuedTime) := by
  obtain ⟨missing, hmissing⟩ :=
    hlater.received_prefix.trans (hlater.reachable h).accounted.passed.begins
  refine ⟨missing, hmissing.symm, fun interactions hinteractions => ?_⟩
  cases hopen : history.run.interactionsOpen with
  | false =>
      -- All has been taken in, and no more is pushed.
      obtain ⟨hgone, hall⟩ := h.accounted.all_received hworks hopen
      rw [hlater.pushed_of_gone hgone, hall, List.append_right_eq_self] at hmissing
      rw [hmissing] at hinteractions
      cases hinteractions
  | true =>
      rw [reached, hopen, Bool.not_true, Bool.false_or, Join.caughtUp, Option.any_eq_true] at hreached
      obtain ⟨latest, hlatest, hle⟩ := hreached
      have hbatch : batch.enqueuedTime ≤ latest := of_decide_eq_true hle
      obtain ⟨come, hcome, -⟩ := h.accounted.joined
      obtain ⟨received, hreceived, rfl⟩ := Join.run_latest hcome hlatest
      rw [← hmissing] at hordered
      have hbehind := (List.pairwise_append.mp hordered).2.2 received hreceived interactions
        hinteractions
      refine ⟨rfl, Instant.le_trans hbatch hbehind, fun hsame => ?_⟩
      rw [hlatest, Instant.le_antisymm (hsame ▸ hbehind) hbatch]

/-- A batch of observations is joined, and not because of a silence. Whatever happens later, if the
interactions that are pushed come in the order of their times, those that had not come in when the
batch was joined are not before it in time. One of them is at the very time of the batch only if the
latest interactions that had come in are at that time too, and there is none if the interactions had
ended. -/
theorem joined_behind_interactions (h : Reachable rules wall history)
    (hturn : Turn rules history.run history.view
      (before ++ .observations now batch :: after) sent next)
    (hreached : next.1.reached batch = true)
    (hlater : Leads rules
      (history.after (before ++ .observations now batch :: after) sent next) later)
    (hordered : later.pushed.Pairwise (·.enqueuedTime ≤ ·.enqueuedTime)) :
    ∃ missing, later.pushed =
        (history.events ++ before).filterMap JoinEvent.interactions? ++ missing ∧
      ∀ interactions ∈ missing, next.1.interactionsOpen = true ∧
        batch.enqueuedTime ≤ interactions.enqueuedTime ∧
        (interactions.enqueuedTime = batch.enqueuedTime →
          next.1.join.latestInteraction = some batch.enqueuedTime) := by
  obtain ⟨hafter, hworks⟩ := hturn.after_joined
  obtain ⟨missing, hmissing, hbehind⟩ :=
    (h.step (.turn hturn)).missing_behind hworks hreached hlater hordered
  have hnone : (JoinEvent.observations now batch :: after).filterMap JoinEvent.interactions? = [] :=
    hafter
  rw [received_after, received, List.filterMap_append, hnone, List.append_nil,
    ← List.filterMap_append] at hmissing
  exact ⟨missing, hmissing, hbehind⟩

/-! ## Two partitions at one time -/

/-- An interaction after five seconds. -/
def sampleFirst : MessageBatch :=
  Join.sampleBatch 0 5000 [("a", .interaction)]

/-- An interaction of another partition, at the same time. -/
def sampleSecond : MessageBatch :=
  { Join.sampleBatch 0 5000 [("b", .interaction)] with partition := "1" }

/-- The observation of the second interaction, at the same time. -/
def sampleObserved : MessageBatch :=
  Join.sampleBatch 1 5000 [("b", .observation)]

/-- The observation is held, and the first interaction is about to be taken in. -/
def sampleWaits : History where
  run := { JoinRun.start Join.sampleRules 0 .epoch with held := some sampleObserved }
  view := ⟨⟨1, [sampleFirst], true, true⟩, .new 1, .new 1, false, 0, .epoch⟩
  pushed := [sampleFirst]
  events := []
  sent := []

theorem sample_waits_reachable : Reachable Join.sampleRules .epoch sampleWaits := by
  have hstart : Reachable Join.sampleRules .epoch _ := .start 1 1 1 false 0
  have hobserved := hstart.step (@Step.pushObservations _ _ sampleObserved _ rfl rfl)
  have hheld := (hobserved.step (.turn (.notice rfl (.hold rfl rfl rfl)))).step (.turn (.listen rfl))
  exact hheld.step (@Step.pushInteractions _ _ sampleFirst _ rfl rfl)

/-- The first interaction lets the observation go. -/
theorem sample_joins : ∃ next, Turn Join.sampleRules sampleWaits.run sampleWaits.view
    ([.interactions sampleFirst] ++ .observations .epoch sampleObserved :: []) [] next ∧
      next.1.reached sampleObserved = true ∧ ∃ later, Leads Join.sampleRules (sampleWaits.after
          ([.interactions sampleFirst] ++ .observations .epoch sampleObserved :: []) [] next) later ∧
        later.pushed = [sampleFirst, sampleSecond] := by
  have hturn : Turn Join.sampleRules sampleWaits.run sampleWaits.view
      ([.interactions sampleFirst] ++ .observations .epoch sampleObserved :: []) [] _ :=
    .notice rfl (.interactions rfl rfl)
  exact ⟨_, hturn, rfl, _,
    .single (@Step.pushInteractions _ _ sampleSecond _ rfl rfl), rfl⟩

/-- The second interaction is missing when its observation is joined, and the first one is at the same
time. -/
theorem joined_behind_interactions_sample :
    ∃ (next : JoinRun × View) (later : History) (missing : List MessageBatch),
      Turn Join.sampleRules sampleWaits.run sampleWaits.view
        ([.interactions sampleFirst] ++ .observations .epoch sampleObserved :: []) [] next ∧
      later.pushed = [sampleFirst, sampleSecond] ∧ later.pushed = [sampleFirst] ++ missing ∧
      ∀ interactions ∈ missing,
        sampleObserved.enqueuedTime ≤ interactions.enqueuedTime ∧
        (interactions.enqueuedTime = sampleObserved.enqueuedTime →
          next.1.join.latestInteraction = some sampleObserved.enqueuedTime) := by
  obtain ⟨next, hturn, hreached, later, hlater, hpushed⟩ := sample_joins
  obtain ⟨missing, hmissing, hbehind⟩ := joined_behind_interactions sample_waits_reachable hturn
    hreached hlater (by rw [hpushed]; decide)
  exact ⟨next, later, missing, hturn, hpushed, hmissing,
    fun interactions hmem => (hbehind interactions hmem).2⟩

/-- The observation is joined although the interactions are pushed in the order of their times and the
second one, which it belongs to and which is not after it, has not come in. -/
theorem joined_before_simultaneous :
    ∃ (next : JoinRun × View) (later : History), Reachable Join.sampleRules .epoch sampleWaits ∧
      Turn Join.sampleRules sampleWaits.run sampleWaits.view
        ([.interactions sampleFirst] ++ .observations .epoch sampleObserved :: []) [] next ∧
      next.1.reached sampleObserved = true ∧
      Leads Join.sampleRules (sampleWaits.after
        ([.interactions sampleFirst] ++ .observations .epoch sampleObserved :: []) [] next) later ∧
      later.pushed.Pairwise (·.enqueuedTime ≤ ·.enqueuedTime) ∧
      sampleSecond ∈ later.pushed ∧
      sampleSecond.enqueuedTime ≤ sampleObserved.enqueuedTime ∧
      sampleSecond ∉ (sampleWaits.events ++ [JoinEvent.interactions sampleFirst]).filterMap
        JoinEvent.interactions? := by
  obtain ⟨next, hturn, hreached, later, hlater, hpushed⟩ := sample_joins
  refine ⟨next, later, sample_waits_reachable, hturn, hreached, hlater, ?_, ?_, by decide, by decide⟩
  · rw [hpushed]
    decide
  · rw [hpushed]
    decide

end History

end JoinRun

end WindowJoin

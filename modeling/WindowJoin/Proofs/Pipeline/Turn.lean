import WindowJoin.Pipeline.Machine

/-!
# The turns of a pipeline

A transition of a pipeline is the turn of one of its parts. `Pipeline.StartTurn` lists what the start
can do and under which condition (`start_steps_turn`), and `Pipeline.Turn` whose turn it can be
(`transitions_turn`). What a part does in its turn is said where its own transitions are.
-/

namespace WindowJoin

namespace Pipeline

/-- A step of the start, and what comes of it. -/
inductive StartTurn (pipeline : Pipeline) (view : View) : Pipeline × View → Prop where
  | resume {attempts : Attempts} {time : Nat} : pipeline.phase = .resuming attempts time →
      time ≤ view.now → StartTurn pipeline view (pipeline.resume view attempts)
  /-- The interactions have been waited for, and the observations are next. -/
  | await : pipeline.phase = .awaiting .interactions [] →
      StartTurn pipeline view (pipeline.await view .observations, view)
  | runAll : pipeline.phase = .awaiting .observations [] →
      StartTurn pipeline view (pipeline.runAll view, view)
  /-- The wait for the first batch of a partition ends, with a batch or without. -/
  | firstBatch {role : Role} {waits : List Merge.Wait} {wait : Merge.Wait} {slot : MergeSlot}
      {ready : Bool} {source : PartitionSource} :
      pipeline.phase = .awaiting role waits → wait ∈ waits →
      (pipeline.side role).slots[wait.slot]? = some slot →
      slot.source.continueWait (pipeline.stopsJoin view) view.now wait.deadline =
        (some ready, source) →
      StartTurn pipeline view
        ({ pipeline.setSide role { pipeline.side role with
            slots := (pipeline.side role).slots.set wait.slot { slot with source } } with
          phase := .awaiting role (waits.erase wait) }, view)

/-- A transition of a pipeline, by the part whose turn it is. -/
inductive Turn (pipeline : Pipeline) (view : View) : Pipeline × View → Prop where
  | start {next : Pipeline × View} : StartTurn pipeline view next → Turn pipeline view next
  | receiver {role : Role} {next : Pipeline × View} : pipeline.receives = true →
      next ∈ pipeline.receiverSteps view role → Turn pipeline view next
  | checkpointer {next : Pipeline × View} : pipeline.receives = true →
      next ∈ pipeline.checkpointerSteps view → Turn pipeline view next
  /-- Supervision notes the oldest ending. -/
  | supervision {component : Component} {ending : Ending} {endings : List (Component × Ending)} :
      pipeline.phase = .running → pipeline.endings = (component, ending) :: endings →
      Turn pipeline view
        ({ pipeline with endings, supervision := pipeline.supervision.note component ending }, view)
  | merge {role : Role} {next : Pipeline × View} : pipeline.phase = .running →
      next ∈ pipeline.mergeSteps view role → Turn pipeline view next
  | join {next : Pipeline × View} : pipeline.phase = .running →
      next ∈ pipeline.joinSteps view → Turn pipeline view next
  | fanOut {next : Pipeline × View} : pipeline.phase = .running →
      pipeline.settings.billed = true → next ∈ pipeline.fanOutSteps view → Turn pipeline view next
  | billing {next : Pipeline × View} : pipeline.phase = .running →
      pipeline.settings.billed = true → next ∈ pipeline.billingSteps view → Turn pipeline view next

variable {pipeline : Pipeline} {view : View} {next : Pipeline × View}

/-- The start is over when everything runs. -/
theorem StartTurn.not_running (h : StartTurn pipeline view next) : pipeline.phase ≠ .running := by
  cases h <;> simp [*]

theorem start_steps_turn (h : next ∈ pipeline.startSteps view) : StartTurn pipeline view next := by
  unfold startSteps at h
  split at h
  next hphase =>
    split at h
    next htime =>
      obtain rfl := List.mem_singleton.mp h
      exact .resume hphase htime
    next => cases h
  next hphase =>
    obtain rfl := List.mem_singleton.mp h
    exact .await hphase
  next hphase =>
    obtain rfl := List.mem_singleton.mp h
    exact .runAll hphase
  next hphase =>
    obtain ⟨wait, hmem, hwait⟩ := List.mem_filterMap.mp h
    dsimp only at hwait
    split at hwait
    next => cases hwait
    next hslot =>
      split at hwait
      next => cases hwait
      next hcontinue =>
        obtain rfl := Option.some.inj hwait
        exact .firstBatch hphase hmem hslot hcontinue
  next => cases h
  next => cases h

/-- A part that runs from the first batches on has its turn when everything runs. -/
theorem running_steps_turn (hphase : pipeline.phase = .running)
    (h : next ∈ pipeline.runningSteps view) : Turn pipeline view next := by
  unfold runningSteps at h
  simp only [List.mem_append] at h
  rcases h with (((hsupervision | hmerge) | hmerge) | hjoin) | hbehind
  · unfold supervisionSteps at hsupervision
    split at hsupervision
    next => cases hsupervision
    next hendings =>
      obtain rfl := List.mem_singleton.mp hsupervision
      exact .supervision hphase hendings
  · exact .merge hphase hmerge
  · exact .merge hphase hmerge
  · exact .join hphase hjoin
  · split at hbehind
    next hbilled =>
      rcases List.mem_append.mp hbehind with hfanOut | hbilling
      · exact .fanOut hphase hbilled hfanOut
      · exact .billing hphase hbilled hbilling
    next => cases hbehind

theorem transitions_turn (h : next ∈ pipeline.transitions view) : Turn pipeline view next := by
  unfold transitions at h
  simp only [List.mem_append] at h
  rcases h with (hstart | hreceiving) | hrunning
  · exact .start (start_steps_turn hstart)
  · split at hreceiving
    next hreceives =>
      simp only [List.mem_append] at hreceiving
      rcases hreceiving with (hreceiver | hreceiver) | hcheckpointer
      · exact .receiver hreceives hreceiver
      · exact .receiver hreceives hreceiver
      · exact .checkpointer hreceives hcheckpointer
    next => cases hreceiving
  · split at hrunning
    next hphase => exact running_steps_turn hphase hrunning
    next => cases hrunning

end Pipeline

end WindowJoin

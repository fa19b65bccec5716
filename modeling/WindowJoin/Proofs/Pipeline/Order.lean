import WindowJoin.Proofs.Pipeline.Joining
import WindowJoin.Proofs.Pipeline.Merging
import WindowJoin.Proofs.Pipeline.Turn
import WindowJoin.Proofs.Pipeline.World

/-!
# The stages of a pipeline in order

`Orderly` strings the stages of a pipeline together, from the logs of the interactions to the
consumer: what has come out of one stage is what has gone into the next. A step of one stage keeps
its own link and leaves the others as they are (`transitions_orderly`), and a stage that breaks off
leaves a gap behind which nothing comes out any more (`crash_orderly`).
-/

namespace WindowJoin

namespace Pipeline

/-- The channel into which the join sends: to the fan-out if there is billing, else to the
consumer. -/
def joinOutput (pipeline : Pipeline) (outputs : Channel JoinOutput) : Channel JoinOutput :=
  if pipeline.settings.billed then pipeline.joined else outputs

/-- What has been received from the join has been received by the consumer, or is on its way. -/
def Forwards (pipeline : Pipeline) (outputs : Channel JoinOutput)
    (given delivered : List JoinOutput) : Prop :=
  if pipeline.settings.billed then
    ∃ forwarded, Conserved given (FanOut.unsent pipeline.fanOut) forwarded
      (pipeline.fanOut ≠ .finished) ∧ outputs.Passes forwarded delivered
  else given = delivered

/-- What has come out of the stages so far: `popped` from the sources, `sent` by the merge of the
interactions, `taken` by the join, `out` of the join, and `given` to what is behind it. -/
structure Histories where
  popped : List MessageBatch
  sent : List MessageBatch
  taken : List MessageBatch
  out : List JoinOutput
  given : List JoinOutput

/-- What has come out of each stage has gone into the next. -/
structure Orderly (stream : String) (startOf : String → StartPosition) (pipeline : Pipeline)
    (view : View) (delivered : List JoinOutput) (past : Histories) : Prop where
  labelled : view.transport.Labelled
  lanes : Lanes stream startOf view.transport past.popped pipeline.interactions.receivers
    (stocksOf pipeline.interactions.slots)
  sends : Merge.Sends pipeline.interactions.merge pipeline.interactions.merged past.popped past.sent
    past.taken
  joins : pipeline.join.Joins past.taken past.out
  gives : (pipeline.joinOutput view.outputs).Passes past.out past.given
  forwards : pipeline.Forwards view.outputs past.given delivered
  /-- Before everything runs, the merge and the join have done nothing. -/
  waiting : pipeline.phase ≠ .running → pipeline.interactions.merge = none ∧
    pipeline.join.control = .listening ∧ pipeline.join.join.batches = []

/-- The stages fit together. -/
def InOrder (stream : String) (startOf : String → StartPosition) (pipeline : Pipeline) (view : View)
    (delivered : List JoinOutput) : Prop :=
  ∃ past, Orderly stream startOf pipeline view delivered past

variable {stream : String} {startOf : String → StartPosition} {pipeline : Pipeline} {view : View}
  {next : Pipeline × View} {delivered : List JoinOutput} {past : Histories}

theorem Orderly.ends (h : Orderly stream startOf pipeline view delivered past)
    (component : Component) (ending : Option Ending) :
    Orderly stream startOf (pipeline.ends component ending) view delivered past := by
  cases ending with
  | none => exact h
  | some ending => exact { h with }

/-! ## The start -/

theorem Orderly.await (h : Orderly stream startOf pipeline view delivered past)
    (hphase : pipeline.phase ≠ .running) (now : View) (role : Role) :
    Orderly stream startOf (pipeline.await now role) view delivered past := by
  cases role with
  | interactions =>
      refine { h with lanes := ?_, waiting := fun _ => h.waiting hphase }
      show Lanes _ _ _ _ _ (stocksOf (pipeline.interactions.slots.map (·.fill)))
      rw [stocks_of_map _ MergeSlot.fill_stock]
      exact h.lanes
  | observations =>
      exact { h with waiting := fun _ => h.waiting hphase }

theorem Orderly.launch (h : Orderly stream startOf pipeline view delivered past)
    (hphase : pipeline.phase ≠ .running) (now : View) :
    Orderly stream startOf (pipeline.launch now) view delivered past := by
  let started := { pipeline with
    checkpointer := .start pipeline.settings.checkpointer pipeline.checkpointer.checkpoint now.now }
  have hstarted : Orderly stream startOf started view delivered past :=
    { h with }
  exact hstarted.await hphase now .interactions

/-- When the rest of the pipeline begins to run, no stage behind the sources has anything yet. -/
theorem Orderly.run_all (h : Orderly stream startOf pipeline view delivered past)
    (hphase : pipeline.phase ≠ .running) :
    Orderly stream startOf (pipeline.runAll view) view delivered past := by
  -- The join starts afresh here, so it has to be known that it held nothing before.
  obtain ⟨hmerge, hcontrol, hbatches⟩ := h.waiting hphase
  obtain ⟨come, hcarried, hconserved⟩ := h.joins
  refine { h with
    sends := ⟨?_, h.sends.passes⟩
    joins := ⟨come, ?_, ?_⟩
    waiting := ?_ }
  · have hsends := h.sends.conserved
    rw [hmerge] at hsends
    exact hsends.mono fun _ => nofun
  · rw [hbatches] at hcarried
    exact hcarried
  · rw [hcontrol] at hconserved
    exact hconserved.mono fun _ => by simp [JoinRun.isFinished, hcontrol]
  · intro hrunning
    exact absurd rfl hrunning

theorem Orderly.resume (h : Orderly stream startOf pipeline view delivered past)
    (hphase : pipeline.phase ≠ .running) (attempts : Attempts) :
    Orderly stream startOf (pipeline.resume view attempts).1 (pipeline.resume view attempts).2
      delivered past := by
  unfold Pipeline.resume
  dsimp only
  split
  · exact { h with waiting := fun _ => h.waiting hphase }
  · exact { h with waiting := fun _ => h.waiting hphase }
  next data hread =>
    let account := BillingAccount.ofCheckpoint
      (CheckpointStore.checkpointIn BillingCheckpoint.ofJson data)
    have hresumed : Orderly stream startOf { pipeline with billing := .start account } view
        delivered past := { h with }
    have hlaunched := hresumed.launch hphase
      { view with blobs := ((Guarded.access MemoryBlobs.access).read
          pipeline.settings.billing.blobName view.blobs).2 }
    exact { hlaunched with }

/-- While the first batches are waited for, they move to the heads of their sources. -/
theorem Orderly.first_batch (h : Orderly stream startOf pipeline view delivered past)
    (hphase : pipeline.phase ≠ .running) {role : Role} {index : Nat} {slot : MergeSlot}
    (hslot : (pipeline.side role).slots[index]? = some slot) {source : PartitionSource}
    (hsource : source.stock = slot.source.stock) (waits : List Merge.Wait) :
    let side := pipeline.side role
    Orderly stream startOf
      { pipeline.setSide role { side with slots := side.slots.set index { slot with source } } with
        phase := .awaiting role waits } view delivered past := by
  cases role with
  | interactions =>
      have hlanes := h.lanes
      have hslot : pipeline.interactions.slots[index]? = some slot := hslot
      rw [← stocks_of_set hslot { slot with source } hsource] at hlanes
      exact { h with lanes := hlanes, waiting := fun _ => h.waiting hphase }
  | observations =>
      exact { h with waiting := fun _ => h.waiting hphase }

theorem StartTurn.orderly (hturn : StartTurn pipeline view next)
    (h : Orderly stream startOf pipeline view delivered past) :
    Orderly stream startOf next.1 next.2 delivered past := by
  have hwaits := hturn.not_running
  cases hturn with
  | resume => exact h.resume hwaits _
  | await => exact h.await hwaits view .observations
  | runAll => exact h.run_all hwaits
  | @firstBatch role waits wait slot ready source hphase hmem hslot hcontinue =>
      refine h.first_batch hwaits hslot ?_ _
      have hstock := slot.source.continue_wait_stock (pipeline.stopsJoin view) view.now
        wait.deadline
      rwa [hcontinue] at hstock

/-! ## The parts at work -/

theorem receiver_steps_orderly {role : Role}
    (h : Orderly stream startOf pipeline view delivered past)
    (hnext : next ∈ pipeline.receiverSteps view role) :
    Orderly stream startOf next.1 next.2 delivered past := by
  obtain ⟨⟨⟨receiver, slot⟩, index⟩, hmem, hstep⟩ := List.mem_flatMap.mp hnext
  obtain ⟨⟨reader, seen⟩, htransition, rfl⟩ := List.mem_map.mp hstep
  have hmove := Receiver.transitions_move htransition
  obtain ⟨hreceiver, hslot⟩ := List.getElem?_zip_eq_some.mp (List.mem_zipIdx_iff_getElem?.mp hmem)
  refine Orderly.ends ?_ _ _
  cases role with
  | interactions =>
      have hstock : (stocksOf pipeline.interactions.slots)[index]? = some slot.source.stock :=
        stocks_of_slot hslot
      -- One lane moves; to the others the transport looks as before.
      have hlane := (h.lanes.lane hreceiver hstock).receive hmove
      refine { h with labelled := h.labelled.congr hmove.events, lanes := ?_ }
      have hlanes := (h.lanes.congr hmove.events).set hstock hmove.partition hlane
      show Lanes _ _ _ _ _
        (stocksOf (pipeline.interactions.slots.set index { slot with source := seen.source }))
      rw [stocksOf, List.map_set]
      exact hlanes
  | observations =>
      -- A receiver of the observations changes the failures that the transport has in store.
      exact { h with
        labelled := h.labelled.congr hmove.events
        lanes := h.lanes.congr hmove.events }

theorem merge_steps_orderly {role : Role} (hphase : pipeline.phase = .running)
    (h : Orderly stream startOf pipeline view delivered past)
    (hnext : next ∈ pipeline.mergeSteps view role) :
    InOrder stream startOf next.1 next.2 delivered := by
  unfold mergeSteps at hnext
  dsimp only at hnext
  split at hnext
  next => cases hnext
  next control hcontrol =>
    obtain ⟨⟨after, seen⟩, htransition, rfl⟩ := List.mem_map.mp hnext
    cases role with
    | interactions =>
        have hmerge : pipeline.interactions.merge = some control := hcontrol
        have hsends := h.sends
        rw [hmerge] at hsends
        obtain ⟨popped, sent, hlanes, hafter⟩ :=
          (Merge.transitions_move htransition).keeps h.labelled h.lanes hsends
        refine ⟨{ past with popped, sent }, Orderly.ends ?_ _ _⟩
        exact { h with
          lanes := hlanes
          sends := hafter
          waiting := fun hwaits => absurd hphase hwaits }
    | observations =>
        refine ⟨past, Orderly.ends ?_ _ _⟩
        exact { h with }

/-- The join goes on from what the merge has sent to what is behind it. -/
theorem Orderly.join_passes (h : Orderly stream startOf pipeline view delivered past) :
    pipeline.join.Passes
      { interactions := pipeline.interactions.merged
        observations := pipeline.observations.merged
        output := pipeline.joinOutput view.outputs
        cancelled := pipeline.stopsJoin view
        now := view.now
        wall := view.wall } past.sent past.given :=
  ⟨past.taken, past.out, h.sends.passes, h.joins, h.gives⟩

/-- A join that still goes on from there to there takes the place of the join. -/
theorem Orderly.with_join (hphase : pipeline.phase = .running)
    (h : Orderly stream startOf pipeline view delivered past) {run : JoinRun} {seen : JoinRun.View}
    (hpasses : run.Passes seen past.sent past.given) :
    InOrder stream startOf
      { pipeline with
        join := run
        interactions.merged := seen.interactions
        observations.merged := seen.observations
        joined := if pipeline.settings.billed then seen.output else pipeline.joined }
      { view with outputs := if pipeline.settings.billed then view.outputs else seen.output }
      delivered := by
  obtain ⟨taken, out, hinput, hjoins, houtput⟩ := hpasses
  refine ⟨{ past with taken, out }, { h with
    sends := ⟨h.sends.conserved, hinput⟩
    joins := hjoins
    gives := ?_
    forwards := ?_
    waiting := fun hwaits => absurd hphase hwaits }⟩
  · -- Whether there is billing decides which of the two channels the join has sent to.
    unfold joinOutput
    dsimp only
    split
    · exact houtput
    · exact houtput
  · have hforwards := h.forwards
    unfold Forwards at hforwards ⊢
    dsimp only
    split
    next hbilled =>
      rw [if_pos hbilled] at hforwards
      exact hforwards
    next hbilled =>
      rw [if_neg hbilled] at hforwards
      exact hforwards

theorem join_steps_orderly (hphase : pipeline.phase = .running)
    (h : Orderly stream startOf pipeline view delivered past)
    (hnext : next ∈ pipeline.joinSteps view) : InOrder stream startOf next.1 next.2 delivered := by
  obtain ⟨⟨run, seen⟩, htransition, rfl⟩ := List.mem_map.mp hnext
  obtain ⟨after, hafter⟩ := h.with_join hphase (JoinRun.step_passes h.join_passes htransition)
  exact ⟨after, hafter.ends _ _⟩

/-- The fan-out goes on from what has come out of the join to what the consumer has received. -/
theorem Orderly.fan_out_passes (hbilled : pipeline.settings.billed = true)
    (h : Orderly stream startOf pipeline view delivered past) :
    FanOut.Passes pipeline.fanOut
      ⟨pipeline.joined, view.outputs, pipeline.records, pipeline.stopsAll view⟩ past.out
      delivered := by
  have hgives := h.gives
  have hforwards := h.forwards
  rw [joinOutput, if_pos hbilled] at hgives
  rw [Forwards, if_pos hbilled] at hforwards
  obtain ⟨forwarded, hconserved, houtputs⟩ := hforwards
  exact ⟨past.given, forwarded, hgives, hconserved, houtputs⟩

/-- A fan-out that still goes on from there to there takes the place of the fan-out. -/
theorem Orderly.with_fan_out (hbilled : pipeline.settings.billed = true)
    (h : Orderly stream startOf pipeline view delivered past) {control : FanOut.Control}
    {seen : FanOut.View} (hpasses : FanOut.Passes control seen past.out delivered) :
    InOrder stream startOf
      { pipeline with fanOut := control, joined := seen.input, records := seen.records }
      { view with outputs := seen.output } delivered := by
  obtain ⟨given, forwarded, hinput, hconserved, houtput⟩ := hpasses
  refine ⟨{ past with given }, { h with gives := ?_, forwards := ?_ }⟩
  · rw [joinOutput, if_pos hbilled]
    exact hinput
  · rw [Forwards, if_pos hbilled]
    exact ⟨forwarded, hconserved, houtput⟩

theorem fan_out_steps_orderly (hbilled : pipeline.settings.billed = true)
    (h : Orderly stream startOf pipeline view delivered past)
    (hnext : next ∈ pipeline.fanOutSteps view) :
    InOrder stream startOf next.1 next.2 delivered := by
  obtain ⟨⟨control, seen⟩, htransition, rfl⟩ := List.mem_map.mp hnext
  obtain ⟨after, hafter⟩ :=
    h.with_fan_out hbilled (FanOut.step_passes (h.fan_out_passes hbilled) htransition)
  exact ⟨after, hafter.ends _ _⟩

/-- Every transition of the pipeline keeps the stages fitting together. -/
theorem transitions_orderly (h : Orderly stream startOf pipeline view delivered past)
    (hnext : next ∈ pipeline.transitions view) :
    InOrder stream startOf next.1 next.2 delivered := by
  cases transitions_turn hnext with
  | start hturn => exact ⟨past, hturn.orderly h⟩
  | receiver hreceives hstep => exact ⟨past, receiver_steps_orderly h hstep⟩
  | checkpointer hreceives hstep =>
      obtain ⟨⟨checkpointer, seen⟩, -, rfl⟩ := List.mem_map.mp hstep
      exact ⟨past, { h with }⟩
  | supervision => exact ⟨past, { h with }⟩
  | merge hphase hstep => exact merge_steps_orderly hphase h hstep
  | join hphase hstep => exact join_steps_orderly hphase h hstep
  | fanOut hphase hbilled hstep => exact fan_out_steps_orderly hbilled h hstep
  | billing hphase hbilled hstep =>
      obtain ⟨⟨billing, seen⟩, -, rfl⟩ := List.mem_map.mp hstep
      refine ⟨past, Orderly.ends ?_ _ _⟩
      exact { h with }

/-! ## Components that break off -/

theorem break_receiver_orderly {role : Role} {index : Nat} {receiver : Receiver} {slot : MergeSlot}
    (h : Orderly stream startOf pipeline view delivered past)
    (hreceiver : (pipeline.side role).receivers[index]? = some receiver)
    (hslot : (pipeline.side role).slots[index]? = some slot) :
    Orderly stream startOf (pipeline.breakReceiver role index receiver slot) view delivered
      past := by
  unfold breakReceiver
  refine Orderly.ends ?_ _ _
  cases role with
  | interactions =>
      have hstock : (stocksOf pipeline.interactions.slots)[index]? = some slot.source.stock :=
        stocks_of_slot hslot
      have hlane := (h.lanes.lane hreceiver hstock).finish
        (.error (.componentPanicked (Component.name
          (.receiver pipeline.interactions.stream receiver.client.partition))))
      refine { h with lanes := ?_ }
      have hlanes := h.lanes.set hstock rfl hlane
      show Lanes _ _ _ _ _ (stocksOf (pipeline.interactions.slots.set index
        { slot with source := slot.source.dropWriter }))
      rw [stocksOf, List.map_set]
      exact hlanes
  | observations =>
      exact { h with }

theorem break_merge_orderly (hphase : pipeline.phase = .running) (role : Role)
    (h : Orderly stream startOf pipeline view delivered past) :
    Orderly stream startOf (pipeline.breakMerge view role) view delivered past := by
  unfold breakMerge
  refine Orderly.ends ?_ _ _
  cases role with
  | interactions =>
      let seen : Merge.View := ⟨pipeline.interactions.slots, pipeline.interactions.merged,
        pipeline.stopsJoin view, view.now, view.wall⟩
      have hsends : Merge.Sends pipeline.interactions.merge seen.output past.popped past.sent
        past.taken := h.sends
      have hlanes := h.lanes.drop
      rw [← Merge.stocks_of_finish seen] at hlanes
      exact { h with
        lanes := hlanes
        sends := hsends.finish
        waiting := fun hwaits => absurd hphase hwaits }
  | observations =>
      exact { h with }

theorem crash_orderly (h : Orderly stream startOf pipeline view delivered past)
    (hcrash : pipeline.Crash view next) : InOrder stream startOf next.1 next.2 delivered := by
  cases hcrash with
  | receiver hreceives hreceiver hslot hworking =>
      exact ⟨past, break_receiver_orderly h hreceiver hslot⟩
  | merge hphase hmerge hworking => exact ⟨past, break_merge_orderly hphase _ h⟩
  | join hphase hworking =>
      obtain ⟨after, hafter⟩ := h.with_join hphase (h.join_passes.stop (.inr rfl))
      exact ⟨after, hafter.ends .join (some .panicked)⟩
  | fanOut hphase hbilled hworking =>
      obtain ⟨after, hafter⟩ := h.with_fan_out hbilled (h.fan_out_passes hbilled).finish
      exact ⟨after, hafter.ends .fanOut (some .panicked)⟩
  | billing hphase hbilled hworking =>
      refine ⟨past, Orderly.ends ?_ .billing (some .panicked)⟩
      exact { h with }

end Pipeline

end WindowJoin

import WindowJoin.Proofs.Billing.Turn
import WindowJoin.Proofs.Pipeline.FanOut
import WindowJoin.Proofs.Pipeline.Opened
import WindowJoin.Proofs.Pipeline.Supervised
import WindowJoin.Proofs.Pipeline.Turn
import WindowJoin.Proofs.Pipeline.World

/-!
# The end of a pipeline

What supervision sees of a pipeline under way is a `Supervision.History` of its components, whichever
transitions are taken and wherever components break off (`World.Reachable.supervised`). So whatever
holds of those histories holds of the pipeline: it has a result as soon as all of its parts have ended
and this has been noted, and not before, and the result is that of the first failure
(`World.result_of_ended_parts`).
-/

namespace WindowJoin

/-- A component is one of those before, and if it comes to its end it is not among those after. -/
def Component.Leaves (component : Component) (ending : Option Ending)
    (before after : List Component) : Prop :=
  before.Perm ((ending.map fun _ => component).toList ++ after)

namespace Component.Leaves

variable {component : Component} {ending : Option Ending} {before after : List Component}

theorem append_right (h : component.Leaves ending before after) (back : List Component) :
    component.Leaves ending (before ++ back) (after ++ back) := by
  rw [Leaves, ← List.append_assoc]
  exact List.Perm.append_right back h

theorem append_left (h : component.Leaves ending before after) (front : List Component) :
    component.Leaves ending (front ++ before) (front ++ after) :=
  (List.Perm.append_left front h).trans (List.perm_append_comm_assoc ..)

/-- What leaves one entry of a list leaves all of them. -/
theorem set {α : Type} {items : List α} {index : Nat} {old new : α}
    (hfound : items[index]? = some old) (componentsOf : α → List Component)
    (h : component.Leaves ending (componentsOf old) (componentsOf new)) :
    component.Leaves ending (items.flatMap componentsOf)
      ((items.set index new).flatMap componentsOf) := by
  induction items generalizing index with
  | nil => cases hfound
  | cons item rest ih =>
      cases index with
      | zero =>
          obtain rfl := Option.some.inj hfound
          exact h.append_right _
      | succ index => exact (ih hfound).append_left _

end Component.Leaves

/-- A component, if it has not come to its end. -/
def Component.unlessEnded (component : Component) (ended : Bool) : List Component :=
  if ended then [] else [component]

@[simp]
theorem Component.unless_ended_eq_nil (component : Component) (ended : Bool) :
    component.unlessEnded ended = [] ↔ ended = true := by
  cases ended <;> simp [unlessEnded]

theorem Component.unless_ended_leaves (component : Component) {ending : Option Ending}
    {before after : Bool} (hbefore : before = false) (hafter : ending.isSome = after) :
    component.Leaves ending (component.unlessEnded before) (component.unlessEnded after) := by
  subst hbefore hafter
  cases ending with
  | none => exact .rfl
  | some ending => exact .rfl

/-! ## Parts that work -/

/-- A receiver that has ended does nothing more. -/
theorem Receiver.working_of_mem {rules : ReceiverRules} {receiver : Receiver} {view : Receiver.View}
    {next : Receiver × Receiver.View} (h : next ∈ Receiver.transitions rules receiver view) :
    receiver.isFinished = false := by
  unfold isFinished
  split
  next result hcontrol =>
    rw [transitions, hcontrol] at h
    cases h
  next => rfl

/-- A join that has ended does nothing more. -/
theorem JoinRun.working_of_mem {rules : JoinRules} {run : JoinRun} {view : JoinRun.View}
    {next : JoinRun × JoinRun.View} (h : next ∈ JoinRun.transitions rules run view) :
    run.isFinished = false := by
  unfold isFinished
  split
  next hcontrol =>
    rw [transitions, hcontrol] at h
    cases h
  next hcontrol =>
    rw [transitions, hcontrol] at h
    cases h
  next => rfl

namespace Pipeline

/-! ## Components under supervision -/

/-- The component that a receiver is. -/
def Side.receiver (side : Side) (receiver : Receiver) : Component :=
  .receiver side.stream receiver.client.partition

/-- The components of a side. -/
def Side.components (side : Side) : List Component :=
  side.receivers.map side.receiver ++ [.merge side.stream]

/-- The components of a side that have not come to their ends. -/
def Side.working (side : Side) : List Component :=
  (side.receivers.flatMap fun receiver => (side.receiver receiver).unlessEnded receiver.isFinished)
    ++ Component.unlessEnded (.merge side.stream) (side.merge = some .finished)

/-- The components of a pipeline. -/
def components (pipeline : Pipeline) : List Component :=
  pipeline.interactions.components ++ pipeline.observations.components
    ++ .join :: if pipeline.settings.billed then [.fanOut, .billing] else []

/-- The components of a pipeline that have not come to their ends. -/
def working (pipeline : Pipeline) : List Component :=
  pipeline.interactions.working ++ pipeline.observations.working
    ++ (Component.unlessEnded .join pipeline.join.isFinished
      ++ if pipeline.settings.billed then
          Component.unlessEnded .fanOut (pipeline.fanOut = .finished)
            ++ Component.unlessEnded .billing pipeline.billing.isFinished
        else [])

/-- The parts of a side have come to their ends. -/
def Side.Ended (side : Side) : Prop :=
  (∀ receiver ∈ side.receivers, receiver.isFinished = true) ∧ side.merge = some .finished

theorem Side.working_eq_nil {side : Side} : side.working = [] ↔ side.Ended := by
  simp [working, Ended]

/-- All parts of a pipeline have come to their ends. -/
structure Ended (pipeline : Pipeline) : Prop where
  side (role : Role) : (pipeline.side role).Ended
  join : pipeline.join.isFinished = true
  fanOut : pipeline.settings.billed = true → pipeline.fanOut = .finished
  billing : pipeline.settings.billed = true → pipeline.billing.isFinished = true

theorem working_eq_nil {pipeline : Pipeline} : pipeline.working = [] ↔ pipeline.Ended := by
  simp only [working, List.append_eq_nil_iff, Side.working_eq_nil, Component.unless_ended_eq_nil]
  constructor
  · rintro ⟨⟨hinteractions, hobservations⟩, hjoin, hbehind⟩
    refine ⟨fun role => ?_, hjoin, fun hbilled => ?_, fun hbilled => ?_⟩
    · cases role with
      | interactions => exact hinteractions
      | observations => exact hobservations
    · rw [if_pos hbilled, List.append_eq_nil_iff] at hbehind
      simpa using hbehind.1
    · rw [if_pos hbilled, List.append_eq_nil_iff] at hbehind
      simpa using hbehind.2
  · intro h
    refine ⟨⟨h.side .interactions, h.side .observations⟩, h.join, ?_⟩
    split
    next hbilled => simp [h.fanOut hbilled, h.billing hbilled]
    next => rfl

theorem length_components (pipeline : Pipeline) :
    pipeline.components.length = pipeline.componentCount := by
  unfold components componentCount Side.components
  split <;> simp <;> omega

/-- The parts that run only later have not come to their ends. -/
structure Fresh (pipeline : Pipeline) : Prop where
  interactions : pipeline.interactions.merge = none
  observations : pipeline.observations.merge = none
  join : pipeline.join.isFinished = false
  billing : pipeline.billing.isFinished = false

/-- Where supervision of a pipeline stands. It notes nothing before everything runs. -/
structure Supervised (pipeline : Pipeline) (history : Supervision.History) : Prop where
  reachable : Supervision.Reachable pipeline.components history
  pending : history.pending = pipeline.endings
  working : history.working.Perm pipeline.working
  supervision : pipeline.phase = .running → history.supervision = pipeline.supervision
  waiting : pipeline.phase ≠ .running → history.noted = [] ∧ pipeline.Fresh

variable {pipeline after : Pipeline} {view : View} {next : Pipeline × View} {role : Role}
  {history : Supervision.History}

/-- A part that goes on leaves supervision as it is, and one that comes to its end is noted later. -/
theorem Supervised.part (h : pipeline.Supervised history) {component : Component}
    {ending : Option Ending} (hcomponents : after.components = pipeline.components)
    (hendings : after.endings = pipeline.endings) (hphase : after.phase = pipeline.phase)
    (hsupervision : after.supervision = pipeline.supervision)
    (hfresh : pipeline.Fresh → pipeline.phase ≠ .running → after.Fresh)
    (hworking : component.Leaves ending pipeline.working after.working) :
    ∃ history, (after.ends component ending).Supervised history := by
  have hleaves := h.working.trans hworking
  have hwaiting (hwaits : after.phase ≠ .running) : history.noted = [] ∧ after.Fresh := by
    rw [hphase] at hwaits
    obtain ⟨hnoted, hbefore⟩ := h.waiting hwaits
    exact ⟨hnoted, hfresh hbefore hwaits⟩
  have hknows (hruns : after.phase = .running) : history.supervision = after.supervision := by
    rw [hsupervision]
    exact h.supervision (hphase ▸ hruns)
  cases ending with
  | none =>
      exact ⟨history, hcomponents ▸ h.reachable, h.pending.trans hendings.symm, hleaves, hknows,
        hwaiting⟩
  | some ending =>
      have hmem : component ∈ history.working := hleaves.symm.subset List.mem_cons_self
      have hreached := h.reachable.step (.ends ending hmem)
      rw [← hcomponents] at hreached
      refine ⟨_, hreached, ?_, ?_, hknows, fun hwaits => ?_⟩
      · show history.pending ++ _ = after.endings ++ _
        rw [h.pending, hendings]
      · exact (List.cons_perm_iff_perm_erase.mp hleaves.symm).2.symm
      · obtain ⟨hnoted, hafter⟩ := hwaiting hwaits
        exact ⟨hnoted, { hafter with }⟩

/-! ## The start -/

/-- A step of the start leaves supervision as it is. -/
theorem Supervised.prepare (h : pipeline.Supervised history) (hphase : pipeline.phase ≠ .running)
    (hcomponents : after.components = pipeline.components)
    (hendings : after.endings = pipeline.endings) (hworking : after.working = pipeline.working)
    (hafter : after.phase ≠ .running) (hfresh : after.Fresh) : after.Supervised history where
  reachable := hcomponents ▸ h.reachable
  pending := h.pending.trans hendings.symm
  working := hworking ▸ h.working
  supervision hruns := absurd hruns hafter
  waiting _ := ⟨(h.waiting hphase).1, hfresh⟩

theorem Supervised.await (h : pipeline.Supervised history) (hphase : pipeline.phase ≠ .running)
    (now : View) (role : Role) : (pipeline.await now role).Supervised history := by
  obtain ⟨-, hfresh⟩ := h.waiting hphase
  cases role with
  | interactions | observations => exact h.prepare hphase rfl rfl rfl nofun { hfresh with }

theorem Supervised.launch (h : pipeline.Supervised history) (hphase : pipeline.phase ≠ .running)
    (now : View) : (pipeline.launch now).Supervised history := by
  obtain ⟨-, hfresh⟩ := h.waiting hphase
  let started := { pipeline with
    checkpointer := .start pipeline.settings.checkpointer pipeline.checkpointer.checkpoint now.now }
  have hstarted : started.Supervised history :=
    h.prepare hphase rfl rfl rfl hphase { hfresh with }
  exact hstarted.await hphase now .interactions

theorem Supervised.resume (h : pipeline.Supervised history) (hphase : pipeline.phase ≠ .running)
    (attempts : Attempts) : (pipeline.resume view attempts).1.Supervised history := by
  obtain ⟨-, hfresh⟩ := h.waiting hphase
  unfold Pipeline.resume
  dsimp only
  split
  · exact h.prepare hphase rfl rfl rfl nofun { hfresh with }
  · exact h.prepare hphase rfl rfl rfl nofun { hfresh with }
  next data hdone =>
    let resumed : Pipeline := { pipeline with billing := .start (.ofCheckpoint
      (CheckpointStore.checkpointIn BillingCheckpoint.ofJson data)) }
    have hworking : resumed.working = pipeline.working := by
      rw [Pipeline.working, Pipeline.working, hfresh.billing]
      rfl
    have hresumed : resumed.Supervised history :=
      h.prepare hphase rfl rfl hworking hphase { hfresh with billing := rfl }
    exact hresumed.launch hphase _

/-- Once everything runs, all components are under supervision. -/
theorem Supervised.run_all (h : pipeline.Supervised history) (hphase : pipeline.phase ≠ .running) :
    (pipeline.runAll view).Supervised history := by
  obtain ⟨hnoted, hfresh⟩ := h.waiting hphase
  refine ⟨h.reachable, h.pending, ?_, fun _ => ?_, fun hwaits => absurd rfl hwaits⟩
  · have hworking : (pipeline.runAll view).working = pipeline.working := by
      rw [Pipeline.working, Pipeline.working, Side.working, Side.working, Side.working, Side.working,
        hfresh.interactions, hfresh.observations, hfresh.join]
      rfl
    rw [hworking]
    exact h.working
  · rw [h.reachable.kept.knows, hnoted, length_components]
    rfl

theorem StartTurn.supervised (hturn : StartTurn pipeline view next)
    (h : pipeline.Supervised history) : next.1.Supervised history := by
  have hwaits := hturn.not_running
  cases hturn with
  | resume => exact h.resume hwaits _
  | await => exact h.await hwaits view .observations
  | runAll => exact h.run_all hwaits
  | @firstBatch role =>
      obtain ⟨-, hfresh⟩ := h.waiting hwaits
      cases role with
      | interactions | observations => exact h.prepare hwaits rfl rfl rfl nofun { hfresh with }

/-! ## The parts at work -/

/-- A part of a side goes on or comes to its end. -/
theorem Supervised.set_side (h : pipeline.Supervised history) {component : Component}
    {ending : Option Ending} {side : Side}
    (hcomponents : side.components = (pipeline.side role).components)
    (hmerge : pipeline.phase ≠ .running → side.merge = (pipeline.side role).merge)
    (hworking : component.Leaves ending (pipeline.side role).working side.working) :
    ∃ history, ((pipeline.setSide role side).ends component ending).Supervised history := by
  cases role with
  | interactions =>
      refine h.part ?_ rfl rfl rfl ?_ ((hworking.append_right _).append_right _)
      · exact congrArg (· ++ _ ++ _) hcomponents
      · exact fun hfresh hwaits =>
          { hfresh with interactions := (hmerge hwaits).trans hfresh.interactions }
  | observations =>
      refine h.part ?_ rfl rfl rfl ?_ ((hworking.append_left _).append_right _)
      · exact congrArg (_ ++ · ++ _) hcomponents
      · exact fun hfresh hwaits =>
          { hfresh with observations := (hmerge hwaits).trans hfresh.observations }

/-- A receiver goes on or comes to its end. -/
theorem Supervised.set_receiver (h : pipeline.Supervised history) {index : Nat}
    {receiver after : Receiver} (hreceiver : (pipeline.side role).receivers[index]? = some receiver)
    (hworking : receiver.isFinished = false)
    (hpartition : after.client.partition = receiver.client.partition) {ending : Option Ending}
    (hending : ending.isSome = after.isFinished) (slots : List MergeSlot) :
    ∃ history, ((pipeline.setSide role { pipeline.side role with
      receivers := (pipeline.side role).receivers.set index after, slots }).ends
        (.receiver (pipeline.side role).stream after.client.partition) ending).Supervised history := by
  have hsame : (pipeline.side role).receiver after = (pipeline.side role).receiver receiver := by
    rw [Side.receiver, Side.receiver, hpartition]
  refine h.set_side ?_ (fun _ => rfl) (Component.Leaves.append_right ?_ _)
  · exact congrArg (· ++ _) (map_set_same (pipeline.side role).receiver hreceiver after hsame)
  · refine Component.Leaves.set hreceiver (fun other =>
      ((pipeline.side role).receiver other).unlessEnded other.isFinished) ?_
    rw [← hsame]
    exact Component.unless_ended_leaves _ hworking hending

theorem receiver_steps_supervised (h : pipeline.Supervised history)
    (hnext : next ∈ pipeline.receiverSteps view role) : ∃ history, next.1.Supervised history := by
  obtain ⟨⟨⟨receiver, slot⟩, index⟩, hmem, hstep⟩ := List.mem_flatMap.mp hnext
  obtain ⟨⟨reader, seen⟩, htransition, rfl⟩ := List.mem_map.mp hstep
  obtain ⟨hreceiver, -⟩ := List.getElem?_zip_eq_some.mp (List.mem_zipIdx_iff_getElem?.mp hmem)
  have hclient : reader.client = _ := (Receiver.transitions_move htransition).client
  refine h.set_receiver hreceiver (Receiver.working_of_mem htransition) ?_ ?_ _
  · rw [hclient]
  · cases hcontrol : reader.control <;> simp [Receiver.isFinished, hcontrol]

/-- A merge goes on or comes to its end. -/
theorem Supervised.set_merge (h : pipeline.Supervised history) (hphase : pipeline.phase = .running)
    {control after : Merge.Control} (hmerge : (pipeline.side role).merge = some control)
    (hworking : control ≠ .finished) {ending : Option Ending}
    (hending : ending.isSome = decide (after = .finished)) (slots : List MergeSlot)
    (merged : Channel MessageBatch) :
    ∃ history, ((pipeline.setSide role { pipeline.side role with
      slots, merge := some after, merged }).ends (.merge (pipeline.side role).stream)
        ending).Supervised history := by
  refine h.set_side rfl (fun hwaits => absurd hphase hwaits) (Component.Leaves.append_left ?_ _)
  refine Component.unless_ended_leaves _ (by simp [hmerge, hworking]) ?_
  rw [hending]
  simp only [Option.some.injEq]

theorem merge_steps_supervised (h : pipeline.Supervised history) (hphase : pipeline.phase = .running)
    (hnext : next ∈ pipeline.mergeSteps view role) : ∃ history, next.1.Supervised history := by
  unfold mergeSteps at hnext
  dsimp only at hnext
  split at hnext
  next => cases hnext
  next control hmerge =>
    obtain ⟨⟨after, seen⟩, htransition, rfl⟩ := List.mem_map.mp hnext
    refine h.set_merge hphase hmerge ?_ ?_ _ _
    · intro hfinished
      rw [hfinished] at htransition
      cases htransition
    · by_cases hfinished : after = .finished <;> simp [hfinished]

/-- The join goes on or comes to its end. -/
theorem Supervised.set_join (h : pipeline.Supervised history) (hphase : pipeline.phase = .running)
    (hworking : pipeline.join.isFinished = false) {join : JoinRun} {ending : Option Ending}
    (hending : ending.isSome = join.isFinished) (interactions observations : Channel MessageBatch)
    (joined : Channel JoinOutput) :
    ∃ history, (ends { pipeline with
      join, interactions.merged := interactions, observations.merged := observations, joined }
        .join ending).Supervised history := by
  refine h.part rfl rfl rfl rfl (fun _ hwaits => absurd hphase hwaits) ?_
  refine Component.Leaves.append_left (Component.Leaves.append_right ?_ _) _
  exact Component.unless_ended_leaves _ hworking hending

theorem join_steps_supervised (h : pipeline.Supervised history) (hphase : pipeline.phase = .running)
    (hnext : next ∈ pipeline.joinSteps view) : ∃ history, next.1.Supervised history := by
  obtain ⟨⟨run, seen⟩, htransition, rfl⟩ := List.mem_map.mp hnext
  refine h.set_join hphase (JoinRun.working_of_mem htransition) ?_ _ _ _
  cases hcontrol : run.control <;> simp [JoinRun.isFinished, hcontrol]

/-- The fan-out goes on or comes to its end. -/
theorem Supervised.set_fan_out (h : pipeline.Supervised history)
    (hphase : pipeline.phase = .running) (hbilled : pipeline.settings.billed = true)
    (hworking : pipeline.fanOut ≠ .finished) {fanOut : FanOut.Control} {ending : Option Ending}
    (hending : ending.isSome = decide (fanOut = .finished)) (joined : Channel JoinOutput)
    (records : Channel (List BillingRecord)) :
    ∃ history, (ends { pipeline with fanOut, joined, records } .fanOut ending).Supervised
      history := by
  refine h.part rfl rfl rfl rfl (fun _ hwaits => absurd hphase hwaits) ?_
  refine Component.Leaves.append_left (Component.Leaves.append_left ?_ _) _
  show Component.Leaves _ _ (if pipeline.settings.billed = true then _ else _)
    (if pipeline.settings.billed = true then _ else _)
  rw [if_pos hbilled, if_pos hbilled]
  exact (Component.unless_ended_leaves _ (by simp [hworking]) hending).append_right _

theorem fan_out_steps_supervised (h : pipeline.Supervised history)
    (hphase : pipeline.phase = .running) (hbilled : pipeline.settings.billed = true)
    (hnext : next ∈ pipeline.fanOutSteps view) : ∃ history, next.1.Supervised history := by
  obtain ⟨⟨control, seen⟩, htransition, rfl⟩ := List.mem_map.mp hnext
  refine h.set_fan_out hphase hbilled (FanOut.transitions_turn htransition).working ?_ _ _
  by_cases hfinished : control = .finished <;> simp [hfinished]

/-- Billing goes on or comes to its end. -/
theorem Supervised.set_billing (h : pipeline.Supervised history)
    (hphase : pipeline.phase = .running) (hbilled : pipeline.settings.billed = true)
    (hworking : pipeline.billing.isFinished = false) {billing : BillingRun}
    {ending : Option Ending} (hending : ending.isSome = billing.isFinished)
    (records : Channel (List BillingRecord)) :
    ∃ history, (ends { pipeline with billing, records } .billing ending).Supervised history := by
  refine h.part rfl rfl rfl rfl (fun _ hwaits => absurd hphase hwaits) ?_
  refine Component.Leaves.append_left (Component.Leaves.append_left ?_ _) _
  show Component.Leaves _ _ (if pipeline.settings.billed = true then _ else _)
    (if pipeline.settings.billed = true then _ else _)
  rw [if_pos hbilled, if_pos hbilled]
  exact (Component.unless_ended_leaves _ hworking hending).append_left _

theorem billing_steps_supervised (h : pipeline.Supervised history)
    (hphase : pipeline.phase = .running) (hbilled : pipeline.settings.billed = true)
    (hnext : next ∈ pipeline.billingSteps view) : ∃ history, next.1.Supervised history := by
  obtain ⟨⟨billing, seen⟩, htransition, rfl⟩ := List.mem_map.mp hnext
  obtain ⟨deed, hturn⟩ := BillingRun.transitions_turn htransition
  refine h.set_billing hphase hbilled hturn.working ?_ _
  cases hcontrol : billing.control <;> simp [BillingRun.isFinished, hcontrol]

/-- Supervision takes note of the oldest ending. -/
theorem Supervised.note (h : pipeline.Supervised history) (hphase : pipeline.phase = .running)
    {component : Component} {ending : Ending} {endings : List (Component × Ending)}
    (hendings : pipeline.endings = (component, ending) :: endings) :
    ∃ history, Supervised { pipeline with
      endings, supervision := pipeline.supervision.note component ending } history := by
  refine ⟨_, h.reachable.step (.note (h.pending.trans hendings)), rfl, h.working, fun _ => ?_,
    fun hwaits => absurd hphase hwaits⟩
  rw [h.supervision hphase]

/-- Every transition of a pipeline is a step of supervision or none. -/
theorem transitions_supervised (h : pipeline.Supervised history)
    (hnext : next ∈ pipeline.transitions view) : ∃ history, next.1.Supervised history := by
  cases transitions_turn hnext with
  | start hturn => exact ⟨history, hturn.supervised h⟩
  | receiver hreceives hstep => exact receiver_steps_supervised h hstep
  | checkpointer hreceives hstep =>
      obtain ⟨⟨checkpointer, seen⟩, -, rfl⟩ := List.mem_map.mp hstep
      refine ⟨history, { h with waiting := fun hwaits => ?_ }⟩
      obtain ⟨hnoted, hfresh⟩ := h.waiting hwaits
      exact ⟨hnoted, { hfresh with }⟩
  | supervision hphase hendings => exact h.note hphase hendings
  | merge hphase hstep => exact merge_steps_supervised h hphase hstep
  | join hphase hstep => exact join_steps_supervised h hphase hstep
  | fanOut hphase hbilled hstep => exact fan_out_steps_supervised h hphase hbilled hstep
  | billing hphase hbilled hstep => exact billing_steps_supervised h hphase hbilled hstep

/-- So is a component that breaks off. -/
theorem crash_supervised (h : pipeline.Supervised history) (hcrash : pipeline.Crash view next) :
    ∃ history, next.1.Supervised history := by
  cases hcrash with
  | receiver hreceives hreceiver hslot hworking =>
      unfold breakReceiver
      dsimp only
      refine h.set_receiver hreceiver hworking ?_ ?_ _
      · rfl
      · rfl
  | merge hphase hmerge hworking =>
      unfold breakMerge
      dsimp only
      refine h.set_merge hphase hmerge hworking ?_ _ _
      rfl
  | join hphase hworking =>
      unfold breakJoin
      dsimp only
      refine h.set_join hphase hworking ?_ _ _ _
      rfl
  | fanOut hphase hbilled hworking =>
      unfold breakFanOut
      dsimp only
      refine h.set_fan_out hphase hbilled hworking ?_ _ _
      rfl
  | billing hphase hbilled hworking =>
      unfold breakBilling
      dsimp only
      refine h.set_billing hphase hbilled hworking ?_ _
      rfl

/-! ## The beginning -/

/-- On a side where nothing has come to its end all components work. -/
theorem Side.working_of_fresh {side : Side} (hmerge : side.merge = none)
    (hreceivers : ∀ receiver ∈ side.receivers, receiver.isFinished = false) :
    side.working = side.components := by
  have hall : (side.receivers.flatMap fun receiver =>
      (side.receiver receiver).unlessEnded receiver.isFinished) =
        side.receivers.map side.receiver := by
    rw [List.map_eq_flatMap]
    refine List.flatMap_congr fun receiver hreceiver => ?_
    rw [hreceivers receiver hreceiver]
    rfl
  rw [Side.working, hall, hmerge]
  rfl

theorem open_side_working {settings : Settings} {transport : Transport} {stream : String}
    {starts : List (String × StartPosition)} {side : Side}
    (h : openSide settings transport stream starts = .ok side) :
    side.merge = none ∧ side.working = side.components := by
  obtain ⟨receivers, hreceivers, hside⟩ := except_bind_ok h
  obtain rfl := Except.ok.inj hside
  refine ⟨rfl, Side.working_of_fresh rfl fun receiver hreceiver => ?_⟩
  rw [connect_all_eq hreceivers] at hreceiver
  obtain ⟨start, -, rfl⟩ := List.mem_map.mp hreceiver
  rfl

theorem start_supervised {settings : Settings} {checkpoint : Option JoinCheckpoint}
    (h : Pipeline.start settings checkpoint view = .ok pipeline) :
    ∃ history, pipeline.Supervised history := by
  unfold Pipeline.start at h
  obtain ⟨opened, hopened, h⟩ := except_bind_ok h
  obtain ⟨_, _, -, hinteractions, hobservations⟩ := open_streams_sides hopened
  obtain ⟨hmerge, hworking⟩ := open_side_working hinteractions
  obtain ⟨hother, hothers⟩ := open_side_working hobservations
  have hbegun {started : Pipeline} (hstarted : started.interactions = opened.interactions ∧
      started.observations = opened.observations ∧ started.join.isFinished = false ∧
      started.fanOut = .listening ∧ started.billing.isFinished = false)
      (hphase : started.phase ≠ .running) (hendings : started.endings = []) :
      started.Supervised (.begin started.components) := by
    obtain ⟨hfirst, hsecond, hjoin, hfanOut, hbilling⟩ := hstarted
    refine ⟨.start, hendings.symm, ?_, fun hruns => absurd hruns hphase,
      fun _ => ⟨rfl, hfirst ▸ hmerge, hsecond ▸ hother, hjoin, hbilling⟩⟩
    rw [Pipeline.working, hfirst, hsecond, hworking, hothers, hjoin, hfanOut, hbilling, ← hfirst,
      ← hsecond]
    exact .rfl
  dsimp only at h
  split at h
  · obtain rfl := Except.ok.inj h
    refine ⟨_, hbegun ⟨rfl, rfl, rfl, rfl, rfl⟩ ?_ rfl⟩
    simp
  · obtain rfl := Except.ok.inj h
    refine ⟨_, (hbegun ⟨rfl, rfl, rfl, rfl, rfl⟩ ?_ rfl).launch ?_ _⟩
    · simp
    · simp

end Pipeline

namespace World

variable {settings : Pipeline.Settings} {checkpoint : Option JoinCheckpoint} {view : Pipeline.View}
  {world : World}

/-- What supervision sees of a pipeline is a history of its components. -/
theorem Reachable.supervised (h : Reachable settings checkpoint view world) :
    ∃ history, world.pipeline.Supervised history := by
  induction h with
  | start hstart => exact Pipeline.start_supervised hstart
  | step _ hstep ih =>
      obtain ⟨history, hsupervised⟩ := ih
      cases hstep with
      | run hnext => exact Pipeline.transitions_supervised hsupervised hnext
      | crash hcrash => exact Pipeline.crash_supervised hsupervised hcrash
      | receive | refuse | leave | transport | outside => exact ⟨history, hsupervised⟩

/-- A pipeline has a result exactly when everything runs, and all of its parts have come to their ends
and been noted. The result is that of the ending that was noted first among those that are failures. -/
theorem result_of_ended_parts (h : Reachable settings checkpoint view world) :
    (world.pipeline.result?.isSome = true ↔ world.pipeline.phase = .running ∧
        world.pipeline.endings = [] ∧ world.pipeline.Ended) ∧
      ∃ noted : List (Component × Ending),
        (world.pipeline.phase = .running → world.pipeline.supervision =
          (Supervision.start world.pipeline.componentCount).noteAll noted) ∧
        ∀ result, world.pipeline.result? = some result →
          (noted.map Prod.fst).Perm world.pipeline.components ∧
            result = (Supervision.firstFailure? noted).elim (.ok ()) .error := by
  obtain ⟨history, hsupervised⟩ := h.supervised
  have hkept := hsupervised.reachable.kept
  have hparts : history.working = [] ↔ world.pipeline.Ended := by
    rw [← Pipeline.working_eq_nil]
    exact ⟨fun hnone => (hnone ▸ hsupervised.working.symm).eq_nil,
      fun hnone => (hnone ▸ hsupervised.working).eq_nil⟩
  have hresult (hphase : world.pipeline.phase = .running) :
      world.pipeline.result? = history.supervision.result? := by
    rw [Pipeline.result?, if_pos hphase, hsupervised.supervision hphase]
  refine ⟨?_, history.noted, fun hphase => ?_, fun result hsome => ?_⟩
  · by_cases hphase : world.pipeline.phase = .running
    · rw [hresult hphase, hkept.result, ← hsupervised.pending, ← hparts]
      split
      next hended => exact iff_of_true rfl ⟨hphase, hended.2, hended.1⟩
      next hworks => exact iff_of_false nofun fun hended => hworks ⟨hended.2.2, hended.2.1⟩
    · simp [Pipeline.result?, hphase]
  · rw [← hsupervised.supervision hphase, hkept.knows, Pipeline.length_components]
  · have hphase : world.pipeline.phase = .running := by
      by_contra hwaits
      rw [Pipeline.result?, if_neg hwaits] at hsome
      cases hsome
    rw [hresult hphase, hkept.result] at hsome
    split at hsome
    next hended =>
      have hcounts := hkept.counts
      rw [hended.1, hended.2, List.append_nil, List.append_nil] at hcounts
      exact ⟨hcounts, (Option.some.inj hsome).symm⟩
    next => cases hsome

end World

end WindowJoin

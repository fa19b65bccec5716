import WindowJoin.Pipeline.Machine
import WindowJoin.Proofs.Transport.Events

/-!
# A pipeline and the world around it

A world is a pipeline, what it sees, and what its consumer has received. `World.Step` lets everything
happen that may happen: a transition of the pipeline, whichever is taken; a component that breaks off
at whatever point it has reached (`Pipeline.Crash`); a consumer that receives or leaves; events that
come in; and, as far as the pipeline does not do it itself, any change of the clocks, the stores, the
commands and the cancellation. Statements about `World.Reachable` hold in every order of steps.
-/

namespace WindowJoin

namespace Pipeline

/-- A receiver breaks off, and its end of the source goes. -/
def breakReceiver (pipeline : Pipeline) (role : Role) (index : Nat) (receiver : Receiver)
    (slot : MergeSlot) : Pipeline :=
  let side := pipeline.side role
  let component := Component.receiver side.stream receiver.client.partition
  let broken := Receiver.Control.finished (.error (.componentPanicked component.name))
  let side := { side with
    receivers := side.receivers.set index { receiver with control := broken }
    slots := side.slots.set index { slot with source := slot.source.dropWriter } }
  (pipeline.setSide role side).ends component (some .panicked)

/-- A merge breaks off, and its ends of the channels go. -/
def breakMerge (pipeline : Pipeline) (view : View) (role : Role) : Pipeline :=
  let side := pipeline.side role
  let (control, seen) := Merge.finish
    ⟨side.slots, side.merged, pipeline.stopsJoin view, view.now, view.wall⟩
  let side := { side with slots := seen.slots, merge := some control, merged := seen.output }
  (pipeline.setSide role side).ends (.merge side.stream) (some .panicked)

/-- The join breaks off, and its ends of the channels go. -/
def breakJoin (pipeline : Pipeline) (view : View) : Pipeline × View :=
  let billed := pipeline.settings.billed
  let (join, seen) := JoinRun.stop pipeline.join
    { interactions := pipeline.interactions.merged
      observations := pipeline.observations.merged
      output := if billed then pipeline.joined else view.outputs
      cancelled := pipeline.stopsJoin view
      now := view.now
      wall := view.wall }
    .broken
  (ends
      { pipeline with
        join
        interactions.merged := seen.interactions
        observations.merged := seen.observations
        joined := if billed then seen.output else pipeline.joined }
      .join (some .panicked),
    { view with outputs := if billed then view.outputs else seen.output })

/-- The fan-out breaks off, and its ends of the channels go. -/
def breakFanOut (pipeline : Pipeline) (view : View) : Pipeline × View :=
  let (control, seen) := FanOut.finish
    ⟨pipeline.joined, view.outputs, pipeline.records, pipeline.stopsAll view⟩
  (ends { pipeline with fanOut := control, joined := seen.input, records := seen.records } .fanOut
      (some .panicked),
    { view with outputs := seen.output })

/-- Billing breaks off, and its end of the channel goes. -/
def breakBilling (pipeline : Pipeline) : Pipeline :=
  let broken := BillingRun.Control.finished (.error (.componentPanicked Component.billing.name))
  ends { pipeline with billing.control := broken, records := pipeline.records.dropReceiver }
    .billing (some .panicked)

/-- A component that runs breaks off. -/
inductive Crash (pipeline : Pipeline) (view : View) : Pipeline × View → Prop where
  | receiver {role : Role} {index : Nat} {receiver : Receiver} {slot : MergeSlot} :
      pipeline.receives = true → (pipeline.side role).receivers[index]? = some receiver →
      (pipeline.side role).slots[index]? = some slot → receiver.isFinished = false →
      Crash pipeline view (pipeline.breakReceiver role index receiver slot, view)
  | merge {role : Role} {control : Merge.Control} : pipeline.phase = .running →
      (pipeline.side role).merge = some control → control ≠ .finished →
      Crash pipeline view (pipeline.breakMerge view role, view)
  | join : pipeline.phase = .running → pipeline.join.isFinished = false →
      Crash pipeline view (pipeline.breakJoin view)
  | fanOut : pipeline.phase = .running → pipeline.settings.billed = true →
      pipeline.fanOut ≠ .finished → Crash pipeline view (pipeline.breakFanOut view)
  | billing : pipeline.phase = .running → pipeline.settings.billed = true →
      pipeline.billing.isFinished = false → Crash pipeline view (pipeline.breakBilling, view)

end Pipeline

/-- A pipeline, what it sees, and what has been received from it. -/
structure World where
  pipeline : Pipeline
  view : Pipeline.View
  delivered : List JoinOutput

namespace World

/-- What may happen next. -/
inductive Step (world : World) : World → Prop where
  | run {pipeline : Pipeline} {view : Pipeline.View} :
      (pipeline, view) ∈ world.pipeline.transitions world.view →
      Step world ⟨pipeline, view, world.delivered⟩
  | crash {pipeline : Pipeline} {view : Pipeline.View} :
      world.pipeline.Crash world.view (pipeline, view) →
      Step world ⟨pipeline, view, world.delivered⟩
  /-- The consumer receives the next output. -/
  | receive {item : JoinOutput} {outputs : Channel JoinOutput} :
      world.view.outputs.receive = .item item outputs →
      Step world { world with
        view := { world.view with outputs }, delivered := world.delivered ++ [item] }
  /-- The consumer takes no more outputs than those that are there. -/
  | refuse : Step world { world with
      view := { world.view with outputs := world.view.outputs.refuse } }
  /-- The consumer goes. -/
  | leave : Step world { world with
      view := { world.view with outputs := world.view.outputs.dropReceiver } }
  | transport {transport : Transport} : world.view.transport.Step transport →
      Step world { world with view := { world.view with transport } }
  /-- Everything else changes in any way. -/
  | outside (blobs : Guarded MemoryBlobs) (reporter : UsageReporter)
      (commands : Channel Checkpointer.Command) (replies : Checkpointer.Replies)
      (cancelled : Bool) (now : Nat) (wall : Instant) :
      Step world { world with
        view := { world.view with blobs, reporter, commands, replies, cancelled, now, wall } }

/-- The worlds that come about from the start of a pipeline. -/
inductive Reachable (settings : Pipeline.Settings) (checkpoint : Option JoinCheckpoint)
    (view : Pipeline.View) : World → Prop where
  | start {pipeline : Pipeline} : Pipeline.start settings checkpoint view = .ok pipeline →
      Reachable settings checkpoint view ⟨pipeline, view, []⟩
  | step {world next : World} : Reachable settings checkpoint view world → world.Step next →
      Reachable settings checkpoint view next

/-! ## Runs in a chosen order -/

/-- What a run does next: the transition with a number, or the consumer receives an output. -/
inductive Choice where
  | transition (number : Nat)
  | receive

/-- The world after a choice, if there is such a transition or an output to receive. -/
def choose? (world : World) : Choice → Option World
  | .transition number =>
    (world.pipeline.transitions world.view)[number]?.map fun next =>
      ⟨next.1, next.2, world.delivered⟩
  | .receive =>
    match world.view.outputs.receive with
    | .item item outputs =>
      some { world with
        view := { world.view with outputs }, delivered := world.delivered ++ [item] }
    | _ => none

/-- The world that the choices lead to. -/
def run? (choices : List Choice) (world : World) : Option World :=
  choices.foldlM choose? world

/-- A choice leads to a transition, or to an output that is received. -/
theorem choose_cases {world next : World} {choice : Choice} (h : world.choose? choice = some next) :
    (∃ pipeline view, (pipeline, view) ∈ world.pipeline.transitions world.view ∧
        next = ⟨pipeline, view, world.delivered⟩) ∨
      ∃ item outputs, world.view.outputs.receive = .item item outputs ∧
        next = { world with
          view := { world.view with outputs }, delivered := world.delivered ++ [item] } := by
  cases choice with
  | transition number =>
      obtain ⟨⟨pipeline, view⟩, hfound, rfl⟩ := Option.map_eq_some_iff.mp h
      exact .inl ⟨pipeline, view, List.mem_of_getElem? hfound, rfl⟩
  | receive =>
      cases hreceive : world.view.outputs.receive with
      | item item outputs =>
          simp only [choose?, hreceive] at h
          exact .inr ⟨item, outputs, rfl, (Option.some.inj h).symm⟩
      | ended | empty =>
          simp only [choose?, hreceive] at h
          cases h

theorem step_of_choose {world next : World} {choice : Choice}
    (h : world.choose? choice = some next) : world.Step next := by
  rcases choose_cases h with ⟨pipeline, view, hnext, rfl⟩ | ⟨item, outputs, hreceive, rfl⟩
  · exact .run hnext
  · exact .receive hreceive

theorem reachable_of_run {settings : Pipeline.Settings} {checkpoint : Option JoinCheckpoint}
    {view : Pipeline.View} {choices : List Choice} {world next : World}
    (hreachable : Reachable settings checkpoint view world) (h : world.run? choices = some next) :
    Reachable settings checkpoint view next := by
  induction choices generalizing world with
  | nil =>
      obtain rfl := Option.some.inj h
      exact hreachable
  | cons choice rest ih =>
      rw [run?, List.foldlM_cons] at h
      obtain ⟨between, hchoose, hrest⟩ := Option.bind_eq_some_iff.mp h
      exact ih (hreachable.step (step_of_choose hchoose)) hrest

theorem except_ok_of_option {ε α : Type} {result : Except ε α} {value : α}
    (h : result.toOption = some value) : result = .ok value := by
  cases result with
  | error error => cases h
  | ok found => rw [Option.some.inj h]

/-- What choices lead to from the start comes about. -/
theorem reachable_of_start {settings : Pipeline.Settings} {checkpoint : Option JoinCheckpoint}
    {view : Pipeline.View} {choices : List Choice} {world : World}
    (h : ((Pipeline.start settings checkpoint view).toOption.bind fun pipeline =>
      run? choices ⟨pipeline, view, []⟩) = some world) :
    Reachable settings checkpoint view world := by
  obtain ⟨pipeline, hstart, hrun⟩ := Option.bind_eq_some_iff.mp h
  exact reachable_of_run (.start (except_ok_of_option hstart)) hrun

end World

end WindowJoin

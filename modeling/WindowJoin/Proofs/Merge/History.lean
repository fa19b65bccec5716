import Mathlib.Logic.Function.Basic
import WindowJoin.Proofs.Merge.Stock

/-!
# A merge and the world around it

A `Merge.Run` is a merge under way, together with what is known of its past: what has been pushed to
each partition, which batches the merge has chosen and sent, and how things were when it looked at the
partitions for that, one after the other.
`Merge.Run.Step` lets everything happen that may happen: a turn of the merge, whichever is taken; a
writer that pushes, goes, or shows what it does; a reader that receives or leaves; a cancellation; and
time that passes. Statements about `Merge.Run.Reachable` hold in every order of steps. The past is only
noted (`Merge.Run.after`); nothing that happens depends on it.
-/

namespace WindowJoin

/-- What the writer of a source does, and which batches it pushes. -/
inductive PartitionSource.Written (source : PartitionSource) :
    List MessageBatch → PartitionSource → Prop where
  | push {batch : MessageBatch} {channel : Channel MessageBatch} :
      source.channel.senderOpen = true → source.push batch = .sent channel →
      Written source [batch] { source with channel }
  | leave : Written source [] source.dropWriter
  | signal (status : ReceiverStatus) : Written source [] { source with status }

namespace Merge

/-- How things are at some time: what the merge sees, and what has been pushed to each partition until
then, by its place. -/
structure Moment where
  view : View
  pushed : Nat → List MessageBatch

/-- How things are after a look at a partition. -/
def Moment.look (moment : Moment) (index : Nat) (slot : MergeSlot) : Moment :=
  { moment with view := moment.view.set index slot.fill }

/-- A wait of a round that ended although nothing had come and more could still come: the place of the
partition, and how things were at that time. -/
structure Silence where
  index : Nat
  moment : Moment

/-- A round: how things were at its start when each partition was looked at, by its place, and the waits
that have ended in vain. -/
structure Round where
  start : Nat → Moment
  silences : List Silence

/-- The round has come to a partition. -/
def Round.come (round : Round) (index : Nat) (moment : Moment) : Round :=
  { round with start := Function.update round.start index moment }

/-- A batch that was chosen: from which partition, in which round, how things were when each partition
was looked at for the choice, by its place, and how things were at last, before the batch was taken. -/
structure Choice where
  index : Nat
  batch : MessageBatch
  round : Round
  looks : Nat → Moment
  moment : Moment

/-- A merge under way. -/
structure Run where
  control : Control
  here : Moment
  /-- The round that is under way, and those before it. -/
  round : Round
  earlier : List Round
  /-- How things were when each partition was looked at for the choice that is under way. -/
  looks : Nat → Moment
  /-- What has been chosen and not sent yet. -/
  held : Option Choice
  sent : List Choice
  /-- Whether the merge has ended because every partition was drained. -/
  drained : Bool
  received : List MessageBatch

namespace Run

/-- A merge of some sources at the beginning. -/
def start (sources : List PartitionSource) (capacity : Nat) (cancelled : Bool) (now : Nat)
    (wall : Instant) : Run :=
  let here : Moment :=
    ⟨⟨sources.map .new, .new capacity, cancelled, now, wall⟩,
      fun index => (sources[index]?).elim [] (·.stock.batches)⟩
  ⟨.top, here, ⟨fun _ => here, []⟩, [], fun _ => here, none, [], false, []⟩

/-- A run in which the merge sees something else. -/
def see (run : Run) (view : View) : Run :=
  { run with here := { run.here with view } }

end Run

/-- How things are after the writer of a partition has done something. -/
def Moment.write (moment : Moment) (index : Nat) (slot : MergeSlot)
    (batches : List MessageBatch) : Moment where
  view := { moment.view with slots := moment.view.slots.set index slot }
  pushed := Function.update moment.pushed index (moment.pushed index ++ batches)

/-- The waits that are over and were in vain. -/
def Moment.silences (moment : Moment) (waits rest : List Wait) : List Silence :=
  (waits.filter fun wait =>
    wait ∉ rest && (moment.view.slots[wait.slot]?).any fun slot =>
      slot.source.head.isNone && !slot.source.exhausted).map fun wait => ⟨wait.slot, moment⟩

namespace Run

/-- The run after a turn of the merge. -/
def after (run : Run) (next : Control × View) : Run :=
  let later := { run.see next.2 with control := next.1 }
  match run.control, next.1 with
  | .top, .surveying _ _ =>
    { later with round := ⟨fun _ => later.here, []⟩, earlier := run.earlier ++ [run.round] }
  | .surveying index _, .surveying _ _ =>
    { later with round := run.round.come index later.here }
  | .filling waits, .filling rest =>
    { later with
      round := { run.round with
        silences := run.round.silences ++ later.here.silences waits rest } }
  | .updating _ _ _, .choosing _ => { later with looks := fun _ => later.here }
  | .updating _ _ _, .finished => { later with drained := true }
  | .choosing index, .choosing _ =>
    { later with looks := Function.update run.looks index later.here }
  | .choosing _, .sending batch =>
    { later with
      held := (chosen? run.here.view.slots).map fun index =>
        ⟨index, batch, run.round, run.looks, run.here⟩ }
  | .sending _, .top => { later with sent := run.sent ++ run.held.toList, held := none }
  | _, .finished => { later with held := none }
  | _, _ => later

/-- What may happen next. -/
inductive Step (rules : MergeRules) (run : Run) : Run → Prop where
  | turn {next : Control × View} : next ∈ transitions rules run.control run.here.view →
      Step rules run (run.after next)
  /-- The writer of a partition does something. -/
  | write {index : Nat} {slot : MergeSlot} {batches : List MessageBatch}
      {source : PartitionSource} : run.here.view.slots[index]? = some slot →
      slot.source.Written batches source →
      Step rules run { run with here := run.here.write index { slot with source } batches }
  /-- The reader receives the next batch. -/
  | receive {batch : MessageBatch} {output : Channel MessageBatch} :
      run.here.view.output.receive = .item batch output →
      Step rules run { run.see { run.here.view with output } with
        received := run.received ++ [batch] }
  /-- The reader takes no more batches than those that are there. -/
  | refuse : Step rules run
      (run.see { run.here.view with output := run.here.view.output.refuse })
  /-- The reader goes. -/
  | leave : Step rules run
      (run.see { run.here.view with output := run.here.view.output.dropReceiver })
  | cancel : Step rules run (run.see { run.here.view with cancelled := true })
  /-- Time passes, and the wall clock shows any time. -/
  | elapse {now : Nat} (wall : Instant) : run.here.view.now ≤ now →
      Step rules run (run.see { run.here.view with now, wall })

/-- The runs that come about from a merge of some sources. -/
inductive Reachable (rules : MergeRules) (sources : List PartitionSource) : Run → Prop where
  | start (hsound : ∀ source ∈ sources, source.Sound) (capacity : Nat) (cancelled : Bool)
      (now : Nat) (wall : Instant) :
      Reachable rules sources (start sources capacity cancelled now wall)
  | step {run next : Run} : Reachable rules sources run → run.Step rules next →
      Reachable rules sources next

end Run

namespace Run

variable {rules : MergeRules} {sources : List PartitionSource} {run next : Run}

/-- What a turn of the merge does in a run. -/
inductive Turned (rules : MergeRules) (run : Run) : Run → Prop where
  | begin : run.control = .top → run.here.view.cancelled = false →
      Turned rules run { run with
        control := .surveying 0 []
        round := ⟨fun _ => run.here, []⟩
        earlier := run.earlier ++ [run.round] }
  | survey {index : Nat} {waits : List Wait} {slot : MergeSlot} :
      run.control = .surveying index waits → run.here.view.slots[index]? = some slot →
      Turned rules run { run.see (run.here.view.set index slot.fill) with
        control := .surveying (index + 1)
          (waits ++ (waitFor? rules run.here.view.now index slot.fill).toList)
        round := run.round.come index (run.here.look index slot) }
  | await {index : Nat} {waits : List Wait} : run.control = .surveying index waits →
      run.here.view.slots[index]? = none →
      Turned rules run { run with control := .filling waits }
  | settle {waits : List Wait} {wait : Wait} {slots : List MergeSlot} :
      run.control = .filling waits → wait ∈ waits →
      pollSlot? run.here.view wait = some slots →
      Turned rules run { run.see { run.here.view with slots } with
        control := .filling (waits.erase wait)
        round := { run.round with
          silences := run.round.silences ++
            Moment.silences ⟨{ run.here.view with slots }, run.here.pushed⟩ waits
              (waits.erase wait) } }
  | review : run.control = .filling [] →
      Turned rules run { run with control := .updating 0 .head run.here.view.wall }
  | update {index : Nat} {question : MergeSlot.Question} {wall : Instant} {slot : MergeSlot} :
      run.control = .updating index question wall → run.here.view.slots[index]? = some slot →
      Turned rules run
        { run.see (run.here.view.set index (slot.update rules wall question).1) with
          control := goOn index wall (slot.update rules wall question).2 }
  | resume {index : Nat} {question : MergeSlot.Question} {wall : Instant} {slot : MergeSlot} :
      run.control = .updating index question wall → run.here.view.slots[index]? = none →
      slot ∈ run.here.view.slots → slot.closed = false →
      Turned rules run { run with control := .choosing 0, looks := fun _ => run.here }
  | look {index : Nat} {slot : MergeSlot} : run.control = .choosing index →
      run.here.view.slots[index]? = some slot →
      Turned rules run { run.see (run.here.view.set index slot.fill) with
        control := .choosing (index + 1)
        looks := Function.update run.looks index (run.here.look index slot) }
  | choose {count index : Nat} {slot : MergeSlot} {batch : MessageBatch} :
      run.control = .choosing count → run.here.view.slots[count]? = none →
      chosen? run.here.view.slots = some index → run.here.view.slots[index]? = some slot →
      slot.head? = some batch →
      Turned rules run { run.see (run.here.view.pop index) with
        control := .sending batch
        held := some ⟨index, batch, run.round, run.looks, run.here⟩ }
  | idle {count : Nat} : run.control = .choosing count →
      run.here.view.slots[count]? = none → chosen? run.here.view.slots = none →
      Turned rules run { run with
        control := .idling (pauseEnd run.here.view.now rules.activeTimeout) }
  | send {batch : MessageBatch} {output : Channel MessageBatch} : run.control = .sending batch →
      run.here.view.cancelled = false → run.here.view.output.send batch = .sent output →
      Turned rules run { run.see { run.here.view with output } with
        control := .top, sent := run.sent ++ run.held.toList, held := none }
  | wake {deadline index : Nat} {slots : List MergeSlot} : run.control = .idling deadline →
      pollSlot? run.here.view ⟨index, deadline⟩ = some slots →
      Turned rules run { run.see { run.here.view with slots } with control := .top }
  | drain {index : Nat} {question : MergeSlot.Question} {wall : Instant} :
      run.control = .updating index question wall →
      (∀ slot ∈ run.here.view.slots, slot.closed = true) →
      Turned rules run { run.see (finish run.here.view).2 with
        control := .finished, drained := true }
  | stop : run.control = .top ∨ (∃ batch, run.control = .sending batch) →
      run.here.view.cancelled = true ∨ run.here.view.output.receiverOpen = false →
      Turned rules run { run.see (finish run.here.view).2 with control := .finished, held := none }

theorem after_turned {next : Control × View}
    (h : next ∈ transitions rules run.control run.here.view) :
    run.Turned rules (run.after next) := by
  cases transitions_turn h with
  | begin hcontrol hcancelled =>
      simp only [after, hcontrol]
      exact .begin hcontrol hcancelled
  | survey hcontrol hslot =>
      simp only [after, hcontrol]
      exact .survey hcontrol hslot
  | await hcontrol hnone =>
      simp only [after, hcontrol]
      exact .await hcontrol hnone
  | settle hcontrol hwait hpoll =>
      simp only [after, hcontrol]
      exact .settle hcontrol hwait hpoll
  | review hcontrol =>
      simp only [after, hcontrol]
      exact .review hcontrol
  | @update index question wall slot hcontrol hslot =>
      have hafter : run.after (goOn index wall (slot.update rules wall question).2,
          run.here.view.set index (slot.update rules wall question).1) =
          { run.see (run.here.view.set index (slot.update rules wall question).1) with
            control := goOn index wall (slot.update rules wall question).2 } := by
        cases hnext : (slot.update rules wall question).2 <;> simp only [after, hcontrol, goOn]
      rw [hafter]
      exact .update hcontrol hslot
  | resume hcontrol hnone hslot hopen =>
      simp only [after, hcontrol]
      exact .resume hcontrol hnone hslot hopen
  | look hcontrol hslot =>
      simp only [after, hcontrol]
      exact .look hcontrol hslot
  | choose hcontrol hnone hchosen hslot hhead =>
      simp only [after, hcontrol, hchosen]
      exact .choose hcontrol hnone hchosen hslot hhead
  | idle hcontrol hnone hsilent =>
      simp only [after, hcontrol]
      exact .idle hcontrol hnone hsilent
  | send hcontrol hcancelled hsend =>
      simp only [after, hcontrol]
      exact .send hcontrol hcancelled hsend
  | wake hcontrol hpoll =>
      simp only [after, hcontrol]
      exact .wake hcontrol hpoll
  | drain hcontrol _ hclosed =>
      simp only [after, hcontrol, finish]
      exact .drain hcontrol hclosed
  | stop hcontrol hend =>
      have hafter : run.after (finish run.here.view) =
          { run.see (finish run.here.view).2 with control := .finished, held := none } := by
        rcases hcontrol with hcontrol | ⟨batch, hcontrol⟩ <;> simp only [after, hcontrol, finish]
      rw [hafter]
      exact .stop hcontrol hend

/-! ## Runs in a chosen order -/

/-- What happens next in a run: the merge takes the transition with a number, the writer of a partition
pushes or leaves, or time passes. -/
inductive Act where
  | turn (number : Nat)
  | push (index : Nat) (batch : MessageBatch)
  | leave (index : Nat)
  | elapse (time : Nat)

/-- The run after an act, if that is possible. -/
def act? (rules : MergeRules) (run : Run) : Act → Option Run
  | .turn number => (transitions rules run.control run.here.view)[number]?.map run.after
  | .push index batch =>
    match run.here.view.slots[index]? with
    | none => none
    | some slot =>
      if slot.source.channel.senderOpen then
        match slot.source.push batch with
        | .sent channel =>
          some { run with
            here := run.here.write index { slot with source := { slot.source with channel } } [batch] }
        | _ => none
      else none
  | .leave index =>
    (run.here.view.slots[index]?).map fun slot =>
      { run with here := run.here.write index { slot with source := slot.source.dropWriter } [] }
  | .elapse time => some (run.see { run.here.view with now := run.here.view.now + time })

/-- The run that the acts lead to. -/
def play? (rules : MergeRules) (acts : List Act) (run : Run) : Option Run :=
  acts.foldlM (act? rules) run

theorem step_of_act {act : Act} (h : run.act? rules act = some next) : run.Step rules next := by
  cases act with
  | turn number =>
      obtain ⟨found, hfound, rfl⟩ := Option.map_eq_some_iff.mp h
      exact .turn (List.mem_of_getElem? hfound)
  | push index batch =>
      unfold act? at h
      dsimp only at h
      split at h
      · cases h
      next slot hslot =>
        split at h
        next hopen =>
          split at h
          next channel hsend =>
            obtain rfl := Option.some.inj h
            exact .write hslot (.push hopen hsend)
          next => cases h
        next => cases h
  | leave index =>
      obtain ⟨slot, hslot, rfl⟩ := Option.map_eq_some_iff.mp h
      exact .write hslot .leave
  | elapse time =>
      obtain rfl := Option.some.inj h
      exact .elapse _ (Nat.le_add_right ..)

theorem reachable_of_play {acts : List Act} (hreachable : Reachable rules sources run)
    (h : run.play? rules acts = some next) : Reachable rules sources next := by
  induction acts generalizing run with
  | nil =>
      obtain rfl := Option.some.inj h
      exact hreachable
  | cons act rest ih =>
      rw [play?, List.foldlM_cons] at h
      obtain ⟨between, hact, hrest⟩ := Option.bind_eq_some_iff.mp h
      exact ih (hreachable.step (step_of_act hact)) hrest

end Run

end Merge

end WindowJoin

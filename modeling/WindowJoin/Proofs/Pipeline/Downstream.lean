import WindowJoin.Proofs.Billing.Intake
import WindowJoin.Proofs.Checkpoint.Keeper
import WindowJoin.Proofs.Pipeline.Joining
import WindowJoin.Proofs.Pipeline.Turn
import WindowJoin.Proofs.Pipeline.World

/-!
# Behind the join

The fan-out hands the records of what it has taken to billing before it sends any of it on, so what
the consumer has received is the beginning of what billing has been handed (`FanOut.Hands`). The keeper
of the join checkpoint, and the document in which it stores the checkpoint, name only positions that
have been committed (`Checkpointer.Names`).

`Downstream` puts both together with billing, for a pipeline that has started without checkpoints. A
transition of the pipeline keeps it (`transitions_downstream`), and so does a component that breaks off
(`crash_downstream`).
-/

namespace WindowJoin

namespace FanOut

/-- What billing has been handed is what has been sent on and what is being sent on. -/
def Hands (control : Control) (records : Channel (List BillingRecord))
    (output : Channel JoinOutput) (units : List (List BillingRecord))
    (delivered : List JoinOutput) : Prop :=
  ∃ handed forwarded, records.Passes handed units ∧
    Conserved handed.flatten (recordsOf (sending control)) (recordsOf forwarded)
      (control ≠ .finished) ∧
    output.Passes forwarded delivered

variable {control : Control} {view : View} {next : Control × View}
  {units : List (List BillingRecord)} {delivered : List JoinOutput}

/-- What the other ends of the channels do is of no concern to the fan-out. -/
theorem Hands.congr {records records' : Channel (List BillingRecord)}
    {output output' : Channel JoinOutput} {units' : List (List BillingRecord)}
    {delivered' : List JoinOutput} (h : Hands control records output units delivered)
    (hrecords : ∀ handed, records.Passes handed units → records'.Passes handed units')
    (houtput : ∀ forwarded, output.Passes forwarded delivered →
      output'.Passes forwarded delivered') : Hands control records' output' units' delivered' := by
  obtain ⟨handed, forwarded, hpasses, hconserved, hforwards⟩ := h
  exact ⟨handed, forwarded, hrecords handed hpasses, hconserved, houtput forwarded hforwards⟩

theorem Hands.finish {records : Channel (List BillingRecord)} {output : Channel JoinOutput}
    (h : Hands control records output units delivered) :
    Hands .finished records.dropSender output.dropSender units delivered := by
  obtain ⟨handed, forwarded, hrecords, hconserved, houtput⟩ := h
  exact ⟨handed, forwarded, hrecords.drop_sender,
    .stopped hconserved.begins fun hworking => hworking rfl, houtput.drop_sender⟩

/-- A step of the fan-out sends nothing on of which billing has not been handed the records. -/
theorem step_hands (h : Hands control view.records view.output units delivered)
    (hnext : next ∈ transitions control view) :
    Hands next.1 next.2.records next.2.output units delivered := by
  cases transitions_turn hnext with
  | take hcontrol hreceive =>
      obtain ⟨handed, forwarded, hrecords, hconserved, houtput⟩ := h
      rw [hcontrol] at hconserved
      refine ⟨handed, forwarded, hrecords, ?_, houtput⟩
      rw [records_of_sending_take]
      exact hconserved.mono fun _ => nofun
  | @hand items records hcontrol hcancelled hsend =>
      obtain ⟨handed, forwarded, hrecords, hconserved, houtput⟩ := h
      rw [hcontrol] at hconserved
      refine ⟨handed ++ [recordsOf items], forwarded, hrecords.send hsend, ?_, houtput⟩
      rw [List.flatten_append, List.flatten_singleton]
      exact hconserved.accept nofun _ _
  | @forward item rest output hcontrol hcancelled hsend =>
      -- The item moves from what is being sent on to what has been.
      obtain ⟨handed, forwarded, hrecords, hconserved, houtput⟩ := h
      rw [hcontrol, show sending (.forwarding (item :: rest)) = [item] ++ rest from rfl,
        records_of_append] at hconserved
      refine ⟨handed, forwarded ++ [item], hrecords, ?_, houtput.send hsend⟩
      rw [records_of_append]
      exact (hconserved.give _).mono fun _ => nofun
  | listen hcontrol =>
      obtain ⟨handed, forwarded, hrecords, hconserved, houtput⟩ := h
      rw [hcontrol] at hconserved
      exact ⟨handed, forwarded, hrecords, hconserved.mono fun _ => nofun, houtput⟩
  | cancel | ended | unbilled | unread => exact h.finish

/-- Whether billing still listens is up to billing. -/
theorem step_records_open (hnext : next ∈ transitions control view) :
    next.2.records.receiverOpen = view.records.receiverOpen := by
  cases transitions_turn hnext with
  | hand hcontrol hcancelled hsend => rw [(Channel.send_eq hsend).2]
  | _ => rfl

end FanOut

/-- The offset of every partition in a checkpoint is an allowed one. -/
def JoinCheckpoint.Names (checkpoint : JoinCheckpoint) (allowed : String → Int64 → Prop) : Prop :=
  ∀ partition offset, (checkpoint.progress partition).offset = some offset →
    allowed partition offset

theorem JoinCheckpoint.names_empty (allowed : String → Int64 → Prop) :
    JoinCheckpoint.Names .empty allowed := by
  intro partition offset hfound
  have hnone : (JoinCheckpoint.progress .empty partition).offset = none := rfl
  rw [hnone] at hfound
  cases hfound

/-- An advance names the new position besides those of before. -/
theorem JoinCheckpoint.Names.advance {checkpoint advanced : JoinCheckpoint}
    {allowed : String → Int64 → Prop} (h : checkpoint.Names allowed) {partition : String}
    {offset : Int64} {enqueuedTime : Instant} (hallowed : allowed partition offset)
    (hadvanced : checkpoint.advance partition offset enqueuedTime = .ok advanced) :
    advanced.Names allowed := by
  simp only [advance_eq] at hadvanced
  split at hadvanced
  · cases hadvanced
  · obtain rfl := Except.ok.inj hadvanced
    intro other found hfound
    rw [progress, OrderedMap.get_insert] at hfound
    split at hfound
    next hsame =>
      subst hsame
      exact Option.some.inj hfound ▸ hallowed
    next => exact h other found hfound

namespace Checkpointer

/-- The checkpoint that is stored. -/
def Rules.stored (rules : Rules) (blobs : Guarded MemoryBlobs) : JoinCheckpoint :=
  CheckpointStore.checkpointIn JoinCheckpoint.ofJson (blobs.store.get? rules.blobName)

theorem Rules.stored_congr (rules : Rules) {blobs others : Guarded MemoryBlobs}
    (h : blobs.store.get? rules.blobName = others.store.get? rules.blobName) :
    rules.stored blobs = rules.stored others := by
  rw [stored, h, stored]

/-- A keeper, its commands and the stored checkpoint name allowed positions only. -/
structure Keeps (allowed : String → Int64 → Prop) (rules : Rules) (actor : Checkpointer)
    (commands : Channel Command) (blobs : Guarded MemoryBlobs) : Prop where
  commands : ∀ partition offset enqueuedTime,
    .commit partition offset enqueuedTime ∈ commands.queue → allowed partition offset
  checkpoint : actor.checkpoint.Names allowed
  stored : (rules.stored blobs).Names allowed

variable {allowed : String → Int64 → Prop} {rules : Rules} {actor : Checkpointer} {view : View}
  {next : Checkpointer × View}

theorem Keeps.mono {others : String → Int64 → Prop} {commands : Channel Command}
    {blobs : Guarded MemoryBlobs} (h : Keeps allowed rules actor commands blobs)
    (hothers : ∀ {partition offset}, allowed partition offset → others partition offset) :
    Keeps others rules actor commands blobs where
  commands partition offset enqueuedTime hmem :=
    hothers (h.commands partition offset enqueuedTime hmem)
  checkpoint partition offset hfound := hothers (h.checkpoint partition offset hfound)
  stored partition offset hfound := hothers (h.stored partition offset hfound)

/-- A command is sent that commits an allowed position, if it commits one. -/
theorem Keeps.send {command : Command} {commands sent : Channel Command}
    {blobs : Guarded MemoryBlobs} (h : Keeps allowed rules actor commands blobs)
    (hsend : commands.send command = .sent sent)
    (hallowed : ∀ partition offset enqueuedTime,
      command = .commit partition offset enqueuedTime → allowed partition offset) :
    Keeps allowed rules actor sent blobs := by
  refine { h with commands := fun partition offset enqueuedTime hmem => ?_ }
  rw [(Channel.send_eq hsend).2] at hmem
  rcases List.mem_append.mp hmem with hmem | hmem
  · exact h.commands partition offset enqueuedTime hmem
  · exact hallowed partition offset enqueuedTime (List.mem_singleton.mp hmem).symm

theorem Keeps.receive (h : Keeps allowed rules actor view.commands view.blobs)
    {command : Command} {commands : Channel Command}
    (hreceive : view.commands.receive = .item command commands) :
    Keeps allowed rules actor commands view.blobs := by
  refine { h with commands := fun partition offset enqueuedTime hmem => ?_ }
  refine h.commands partition offset enqueuedTime ?_
  rw [(Channel.receive_eq hreceive).1]
  exact List.mem_cons_of_mem _ hmem

theorem Keeps.prompt (h : Keeps allowed rules actor view.commands view.blobs) {taken : List Command}
    {purpose : Purpose} {ticker : Ticker} {seen : View}
    (hprompt : Prompt actor view taken purpose ticker seen) :
    Keeps allowed rules { actor with ticker } seen.commands seen.blobs := by
  cases hprompt with
  | cancel | tick | ended => exact { h with }
  | flush hreceive | shutdown hreceive => exact { h.receive hreceive with }

theorem Keeps.conclude (view : View) (h : Keeps allowed rules actor view.commands view.blobs)
    (purpose : Purpose) (result : Except Failure Unit) :
    let next := Checkpointer.conclude actor view purpose result
    Keeps allowed rules next.1 next.2.commands next.2.blobs := by
  intro next
  obtain ⟨control, commands, answers, hconclude, -, hcommands, -⟩ :=
    conclude_spec actor view purpose result
  rw [show next = _ from hconclude]
  rcases hcommands with rfl | rfl
  · exact { h with }
  · exact { h with commands := fun _ _ _ hmem => absurd hmem List.not_mem_nil }

/-- What is stored is the checkpoint. -/
theorem Keeps.write (h : Keeps allowed rules actor view.commands view.blobs) :
    Keeps allowed rules actor view.commands (Checkpointer.write rules actor view).2 := by
  refine { h with stored := ?_ }
  cases hresult : (Checkpointer.write rules actor view).1 with
  | ok =>
      have hdocument := write_ok hresult
      rw [View.document] at hdocument
      rw [Rules.stored, hdocument, CheckpointStore.checkpointIn, join_of_json_to_json]
      exact h.checkpoint
  | error error =>
      have hdocument := write_error hresult
      rw [View.document, View.document] at hdocument
      rw [Rules.stored, hdocument]
      exact h.stored

/-- A step of the keeper names nothing new but what is committed to it. -/
theorem step_keeps (h : Keeps allowed rules actor view.commands view.blobs)
    (hnext : next ∈ transitions rules actor view) :
    Keeps allowed rules next.1 next.2.commands next.2.blobs := by
  obtain ⟨taken, stored, hturn⟩ := transitions_turn hnext
  cases hturn with
  | @commit partition offset enqueuedTime _ hcontrol hreceive =>
      have hallowed : allowed partition offset := by
        refine h.commands partition offset enqueuedTime ?_
        rw [(Channel.receive_eq hreceive).1]
        exact List.mem_cons_self
      rcases actor.commit_cases partition offset enqueuedTime with
        ⟨advanced, hadvanced, hcommit⟩ | ⟨-, hcommit⟩
      · rw [hcommit]
        exact { h.receive hreceive with checkpoint := h.checkpoint.advance hallowed hadvanced }
      · rw [hcommit]
        exact h.receive hreceive
  | begin hcontrol hprompt hdirty => exact { h.prompt hprompt with }
  | @spare _ _ _ seen hcontrol hprompt hclean => exact (h.prompt hprompt).conclude seen _ _
  | store hcontrol hdue hwritten =>
      have hclean : Keeps allowed rules { actor with dirty := false } view.commands
        (Checkpointer.write rules actor view).2 := { h.write with }
      exact hclean.conclude { view with blobs := (Checkpointer.write rules actor view).2 } _ _
  | retry hcontrol hdue herror hagain => exact { h.write with }
  | fail hcontrol hdue herror hdone =>
      exact h.write.conclude { view with blobs := (Checkpointer.write rules actor view).2 } _ _

/-- A keeper leaves the documents of others alone. -/
theorem step_leaves {name : String} (hname : name ≠ rules.blobName)
    (hnext : next ∈ transitions rules actor view) :
    next.2.blobs.store.get? name = view.blobs.store.get? name := by
  have hwrite : (Checkpointer.write rules actor view).2.store.get? name =
      view.blobs.store.get? name :=
    MemoryBlobs.access_is_map.guarded.write_leaves hname actor.checkpoint.toJson view.blobs
  obtain ⟨taken, stored, hturn⟩ := transitions_turn hnext
  cases hturn with
  | commit => rfl
  | begin hcontrol hprompt hdirty => rw [hprompt.seen_eq.1]
  | spare hcontrol hprompt hclean => rw [conclude_blobs, hprompt.seen_eq.1]
  | retry => exact hwrite
  | store | fail =>
      rw [conclude_blobs]
      exact hwrite

end Checkpointer

/-- A position may be committed, since a joined batch at it has been received. -/
def Committable (delivered : List JoinOutput) (partition : String) (offset : Int64) : Prop :=
  ∃ batch, .joined batch ∈ delivered ∧ batch.partition = partition ∧ batch.offset = offset

namespace Pipeline

/-- The parts behind the join of a pipeline with billing that has started without checkpoints: what
billing has been handed and what it has taken (`units`), what it counts (`counted`), and what is
committed. -/
structure Downstream (settings : Settings) (pipeline : Pipeline) (view : View)
    (delivered : List JoinOutput) (units : List (List BillingRecord))
    (counted : List BillingRecord) : Prop where
  setup : pipeline.settings = settings
  hands : FanOut.Hands pipeline.fanOut pipeline.records view.outputs units delivered
  listens : pipeline.billing.isFinished = false → pipeline.records.receiverOpen = true
  accounts : pipeline.billing.Accounts (settings.billing.stored view.blobs) units.flatten counted
  keeps : Checkpointer.Keeps (Committable delivered) settings.checkpointer pipeline.checkpointer
    view.commands view.blobs
  /-- Before everything runs, billing has done nothing. -/
  waiting : pipeline.phase ≠ .running → pipeline.billing = .start (.ofCheckpoint .empty) ∧
    settings.billing.stored view.blobs = .empty

variable {settings : Settings} {pipeline : Pipeline} {view : View} {next : Pipeline × View}
  {delivered : List JoinOutput} {units : List (List BillingRecord)} {counted : List BillingRecord}

theorem Downstream.ends (h : Downstream settings pipeline view delivered units counted)
    (component : Component) (ending : Option Ending) :
    Downstream settings (pipeline.ends component ending) view delivered units counted := by
  cases ending with
  | none => exact h
  | some ending => exact { h with }

theorem Downstream.set_side (h : Downstream settings pipeline view delivered units counted)
    (role : Role) (side : Side) :
    Downstream settings (pipeline.setSide role side) view delivered units counted := by
  cases role with
  | interactions | observations => exact { h with }

/-- Stores that look the same hold the same. -/
theorem Downstream.congr_blobs (h : Downstream settings pipeline view delivered units counted)
    {blobs : Guarded MemoryBlobs}
    (hblobs : ∀ name, blobs.store.get? name = view.blobs.store.get? name) :
    Downstream settings pipeline { view with blobs } delivered units counted := by
  have hbilling := settings.billing.stored_congr (hblobs _)
  have hkeeper := settings.checkpointer.stored_congr (hblobs _)
  refine { h with
    accounts := ?_
    keeps := { h.keeps with stored := ?_ }
    waiting := ?_ }
  · rw [hbilling]
    exact h.accounts
  · rw [hkeeper]
    exact h.keeps.stored
  · rw [hbilling]
    exact h.waiting

/-! ## The start -/

theorem Downstream.await (h : Downstream settings pipeline view delivered units counted)
    (hphase : pipeline.phase ≠ .running) (now : View) (role : Role) :
    Downstream settings (pipeline.await now role) view delivered units counted := by
  have hside := h.set_side role
    { pipeline.side role with slots := (pipeline.side role).slots.map (·.fill) }
  refine { hside with waiting := fun _ => ?_ }
  have hwaiting := h.waiting hphase
  cases role <;> exact hwaiting

theorem Downstream.launch (h : Downstream settings pipeline view delivered units counted)
    (hphase : pipeline.phase ≠ .running) (now : View) :
    Downstream settings (pipeline.launch now) view delivered units counted := by
  let started := { pipeline with
    checkpointer := .start pipeline.settings.checkpointer pipeline.checkpointer.checkpoint now.now }
  have hstarted : Downstream settings started view delivered units counted :=
    { h with keeps := { h.keeps with } }
  exact hstarted.await hphase now .interactions

/-- Billing goes on from a checkpoint that is still empty. -/
theorem Downstream.resume (h : Downstream settings pipeline view delivered units counted)
    (hphase : pipeline.phase ≠ .running) (attempts : Attempts) :
    Downstream settings (pipeline.resume view attempts).1 (pipeline.resume view attempts).2
      delivered units counted := by
  have hread := h.congr_blobs fun name =>
    MemoryBlobs.access_is_map.guarded.read_leaves pipeline.settings.billing.blobName name view.blobs
  unfold Pipeline.resume
  dsimp only
  split
  · exact { hread with waiting := fun _ => hread.waiting hphase }
  · exact { hread with waiting := fun _ => hread.waiting hphase }
  next data hdone =>
    obtain ⟨hbilling, hempty⟩ := h.waiting hphase
    have hdata := (MemoryBlobs.access_faithful _).guarded.read_gives (Attempts.result_of_done hdone)
    have haccount : CheckpointStore.checkpointIn BillingCheckpoint.ofJson data = .empty := by
      rw [hdata, h.setup]
      exact hempty
    have hsame : { pipeline with billing := .start (.ofCheckpoint
        (CheckpointStore.checkpointIn BillingCheckpoint.ofJson data)) } = pipeline := by
      rw [haccount, ← hbilling]
    rw [hsame]
    exact hread.launch hphase _

theorem StartTurn.downstream (hturn : StartTurn pipeline view next)
    (h : Downstream settings pipeline view delivered units counted) :
    Downstream settings next.1 next.2 delivered units counted := by
  have hwaits := hturn.not_running
  cases hturn with
  | resume => exact h.resume hwaits _
  | await => exact h.await hwaits view .observations
  | runAll => exact { h with waiting := fun hwaits => absurd rfl hwaits }
  | @firstBatch role waits wait slot ready source =>
      have hset := h.set_side role { pipeline.side role with
        slots := (pipeline.side role).slots.set wait.slot { slot with source } }
      have hwaiting := h.waiting hwaits
      refine { hset with waiting := fun _ => ?_ }
      cases role <;> exact hwaiting

/-! ## The parts at work -/

theorem receiver_steps_downstream {role : Role}
    (h : Downstream settings pipeline view delivered units counted)
    (hnext : next ∈ pipeline.receiverSteps view role) :
    Downstream settings next.1 next.2 delivered units counted := by
  obtain ⟨⟨⟨receiver, slot⟩, index⟩, -, hstep⟩ := List.mem_flatMap.mp hnext
  obtain ⟨⟨reader, seen⟩, -, rfl⟩ := List.mem_map.mp hstep
  refine Downstream.ends ?_ _ _
  exact { h.set_side role _ with }

theorem merge_steps_downstream {role : Role}
    (h : Downstream settings pipeline view delivered units counted)
    (hnext : next ∈ pipeline.mergeSteps view role) :
    Downstream settings next.1 next.2 delivered units counted := by
  unfold mergeSteps at hnext
  dsimp only at hnext
  split at hnext
  next => cases hnext
  next control hcontrol =>
    obtain ⟨⟨after, seen⟩, -, rfl⟩ := List.mem_map.mp hnext
    exact (h.set_side role _).ends _ _

/-- The join sends to the fan-out, not to the consumer. -/
theorem join_steps_downstream (hbilled : settings.billed = true)
    (h : Downstream settings pipeline view delivered units counted)
    (hnext : next ∈ pipeline.joinSteps view) :
    Downstream settings next.1 next.2 delivered units counted := by
  obtain ⟨⟨run, seen⟩, -, rfl⟩ := List.mem_map.mp hnext
  have hpipeline : pipeline.settings.billed = true := h.setup ▸ hbilled
  refine Downstream.ends ?_ _ _
  rw [hpipeline, if_pos rfl]
  exact { h with }

theorem fan_out_steps_downstream
    (h : Downstream settings pipeline view delivered units counted)
    (hnext : next ∈ pipeline.fanOutSteps view) :
    Downstream settings next.1 next.2 delivered units counted := by
  obtain ⟨⟨control, seen⟩, hstep, rfl⟩ := List.mem_map.mp hnext
  refine Downstream.ends ?_ _ _
  refine { h with hands := FanOut.step_hands h.hands hstep, listens := fun hworking => ?_ }
  exact (FanOut.step_records_open hstep).trans (h.listens hworking)

/-- Billing takes records in, and stores its checkpoint in a document of its own. -/
theorem billing_steps_downstream
    (hnames : settings.config.checkpointBlobName ≠ settings.config.billingBlobName)
    (hphase : pipeline.phase = .running)
    (h : Downstream settings pipeline view delivered units counted)
    (hnext : next ∈ pipeline.billingSteps view) :
    ∃ units counted, Downstream settings next.1 next.2 delivered units counted := by
  obtain ⟨⟨billing, seen⟩, hstep, rfl⟩ := List.mem_map.mp hnext
  rw [h.setup] at hstep
  obtain ⟨deed, hturn⟩ := BillingRun.transitions_turn hstep
  obtain ⟨more, counted, hintake⟩ := BillingRun.step_accounts h.accounts hstep
  have hkeeper := settings.checkpointer.stored_congr (hintake.leaves _ hnames)
  refine ⟨units ++ more, counted, Downstream.ends ?_ _ _⟩
  refine { h with
    hands := h.hands.congr (fun _ => hintake.passes _ _) fun _ => id
    listens := fun hworking => ?_
    accounts := ?_
    keeps := { h.keeps with stored := ?_ }
    waiting := fun hwaits => absurd hphase hwaits }
  · exact (hintake.listens hworking).trans (h.listens hturn.working)
  · rw [List.flatten_append]
    exact hintake.accounts
  · rw [hkeeper]
    exact h.keeps.stored

/-- The keeper of the join checkpoint stores it in a document of its own, too. -/
theorem checkpointer_steps_downstream
    (hnames : settings.config.checkpointBlobName ≠ settings.config.billingBlobName)
    (h : Downstream settings pipeline view delivered units counted)
    (hnext : next ∈ pipeline.checkpointerSteps view) :
    Downstream settings next.1 next.2 delivered units counted := by
  obtain ⟨⟨checkpointer, seen⟩, hstep, rfl⟩ := List.mem_map.mp hnext
  rw [h.setup] at hstep
  have hother : settings.billing.blobName ≠ settings.checkpointer.blobName := hnames.symm
  have hbilling := settings.billing.stored_congr (Checkpointer.step_leaves hother hstep)
  refine { h with
    accounts := ?_
    keeps := Checkpointer.step_keeps h.keeps hstep
    waiting := fun hwaits => ?_ }
  · rw [hbilling]
    exact h.accounts
  · rw [hbilling]
    exact h.waiting hwaits

/-- Every transition of the pipeline leaves nothing behind the join unaccounted for. -/
theorem transitions_downstream (hbilled : settings.billed = true)
    (hnames : settings.config.checkpointBlobName ≠ settings.config.billingBlobName)
    (h : Downstream settings pipeline view delivered units counted)
    (hnext : next ∈ pipeline.transitions view) :
    ∃ units counted, Downstream settings next.1 next.2 delivered units counted := by
  cases transitions_turn hnext with
  | start hturn => exact ⟨units, counted, hturn.downstream h⟩
  | receiver hreceives hstep => exact ⟨units, counted, receiver_steps_downstream h hstep⟩
  | checkpointer hreceives hstep =>
      exact ⟨units, counted, checkpointer_steps_downstream hnames h hstep⟩
  | supervision => exact ⟨units, counted, { h with }⟩
  | merge hphase hstep => exact ⟨units, counted, merge_steps_downstream h hstep⟩
  | join hphase hstep => exact ⟨units, counted, join_steps_downstream hbilled h hstep⟩
  | fanOut hphase _ hstep => exact ⟨units, counted, fan_out_steps_downstream h hstep⟩
  | billing hphase _ hstep => exact billing_steps_downstream hnames hphase h hstep

/-- So does a component that breaks off. -/
theorem crash_downstream (hbilled : settings.billed = true)
    (h : Downstream settings pipeline view delivered units counted)
    (hcrash : pipeline.Crash view next) :
    Downstream settings next.1 next.2 delivered units counted := by
  have hpipeline : pipeline.settings.billed = true := h.setup ▸ hbilled
  cases hcrash with
  | receiver hreceives hreceiver hslot hworking =>
      show Downstream settings (pipeline.breakReceiver _ _ _ _) view _ _ _
      unfold breakReceiver
      refine Downstream.ends ?_ _ _
      exact h.set_side _ _
  | merge hphase hmerge hworking =>
      show Downstream settings (pipeline.breakMerge view _) view _ _ _
      unfold breakMerge
      refine Downstream.ends ?_ _ _
      exact h.set_side _ _
  | join hphase hworking =>
      unfold breakJoin
      dsimp only
      rw [hpipeline, if_pos rfl]
      refine Downstream.ends ?_ .join (some .panicked)
      exact { h with }
  | fanOut hphase hbilled hworking =>
      refine Downstream.ends ?_ .fanOut (some .panicked)
      exact { h with hands := h.hands.finish }
  | billing hphase hbilled hworking =>
      refine Downstream.ends ?_ .billing (some .panicked)
      exact { h with
        hands := h.hands.congr (fun _ hpasses => hpasses.drop_receiver) fun _ => id
        listens := nofun
        accounts := h.accounts.goes_on nofun
        waiting := fun hwaits => absurd hphase hwaits }

/-- A pipeline at the beginning has handed nothing to billing, and nothing is committed. -/
theorem start_downstream {capacity : Nat} (hbilled : settings.billed = true)
    (houtputs : view.outputs = .new capacity) (hcommands : view.commands.queue = [])
    (hjoin : settings.checkpointer.stored view.blobs = .empty)
    (hbilling : settings.billing.stored view.blobs = .empty)
    (h : Pipeline.start settings none view = .ok pipeline) :
    Downstream settings pipeline view [] [] [] := by
  unfold Pipeline.start at h
  obtain ⟨opened, -, h⟩ := except_bind_ok h
  simp only [if_pos hbilled] at h
  obtain rfl := Except.ok.inj h
  refine ⟨rfl, ⟨[], [], Channel.passes_new _, .start _, houtputs ▸ Channel.passes_new capacity⟩,
    fun _ => rfl, BillingRun.start_accounts _, ⟨?_, JoinCheckpoint.names_empty _, ?_⟩,
    fun _ => ⟨rfl, hbilling⟩⟩
  · rw [hcommands]
    exact fun _ _ _ hmem => absurd hmem List.not_mem_nil
  · rw [hjoin]
    exact JoinCheckpoint.names_empty _

end Pipeline

end WindowJoin

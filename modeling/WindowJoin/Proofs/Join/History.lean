import WindowJoin.Proofs.Conservation
import WindowJoin.Proofs.Join.Accounting
import WindowJoin.Proofs.Join.Turn

/-!
# A running join and the world around it

A `JoinRun.History` is a join under way, together with what is known of its past: which batches of
interactions have been pushed to it, which events have happened to the join, and what has been sent.
`JoinRun.History.Step` lets everything happen that may happen: a turn of the join, whichever is taken;
a writer that pushes or goes; a reader that receives or goes; a cancellation; and time that passes,
with any time on the wall clock. What is kept by every step (`JoinRun.History.Accounted`) ties the
past to the present: the join is where its events have led it, and what has come out of it has been
sent or is yet to be sent.
-/

namespace WindowJoin

namespace JoinRun

/-- A join under way. -/
structure History where
  run : JoinRun
  view : View
  /-- The batches of interactions that have been pushed. -/
  pushed : List MessageBatch
  events : List JoinEvent
  sent : List JoinOutput

namespace History

/-- A join before its first turn. -/
def start (rules : JoinRules) (interactions observations output : Nat) (cancelled : Bool) (now : Nat)
    (wall : Instant) : History where
  run := .start rules now wall
  view := ⟨.new interactions, .new observations, .new output, cancelled, now, wall⟩
  pushed := []
  events := []
  sent := []

/-- The batches of interactions that the join has taken in. -/
def received (history : History) : List MessageBatch :=
  history.events.filterMap JoinEvent.interactions?

/-- The history in which the join sees something else. -/
def see (history : History) (view : View) : History :=
  { history with view }

/-- The history after a turn. -/
def after (history : History) (events : List JoinEvent) (sent : List JoinOutput)
    (next : JoinRun × View) : History :=
  { history with
    run := next.1, view := next.2, events := history.events ++ events, sent := history.sent ++ sent }

/-- What may happen next. -/
inductive Step (rules : JoinRules) (history : History) : History → Prop where
  | turn {events : List JoinEvent} {sent : List JoinOutput} {next : JoinRun × View} :
      Turn rules history.run history.view events sent next →
      Step rules history (history.after events sent next)
  | pushInteractions {batch : MessageBatch} {interactions : Channel MessageBatch} :
      history.view.interactions.senderOpen = true →
      history.view.interactions.send batch = .sent interactions →
      Step rules history { history.see { history.view with interactions } with
        pushed := history.pushed ++ [batch] }
  | pushObservations {batch : MessageBatch} {observations : Channel MessageBatch} :
      history.view.observations.senderOpen = true →
      history.view.observations.send batch = .sent observations →
      Step rules history (history.see { history.view with observations })
  /-- The writer of the interactions goes. -/
  | endInteractions : Step rules history
      (history.see { history.view with interactions := history.view.interactions.dropSender })
  /-- The writer of the observations goes. -/
  | endObservations : Step rules history
      (history.see { history.view with observations := history.view.observations.dropSender })
  /-- The reader receives the next output. -/
  | receive {item : JoinOutput} {output : Channel JoinOutput} :
      history.view.output.receive = .item item output →
      Step rules history (history.see { history.view with output })
  /-- The reader goes. -/
  | leave : Step rules history
      (history.see { history.view with output := history.view.output.dropReceiver })
  | cancel : Step rules history (history.see { history.view with cancelled := true })
  /-- Time passes, and the wall clock shows any time. -/
  | elapse {now : Nat} (wall : Instant) : history.view.now ≤ now →
      Step rules history (history.see { history.view with now, wall })

/-- The histories of a join that starts at a time of the wall clock. -/
inductive Reachable (rules : JoinRules) (wall : Instant) : History → Prop where
  | start (interactions observations output : Nat) (cancelled : Bool) (now : Nat) :
      Reachable rules wall (start rules interactions observations output cancelled now wall)
  | step {history next : History} : Reachable rules wall history → history.Step rules next →
      Reachable rules wall next

/-! ## What every step keeps -/

/-- The past and the present of a join fit together. -/
structure Accounted (rules : JoinRules) (wall : Instant) (history : History) : Prop where
  /-- The join is where its events have led it, and what has come out of it has been sent or is to be
  sent. -/
  joined : ∃ come, (Join.new wall).run? rules history.events = some (history.run.join, come) ∧
    Conserved come (unsent history.run.control) history.sent (history.run.isFinished = false)
  /-- What has been pushed has been received or is yet to be received. -/
  passed : history.view.interactions.Passes history.pushed history.received
  reads : history.run.isFinished = false → history.view.interactions.receiverOpen = true
  /-- Nothing is behind the end of the interactions. -/
  ended : history.run.interactionsOpen = false →
    history.view.interactions.senderOpen = false ∧ history.view.interactions.queue = []
  /-- The last outputs are those of the end of the join. -/
  closed : ∀ items, history.run.control = .sending items true →
    history.run.interactionsOpen = false ∧ ∃ before, history.events = before ++ [.close]

variable {rules : JoinRules} {wall : Instant} {history next : History}

theorem start_accounted (rules : JoinRules) (interactions observations output : Nat)
    (cancelled : Bool) (now : Nat) (wall : Instant) :
    (start rules interactions observations output cancelled now wall).Accounted rules wall where
  joined := ⟨[], rfl, .start _⟩
  passed := .start _
  reads _ := rfl
  ended := nofun
  closed := nofun

theorem received_after (history : History) (events : List JoinEvent) (sent : List JoinOutput)
    (next : JoinRun × View) : (history.after events sent next).received =
      history.received ++ events.filterMap JoinEvent.interactions? :=
  List.filterMap_append

/-- No batch of interactions comes in while an event settles. -/
theorem settling_interactions (rules : JoinRules) (run : JoinRun) (view : View) :
    (run.settling rules view).filterMap JoinEvent.interactions? = [] := by
  have hreleasing : (run.releasing rules view).filterMap JoinEvent.interactions? = [] := by
    unfold releasing
    split
    · split <;> rfl
    · rfl
  have hclosing (run : JoinRun) : run.closing.filterMap JoinEvent.interactions? = [] := by
    unfold closing
    split <;> rfl
  rw [settling, List.filterMap_append, hreleasing, hclosing]
  rfl

/-- What is taken notice of takes at most one batch out of the channel of interactions, and the end of
the interactions only if nothing can come any more. -/
theorem notice_interactions {run noticed : JoinRun} {view seen : View} {events : List JoinEvent}
    {out : List JoinOutput} {pushed received : List MessageBatch}
    (h : Notice rules run view events out noticed seen)
    (hpassed : view.interactions.Passes pushed received)
    (hreads : view.interactions.receiverOpen = true)
    (hended : run.interactionsOpen = false →
      view.interactions.senderOpen = false ∧ view.interactions.queue = []) :
    seen.interactions.Passes pushed (received ++ events.filterMap JoinEvent.interactions?) ∧
      seen.interactions.receiverOpen = true ∧
      (noticed.interactionsOpen = false →
        seen.interactions.senderOpen = false ∧ seen.interactions.queue = []) := by
  have hnone : view.interactions.Passes pushed (received ++ []) := by rwa [List.append_nil]
  cases h with
  | interactions hopen hreceive =>
      refine ⟨hpassed.receive hreceive, ?_, fun hclosed => ?_⟩
      · rw [(Channel.receive_eq hreceive).2]
        exact hreads
      · rw [show run.interactionsOpen = false from hclosed] at hopen
        cases hopen
  | interactionsEnd hopen hreceive =>
      obtain ⟨hqueue, hgone⟩ := Channel.receive_ended hreceive
      rw [hreads, Bool.and_true] at hgone
      exact ⟨hnone, hreads, fun _ => ⟨hgone, hqueue⟩⟩
  | hold hopen hheld hreceive => exact ⟨hnone, hreads, hended⟩
  | observationsEnd hopen hheld hreceive => exact ⟨hnone, hreads, hended⟩
  | patience hdeadline hdue => exact ⟨hnone, hreads, hended⟩
  | tick hdue hpunctuated => exact ⟨hnone, hreads, hended⟩

namespace Accounted

/-- What is taken notice of happens to the join, and what comes out is yet to be sent. -/
theorem notice (h : history.Accounted rules wall) (hcontrol : history.run.control = .listening)
    {events : List JoinEvent} {out : List JoinOutput} {noticed : JoinRun} {seen : View}
    (hnotice : Notice rules history.run history.view events out noticed seen) :
    (history.after (events ++ noticed.settling rules seen) []
      (settle rules noticed seen out)).Accounted rules wall := by
  have hworks : history.run.isFinished = false := by rw [isFinished, hcontrol]
  obtain ⟨come, hcome, hconserved⟩ := h.joined
  rw [hcontrol] at hconserved
  obtain ⟨hpassed, hreads, hended⟩ :=
    notice_interactions hnotice h.passed (h.reads hworks) h.ended
  obtain ⟨join, held, later, last, hlater, hsettle, -, hlast⟩ :=
    settle_spec rules noticed seen out
  rw [hsettle]
  constructor
  case joined =>
    refine ⟨come ++ (out ++ later),
      Join.run_trans hcome (Join.run_trans hnotice.run_events hlater), ?_⟩
    show Conserved _ (out ++ later) (history.sent ++ []) _
    rw [List.append_nil]
    exact hconserved.accept hworks (out ++ later) _
  case passed =>
    rw [received_after, List.filterMap_append, settling_interactions, List.append_nil]
    exact hpassed
  case reads => exact fun _ => hreads
  case ended => exact hended
  case closed =>
    rintro items hitems
    obtain ⟨-, rfl⟩ : out ++ later = items ∧ last = true := by simpa [after] using hitems
    obtain ⟨hinteractions, -, -, before, hbefore⟩ := hlast rfl
    refine ⟨hinteractions, history.events ++ (events ++ before), ?_⟩
    show history.events ++ (events ++ noticed.settling rules seen) = _
    rw [hbefore, List.append_assoc, List.append_assoc]

/-- A join that ends has sent a part of what has come out of it. -/
theorem stop (h : history.Accounted rules wall) (ticker : Ticker) {control : Control}
    (hcontrol : control = .finished ∨ control = .broken) :
    (history.after [] [] (JoinRun.stop { history.run with ticker } history.view control)).Accounted
      rules wall := by
  have hstopped : ¬ (JoinRun.stop { history.run with ticker } history.view control).1.isFinished =
      false := by
    rcases hcontrol with rfl | rfl <;> nofun
  obtain ⟨come, hcome, hconserved⟩ := h.joined
  constructor
  case joined =>
    refine ⟨come, ?_, ?_⟩
    · show (Join.new wall).run? rules (history.events ++ []) = some (history.run.join, come)
      rw [List.append_nil, hcome]
    · have hbegins : history.sent ++ [] <+: come := by
        rw [List.append_nil]
        exact hconserved.begins
      rcases hcontrol with rfl | rfl <;> exact .stopped hbegins hstopped
  case passed =>
    rw [received_after, List.filterMap_nil, List.append_nil]
    exact h.passed.drop_receiver
  case reads => exact fun hworks => absurd hworks hstopped
  case ended => exact fun hclosed => ⟨(h.ended hclosed).1, rfl⟩
  case closed => rcases hcontrol with rfl | rfl <;> nofun

/-- A turn keeps the past and the present together. -/
theorem turn (h : history.Accounted rules wall) {events : List JoinEvent} {sent : List JoinOutput}
    {after : JoinRun × View} (hturn : Turn rules history.run history.view events sent after) :
    (history.after events sent after).Accounted rules wall := by
  obtain ⟨come, hcome, hconserved⟩ := h.joined
  cases hturn with
  | notice hcontrol hnotice => exact h.notice hcontrol hnotice
  | breakOff hcontrol hdue hnone => exact h.stop _ (.inr rfl)
  | send hcontrol hcancelled hsend =>
      have hworks : history.run.isFinished = false := by rw [isFinished, hcontrol]
      rw [hcontrol] at hconserved
      constructor
      case joined =>
        refine ⟨come, by simpa [History.after] using hcome, ?_⟩
        exact (hconserved.give [_]).mono fun _ => hworks
      case passed =>
        rw [received_after, List.filterMap_nil, List.append_nil]
        exact h.passed
      case reads => exact fun _ => h.reads hworks
      case ended => exact h.ended
      case closed =>
        rintro items hitems
        obtain ⟨rfl, rfl⟩ : _ = items ∧ _ = true := by simpa [History.after] using hitems
        simpa [History.after] using h.closed _ hcontrol
  | listen hcontrol =>
      have hworks : history.run.isFinished = false := by rw [isFinished, hcontrol]
      rw [hcontrol] at hconserved
      constructor
      case joined =>
        refine ⟨come, by simpa [History.after] using hcome, ?_⟩
        show Conserved come [] (history.sent ++ []) _
        rw [List.append_nil]
        exact hconserved.mono fun _ => hworks
      case passed =>
        rw [received_after, List.filterMap_nil, List.append_nil]
        exact h.passed
      case reads => exact fun _ => h.reads hworks
      case ended => exact h.ended
      case closed => nofun
  | complete hcontrol => exact h.stop history.run.ticker (.inl rfl)
  | cancel hcontrol hcancelled => exact h.stop history.run.ticker (.inl rfl)
  | refuse hitem hcancelled hsend => exact h.stop history.run.ticker (.inl rfl)

theorem step (h : history.Accounted rules wall) (hstep : history.Step rules next) :
    next.Accounted rules wall := by
  cases hstep with
  | turn hturn => exact h.turn hturn
  | pushInteractions hopen hsend =>
      have hpassed := h.passed.send hsend
      obtain ⟨-, rfl⟩ := Channel.send_eq hsend
      refine ⟨h.joined, hpassed, h.reads, fun hclosed => ?_, h.closed⟩
      rw [(h.ended hclosed).1] at hopen
      cases hopen
  | pushObservations hopen hsend => exact ⟨h.joined, h.passed, h.reads, h.ended, h.closed⟩
  | endInteractions =>
      exact ⟨h.joined, h.passed.drop_sender, h.reads, fun hclosed => ⟨rfl, (h.ended hclosed).2⟩,
        h.closed⟩
  | endObservations => exact ⟨h.joined, h.passed, h.reads, h.ended, h.closed⟩
  | receive hreceive => exact ⟨h.joined, h.passed, h.reads, h.ended, h.closed⟩
  | leave => exact ⟨h.joined, h.passed, h.reads, h.ended, h.closed⟩
  | cancel => exact ⟨h.joined, h.passed, h.reads, h.ended, h.closed⟩
  | elapse wall hnow => exact ⟨h.joined, h.passed, h.reads, h.ended, h.closed⟩

end Accounted

theorem Reachable.accounted (h : Reachable rules wall history) : history.Accounted rules wall := by
  induction h with
  | start interactions observations output cancelled now =>
      exact start_accounted rules interactions observations output cancelled now wall
  | step _ hstep ih => exact ih.step hstep

/-- One interaction has been pushed and taken in, and the join listens for more. -/
def sampleTaken : History where
  run :=
    { JoinRun.start Join.sampleRules 0 .epoch with
      join := (Join.new .epoch).addInteractions Join.sampleRules
        (Join.sampleBatch 0 0 [("a", .interaction)]) }
  view := ⟨.new 1, .new 1, .new 1, false, 0, .epoch⟩
  pushed := [Join.sampleBatch 0 0 [("a", .interaction)]]
  events := [.interactions (Join.sampleBatch 0 0 [("a", .interaction)])]
  sent := []

theorem sample_taken_reachable : Reachable Join.sampleRules .epoch sampleTaken := by
  have hstart : Reachable Join.sampleRules .epoch _ := .start 1 1 1 false 0
  have hpushed := hstart.step
    (@Step.pushInteractions _ _ (Join.sampleBatch 0 0 [("a", .interaction)]) _ rfl rfl)
  exact (hpushed.step (.turn (.notice rfl (.interactions rfl rfl)))).step (.turn (.listen rfl))

end History

end JoinRun

end WindowJoin

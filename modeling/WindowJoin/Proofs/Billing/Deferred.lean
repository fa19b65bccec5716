import WindowJoin.Proofs.Billing.Intake

/-!
# What billing leaves over

A `BillingRun.History` is billing under way, which has gone on from the stored checkpoint, with what it
has done so far. `BillingRun.History.Step` lets everything happen that may happen around it, except that
reports fail. `BillingRun.History.Kept` is what every step keeps: the records that were accepted have
been reported up to one of them, those behind it are counted, and a run that goes on from the stored
checkpoint would accept them once more. The end of the input makes no further attempt to store the
checkpoint. So all that was accepted has been reported by then unless the last settlement was deferred
(`BillingRun.History.billed_unless_deferred`), and it may have been (`BillingRun.History.left_over`).
-/

namespace WindowJoin

/-- A run that goes on from a checkpoint accepts all of these records, which lead it to another
checkpoint. -/
structure BillingCheckpoint.Leads (first : BillingCheckpoint) (records : List BillingRecord)
    (last : BillingCheckpoint) : Prop where
  accepts : (BillingAccount.ofCheckpoint first).accepted records = records
  reaches : ((BillingAccount.ofCheckpoint first).accumulate records).checkpoint = last

namespace BillingAccount

/-- The records that are refused make no difference. -/
theorem accepted_accepted (account : BillingAccount) (records : List BillingRecord) :
    account.accepted (account.accepted records) = account.accepted records ∧
      (account.accumulate (account.accepted records)).checkpoint =
        (account.accumulate records).checkpoint := by
  induction records generalizing account with
  | nil => exact ⟨rfl, rfl⟩
  | cons record rest ih =>
      obtain ⟨haccepted, hcheckpoint⟩ := ih (account.count record)
      rw [accepted]
      split
      next hadvanced =>
        refine ⟨?_, hcheckpoint⟩
        rw [accepted, hadvanced]
        exact congrArg _ haccepted
      next hrefused =>
        have hcount : account.count record = account := by simp only [count, hrefused]
        rw [hcount] at haccepted hcheckpoint ⊢
        refine ⟨haccepted, hcheckpoint.trans ?_⟩
        exact congrArg (fun counted => (counted.accumulate rest).checkpoint) hcount.symm

/-- What an account accepts leads from its checkpoint to the next one. -/
theorem leads_accepted (account : BillingAccount) (records : List BillingRecord) :
    account.checkpoint.Leads (account.accepted records) (account.accumulate records).checkpoint := by
  obtain ⟨haccepted, hcheckpoint⟩ := account.accepted_accepted records
  have hsame : (ofCheckpoint account.checkpoint).checkpoint = account.checkpoint := rfl
  obtain ⟨haccepts, hreaches⟩ := accepted_congr hsame (account.accepted records)
  exact ⟨haccepts.trans haccepted, hreaches.trans hcheckpoint⟩

end BillingAccount

theorem BillingCheckpoint.Leads.append {first second third : BillingCheckpoint}
    {records more : List BillingRecord} (h : first.Leads records second)
    (h' : second.Leads more third) : first.Leads (records ++ more) third := by
  obtain ⟨haccepts, hreaches⟩ := BillingAccount.accepted_congr
    (h.reaches.trans rfl : _ = (BillingAccount.ofCheckpoint second).checkpoint) more
  refine ⟨?_, ?_⟩
  · rw [BillingAccount.accepted_append, h.accepts, haccepts, h'.accepts]
  · rw [BillingAccount.accumulate_append, hreaches, h'.reaches]

namespace BillingRun

/-- The records that have been accepted are those that have been reported and those that are counted.
The stored checkpoint is that in front of what is counted, or that of the account if a report is due. -/
structure Divided (run : BillingRun) (stored : BillingCheckpoint) (accepted : List BillingRecord)
    (reported : Nat) (billed counted : List BillingRecord) : Prop where
  accepted : accepted = billed ++ counted
  reported : reported = totalEvents billed
  amount : run.account.accumulated = totalEvents counted
  behind : run.control ≠ .reporting → stored.Leads counted run.account.checkpoint
  stored : run.control = .reporting → stored = run.account.checkpoint

/-- What has been accumulated while billing stands there, given whether the last settlement has been
deferred. -/
inductive Settling (accumulated : Nat) (deferred : Bool) : Control → Prop where
  | listening : (accumulated = 0 ↔ deferred = false) → Settling accumulated deferred .listening
  | storing (attempts : Attempts) (time : Nat) : accumulated ≠ 0 →
      Settling accumulated deferred (.storing attempts time)
  | reporting : Settling accumulated deferred .reporting
  | finished : (accumulated = 0 ↔ deferred = false) →
      Settling accumulated deferred (.finished (.ok ()))

section

variable {run : BillingRun} {stored : BillingCheckpoint}
  {accepted billed counted : List BillingRecord} {reported : Nat}

theorem Divided.take (h : run.Divided stored accepted reported billed counted)
    (hcontrol : run.control ≠ .reporting) (rules : Rules) (now : Nat)
    (records : List BillingRecord) :
    (run.take rules now records).Divided stored (accepted ++ run.account.accepted records) reported
      billed (counted ++ run.account.accepted records) where
  accepted := by rw [h.accepted, List.append_assoc]
  reported := h.reported
  amount := by
    obtain ⟨-, hamount, -⟩ := run.account.accumulate_accepted records
    rw [total_events_append, ← h.amount]
    exact hamount
  behind _ := (h.behind hcontrol).append (run.account.leads_accepted records)
  stored hreporting := by
    rw [BillingRun.take] at hreporting
    dsimp only at hreporting
    split at hreporting <;> cases hreporting

theorem Divided.goes_on (h : run.Divided stored accepted reported billed counted)
    (hcontrol : run.control ≠ .reporting) {control : Control} (hnext : control ≠ .reporting) :
    Divided { run with control } stored accepted reported billed counted :=
  { h with
    behind := fun _ => h.behind hcontrol
    stored := fun hreporting => absurd hreporting hnext }

/-- Billing that takes records in goes on to settle unless it still has nothing to report. -/
theorem settling_take {deferred : Bool} (h : run.account.accumulated = 0 ↔ deferred = false)
    (rules : Rules) (now : Nat) (records : List BillingRecord) :
    Settling (run.take rules now records).account.accumulated deferred
      (run.take rules now records).control := by
  obtain ⟨-, hamount, -⟩ := run.account.accumulate_accepted records
  rw [BillingRun.take]
  dsimp only
  split
  next hzero =>
    rw [hzero] at hamount
    exact .listening (iff_of_true hzero (h.mp (by omega)))
  next hdue => exact .storing _ _ hdue

/-- Once the checkpoint has been stored, a report is due. -/
theorem Divided.store (h : run.Divided stored accepted reported billed counted) :
    Divided { run with control := .reporting } run.account.checkpoint accepted reported billed
      counted :=
  { h with behind := fun hcontrol => absurd rfl hcontrol, stored := fun _ => rfl }

/-- Once the count has been reported, all that was accepted has been. -/
theorem Divided.report (h : run.Divided stored accepted reported billed counted)
    (hcontrol : run.control = .reporting) :
    Divided ⟨{ run.account with accumulated := 0 }, .listening⟩ stored accepted
      (reported + run.account.accumulated) (billed ++ counted) [] where
  accepted := by rw [List.append_nil, h.accepted]
  reported := by rw [total_events_append, h.reported, h.amount]
  amount := rfl
  behind _ := ⟨rfl, h.stored hcontrol⟩
  stored := nofun

end

/-- The records that are taken. -/
def Deed.taken? : Deed → Option (List BillingRecord)
  | take records => some records
  | _ => none

/-- Whether a settlement, if it comes to its end, is deferred. -/
def Deed.defers? : Deed → Option Bool
  | defer => some true
  | report _ | fail => some false
  | _ => none

/-- Billing under way. -/
structure History where
  run : BillingRun
  view : View
  /-- The checkpoint that it has gone on from. -/
  initial : BillingCheckpoint
  /-- The lists of records that have been sent. -/
  sent : List (List BillingRecord)
  /-- What billing has done. -/
  deeds : List Deed

namespace History

/-- Billing before its first turn. -/
def begin (rules : Rules) (blobs : Guarded MemoryBlobs) (capacity now : Nat) : History where
  run := .start (.ofCheckpoint (rules.stored blobs))
  view := ⟨.new capacity, blobs, .empty, false, now⟩
  initial := rules.stored blobs
  sent := []
  deeds := []

/-- The history in which billing sees something else. -/
def see (history : History) (view : View) : History :=
  { history with view }

/-- The history after a turn. -/
def after (history : History) (deed : Deed) (next : BillingRun × View) : History :=
  { history with run := next.1, view := next.2, deeds := history.deeds ++ [deed] }

/-- The lists of records that have been taken. -/
def taken (history : History) : List (List BillingRecord) :=
  history.deeds.filterMap Deed.taken?

/-- The records that have been accepted. -/
def accepted (history : History) : List BillingRecord :=
  (BillingAccount.ofCheckpoint history.initial).accepted history.taken.flatten

/-- The number of events that have been reported. -/
def reported (history : History) : Nat :=
  history.view.reporter.reports.sum

/-- The last settlement that had something to report was deferred. -/
def deferred (history : History) : Bool :=
  (history.deeds.filterMap Deed.defers?).getLastD false

/-- What may happen next. -/
inductive Step (rules : Rules) (history : History) : History → Prop where
  | turn {deed : Deed} {next : BillingRun × View} :
      Turn rules history.run history.view deed next → Step rules history (history.after deed next)
  | send {records : List BillingRecord} {input : Channel (List BillingRecord)} :
      history.view.input.send records = .sent input →
      Step rules history { history.see { history.view with input } with
        sent := history.sent ++ [records] }
  /-- The sender goes. -/
  | leave : Step rules history
      (history.see { history.view with input := history.view.input.dropSender })
  | cancel : Step rules history (history.see { history.view with cancelled := true })
  | elapse {now : Nat} : history.view.now ≤ now →
      Step rules history (history.see { history.view with now })
  /-- Writes are made to fail or to succeed, and other documents change. -/
  | outside {blobs : Guarded MemoryBlobs} :
      blobs.store.get? rules.blobName = history.view.blobs.store.get? rules.blobName →
      Step rules history (history.see { history.view with blobs })

/-- The histories that come about. -/
inductive Reachable (rules : Rules) : History → Prop where
  | start (blobs : Guarded MemoryBlobs) (capacity now : Nat) :
      Reachable rules (.begin rules blobs capacity now)
  | step {history next : History} : Reachable rules history → history.Step rules next →
      Reachable rules next

/-- What holds of billing at every moment. -/
structure Kept (rules : Rules) (history : History) : Prop where
  passes : history.view.input.Passes history.sent history.taken
  listens : history.run.isFinished = false → history.view.input.receiverOpen = true
  checkpoint : history.run.account.checkpoint =
    ((BillingAccount.ofCheckpoint history.initial).accumulate history.taken.flatten).checkpoint
  divided : ∃ billed counted, history.run.Divided (rules.stored history.view.blobs) history.accepted
    history.reported billed counted
  settling : Settling history.run.account.accumulated history.deferred history.run.control
  obliging : history.view.reporter.failures = []
  closed : .close ∈ history.deeds → history.taken = history.sent ∧
    history.run.isFinished = true ∧ history.view.input.receiverOpen = false

variable {rules : Rules} {history : History} {deed : Deed} {next : BillingRun × View}

theorem begin_kept (rules : Rules) (blobs : Guarded MemoryBlobs) (capacity now : Nat) :
    (begin rules blobs capacity now).Kept rules where
  passes := Channel.passes_new capacity
  listens _ := rfl
  checkpoint := rfl
  divided := ⟨[], [], rfl, rfl, rfl, fun _ => ⟨rfl, rfl⟩, nofun⟩
  settling := .listening ⟨fun _ => rfl, fun _ => rfl⟩
  obliging := rfl
  closed := nofun

@[simp]
theorem taken_after (history : History) (deed : Deed) (next : BillingRun × View) :
    (history.after deed next).taken = history.taken ++ deed.taken?.toList := by
  rw [taken, after, List.filterMap_append]
  cases deed <;> rfl

@[simp]
theorem deferred_after (history : History) (deed : Deed) (next : BillingRun × View) :
    (history.after deed next).deferred = deed.defers?.getD history.deferred := by
  rw [deferred, after, List.filterMap_append]
  cases deed <;> simp [Deed.defers?, deferred]

theorem Kept.not_closed (h : history.Kept rules) (hworking : history.run.isFinished = false) :
    .close ∉ history.deeds := by
  intro hclosed
  obtain ⟨-, hfinished, -⟩ := h.closed hclosed
  rw [hworking] at hfinished
  cases hfinished

/-- A turn that leaves the input alone keeps what holds, if it does so for what has been accepted. -/
theorem Kept.settle (h : history.Kept rules) (hturn : Turn rules history.run history.view deed next)
    (hdeed : deed.taken? = none ∧ deed ≠ .close) (hinput : next.2.input = history.view.input)
    (hcheckpoint : next.1.account.checkpoint = history.run.account.checkpoint)
    (hdivided : ∃ billed counted, next.1.Divided (rules.stored next.2.blobs) history.accepted
      next.2.reporter.reports.sum billed counted)
    (hsettling : Settling next.1.account.accumulated (deed.defers?.getD history.deferred)
      next.1.control)
    (hobliging : next.2.reporter.failures = []) : (history.after deed next).Kept rules := by
  have htaken : (history.after deed next).taken = history.taken := by
    rw [taken_after, hdeed.1]
    exact List.append_nil _
  refine ⟨?_, ?_, ?_, ?_, ?_, hobliging, ?_⟩
  · rw [htaken]
    show next.2.input.Passes _ _
    rw [hinput]
    exact h.passes
  · intro _
    show next.2.input.receiverOpen = true
    rw [hinput]
    exact h.listens hturn.working
  · rw [htaken]
    exact hcheckpoint.trans h.checkpoint
  · rw [accepted, htaken]
    exact hdivided
  · rw [deferred_after]
    exact hsettling
  · intro hclosed
    rcases List.mem_append.mp hclosed with hclosed | hclosed
    · exact absurd hclosed (h.not_closed hturn.working)
    · exact absurd (List.mem_singleton.mp hclosed).symm hdeed.2

/-- Billing that ends while it listens keeps what holds. -/
theorem Kept.finish (h : history.Kept rules) (hcontrol : history.run.control = .listening)
    (hdeed : deed.taken? = none ∧ deed.defers? = none)
    (hclosed : deed = .close → history.view.input.queue = []) :
    (history.after deed (BillingRun.finish history.run history.view (.ok ()))).Kept rules := by
  have htaken : (history.after deed (BillingRun.finish history.run history.view (.ok ()))).taken =
      history.taken := by
    rw [taken_after, hdeed.1]
    exact List.append_nil _
  have hworking : history.run.isFinished = false := by rw [isFinished, hcontrol]
  refine ⟨?_, ?_, ?_, ?_, ?_, h.obliging, ?_⟩
  · rw [htaken]
    exact h.passes.drop_receiver
  · intro hends
    cases hends
  · rw [htaken]
    exact h.checkpoint
  · rw [accepted, htaken]
    obtain ⟨billed, counted, hdivided⟩ := h.divided
    exact ⟨billed, counted, hdivided.goes_on (by simp [hcontrol]) (by simp)⟩
  · rw [deferred_after, hdeed.2]
    have hsettling := h.settling
    rw [hcontrol] at hsettling
    cases hsettling with
    | listening hdeferred => exact .finished hdeferred
  · intro hmem
    rw [htaken]
    refine ⟨?_, rfl, rfl⟩
    rcases List.mem_append.mp hmem with hmem | hmem
    · exact absurd hmem (h.not_closed hworking)
    · -- Nothing is left in the channel, and nothing has been lost.
      obtain ⟨lost, hsent, hlost⟩ := h.passes
      rw [hclosed (List.mem_singleton.mp hmem).symm, hlost (h.listens hworking), List.append_nil,
        List.append_nil] at hsent
      exact hsent.symm

/-- Billing that takes records keeps what holds. -/
theorem Kept.take (h : history.Kept rules) {records : List BillingRecord}
    {input : Channel (List BillingRecord)} (hcontrol : history.run.control = .listening)
    (hreceive : history.view.input.receive = .item records input) :
    (history.after (.take records)
      (history.run.take rules history.view.now records, { history.view with input })).Kept
        rules := by
  have hworking : history.run.isFinished = false := by rw [isFinished, hcontrol]
  have hopen : input.receiverOpen = true := by
    rw [(Channel.receive_eq hreceive).2]
    exact h.listens hworking
  have htaken (next : BillingRun × View) : (history.after (.take records) next).taken.flatten =
      history.taken.flatten ++ records := by
    rw [taken_after, List.flatten_append]
    exact congrArg _ (List.append_nil records)
  obtain ⟨haccepted, hcheckpoint⟩ := BillingAccount.accepted_congr h.checkpoint records
  refine ⟨?_, fun _ => hopen, ?_, ?_, ?_, h.obliging, ?_⟩
  · rw [taken_after]
    exact h.passes.receive hreceive
  · rw [htaken, BillingAccount.accumulate_append]
    exact hcheckpoint
  · obtain ⟨billed, counted, hdivided⟩ := h.divided
    have htake := hdivided.take (by simp [hcontrol]) rules history.view.now records
    rw [haccepted] at htake
    rw [accepted, htaken, BillingAccount.accepted_append]
    exact ⟨billed, _, htake⟩
  · rw [deferred_after]
    have hsettling := h.settling
    rw [hcontrol] at hsettling
    cases hsettling with
    | listening hdeferred => exact settling_take hdeferred rules history.view.now records
  · intro hmem
    rcases List.mem_append.mp hmem with hmem | hmem
    · exact absurd hmem (h.not_closed hworking)
    · cases List.mem_singleton.mp hmem

/-- Every turn keeps what holds. -/
theorem Kept.turn (h : history.Kept rules)
    (hturn : Turn rules history.run history.view deed next) :
    (history.after deed next).Kept rules := by
  obtain ⟨billed, counted, hdivided⟩ := h.divided
  have hsettling := h.settling
  have hbegun := hturn
  cases hturn with
  | take hcontrol hreceive => exact h.take hcontrol hreceive
  | close hcontrol hreceive =>
      exact h.finish hcontrol ⟨rfl, rfl⟩ fun _ => (Channel.receive_ended hreceive).1
  | cancel hcontrol => exact h.finish hcontrol ⟨rfl, rfl⟩ nofun
  | store hcontrol hdue hwritten =>
      refine h.settle hbegun ⟨rfl, nofun⟩ rfl rfl ⟨billed, counted, ?_⟩ .reporting h.obliging
      rw [stored_of_write hwritten]
      exact hdivided.store
  | retry hcontrol hdue herror =>
      rw [hcontrol] at hsettling
      cases hsettling with
      | storing attempts time hdue =>
          refine h.settle hbegun ⟨rfl, nofun⟩ rfl rfl ⟨billed, counted, ?_⟩ (.storing _ _ hdue)
            h.obliging
          rw [stored_of_failure herror]
          exact hdivided.goes_on (by simp [hcontrol]) nofun
  | defer hcontrol hdue herror =>
      rw [hcontrol] at hsettling
      cases hsettling with
      | storing attempts time hdue =>
          refine h.settle hbegun ⟨rfl, nofun⟩ rfl rfl ⟨billed, counted, ?_⟩
            (.listening (iff_of_false hdue nofun)) h.obliging
          rw [stored_of_failure herror]
          exact hdivided.goes_on (by simp [hcontrol]) nofun
  | report hcontrol hreport =>
      obtain ⟨hnone, rfl⟩ := UsageReporter.report_ok hreport
      refine h.settle hbegun ⟨rfl, nofun⟩ rfl rfl ⟨billed ++ counted, [], ?_⟩
        (.listening (iff_of_true rfl rfl)) hnone
      have hreported := hdivided.report hcontrol
      rw [List.sum_append, List.sum_singleton]
      exact hreported
  | fail hcontrol hreport =>
      -- The reporter has no failure to give.
      rw [UsageReporter.report, h.obliging] at hreport
      cases hreport

/-- Every step keeps what holds. -/
theorem Kept.step {after : History} (h : history.Kept rules) (hstep : history.Step rules after) :
    after.Kept rules := by
  cases hstep with
  | turn hturn => exact h.turn hturn
  | send hsend =>
      obtain ⟨hopen, hsent⟩ := Channel.send_eq hsend
      refine { h with passes := h.passes.send hsend, listens := fun _ => ?_, closed := ?_ }
      · show Channel.receiverOpen _ = true
        rw [hsent]
        exact hopen
      · intro hclosed
        obtain ⟨-, -, hgone⟩ := h.closed hclosed
        rw [hopen] at hgone
        cases hgone
  | leave => exact { h with passes := h.passes.drop_sender }
  | cancel => exact { h with }
  | elapse => exact { h with }
  | outside hblob =>
      obtain ⟨billed, counted, hdivided⟩ := h.divided
      rw [← rules.stored_congr hblob] at hdivided
      exact { h with divided := ⟨billed, counted, hdivided⟩ }

theorem Reachable.kept (h : Reachable rules history) : history.Kept rules := by
  induction h with
  | start blobs capacity now => exact begin_kept rules blobs capacity now
  | step _ hstep ih => exact ih.step hstep

/-- At every moment the records that have been accepted are those that have been reported and, behind
them, those that are counted, and unless a report is due a run that goes on from the stored checkpoint
accepts what is counted once more. When billing has ended because its input was closed, all records
that were sent have been taken, and all events that were accepted have been reported exactly if the last
settlement was not deferred. Once the sender has gone, billing that has not ended waits only for the time
of the next attempt to store. -/
theorem billed_unless_deferred (h : Reachable rules history) :
    (∃ billed counted, history.accepted = billed ++ counted ∧
        history.reported = totalEvents billed ∧
        history.run.account.accumulated = totalEvents counted ∧
        (history.run.control ≠ .reporting →
          (rules.stored history.view.blobs).Leads counted history.run.account.checkpoint)) ∧
      (.close ∈ history.deeds →
        history.run.control = .finished (.ok ()) ∧ history.taken = history.sent ∧
          (history.reported = totalEvents history.accepted ↔ history.deferred = false)) ∧
      (history.view.input.senderOpen = false → transitions rules history.run history.view = [] →
        history.run.isFinished = true ∨ ∃ attempts time,
          history.run.control = .storing attempts time ∧ history.view.now < time) := by
  have hkept := h.kept
  obtain ⟨billed, counted, hdivided⟩ := hkept.divided
  refine ⟨⟨billed, counted, hdivided.accepted, hdivided.reported, hdivided.amount,
    hdivided.behind⟩, fun hclosed => ?_, ended_or_pauses⟩
  obtain ⟨hall, hfinished, -⟩ := hkept.closed hclosed
  have htotal : totalEvents history.accepted =
      history.reported + history.run.account.accumulated := by
    rw [hdivided.accepted, total_events_append, hdivided.reported, hdivided.amount]
  have hsettling := hkept.settling
  rw [isFinished] at hfinished
  split at hfinished
  next result hcontrol =>
    rw [hcontrol] at hsettling
    cases hsettling with
    | finished hdeferred =>
        refine ⟨hcontrol, hall, ?_⟩
        rw [← hdeferred, htotal]
        exact ⟨fun hsame => by omega, fun hzero => by omega⟩
  next => cases hfinished

/-- Billing that makes one attempt to store its checkpoint. -/
def sampleRules : Rules :=
  ⟨⟨1, .standard⟩, "bill"⟩

/-- A store whose next write is going to fail. -/
def sampleBlobs : Guarded MemoryBlobs :=
  ⟨{ MemoryBlobs.empty with writeFailures := [.task "full"] }, []⟩

/-- The report of the first record is deferred, and its events are reported with those of the next list.
There the record comes once more, and is refused. -/
theorem billed_unless_deferred_sample :
    let first := [Billing.sampleRecord 1 4]
    let second := [Billing.sampleRecord 1 4, Billing.sampleRecord 2 6]
    ∃ history, Reachable sampleRules history ∧ .close ∈ history.deeds ∧
      history.taken = [first, second] ∧ history.deferred = false ∧
      history.reported = totalEvents history.accepted ∧ history.view.reporter.reports = [10] := by
  intro first second
  have hstart : Reachable sampleRules _ := .start sampleBlobs 4 0
  have hfirst := (hstart.step (@Step.send _ _ first _ rfl)).step (.turn (.take rfl rfl))
  have hdeferred := hfirst.step (.turn (.defer rfl (Nat.le_refl _) rfl rfl))
  have hsecond := (hdeferred.step (@Step.send _ _ second _ rfl)).step (.turn (.take rfl rfl))
  have hstored := hsecond.step (.turn (.store rfl (Nat.le_refl _) rfl))
  have hreported := hstored.step (.turn (.report rfl rfl))
  have hclosed := (hreported.step .leave).step (.turn (.close rfl rfl))
  have hmem : Deed.close ∈ [.take first, .defer, .take second, .store, .report 10, .close] := by
    decide
  obtain ⟨-, hended, -⟩ := billed_unless_deferred hclosed
  obtain ⟨-, -, hbilled⟩ := hended hmem
  exact ⟨_, hclosed, hmem, rfl, rfl, hbilled.mpr rfl, rfl⟩

/-- The only report is deferred, and then the input is closed. Billing ends without an error and has
reported nothing of what it has accepted. -/
theorem left_over :
    let first := [Billing.sampleRecord 1 4]
    ∃ history, Reachable sampleRules history ∧ .close ∈ history.deeds ∧
      history.run.control = .finished (.ok ()) ∧ history.accepted = first ∧
      history.reported = 0 ∧ history.run.account.accumulated = 4 := by
  intro first
  have hstart : Reachable sampleRules _ := .start sampleBlobs 4 0
  have hfirst := (hstart.step (@Step.send _ _ first _ rfl)).step (.turn (.take rfl rfl))
  have hdeferred := hfirst.step (.turn (.defer rfl (Nat.le_refl _) rfl rfl))
  have hclosed := (hdeferred.step .leave).step (.turn (.close rfl rfl))
  have hmem : Deed.close ∈ [.take first, .defer, .close] := by decide
  exact ⟨_, hclosed, hmem, rfl, rfl, rfl, rfl⟩

end History

end BillingRun

end WindowJoin

import WindowJoin.Proofs.Conservation
import WindowJoin.Proofs.Pipeline.FanOut

/-!
# What the fan-out sends on and hands to billing

`FanOut.Reachable` lets a fan-out run among everything around it: outputs arrive in groups of any
size, the consumer and billing receive or leave, and it may be cancelled between any two of its
transitions. `FanOut.History.forwards_behind_billing` says what holds at every moment: what has been
sent on is the beginning of what has arrived, and billing has been handed the records of no less; and
if nothing stands in the way, the fan-out comes to its end with all that has arrived.
-/

namespace WindowJoin

namespace Channel

variable {α : Type} {channel next : Channel α} {value : α}

/-- What has been put into a channel since it was in another state. -/
def added (before after : Channel α) : List α :=
  after.queue.drop before.queue.length

@[simp]
theorem added_self (channel : Channel α) : channel.added channel = [] :=
  List.drop_length

@[simp]
theorem added_drop_sender (channel : Channel α) : channel.added channel.dropSender = [] :=
  List.drop_length

theorem added_send (h : channel.send value = .sent next) : channel.added next = [value] := by
  rw [(send_eq h).2]
  exact List.drop_left

theorem send_refused (h : channel.send value = .refused) : channel.receiverOpen = false := by
  unfold send at h
  split at h
  next hopen => simpa using hopen
  · split at h <;> cases h

/-- Draining takes the oldest items. -/
theorem drain_eq (channel : Channel α) (limit : Nat) : channel.drain limit =
    (channel.queue.take limit, { channel with queue := channel.queue.drop limit }) := by
  induction limit generalizing channel with
  | zero => rfl
  | succ limit ih =>
      obtain ⟨capacity, queue, senderOpen, receiverOpen⟩ := channel
      cases queue with
      | nil => cases hopen : senderOpen && receiverOpen <;> simp [drain, receive, hopen]
      | cons value rest => simp only [drain, receive, ih, List.take_succ_cons, List.drop_succ_cons]

/-- What the receiver of a channel may do to it. -/
inductive ByReceiver (channel : Channel α) : Channel α → Prop where
  | receive {value : α} {next : Channel α} : channel.receive = .item value next →
      ByReceiver channel next
  | refuse : ByReceiver channel channel.refuse
  | leave : ByReceiver channel channel.dropReceiver

/-- A receiver that has left does not come back. -/
theorem ByReceiver.receiver_open (h : channel.ByReceiver next) (hopen : next.receiverOpen = true) :
    channel.receiverOpen = true := by
  cases h with
  | receive hreceive =>
      rw [(receive_eq hreceive).2] at hopen
      exact hopen
  | refuse | leave => cases hopen

end Channel

namespace FanOut

/-- The transitions that are left of what a fan-out is doing: one for each item that it is sending on,
and those with which it goes on. -/
def stepsLeft : Control → Nat
  | .listening => 1
  | .billing items => items.length + 3
  | .forwarding items => items.length + 2
  | .finished => 0

/-- The most transitions that are left with what waits in the input. -/
def remaining (control : Control) (input : Channel JoinOutput) : Nat :=
  stepsLeft control + 4 * input.queue.length

/-- The fan-out waits for room in a channel behind it. -/
def Waits (control : Control) (view : View) : Prop :=
  (∃ items, control = .billing items ∧ view.records.send (recordsOf items) = .full) ∨
    ∃ item rest, control = .forwarding (item :: rest) ∧ view.output.send item = .full

variable {control : Control} {view : View} {next : Control × View}

theorem steps_left_take (items : List JoinOutput) : stepsLeft (take items) ≤ items.length + 3 := by
  unfold take
  split
  · exact Nat.le_succ _
  · exact Nat.le_refl _

theorem take_ne_finished (items : List JoinOutput) : take items ≠ .finished := by
  unfold take
  split <;> nofun

/-- Every transition brings the fan-out nearer to its end. -/
theorem remaining_lt (hnext : next ∈ transitions control view) :
    remaining next.1 next.2.input < remaining control view.input := by
  have hfinish : remaining (FanOut.finish view).1 (FanOut.finish view).2.input = 0 := rfl
  cases transitions_turn hnext with
  | take hcontrol hreceive =>
      obtain ⟨hqueue, -⟩ := Channel.receive_eq hreceive
      have hsteps := steps_left_take (view.input.queue.take chunkLimit)
      rw [Channel.drain_eq, hcontrol]
      simp only [remaining, stepsLeft, List.length_drop, List.length_take, chunkLimit] at hsteps ⊢
      rw [hqueue, List.length_cons] at hsteps ⊢
      omega
  | hand hcontrol | forward hcontrol | listen hcontrol =>
      rw [hcontrol]
      simp [remaining, stepsLeft]
  | cancel hcontrol =>
      rw [hfinish]
      cases control with
      | finished => exact absurd rfl hcontrol
      | listening | billing | forwarding => simp only [remaining, stepsLeft]; omega
  | ended hcontrol | unbilled hcontrol | unread hcontrol =>
      rw [hfinish, hcontrol]
      simp only [remaining, stepsLeft]
      omega

/-- A fan-out that can do nothing although its input has been closed has ended or waits for room. -/
theorem ended_or_waits (hclosed : view.input.senderOpen = false)
    (hstuck : transitions control view = []) : control = .finished ∨ Waits control view := by
  cases control with
  | listening =>
      -- What is left in the input is taken, and behind it comes the end.
      have hreceive : view.input.receive ≠ .empty := by
        unfold Channel.receive
        split
        · nofun
        · simp [hclosed]
      rw [transitions, List.append_eq_nil_iff] at hstuck
      cases hcase : view.input.receive with
      | empty => exact absurd hcase hreceive
      | item | ended => simp [hcase] at hstuck
  | billing items =>
      cases hsend : view.records.send (recordsOf items) with
      | full => exact .inr (.inl ⟨items, rfl, hsend⟩)
      | sent | refused =>
          cases hcancelled : view.cancelled <;> simp [transitions, hsend, hcancelled] at hstuck
  | forwarding items =>
      cases items with
      | nil => cases hstuck
      | cons item rest =>
          cases hsend : view.output.send item with
          | full => exact .inr (.inr ⟨item, rest, rfl, hsend⟩)
          | sent | refused =>
              cases hcancelled : view.cancelled <;> simp [transitions, hsend, hcancelled] at hstuck
  | finished => exact .inl rfl

/-! ## A fan-out among the others -/

/-- A fan-out under way, and what has gone through it. -/
structure History where
  control : Control
  view : View
  /-- What has arrived in the input. -/
  arrived : List JoinOutput
  /-- The lists of records that billing has been handed. -/
  handed : List (List BillingRecord)
  /-- What has been sent on to the consumer. -/
  forwarded : List JoinOutput
  /-- The number of transitions of the fan-out. -/
  moves : Nat

namespace History

/-- A fan-out at its beginning, between channels of any capacity. -/
def begin (inputCapacity outputCapacity recordsCapacity : Nat) : History where
  control := .listening
  view := ⟨.new inputCapacity, .new outputCapacity, .new recordsCapacity, false⟩
  arrived := []
  handed := []
  forwarded := []
  moves := 0

/-- The history in which the fan-out sees something else. -/
def see (history : History) (view : View) : History :=
  { history with view }

/-- The history after a transition of the fan-out. -/
def after (history : History) (next : Control × View) : History where
  control := next.1
  view := next.2
  arrived := history.arrived
  handed := history.handed ++ history.view.records.added next.2.records
  forwarded := history.forwarded ++ history.view.output.added next.2.output
  moves := history.moves + 1

/-- What may happen next. -/
inductive Step (history : History) : History → Prop where
  | move {next : Control × View} : next ∈ transitions history.control history.view →
      Step history (history.after next)
  /-- Items arrive, as many at once as may be: a chunk may also hold some that have come in while it
  is taken. -/
  | arrive (items : List JoinOutput) : history.view.input.senderOpen = true →
      history.view.input.receiverOpen = true →
      Step history { history.see { history.view with
          input.queue := history.view.input.queue ++ items } with
        arrived := history.arrived ++ items }
  /-- Nothing more will arrive. -/
  | close : Step history
      (history.see { history.view with input := history.view.input.dropSender })
  | consumer {output : Channel JoinOutput} : history.view.output.ByReceiver output →
      Step history (history.see { history.view with output })
  | billing {records : Channel (List BillingRecord)} : history.view.records.ByReceiver records →
      Step history (history.see { history.view with records })
  | cancel : Step history (history.see { history.view with cancelled := true })

/-- What has arrived at a fan-out that works is sent on, held, or waits in the input, and billing has
been handed the records of what is sent on. -/
structure Holds (history : History) : Prop where
  listens : history.view.input.receiverOpen = true
  arrived : history.arrived =
    history.forwarded ++ unsent history.control ++ history.view.input.queue
  handed : history.handed.flatten = recordsOf (history.forwarded ++ sending history.control)
  chunk : (unsent history.control).length ≤ chunkLimit
  billable : ∀ items, history.control = .billing items → recordsOf items ≠ []

/-- What holds of a fan-out at every moment. -/
structure Kept (history : History) : Prop where
  bills : ∃ covered, history.forwarded <+: covered ∧ covered <+: history.arrived ∧
    history.handed.flatten = recordsOf covered
  units : ∀ unit ∈ history.handed, unit ≠ [] ∧ unit.length ≤ chunkLimit
  moves : history.moves + remaining history.control history.view.input ≤
    4 * history.arrived.length + 1
  works : history.control ≠ .finished → history.Holds
  leaves : history.control = .finished → history.view.input.receiverOpen = false
  /-- A fan-out that has ended for no other reason has come to the end of its input. -/
  ended : history.control = .finished → history.view.cancelled = false →
    history.view.output.receiverOpen = true → history.view.records.receiverOpen = true →
    history.forwarded = history.arrived ∧ history.handed.flatten = recordsOf history.arrived

variable {history next : History}

/-- What is being sent on has been held. -/
theorem sending_begins (control : Control) : sending control <+: unsent control := by
  cases control with
  | forwarding items => exact List.prefix_rfl
  | listening | billing | finished => exact List.nil_prefix

/-- While the fan-out works, billing has been handed the records of a beginning of what has arrived. -/
theorem Holds.bills (h : history.Holds) : ∃ covered, history.forwarded <+: covered ∧
    covered <+: history.arrived ∧ history.handed.flatten = recordsOf covered := by
  refine ⟨_, List.prefix_append _ _, ?_, h.handed⟩
  rw [h.arrived, List.append_assoc]
  exact (List.prefix_append_right_inj _).mpr
    ((sending_begins history.control).trans (List.prefix_append _ _))

theorem begin_kept (inputCapacity outputCapacity recordsCapacity : Nat) :
    (begin inputCapacity outputCapacity recordsCapacity).Kept where
  bills := ⟨[], List.prefix_rfl, List.prefix_rfl, rfl⟩
  units := nofun
  moves := Nat.le_refl 1
  works _ := ⟨rfl, rfl, rfl, Nat.zero_le _, nofun⟩
  leaves := nofun
  ended := nofun

/-- A turn of a fan-out that goes on working loses nothing, and hands billing whole chunks. -/
theorem Holds.turn (h : history.Holds) {next : Control × View}
    (hturn : Turn history.control history.view next) (hworks : next.1 ≠ .finished) :
    (history.after next).Holds ∧
      ∀ unit ∈ history.view.records.added next.2.records,
        unit ≠ [] ∧ unit.length ≤ chunkLimit := by
  obtain ⟨hlistens, harrived, hhanded, hchunk, hbillable⟩ := h
  cases hturn with
  | take hcontrol hreceive =>
      rw [hcontrol] at harrived hhanded
      rw [Channel.drain_eq]
      refine ⟨⟨hlistens, ?_, ?_, ?_, ?_⟩, by simp⟩
      · simp only [after, unsent_take, Channel.added_self, List.append_assoc,
          List.take_append_drop]
        simpa [unsent] using harrived
      · simp only [after, Channel.added_self, List.append_nil]
        rw [hhanded, records_of_append, records_of_append, records_of_sending_take]
        rfl
      · simp only [after, unsent_take]
        exact List.length_take_le _ _
      · intro items hitems
        simp only [after, FanOut.take] at hitems
        split at hitems
        · cases hitems
        next hrecords =>
          cases hitems
          exact fun hnone => hrecords (List.isEmpty_iff.mpr hnone)
  | @hand items records hcontrol hcancelled hsend =>
      rw [hcontrol] at harrived hhanded hchunk
      refine ⟨⟨hlistens, ?_, ?_, hchunk, nofun⟩, ?_⟩
      · simpa [after, unsent] using harrived
      · simp only [after, Channel.added_send hsend, Channel.added_self, List.append_nil]
        rw [List.flatten_append, List.flatten_singleton, hhanded, records_of_append,
          records_of_append]
        simp [sending, recordsOf]
      · -- One record for each joined batch of the chunk.
        rw [Channel.added_send hsend]
        intro unit hunit
        rw [List.mem_singleton.mp hunit]
        exact ⟨hbillable items hcontrol, Nat.le_trans (List.length_filterMap_le _ _) hchunk⟩
  | @forward item rest output hcontrol hcancelled hsend =>
      rw [hcontrol] at harrived hhanded hchunk
      refine ⟨⟨hlistens, ?_, ?_, Nat.le_trans (Nat.le_succ _) hchunk, nofun⟩, by simp⟩
      · simpa [after, unsent, Channel.added_send hsend] using harrived
      · simpa [after, sending, Channel.added_send hsend] using hhanded
  | listen hcontrol =>
      rw [hcontrol] at harrived hhanded
      refine ⟨⟨hlistens, ?_, ?_, Nat.zero_le _, nofun⟩, by simp⟩
      · simpa [after, unsent] using harrived
      · simpa [after, sending] using hhanded
  | cancel | ended | unbilled | unread => exact absurd rfl hworks

/-- A fan-out comes to its end because it is cancelled, because a receiver behind it has gone, or with
all that has arrived. -/
theorem Holds.finish (h : history.Holds) {next : Control × View}
    (hturn : Turn history.control history.view next) (hends : next.1 = .finished) :
    next = FanOut.finish history.view ∧
      (history.view.cancelled = false → history.view.output.receiverOpen = true →
        history.view.records.receiverOpen = true →
        history.forwarded = history.arrived ∧
          history.handed.flatten = recordsOf history.arrived) := by
  cases hturn with
  | take => exact absurd hends (take_ne_finished _)
  | hand | forward | listen => cases hends
  | cancel hcontrol hcancelled =>
      exact ⟨rfl, fun hrunning => by rw [hcancelled] at hrunning; cases hrunning⟩
  | ended hcontrol hreceive =>
      obtain ⟨hqueue, -⟩ := Channel.receive_ended hreceive
      have harrived := h.arrived
      have hhanded := h.handed
      rw [hcontrol, hqueue] at harrived
      rw [hcontrol] at hhanded
      simp only [unsent, sending, List.append_nil] at harrived hhanded
      exact ⟨rfl, fun _ _ _ => ⟨harrived.symm, harrived ▸ hhanded⟩⟩
  | unbilled hcontrol hsend =>
      refine ⟨rfl, fun _ _ hopen => ?_⟩
      rw [Channel.send_refused hsend] at hopen
      cases hopen
  | unread hcontrol hsend =>
      refine ⟨rfl, fun _ hopen => ?_⟩
      rw [Channel.send_refused hsend] at hopen
      cases hopen

/-- Every step of a fan-out and of what is around it keeps what has been said. -/
theorem Kept.step (h : history.Kept) (hstep : history.Step next) : next.Kept := by
  cases hstep with
  | @move following hnext =>
      have hturn := transitions_turn hnext
      have hholds := h.works hturn.working
      have hmoves : history.moves + 1 + remaining following.1 following.2.input ≤
          4 * history.arrived.length + 1 := by
        have hless := remaining_lt hnext
        have hbound := h.moves
        omega
      by_cases hends : following.1 = .finished
      · obtain ⟨rfl, hended⟩ := hholds.finish hturn hends
        have hbills := h.bills
        have hunits := h.units
        refine ⟨?_, ?_, hmoves, fun hworks => absurd rfl hworks, fun _ => rfl, fun _ => ?_⟩
        · simpa [after, FanOut.finish] using hbills
        · simpa [after, FanOut.finish] using hunits
        · simp only [after, FanOut.finish, Channel.added_drop_sender, List.append_nil]
          exact hended
      · obtain ⟨hholds, hunits⟩ := hholds.turn hturn hends
        refine ⟨hholds.bills, ?_, hmoves, fun _ => hholds, fun hended => absurd hended hends,
          fun hended => absurd hended hends⟩
        intro unit hunit
        rcases List.mem_append.mp hunit with hunit | hunit
        · exact h.units unit hunit
        · exact hunits unit hunit
  | arrive items hopen hlistens =>
      -- A fan-out that has ended has left its input, so it works.
      have hworks : history.control ≠ .finished := fun hended => by
        rw [h.leaves hended] at hlistens
        cases hlistens
      have hholds := h.works hworks
      obtain ⟨covered, hforwarded, hcovered, hhanded⟩ := h.bills
      refine ⟨⟨covered, hforwarded, hcovered.trans (List.prefix_append _ _), hhanded⟩, h.units, ?_,
        fun _ => { hholds with arrived := ?_ }, fun hended => absurd hended hworks,
        fun hended => absurd hended hworks⟩
      · have hbound := h.moves
        simp only [remaining, see, List.length_append] at hbound ⊢
        omega
      · simp [see, hholds.arrived]
  | close => exact { h with works := fun hworks => { h.works hworks with } }
  | consumer hreceiver =>
      exact { h with
        works := fun hworks => { h.works hworks with }
        ended := fun hended hrunning hopen => h.ended hended hrunning (hreceiver.receiver_open hopen) }
  | billing hreceiver =>
      exact { h with
        works := fun hworks => { h.works hworks with }
        ended := fun hended hrunning hread hopen =>
          h.ended hended hrunning hread (hreceiver.receiver_open hopen) }
  | cancel =>
      exact { h with
        works := fun hworks => { h.works hworks with }
        ended := nofun }

end History

/-- The histories that come about. -/
inductive Reachable : History → Prop where
  | start (inputCapacity outputCapacity recordsCapacity : Nat) :
      Reachable (.begin inputCapacity outputCapacity recordsCapacity)
  | step {history next : History} : Reachable history → history.Step next → Reachable next

theorem Reachable.kept {history : History} (h : Reachable history) : history.Kept := by
  induction h with
  | start => exact History.begin_kept _ _ _
  | step _ hstep ih => exact ih.step hstep

/-- At every moment what has been sent on is the beginning of what has arrived, and billing has been
handed the records of a beginning that is no shorter, at least one and at most 64 at a time. What
arrives is dealt with in a bounded number of transitions. Unless it is cancelled or a receiver goes, a
fan-out whose input has been closed ends with everything sent on, and only waiting for room keeps it
from its end. -/
theorem History.forwards_behind_billing {history : History} (h : Reachable history) :
    history.forwarded <+: history.arrived ∧
      (∃ covered, history.forwarded <+: covered ∧ covered <+: history.arrived ∧
        history.handed.flatten = recordsOf covered) ∧
      (∀ unit ∈ history.handed, 1 ≤ unit.length ∧ unit.length ≤ 64) ∧
      history.moves ≤ 4 * history.arrived.length + 1 ∧
      (history.view.input.senderOpen = false → history.view.cancelled = false →
        history.view.output.receiverOpen = true → history.view.records.receiverOpen = true →
        (history.control = .finished → history.forwarded = history.arrived ∧
          history.handed.flatten = recordsOf history.arrived) ∧
        (transitions history.control history.view = [] →
          history.control = .finished ∨ Waits history.control history.view)) := by
  have hkept := h.kept
  obtain ⟨covered, hforwarded, hcovered, hhanded⟩ := hkept.bills
  refine ⟨hforwarded.trans hcovered, hkept.bills, ?_, ?_, ?_⟩
  · intro unit hunit
    obtain ⟨hsome, hlength⟩ := hkept.units unit hunit
    exact ⟨List.length_pos_iff.mpr hsome, hlength⟩
  · exact Nat.le_trans (Nat.le_add_right _ _) hkept.moves
  · intro hclosed hrunning hread hbilled
    exact ⟨fun hended => hkept.ended hended hrunning hread hbilled, ended_or_waits hclosed⟩

def sampleOrphan : JoinOutput :=
  .orphan ⟨"1", 7, 0, ⟨"app", "a", .observation, .epoch, none, []⟩⟩

def sampleJoined (number : Int64) (events : Nat) : JoinOutput :=
  .joined ⟨number, number, "0", .epoch, events, []⟩

/-- A consumer and billing that are slow hold the fan-out up with every item. -/
theorem History.forwards_behind_billing_sample :
    ∃ history, Reachable history ∧ history.control = .finished ∧
      history.forwarded = [sampleOrphan, sampleJoined 0 3, sampleJoined 1 4] ∧
      history.forwarded = history.arrived ∧
      history.handed = [[⟨"0", 0, 3⟩], [⟨"0", 1, 4⟩]] ∧
      history.handed.flatten = recordsOf history.arrived := by
  have hstart := Reachable.start 4 1 1
  have harrived := hstart.step (.arrive [sampleOrphan, sampleJoined 0 3] rfl rfl)
  have htaken := harrived.step (.move List.mem_cons_self)
  have hhanded := htaken.step (.move List.mem_cons_self)
  have hfirst := hhanded.step (.move List.mem_cons_self)
  have hclosed := (hfirst.step (.arrive [sampleJoined 1 4] rfl rfl)).step .close
  have hsecond := (hclosed.step (.consumer (.receive rfl))).step (.move List.mem_cons_self)
  have hlistens := hsecond.step (.move List.mem_cons_self)
  have hbilled := (hlistens.step (.move List.mem_cons_self)).step (.billing (.receive rfl))
  have hlast := ((hbilled.step (.move List.mem_cons_self)).step
    (.consumer (.receive rfl))).step (.move List.mem_cons_self)
  have hended := (hlast.step (.move List.mem_cons_self)).step (.move List.mem_cons_self)
  obtain ⟨-, -, -, -, hwhole⟩ := forwards_behind_billing hended
  obtain ⟨hforwarded, hrecords⟩ := (hwhole rfl rfl rfl rfl).1 rfl
  exact ⟨_, hended, rfl, rfl, hforwarded, rfl, hrecords⟩

end FanOut

end WindowJoin

import WindowJoin.Pipeline.FanOut

/-!
# The turns of the fan-out

`FanOut.Turn` lists what the fan-out can do in one transition and under which condition
(`FanOut.transitions_turn`). What it has taken and not sent on is `FanOut.unsent`; of this it is
sending on what billing has been handed the records of, `FanOut.sending`.
-/

namespace WindowJoin

namespace FanOut

/-- What a fan-out does in one transition. -/
inductive Turn (control : Control) (view : View) : Control × View → Prop where
  | take {item : JoinOutput} {input : Channel JoinOutput} : control = .listening →
      view.input.receive = .item item input →
      Turn control view (FanOut.take (view.input.drain chunkLimit).1,
        { view with input := (view.input.drain chunkLimit).2 })
  /-- Billing is handed the records. -/
  | hand {items : List JoinOutput} {records : Channel (List BillingRecord)} :
      control = .billing items → view.cancelled = false →
      view.records.send (recordsOf items) = .sent records →
      Turn control view (.forwarding items, { view with records })
  | forward {item : JoinOutput} {rest : List JoinOutput} {output : Channel JoinOutput} :
      control = .forwarding (item :: rest) → view.cancelled = false →
      view.output.send item = .sent output →
      Turn control view (.forwarding rest, { view with output })
  | listen : control = .forwarding [] → Turn control view (.listening, view)
  | cancel : control ≠ .finished → view.cancelled = true → Turn control view (finish view)
  | ended : control = .listening → view.input.receive = .ended → Turn control view (finish view)
  /-- Billing is gone. -/
  | unbilled {items : List JoinOutput} : control = .billing items →
      view.records.send (recordsOf items) = .refused → Turn control view (finish view)
  /-- The consumer is gone. -/
  | unread {item : JoinOutput} {rest : List JoinOutput} : control = .forwarding (item :: rest) →
      view.output.send item = .refused → Turn control view (finish view)

/-- Every transition of a fan-out is a turn. -/
theorem transitions_turn {control : Control} {view : View} {next : Control × View}
    (h : next ∈ transitions control view) : Turn control view next := by
  unfold transitions at h
  split at h
  next =>
    rcases List.mem_append.mp h with h | h
    · split at h
      next hcancelled =>
        obtain rfl := List.mem_singleton.mp h
        exact .cancel nofun hcancelled
      next => cases h
    · split at h
      next hreceive =>
        obtain rfl := List.mem_singleton.mp h
        exact .take rfl hreceive
      next hreceive =>
        obtain rfl := List.mem_singleton.mp h
        exact .ended rfl hreceive
      next => cases h
  next items =>
    split at h
    next hcancelled =>
      obtain rfl := List.mem_singleton.mp h
      exact .cancel nofun hcancelled
    next hcancelled =>
      split at h
      next records hsend =>
        obtain rfl := List.mem_singleton.mp h
        exact .hand rfl (by simpa using hcancelled) hsend
      next hsend =>
        obtain rfl := List.mem_singleton.mp h
        exact .unbilled rfl hsend
      next => cases h
  next =>
    obtain rfl := List.mem_singleton.mp h
    exact .listen rfl
  next item rest =>
    split at h
    next hcancelled =>
      obtain rfl := List.mem_singleton.mp h
      exact .cancel nofun hcancelled
    next hcancelled =>
      split at h
      next output hsend =>
        obtain rfl := List.mem_singleton.mp h
        exact .forward rfl (by simpa using hcancelled) hsend
      next hsend =>
        obtain rfl := List.mem_singleton.mp h
        exact .unread rfl hsend
      next => cases h
  next => cases h

/-- A fan-out that has ended does nothing more. -/
theorem Turn.working {control : Control} {view : View} {next : Control × View}
    (h : Turn control view next) : control ≠ .finished := by
  cases h with
  | cancel hcontrol => exact hcontrol
  | take hcontrol | hand hcontrol | forward hcontrol | listen hcontrol | ended hcontrol
  | unbilled hcontrol | unread hcontrol =>
      rw [hcontrol]
      nofun

/-- What a fan-out has taken and not sent on. -/
def unsent : Control → List JoinOutput
  | .billing items => items
  | .forwarding items => items
  | _ => []

theorem unsent_take (items : List JoinOutput) : unsent (take items) = items := by
  unfold take
  split <;> rfl

/-- What a fan-out is sending on. Billing has been handed the records of it. -/
def sending : Control → List JoinOutput
  | .forwarding items => items
  | _ => []

theorem records_of_append (first second : List JoinOutput) :
    recordsOf (first ++ second) = recordsOf first ++ recordsOf second :=
  List.filterMap_append

/-- Items that go past billing have no records. -/
theorem records_of_sending_take (items : List JoinOutput) :
    recordsOf (sending (FanOut.take items)) = [] := by
  unfold FanOut.take
  split
  next hnone => exact List.isEmpty_iff.mp hnone
  next => rfl

end FanOut

end WindowJoin

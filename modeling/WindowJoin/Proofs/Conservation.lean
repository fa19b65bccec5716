import WindowJoin.Channel

/-!
# Stages that lose nothing while they work

Batches go through a pipeline stage by stage. `Conserved input held output working` relates what has
gone into a stage, what it holds, and what has come out of it. A stage that has stopped may have lost
what it held, but then nothing comes out of it behind the gap: the output is always the beginning of
the input (`Conserved.begins`). A channel is such a stage, from its sender to its receiver
(`Channel.Passes`).
-/

namespace WindowJoin

/-- What went into a stage has come out of it, is held there, or is lost, in this order; nothing is
lost as long as the stage works. -/
def Conserved {α : Type} (input held output : List α) (working : Prop) : Prop :=
  ∃ lost, input = output ++ held ++ lost ∧ (working → lost = [])

namespace Conserved

variable {α : Type} {input held output : List α} {working : Prop}

theorem start (working : Prop) : Conserved ([] : List α) [] [] working :=
  ⟨[], rfl, fun _ => rfl⟩

/-- What has come out is the beginning of what went in. -/
theorem begins (h : Conserved input held output working) : output <+: input := by
  obtain ⟨lost, hinput, -⟩ := h
  rw [hinput, List.append_assoc]
  exact List.prefix_append ..

theorem mem_input (h : Conserved input held output working) {item : α} (hitem : item ∈ held) :
    item ∈ input := by
  obtain ⟨lost, hinput, -⟩ := h
  rw [hinput]
  exact List.mem_append_left _ (List.mem_append_right _ hitem)

theorem mono (h : Conserved input held output working) {still : Prop} (hstill : still → working) :
    Conserved input held output still := by
  obtain ⟨lost, hinput, hlost⟩ := h
  exact ⟨lost, hinput, fun hworks => hlost (hstill hworks)⟩

/-- More goes into a stage that works. -/
theorem accept (h : Conserved input held output working) (hworking : working) (items : List α)
    (still : Prop) : Conserved (input ++ items) (held ++ items) output still := by
  obtain ⟨lost, hinput, hlost⟩ := h
  refine ⟨[], ?_, fun _ => rfl⟩
  rw [hinput, hlost hworking, List.append_nil, List.append_nil, List.append_assoc]

/-- What is held first comes out. -/
theorem give (items : List α) (h : Conserved input (items ++ held) output working) :
    Conserved input held (output ++ items) working := by
  obtain ⟨lost, hinput, hlost⟩ := h
  exact ⟨lost, by rw [hinput, List.append_assoc output items], hlost⟩

/-- A stage that has stopped holds nothing. -/
theorem stopped (h : output <+: input) (hstopped : ¬ working) :
    Conserved input [] output working := by
  obtain ⟨lost, rfl⟩ := h
  exact ⟨lost, by rw [List.append_nil], fun hworking => absurd hworking hstopped⟩

end Conserved

namespace Channel

variable {α : Type}

/-- The channel has passed on what was sent and received, and holds what is to be received next. -/
def Passes (channel : Channel α) (sent received : List α) : Prop :=
  Conserved sent channel.queue received (channel.receiverOpen = true)

variable {channel next : Channel α} {sent received : List α}

theorem passes_new (capacity : Nat) : (new capacity : Channel α).Passes [] [] :=
  .start _

/-- A channel that takes an item has a receiver and puts the item behind the others. -/
theorem send_eq {value : α} (h : channel.send value = .sent next) :
    channel.receiverOpen = true ∧ next = { channel with queue := channel.queue ++ [value] } := by
  unfold send at h
  split at h
  · cases h
  next hopen =>
    split at h
    · cases h
      exact ⟨by simpa using hopen, rfl⟩
    · cases h

theorem receive_eq {value : α} (h : channel.receive = .item value next) :
    channel.queue = value :: next.queue ∧ next = { channel with queue := next.queue } := by
  unfold receive at h
  split at h
  next hqueue =>
    cases h
    exact ⟨hqueue, rfl⟩
  · split at h <;> cases h

/-- An end is met in an empty channel that has lost its sender or its receiver. -/
theorem receive_ended (h : channel.receive = .ended) :
    channel.queue = [] ∧ (channel.senderOpen && channel.receiverOpen) = false := by
  unfold receive at h
  split at h
  · cases h
  next hqueue =>
    split at h
    · cases h
    next hgone => exact ⟨hqueue, by simpa using hgone⟩

theorem Passes.send (h : channel.Passes sent received) {value : α}
    (hsend : channel.send value = .sent next) : next.Passes (sent ++ [value]) received := by
  obtain ⟨hopen, rfl⟩ := send_eq hsend
  exact h.accept hopen [value] _

theorem Passes.receive (h : channel.Passes sent received) {value : α}
    (hreceive : channel.receive = .item value next) : next.Passes sent (received ++ [value]) := by
  obtain ⟨hqueue, hnext⟩ := receive_eq hreceive
  rw [Passes, hqueue] at h
  rw [hnext]
  exact h.give [value]

/-- What is drained from a channel is received in order. -/
theorem Passes.drain (h : channel.Passes sent received) (limit : Nat) :
    (channel.drain limit).2.Passes sent (received ++ (channel.drain limit).1) := by
  induction limit generalizing channel received with
  | zero => simpa [Channel.drain] using h
  | succ limit ih =>
      rw [Channel.drain]
      cases hreceive : channel.receive with
      | item value rest =>
          have hrest := ih (h.receive hreceive)
          rwa [List.append_assoc] at hrest
      | ended => simpa using h
      | empty => simpa using h

theorem Passes.drop_sender (h : channel.Passes sent received) :
    channel.dropSender.Passes sent received :=
  h

theorem Passes.drop_receiver (h : channel.Passes sent received) :
    channel.dropReceiver.Passes sent received :=
  .stopped h.begins Bool.false_ne_true

theorem Passes.refuse (h : channel.Passes sent received) :
    channel.refuse.Passes sent received := by
  obtain ⟨lost, hsent, -⟩ := h
  exact ⟨lost, hsent, nofun⟩

end Channel

end WindowJoin

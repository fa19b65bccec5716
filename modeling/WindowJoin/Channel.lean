/-!
# Bounded channels

A channel hands items from a sender to a receiver in the order in which they were sent, and holds up
to its capacity of them. A sender waits while it is full and a receiver while it is empty. When the
sender is gone, the receiver gets what is left and then the end; when the receiver is gone, the
sender is refused.
-/

namespace WindowJoin

/-- A channel with the items in it, and whether its two ends are still there. -/
structure Channel (α : Type) where
  capacity : Nat
  queue : List α
  senderOpen : Bool
  receiverOpen : Bool
  deriving DecidableEq, Repr

/-- What comes of an attempt to send. -/
inductive Sending (α : Type) where
  | sent (channel : Channel α)
  | refused
  | full

/-- What comes of an attempt to receive. -/
inductive Receiving (α : Type) where
  | item (value : α) (channel : Channel α)
  | ended
  | empty

namespace Channel

variable {α : Type}

/-- A channel without items. -/
def new (capacity : Nat) : Channel α :=
  ⟨capacity, [], true, true⟩

/-- Sends an item, if there is room for it and a receiver. -/
def send (channel : Channel α) (value : α) : Sending α :=
  if !channel.receiverOpen then .refused
  else if channel.queue.length < channel.capacity then
    .sent { channel with queue := channel.queue ++ [value] }
  else .full

/-- Receives the oldest item. -/
def receive (channel : Channel α) : Receiving α :=
  match channel.queue with
  | value :: rest => .item value { channel with queue := rest }
  | [] => if channel.senderOpen && channel.receiverOpen then .empty else .ended

/-- Takes up to a number of items without waiting. -/
def drain : Nat → Channel α → List α × Channel α
  | 0, channel => ([], channel)
  | limit + 1, channel =>
    match channel.receive with
    | .item value rest =>
      let (values, final) := drain limit rest
      (value :: values, final)
    | _ => ([], channel)

/-- The channel after its sender has gone. -/
def dropSender (channel : Channel α) : Channel α :=
  { channel with senderOpen := false }

/-- The channel after its receiver has gone, and the items in it with the receiver. -/
def dropReceiver (channel : Channel α) : Channel α :=
  { channel with queue := [], receiverOpen := false }

/-- The channel after its receiver has refused further items; those in it can still be received. -/
def refuse (channel : Channel α) : Channel α :=
  { channel with receiverOpen := false }

end Channel

end WindowJoin

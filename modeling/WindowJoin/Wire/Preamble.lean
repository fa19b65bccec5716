import WindowJoin.Error
import WindowJoin.Wire.Words

/-!
# The preamble of a transport payload

Eight bytes in front of every payload: a reserved byte and a version, both zero, the type of the
message in two bytes, and the length of what follows in four, big endian. There is one type of
message. `splitPayload` takes a payload apart and checks the length.
-/

namespace WindowJoin.Wire

/-- The types of messages that a payload can hold. -/
inductive PayloadKind where
  | eventBatch
  deriving DecidableEq, Repr

/-- The number of a type of message. -/
def PayloadKind.code : PayloadKind → Nat
  | eventBatch => 1

/-- What a preamble says of the body after it. -/
structure Preamble where
  kind : PayloadKind
  size : Nat
  deriving DecidableEq, Repr

namespace Preamble

/-- The length of a preamble. -/
def length : Nat := 8

/-- The preamble at the start of some bytes. -/
def read (bytes : List UInt8) : Except CodecError Preamble :=
  match bytes with
  | reserved :: version :: kind₁ :: kind₂ :: size₁ :: size₂ :: size₃ :: size₄ :: _ =>
    if reserved ≠ 0 ∨ version ≠ 0 then .error (.unsupportedPreamble reserved version)
    else
      let code := ofBigEndian [kind₁, kind₂]
      if code = PayloadKind.eventBatch.code then
        .ok ⟨.eventBatch, ofBigEndian [size₁, size₂, size₃, size₄]⟩
      else .error (.unknownMessageType code)
  | _ => .error (.shortPreamble bytes.length)

/-- The bytes of a preamble. -/
def write (preamble : Preamble) : List UInt8 :=
  [0, 0] ++ bigEndian 2 preamble.kind.code ++ bigEndian 4 preamble.size

end Preamble

/-- A payload as its preamble and the body, which has the length that the preamble declares. -/
def splitPayload (bytes : List UInt8) : Except CodecError (Preamble × List UInt8) := do
  let preamble ← Preamble.read bytes
  let body := bytes.drop Preamble.length
  if body.length = preamble.size then .ok (preamble, body)
  else .error (.bodySizeMismatch preamble.size body.length)

end WindowJoin.Wire

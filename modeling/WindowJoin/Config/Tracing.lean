import WindowJoin.Json.Real
import WindowJoin.Json.Value

/-!
# Where traces go

The part of the configuration that names a collector of traces. Its kind is an entry of the same
object, so the whole part is read as a value before its kind decides what the rest means. As an array
it holds the kind and then the fields in order.
-/

namespace WindowJoin

open Json

/-- A collector of traces. -/
inductive TraceCollector where
  | jaeger (serviceName : String) (endpoint : Option String) (samplingRatio : Option Float)
  | otlp (serviceName : String) (url : Option String) (samplingRatio : Float)

/-- The kinds of collectors. -/
inductive CollectorKind where
  | jaeger
  | otlp
  deriving DecidableEq, Repr

namespace CollectorKind

/-- The name of a kind in documents. -/
def name : CollectorKind → String
  | jaeger => "Jaeger"
  | otlp => "Otlp"

/-- The kind with a name, as a document gives it. -/
def read (bytes : List UInt8) : Except Fault (CollectorKind × List UInt8) := do
  let (name, rest) ← readText bytes
  if name = jaeger.name then .ok (jaeger, rest)
  else if name = otlp.name then .ok (otlp, rest)
  else .error .mismatch

/-- The key of the address of a collector of this kind. -/
def addressKey : CollectorKind → String
  | jaeger => "endpoint"
  | otlp => "url"

end CollectorKind

namespace TraceCollector

/-- The share of traces that is kept if the configuration does not say. -/
def defaultRatio : Float := 1.0

/-- A collector from its fields, of which only the name of the service has to be there. -/
def ofFields (kind : CollectorKind) (serviceName address ratio : Option Value) :
    Except Fault TraceCollector := do
  let some serviceName := serviceName | .error .mismatch
  let serviceName ← serviceName.asText
  let address ← (address.getD .null).asOptional Value.asText
  match kind with
  | .jaeger => do
    let ratio ← (ratio.getD .null).asOptional Value.asReal
    .ok (.jaeger serviceName address ratio)
  | .otlp => do
    let ratio ← ratio.elim (.ok defaultRatio) Value.asReal
    .ok (.otlp serviceName address ratio)

/-- A collector from the entries of an object, without the entry of its kind. -/
def ofEntries (kind : CollectorKind) (entries : List (String × Value)) :
    Except Fault TraceCollector := do
  ofFields kind (← valueAt? "service_name" entries) (← valueAt? kind.addressKey entries)
    (← valueAt? "sampling_ratio" entries)

/-- A collector from the elements of an array, after that of its kind. -/
def ofElements (kind : CollectorKind) (elements : List Value) : Except Fault TraceCollector :=
  if 3 < elements.length then .error .mismatch
  else ofFields kind elements[0]? elements[1]? elements[2]?

/-- What has been read of an object: the kind of the collector and the other entries, the last
first. -/
structure Parts where
  kind : Option CollectorKind
  entries : List (String × Value)

/-- An entry of the object. The kind comes up only once. -/
def readEntry (parts : Parts) (key : String) (bytes : List UInt8) :
    Except Fault (Parts × List UInt8) :=
  if key = "type" then
    if parts.kind.isSome then .error .mismatch
    else do
      let (kind, rest) ← CollectorKind.read (← afterColon bytes)
      .ok ({ parts with kind := some kind }, rest)
  else do
    let (value, rest) ← readValue 2 (← afterColon bytes)
    .ok ({ parts with entries := (key, value) :: parts.entries }, rest)

/-- The kind of a collector and its elements, after the opening bracket. -/
def readArray (bytes : List UInt8) :
    Except Fault ((CollectorKind × List Value) × List UInt8) := do
  let some bytes ← nextElement true bytes | .error .mismatch
  let (kind, bytes) ← CollectorKind.read bytes
  let (elements, rest) ← readOtherElements 2 bytes
  .ok ((kind, elements), rest)

/-- A collector, as an object or as an array. -/
def read (bytes : List UInt8) : Except Fault (TraceCollector × List UInt8) :=
  match skipBlanks bytes with
  | [] => .error .ended
  | byte :: rest =>
    if byte = byteOf '[' then do
      let ((kind, elements), rest) ← readArray rest
      .ok (← ofElements kind elements, rest)
    else do
      let (parts, rest) ← readObject readEntry ⟨none, []⟩ (byte :: rest)
      let some kind := parts.kind | .error .mismatch
      .ok (← ofEntries kind parts.entries, rest)

/-- The object that holds a collector. -/
def write : TraceCollector → List UInt8
  | jaeger serviceName endpoint ratio =>
    object [("type", quoted CollectorKind.jaeger.name), ("service_name", quoted serviceName),
      ("endpoint", optional quoted endpoint), ("sampling_ratio", optional real ratio)]
  | otlp serviceName url ratio =>
    object [("type", quoted CollectorKind.otlp.name), ("service_name", quoted serviceName),
      ("url", optional quoted url), ("sampling_ratio", real ratio)]

end TraceCollector

end WindowJoin

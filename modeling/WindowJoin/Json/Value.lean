import WindowJoin.Json.Reader

/-!
# JSON values of any shape

A part of a document whose shape depends on what stands further on is read into a value first. Such
a value has a limited depth, and a deeper one is malformed.
-/

namespace WindowJoin.Json

/-- A JSON value. The entries of an object stand in the order of the document. -/
inductive Value where
  | null
  | bool (value : Bool)
  | number (value : Number)
  | text (value : String)
  | array (elements : List Value)
  | object (entries : List (String × Value))

/-- The number of arrays and objects that may lie within each other. -/
def maxDepth : Nat := 127

/-- A value, within a budget. The second argument is the number of arrays and objects that may still
be entered. -/
def readValueWithin : List UInt8 → Nat → List UInt8 → Except Fault (Value × List UInt8)
  | [], _, _ => .error .ended
  | _ :: budget, depth, bytes =>
    match skipBlanks bytes with
    | [] => .error .ended
    | byte :: rest =>
      if byte = byteOf 'n' then do
        let (_, rest) ← expectWord ['u', 'l', 'l'] rest
        .ok (.null, rest)
      else if byte = byteOf 't' || byte = byteOf 'f' then do
        let (value, rest) ← readBool (byte :: rest)
        .ok (.bool value, rest)
      else if byte = byteOf '-' || isDigit byte then do
        let (value, rest) ← readNumber (byte :: rest)
        .ok (.number value, rest)
      else if byte = byteOf '"' then do
        let (value, rest) ← readQuoted rest
        .ok (.text value, rest)
      else if byte = byteOf '[' then
        match depth with
        | 0 => .error .malformed
        | depth + 1 => do
          match ← nextElement true rest with
          | none => do
            .ok (.array [], ← closeArray rest)
          | some bytes => do
            let (value, rest) ← readValueWithin budget depth bytes
            let (others, rest) ← elements budget depth rest
            .ok (.array (value :: others), rest)
      else if byte = byteOf '\x7b' then
        match depth with
        | 0 => .error .malformed
        | depth + 1 => do
          match ← readKey true rest with
          | (none, rest) => .ok (.object [], rest)
          | (some bytes, _) =>
            let (key, rest) ← readQuoted bytes
            let (value, rest) ← readValueWithin budget depth (← afterColon rest)
            let (others, rest) ← entries budget depth rest
            .ok (.object ((key, value) :: others), rest)
      else .error .malformed
where
  /-- The other elements of an array and its closing bracket. -/
  elements : List UInt8 → Nat → List UInt8 → Except Fault (List Value × List UInt8)
    | [], _, _ => .error .ended
    | _ :: budget, depth, bytes => do
      match ← nextElement false bytes with
      | none => do
        .ok ([], ← closeArray bytes)
      | some bytes => do
        let (value, rest) ← readValueWithin budget depth bytes
        let (others, rest) ← elements budget depth rest
        .ok (value :: others, rest)
  /-- The other entries of an object and its closing brace. -/
  entries : List UInt8 → Nat → List UInt8 → Except Fault (List (String × Value) × List UInt8)
    | [], _, _ => .error .ended
    | _ :: budget, depth, bytes => do
      match ← readKey false bytes with
      | (none, rest) => .ok ([], rest)
      | (some bytes, _) =>
        let (key, rest) ← readQuoted bytes
        let (value, rest) ← readValueWithin budget depth (← afterColon rest)
        let (others, rest) ← entries budget depth rest
        .ok ((key, value) :: others, rest)

/-- A value inside a number of arrays and objects. -/
def readValue (inside : Nat) (bytes : List UInt8) : Except Fault (Value × List UInt8) :=
  readValueWithin bytes (maxDepth - inside) bytes

/-- The other elements of an array inside a number of arrays and objects, itself included, and its
closing bracket. -/
def readOtherElements (inside : Nat) (bytes : List UInt8) :
    Except Fault (List Value × List UInt8) :=
  readValueWithin.elements bytes (maxDepth - inside) bytes

namespace Value

/-- A text. -/
def asText : Value → Except Fault String
  | text value => .ok value
  | _ => .error .mismatch

/-- A number as a binary fraction. -/
def asReal : Value → Except Fault Float
  | number (.real value) => .ok value
  | number (.integer value) =>
    let size := value.natAbs.toUInt64.toFloat
    .ok (if value < 0 then -size else size)
  | _ => .error .mismatch

/-- A value that may be null. -/
def asOptional {α : Type} (read : Value → Except Fault α) : Value → Except Fault (Option α)
  | null => .ok none
  | value => some <$> read value

end Value

/-- The value of a key, which comes up at most once. -/
def valueAt? (key : String) (entries : List (String × Value)) : Except Fault (Option Value) :=
  match entries.filter (·.1 = key) with
  | [] => .ok none
  | [(_, value)] => .ok (some value)
  | _ => .error .mismatch

end WindowJoin.Json

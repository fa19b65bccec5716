import WindowJoin.Json.Number

/-!
# Reading JSON documents of a known shape

Readers take the bytes of a document from the front and give a value and the bytes after it. A part
of another shape is a mismatch, but a word, a number or a text in its place is read to its end
first, so that a fault in it comes before the mismatch. `readEntries` and `readElements` walk through
objects and arrays; `skipValue` passes over a value of any shape and depth.
-/

namespace WindowJoin.Json

/-- A word that starts with a letter, after that letter. -/
def wordAfter? (letter : UInt8) : Option (List Char) :=
  if letter = byteOf 'n' then some ['u', 'l', 'l']
  else if letter = byteOf 't' then some ['r', 'u', 'e']
  else if letter = byteOf 'f' then some ['a', 'l', 's', 'e']
  else none

/-- The fault of a value whose shape is not the wanted one, at its first byte. -/
def mismatchAt (bytes : List UInt8) : Fault :=
  let faultOf {α : Type} (outcome : Except Fault α) : Fault :=
    match outcome with
    | .error fault => fault
    | .ok _ => .mismatch
  match bytes with
  | [] => .malformed
  | byte :: rest =>
    match wordAfter? byte with
    | some word => faultOf (expectWord word rest)
    | none =>
      if byte = byteOf '-' then faultOf (readUnsigned true rest)
      else if isDigit byte then faultOf (readUnsigned false bytes)
      else if byte = byteOf '"' then faultOf (readQuoted rest)
      else if byte = byteOf '[' || byte = byteOf '\x7b' then .mismatch
      else .malformed

/-- A number. -/
def readNumber (bytes : List UInt8) : Except Fault (Number × List UInt8) :=
  match skipBlanks bytes with
  | [] => .error .ended
  | byte :: rest =>
    if byte = byteOf '-' then readUnsigned true rest
    else if isDigit byte then readUnsigned false (byte :: rest)
    else .error (mismatchAt (byte :: rest))

/-- An integer within bounds. -/
def readInteger (low high : Int) (bytes : List UInt8) : Except Fault (Int × List UInt8) := do
  match ← readNumber bytes with
  | (.integer value, rest) =>
    if low ≤ value ∧ value ≤ high then .ok (value, rest) else .error .mismatch
  | (.real _, _) => .error .mismatch

/-- A text. -/
def readText (bytes : List UInt8) : Except Fault (String × List UInt8) :=
  match skipBlanks bytes with
  | [] => .error .ended
  | byte :: rest =>
    if byte = byteOf '"' then readQuoted rest else .error (mismatchAt (byte :: rest))

/-- A truth value. -/
def readBool (bytes : List UInt8) : Except Fault (Bool × List UInt8) :=
  match skipBlanks bytes with
  | [] => .error .ended
  | byte :: rest =>
    if byte = byteOf 't' then do
      let (_, rest) ← expectWord ['r', 'u', 'e'] rest
      .ok (true, rest)
    else if byte = byteOf 'f' then do
      let (_, rest) ← expectWord ['a', 'l', 's', 'e'] rest
      .ok (false, rest)
    else .error (mismatchAt (byte :: rest))

/-- A value that may be null. -/
def readOptional {α : Type} (read : List UInt8 → Except Fault (α × List UInt8))
    (bytes : List UInt8) : Except Fault (Option α × List UInt8) :=
  let present bytes := do
    let (value, rest) ← read bytes
    .ok (some value, rest)
  match skipBlanks bytes with
  | [] => present []
  | byte :: rest =>
    if byte = byteOf 'n' then do
      let (_, rest) ← expectWord ['u', 'l', 'l'] rest
      .ok (none, rest)
    else present (byte :: rest)

/-- The bytes after the colon that follows a key. -/
def afterColon (bytes : List UInt8) : Except Fault (List UInt8) :=
  match skipBlanks bytes with
  | [] => .error .ended
  | byte :: rest => if byte = byteOf ':' then .ok rest else .error .malformed

/-- The key of an object's next entry, after the comma if it is not the first, or nothing at the
closing brace. -/
def readKey (first : Bool) (bytes : List UInt8) :
    Except Fault (Option (List UInt8) × List UInt8) :=
  match skipBlanks bytes with
  | [] => .error .ended
  | byte :: rest =>
    if byte = byteOf '\x7d' then .ok (none, rest)
    else if first then
      if byte = byteOf '"' then .ok (some rest, rest) else .error .malformed
    else if byte = byteOf ',' then
      match skipBlanks rest with
      | [] => .error .ended
      | byte :: rest =>
        if byte = byteOf '"' then .ok (some rest, rest) else .error .malformed
    else .error .malformed

/-- The entries of an object after its opening brace. Each entry is read by `entry`, which is given
what the entries before have made, the key, and the bytes after the key. Each entry is a step within
the budget. -/
def readEntries {σ : Type} (entry : σ → String → List UInt8 → Except Fault (σ × List UInt8)) :
    List UInt8 → Bool → σ → List UInt8 → Except Fault (σ × List UInt8)
  | [], _, _, _ => .error .ended
  | _ :: budget, first, state, bytes => do
    match ← readKey first bytes with
    | (none, rest) => .ok (state, rest)
    | (some bytes, _) =>
      let (key, rest) ← readQuoted bytes
      let (state, rest) ← entry state key rest
      readEntries entry budget false state rest

/-- An object, with its entries read one after the other. -/
def readObject {σ : Type} (entry : σ → String → List UInt8 → Except Fault (σ × List UInt8))
    (start : σ) (bytes : List UInt8) : Except Fault (σ × List UInt8) :=
  match skipBlanks bytes with
  | [] => .error .ended
  | byte :: rest =>
    if byte = byteOf '\x7b' then readEntries entry rest true start rest
    else .error (mismatchAt (byte :: rest))

/-- The bytes of an array's next element, after the comma if it is not the first, or nothing at the
closing bracket, which is left in place. -/
def nextElement (first : Bool) (bytes : List UInt8) : Except Fault (Option (List UInt8)) :=
  match skipBlanks bytes with
  | [] => .error .ended
  | byte :: rest =>
    if byte = byteOf ']' then .ok none
    else if first then .ok (some (byte :: rest))
    else if byte = byteOf ',' then
      match skipBlanks rest with
      | [] => .error .ended
      | byte :: rest => if byte = byteOf ']' then .error .malformed else .ok (some (byte :: rest))
    else .error .malformed

/-- The bytes after the closing bracket of an array from which no more elements are wanted. -/
def closeArray (bytes : List UInt8) : Except Fault (List UInt8) :=
  match skipBlanks bytes with
  | [] => .error .ended
  | byte :: rest => if byte = byteOf ']' then .ok rest else .error .malformed

/-- The bytes after a key that is passed over, and its colon. -/
def skipKey (bytes : List UInt8) : Except Fault (List UInt8) := do
  afterColon (← skipQuoted bytes)

/-- The bytes after a value of any shape that is passed over, within a budget. -/
def skipValueWithin : List UInt8 → List UInt8 → Except Fault (List UInt8)
  | [], _ => .error .ended
  | _ :: budget, bytes =>
    match skipBlanks bytes with
    | [] => .error .ended
    | byte :: rest =>
      match wordAfter? byte with
      | some word => do
        let (_, rest) ← expectWord word rest
        .ok rest
      | none =>
        if byte = byteOf '-' then skipUnsigned rest
        else if isDigit byte then skipUnsigned (byte :: rest)
        else if byte = byteOf '"' then skipQuoted rest
        else if byte = byteOf '[' then do
          match ← nextElement true rest with
          | none => closeArray rest
          | some bytes => elements budget (← skipValueWithin budget bytes)
        else if byte = byteOf '\x7b' then do
          match ← readKey true rest with
          | (none, rest) => .ok rest
          | (some bytes, _) => entries budget (← skipValueWithin budget (← skipKey bytes))
        else .error .malformed
where
  /-- The other elements of an array that is passed over, and its closing bracket. -/
  elements : List UInt8 → List UInt8 → Except Fault (List UInt8)
    | [], _ => .error .ended
    | _ :: budget, bytes => do
      match ← nextElement false bytes with
      | none => closeArray bytes
      | some bytes => elements budget (← skipValueWithin budget bytes)
  /-- The other entries of an object that is passed over, and its closing brace. -/
  entries : List UInt8 → List UInt8 → Except Fault (List UInt8)
    | [], _ => .error .ended
    | _ :: budget, bytes => do
      match ← readKey false bytes with
      | (none, rest) => .ok rest
      | (some bytes, _) => entries budget (← skipValueWithin budget (← skipKey bytes))

/-- The bytes after a value of any shape that is passed over. -/
def skipValue (bytes : List UInt8) : Except Fault (List UInt8) :=
  skipValueWithin bytes bytes

/-- The value of a whole document, which nothing but blanks may follow. -/
def readDocument {α : Type} (read : List UInt8 → Except Fault (α × List UInt8))
    (bytes : List UInt8) : Except Fault α := do
  let (value, rest) ← read bytes
  if skipBlanks rest = [] then .ok value else .error .malformed

/-- An object with values of one kind, by key. Of two entries with one key the later counts. -/
def readEntriesOf {α : Type} (read : List UInt8 → Except Fault (α × List UInt8))
    (bytes : List UInt8) : Except Fault (List (String × α) × List UInt8) := do
  let (entries, rest) ← readObject (fun entries key bytes => do
    let bytes ← afterColon bytes
    let (value, rest) ← read bytes
    .ok ((key, value) :: entries, rest)) [] bytes
  .ok (entries.reverse, rest)

/-- The parts of an object or array, with commas between them. -/
def separated (parts : List (List UInt8)) : List UInt8 :=
  List.intercalate [byteOf ','] parts

/-- An object with these keys and values, the values already written. -/
def object (entries : List (String × List UInt8)) : List UInt8 :=
  byteOf '\x7b' :: separated (entries.map fun (key, value) => quoted key ++ byteOf ':' :: value)
    ++ [byteOf '\x7d']

/-- The word that stands for no value. -/
def nullWord : List UInt8 :=
  [byteOf 'n', byteOf 'u', byteOf 'l', byteOf 'l']

/-- The word for a truth value. -/
def boolWord (value : Bool) : List UInt8 :=
  (if value then ['t', 'r', 'u', 'e'] else ['f', 'a', 'l', 's', 'e']).map byteOf

/-- A value that may be null. -/
def optional {α : Type} (write : α → List UInt8) : Option α → List UInt8
  | none => nullWord
  | some value => write value

end WindowJoin.Json

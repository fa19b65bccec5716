import WindowJoin.Text.Utf8

/-!
# JSON text on the level of bytes

What is wrong with a document, blanks, words, and quoted text. A document is a list of bytes that is
read from the front; the first problem in reading order is the one that counts. `quoted` writes a
text with as few escapes as JSON allows, and `readQuoted` reads every form of it.

A reader that repeats a step has a budget, a list whose length bounds the number of steps. Every step
uses up a byte at least, so the bytes that are read make a budget that is never short.
-/

namespace WindowJoin.Json

/-- What is wrong with a document: it is not JSON, it is JSON of another shape, or it stops too
early. -/
inductive Fault where
  | malformed
  | mismatch
  | ended
  deriving DecidableEq, Repr

/-- The word for a fault in messages. -/
def Fault.category : Fault → String
  | .malformed => "syntax"
  | .mismatch => "data"
  | .ended => "eof"

/-- The byte of an ASCII character. -/
abbrev byteOf (c : Char) : UInt8 := c.toNat.toUInt8

/-- A byte that may stand between any two parts of a document. -/
def isBlank (byte : UInt8) : Bool :=
  byte = byteOf ' ' || byte = byteOf '\n' || byte = byteOf '\t' || byte = byteOf '\r'

/-- The bytes without the blanks in front. -/
def skipBlanks (bytes : List UInt8) : List UInt8 :=
  bytes.dropWhile isBlank

/-- A byte that is a decimal digit. -/
def isDigit (byte : UInt8) : Bool :=
  byteOf '0' ≤ byte && byte ≤ byteOf '9'

/-- The value of a hexadecimal digit in either case. -/
def hexValue? (byte : UInt8) : Option Nat :=
  if isDigit byte then some (byte.toNat - 48)
  else if byteOf 'a' ≤ byte && byte ≤ byteOf 'f' then some (byte.toNat - 87)
  else if byteOf 'A' ≤ byte && byte ≤ byteOf 'F' then some (byte.toNat - 55)
  else none

/-- The hexadecimal digit of a number below 16, in lower case. -/
def hexByte (value : Nat) : UInt8 :=
  (if value < 10 then value + 48 else value + 87).toUInt8

/-- The rest of a word whose first letter has been read. -/
def expectWord : List Char → List UInt8 → Except Fault (Unit × List UInt8)
  | [], bytes => .ok ((), bytes)
  | _ :: _, [] => .error .ended
  | c :: word, byte :: rest =>
    if byte = byteOf c then expectWord word rest else .error .malformed

/-- Four hexadecimal digits. When fewer bytes than that are left, the document has ended. -/
def readHex4 : List UInt8 → Except Fault (Nat × List UInt8)
  | a :: b :: c :: d :: rest =>
    match hexValue? a, hexValue? b, hexValue? c, hexValue? d with
    | some a, some b, some c, some d => .ok (((a * 16 + b) * 16 + c) * 16 + d, rest)
    | _, _, _, _ => .error .malformed
  | _ => .error .ended

/-- The character of an escape by number, after its `u`. Characters outside the first plane take two
escapes, and half of such a pair does not stand alone. -/
def readUnicodeEscape (bytes : List UInt8) : Except Fault (Char × List UInt8) := do
  let (first, rest) ← readHex4 bytes
  if 0xDC00 ≤ first ∧ first ≤ 0xDFFF then .error .malformed
  else if first < 0xD800 ∨ 0xDBFF < first then .ok (Char.ofNat first, rest)
  else
    match rest with
    | [] => .error .ended
    | [backslash] => if backslash = byteOf '\\' then .error .ended else .error .malformed
    | backslash :: letter :: rest =>
      if backslash ≠ byteOf '\\' ∨ letter ≠ byteOf 'u' then .error .malformed
      else do
        let (second, rest) ← readHex4 rest
        if second < 0xDC00 ∨ 0xDFFF < second then .error .malformed
        else .ok (Char.ofNat ((first - 0xD800) * 0x400 + (second - 0xDC00) + 0x10000), rest)

/-- The character of an escape with one letter. -/
def shortEscape? (byte : UInt8) : Option Char :=
  if byte = byteOf '"' then some '"'
  else if byte = byteOf '\\' then some '\\'
  else if byte = byteOf '/' then some '/'
  else if byte = byteOf 'b' then some '\x08'
  else if byte = byteOf 'f' then some '\x0c'
  else if byte = byteOf 'n' then some '\n'
  else if byte = byteOf 'r' then some '\r'
  else if byte = byteOf 't' then some '\t'
  else none

/-- The character of an escape, after its backslash. -/
def readEscape : List UInt8 → Except Fault (Char × List UInt8)
  | [] => .error .ended
  | byte :: rest =>
    match shortEscape? byte with
    | some c => .ok (c, rest)
    | none => if byte = byteOf 'u' then readUnicodeEscape rest else .error .malformed

/-- The bytes of a text up to its closing quote, with escapes replaced, within a budget. -/
def readQuotedBytes : List UInt8 → List UInt8 → Except Fault (List UInt8 × List UInt8)
  | [], _ => .error .ended
  | _ :: _, [] => .error .ended
  | _ :: budget, byte :: rest =>
    if byte = byteOf '"' then .ok ([], rest)
    else if byte = byteOf '\\' then do
      let (c, rest) ← readEscape rest
      let (content, rest) ← readQuotedBytes budget rest
      .ok (String.utf8EncodeChar c ++ content, rest)
    else if byte < 0x20 then .error .malformed
    else do
      let (content, rest) ← readQuotedBytes budget rest
      .ok (byte :: content, rest)

/-- A text after its opening quote. Its bytes are checked to be UTF-8 once it is complete. -/
def readQuoted (bytes : List UInt8) : Except Fault (String × List UInt8) := do
  let (content, rest) ← readQuotedBytes bytes bytes
  match Utf8.decode? content with
  | some text => .ok (text, rest)
  | none => .error .malformed

/-- The bytes after a text that is passed over, within a budget: escapes are checked in form only,
and other bytes from a blank upwards count as text. -/
def skipQuotedWithin : List UInt8 → List UInt8 → Except Fault (List UInt8)
  | [], _ => .error .ended
  | _ :: _, [] => .error .ended
  | _ :: budget, byte :: rest =>
    if byte = byteOf '"' then .ok rest
    else if byte = byteOf '\\' then
      match rest with
      | [] => .error .ended
      | letter :: rest =>
        if (shortEscape? letter).isSome then skipQuotedWithin budget rest
        else if letter = byteOf 'u' then do
          let (_, rest) ← readHex4 rest
          skipQuotedWithin budget rest
        else .error .malformed
    else if byte < 0x20 then .error .malformed
    else skipQuotedWithin budget rest

/-- The bytes after a text that is passed over. -/
def skipQuoted (bytes : List UInt8) : Except Fault (List UInt8) :=
  skipQuotedWithin bytes bytes

/-- The form of a byte of a text between quotes. -/
def escapeByte (byte : UInt8) : List UInt8 :=
  if byte = byteOf '"' ∨ byte = byteOf '\\' then [byteOf '\\', byte]
  else if 0x20 ≤ byte then [byte]
  else if byte = 0x08 then [byteOf '\\', byteOf 'b']
  else if byte = 0x0c then [byteOf '\\', byteOf 'f']
  else if byte = 0x0a then [byteOf '\\', byteOf 'n']
  else if byte = 0x0d then [byteOf '\\', byteOf 'r']
  else if byte = 0x09 then [byteOf '\\', byteOf 't']
  else
    [byteOf '\\', byteOf 'u', byteOf '0', byteOf '0', hexByte (byte.toNat / 16),
      hexByte (byte.toNat % 16)]

/-- A text between quotes. Quotes, backslashes and control characters are escaped. -/
def quoted (text : String) : List UInt8 :=
  byteOf '"' :: (Utf8.encode text).flatMap escapeByte ++ [byteOf '"']

end WindowJoin.Json

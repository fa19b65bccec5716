import WindowJoin.Text.Unprintable

/-!
# Texts quoted in messages

A name that is part of a message stands between double quotes, so that blanks and control characters
in it show.
-/

namespace WindowJoin

/-- The hexadecimal digits of a number in lower case, at least `width` of them. -/
def hexDigits (width number : Nat) : List Char :=
  let digits := Nat.toDigits 16 number
  List.replicate (width - digits.length) '0' ++ digits

/-- The form of a character between quotes. -/
def quotedChar (c : Char) : List Char :=
  if c = '\x00' then ['\\', '0']
  else if c = '\t' then ['\\', 't']
  else if c = '\r' then ['\\', 'r']
  else if c = '\n' then ['\\', 'n']
  else if c = '\\' ∨ c = '"' then ['\\', c]
  else if isUnprintable c then ['\\', 'u', '\x7b'] ++ hexDigits 1 c.toNat ++ ['\x7d']
  else [c]

/-- A text between double quotes. Quotes and backslashes in it are escaped, and characters that do
not show are given by number. -/
def quotedText (text : String) : String :=
  String.ofList ('"' :: text.toList.flatMap quotedChar ++ ['"'])

end WindowJoin

/-!
# Text as bytes

Identifiers are text in memory and UTF-8 on the wire and in files. `encode` writes the bytes of a
text and `decode?` reads them back, refusing bytes that are not UTF-8. Main statements:
`decode_encode` says that nothing is lost, and `encode_of_decode` that each text has one form.
-/

namespace WindowJoin.Utf8

/-- The UTF-8 bytes of a text. -/
def encode (text : String) : List UInt8 :=
  text.toUTF8.data.toList

/-- The text with these UTF-8 bytes, if they are well formed. -/
def decode? (bytes : List UInt8) : Option String :=
  String.fromUTF8? ⟨bytes.toArray⟩

/-- Reading the bytes of a text gives the text. -/
theorem decode_encode (text : String) : decode? (encode text) = some text := by
  rw [decode?, encode, String.fromUTF8?, Array.toArray_toList]
  exact dif_pos text.isValidUTF8

/-- Bytes that can be read are the bytes of the text read. -/
theorem encode_of_decode {bytes : List UInt8} {text : String} (h : decode? bytes = some text) :
    encode text = bytes := by
  simp only [decode?, String.fromUTF8?, Option.dite_none_right_eq_some, Option.some.injEq] at h
  obtain ⟨valid, rfl⟩ := h
  rfl

end WindowJoin.Utf8

import Mathlib.Data.Fintype.Basic
import Mathlib.Tactic.FinCases
import WindowJoin.Json.Text

/-!
# Quoted text reads back

`read_quoted_quoted` says that a text between quotes is read back whatever follows it. It rests on
`read_quoted_bytes_escaped`: each byte is written either as itself or as an escape that stands for
it, and uses up the budget of one step.
-/

namespace WindowJoin.Json

/-- A byte that is not written as itself is written as an escape for a character that has this one
byte. -/
theorem escape_byte_cases (byte : UInt8) :
    (escapeByte byte = [byte] ∧ byte ≠ byteOf '"' ∧ byte ≠ byteOf '\\' ∧ ¬ byte < 0x20) ∨
      ∃ letters c, escapeByte byte = byteOf '\\' :: letters ∧ String.utf8EncodeChar c = [byte] ∧
        ∀ rest, readEscape (letters ++ rest) = .ok (c, rest) := by
  by_cases hquote : byte = byteOf '"'
  · subst hquote
    exact .inr ⟨[byteOf '"'], '"', rfl, by decide, fun rest => rfl⟩
  by_cases hbackslash : byte = byteOf '\\'
  · subst hbackslash
    exact .inr ⟨[byteOf '\\'], '\\', rfl, by decide, fun rest => rfl⟩
  by_cases hplain : 0x20 ≤ byte
  · refine .inl ⟨?_, hquote, hbackslash, UInt8.not_lt.mpr hplain⟩
    rw [escapeByte, if_neg (not_or.mpr ⟨hquote, hbackslash⟩), if_pos hplain]
  · -- What is left are the control characters, 32 bytes in all.
    have hcontrol : byte.toNat < 32 := by
      rw [UInt8.le_iff_toNat_le] at hplain
      simpa using hplain
    right
    have hescape : ∀ code : Fin 32, ∃ letters c,
        escapeByte (UInt8.ofNat code) = byteOf '\\' :: letters ∧
          String.utf8EncodeChar c = [UInt8.ofNat code] ∧
          ∀ rest, readEscape (letters ++ rest) = .ok (c, rest) := by
      intro code
      refine ⟨(escapeByte (UInt8.ofNat code)).tail, Char.ofNat code, ?_, ?_, fun rest => ?_⟩ <;>
        fin_cases code <;> rfl
    have hbyte := hescape ⟨byte.toNat, hcontrol⟩
    rwa [UInt8.ofNat_toNat] at hbyte

/-- Escaped bytes up to a closing quote are read back within a budget of a step for each byte and one
for the quote. -/
theorem read_quoted_bytes_escaped (content rest budget : List UInt8)
    (hbudget : content.length < budget.length) :
    readQuotedBytes budget (content.flatMap escapeByte ++ byteOf '"' :: rest) =
      .ok (content, rest) := by
  induction content generalizing budget with
  | nil =>
      cases budget with
      | nil => cases hbudget
      | cons => rfl
  | cons byte content ih =>
      cases budget with
      | nil => cases hbudget
      | cons unit budget =>
          have hrest := ih budget (Nat.lt_of_succ_lt_succ hbudget)
          rw [List.flatMap_cons, List.append_assoc]
          rcases escape_byte_cases byte with ⟨hself, hquote, hbackslash, hplain⟩ | hescape
          · -- The byte stands for itself.
            rw [hself, List.singleton_append, readQuotedBytes, if_neg hquote, if_neg hbackslash,
              if_neg hplain, hrest]
            rfl
          · obtain ⟨letters, c, hletters, hchar, hread⟩ := hescape
            rw [hletters, List.cons_append, readQuotedBytes, if_neg (by decide), if_pos rfl, hread]
            simp only [bind, Except.bind]
            rw [hrest, hchar]
            rfl

/-- An escaped text is at least as long as the text. -/
theorem length_le_escaped (content : List UInt8) :
    content.length ≤ (content.flatMap escapeByte).length := by
  induction content with
  | nil => exact Nat.le_refl _
  | cons byte content ih =>
      have hbyte : 0 < (escapeByte byte).length := by
        rcases escape_byte_cases byte with ⟨hself, -⟩ | ⟨letters, -, hletters, -⟩
        · simp [hself]
        · simp [hletters]
      rw [List.flatMap_cons, List.length_append, List.length_cons]
      omega

/-- A quoted text without its opening quote is read back, and what follows it is left. -/
theorem read_quoted_quoted (text : String) (rest : List UInt8) :
    readQuoted ((Utf8.encode text).flatMap escapeByte ++ byteOf '"' :: rest) =
      .ok (text, rest) := by
  have hbytes := read_quoted_bytes_escaped (Utf8.encode text) rest
    ((Utf8.encode text).flatMap escapeByte ++ byteOf '"' :: rest) (by
      have := length_le_escaped (Utf8.encode text)
      rw [List.length_append, List.length_cons]
      omega)
  rw [readQuoted, hbytes]
  simp only [bind, Except.bind]
  rw [Utf8.decode_encode]

end WindowJoin.Json

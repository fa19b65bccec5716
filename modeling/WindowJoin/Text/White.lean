/-!
# White space

The characters with the Unicode property White_Space, and skipping them.
-/

namespace WindowJoin

/-- The character separates words: tabs, line ends, blanks of any width. -/
def isWhite (c : Char) : Bool :=
  ('\t' ≤ c && c ≤ '\r') || c = ' ' || c = '\u0085' || c = '\u00a0' || c = '\u1680'
    || ('\u2000' ≤ c && c ≤ '\u200a') || c = '\u2028' || c = '\u2029' || c = '\u202f'
    || c = '\u205f' || c = '\u3000'

/-- The text without the white space that it starts with. -/
def skipWhite (text : List Char) : List Char :=
  text.dropWhile isWhite

/-- Text that starts with no white space is left alone. -/
theorem skip_white_cons_of_not {c : Char} {rest : List Char} (h : isWhite c = false) :
    skipWhite (c :: rest) = c :: rest := by
  simp [skipWhite, List.dropWhile, h]

/-- Every character that counts as white space among the ASCII characters does so here. -/
theorem is_white_of_is_whitespace {c : Char} (h : c.isWhitespace = true) : isWhite c = true := by
  simp only [Char.isWhitespace, Bool.or_eq_true, decide_eq_true_eq] at h
  rcases h with ((rfl | rfl) | rfl) | rfl <;> decide

end WindowJoin

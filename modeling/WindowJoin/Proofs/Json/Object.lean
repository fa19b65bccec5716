import WindowJoin.Proofs.Json.Number
import WindowJoin.Proofs.Json.Text

/-!
# Objects read back

An object is read entry by entry, and each entry takes a state to the next. `EntriesRead` says that
the entries do so one after the other, whatever follows each of them, as long as it delimits a value.
Then the whole object is read back (`read_object_object`), and so is a document that holds a map
(`read_document_entries`).
-/

namespace WindowJoin.Json

/-- A quoted text is read back where a text is wanted. -/
theorem read_text_quoted (text : String) (rest : List UInt8) :
    readText (quoted text ++ rest) = .ok (text, rest) := by
  rw [← read_quoted_quoted text rest, quoted]
  simp only [List.cons_append, List.append_assoc]
  rfl

/-- The entries are read one after the other and take a state to another. -/
inductive EntriesRead {σ : Type}
    (entry : σ → String → List UInt8 → Except Fault (σ × List UInt8)) :
    σ → List (String × List UInt8) → σ → Prop where
  | nil (state : σ) : EntriesRead entry state [] state
  | cons {state next final : σ} {key : String} {value : List UInt8}
      {entries : List (String × List UInt8)} :
      (∀ rest, Delimited rest →
        entry state key (byteOf ':' :: value ++ rest) = .ok (next, rest)) →
      EntriesRead entry next entries final →
      EntriesRead entry state ((key, value) :: entries) final

/-- An entry of an object as it is written. -/
def entryText (entry : String × List UInt8) : List UInt8 :=
  quoted entry.1 ++ byteOf ':' :: entry.2

/-- Parts after the first one have a comma in front of them. -/
theorem separated_cons (part : List UInt8) (parts : List (List UInt8)) :
    separated (part :: parts) = part ++ parts.flatMap (byteOf ',' :: ·) := by
  induction parts generalizing part with
  | nil => simp [separated]
  | cons other parts ih =>
      rw [separated, List.intercalate_cons_cons, ← separated, ih, List.flatMap_cons]
      simp

variable {σ : Type} {entry : σ → String → List UInt8 → Except Fault (σ × List UInt8)}

/-- An entry whose opening quote has been read is read, and then the entries behind it. -/
theorem read_entry {budget : List UInt8} {state next : σ} {key : String} {value rest : List UInt8}
    {result : Except Fault (σ × List UInt8)}
    (hentry : entry state key (byteOf ':' :: value ++ rest) = .ok (next, rest))
    (hrest : readEntries entry budget false next rest = result) :
    (do
      let (key, rest) ← readQuoted ((Utf8.encode key).flatMap escapeByte ++
        byteOf '"' :: (byteOf ':' :: value ++ rest))
      let (state, rest) ← entry state key rest
      readEntries entry budget false state rest) = result := by
  rw [read_quoted_quoted]
  show (do
    let (state, rest) ← entry state key (byteOf ':' :: value ++ rest)
    readEntries entry budget false state rest) = result
  rw [hentry]
  exact hrest

/-- What follows an entry delimits its value. -/
theorem delimited_entries (entries : List (String × List UInt8)) (rest : List UInt8) :
    Delimited ((entries.map entryText).flatMap (byteOf ',' :: ·) ++ byteOf '\x7d' :: rest) := by
  cases entries with
  | nil => exact ⟨_, _, rfl, .inr (.inl rfl)⟩
  | cons => exact ⟨_, _, rfl, .inl rfl⟩

/-- The entries behind the first one are read up to the closing brace. -/
theorem read_entries_later {state final : σ} {entries : List (String × List UInt8)}
    (h : EntriesRead entry state entries final) (rest : List UInt8) {budget : List UInt8}
    (hbudget : entries.length < budget.length) :
    readEntries entry budget false state
        ((entries.map entryText).flatMap (byteOf ',' :: ·) ++ byteOf '\x7d' :: rest) =
      .ok (final, rest) := by
  induction h generalizing budget with
  | nil =>
      cases budget with
      | nil => cases hbudget
      | cons => rfl
  | @cons state next final key value entries hentry _ ih =>
      cases budget with
      | nil => cases hbudget
      | cons unit budget =>
          have hlater := ih (Nat.lt_of_succ_lt_succ hbudget)
          have hread := read_entry (hentry _ (delimited_entries entries rest)) hlater
          simp only [List.map_cons, List.flatMap_cons, entryText, quoted, List.cons_append,
            List.append_assoc] at hread ⊢
          exact hread

/-- The entries of an object are read up to the closing brace. -/
theorem read_entries_separated {start final : σ} {entries : List (String × List UInt8)}
    (h : EntriesRead entry start entries final) (rest : List UInt8) {budget : List UInt8}
    (hbudget : entries.length < budget.length) :
    readEntries entry budget true start
        (separated (entries.map entryText) ++ byteOf '\x7d' :: rest) = .ok (final, rest) := by
  cases budget with
  | nil => cases hbudget
  | cons unit budget =>
      cases h with
      | nil => rfl
      | @cons _ next _ key value entries hentry hlater =>
          -- The first entry has no comma in front of it, the others have.
          have hread := read_entry (hentry _ (delimited_entries entries rest))
            (read_entries_later hlater rest (Nat.lt_of_succ_lt_succ hbudget))
          simp only [List.map_cons, separated_cons, entryText, quoted, List.cons_append,
            List.append_assoc] at hread ⊢
          exact hread

/-- An object takes up more bytes than it has entries. -/
theorem length_le_separated (entries : List (String × List UInt8)) :
    entries.length ≤ (separated (entries.map entryText)).length := by
  cases entries with
  | nil => exact Nat.zero_le _
  | cons first entries =>
      have hlater : entries.length ≤
          ((entries.map entryText).flatMap (byteOf ',' :: ·)).length := by
        induction entries with
        | nil => exact Nat.le_refl _
        | cons entry entries ih =>
            simp only [List.map_cons, List.flatMap_cons, List.length_append, List.length_cons]
            omega
      rw [List.map_cons, separated_cons, List.length_append, List.length_cons, entryText, quoted]
      simp only [List.cons_append, List.length_cons]
      omega

/-- An object is read back entry by entry, and what follows it is left. -/
theorem read_object_object {start final : σ} {entries : List (String × List UInt8)}
    (h : EntriesRead entry start entries final) (rest : List UInt8) :
    readObject entry start (object entries ++ rest) = .ok (final, rest) := by
  have hbudget : entries.length <
      (separated (entries.map entryText) ++ byteOf '\x7d' :: rest).length := by
    have := length_le_separated entries
    rw [List.length_append, List.length_cons]
    omega
  have hread := read_entries_separated h rest hbudget
  have hobject : object entries ++ rest =
      byteOf '\x7b' :: (separated (entries.map entryText) ++ byteOf '\x7d' :: rest) := by
    simp only [object, List.cons_append, List.append_assoc]
    rfl
  rw [hobject, readObject, skip_blanks_cons (by decide)]
  exact hread

/-- A document that holds a map is read back as the entries of the map, if their values are. -/
theorem read_document_entries {α : Type} {read : List UInt8 → Except Fault (α × List UInt8)}
    (write : α → List UInt8)
    (h : ∀ value rest, Delimited rest → read (write value ++ rest) = .ok (value, rest))
    (entries : List (String × α)) :
    readDocument (readEntriesOf read)
      (object (entries.map fun entry => (entry.1, write entry.2))) = .ok entries := by
  -- The state of the reader is the list of the entries read so far, the last one first.
  have hentries (state : List (String × α)) :
      EntriesRead (fun entries key bytes => do
        let bytes ← afterColon bytes
        let (value, rest) ← read bytes
        .ok ((key, value) :: entries, rest)) state
        (entries.map fun entry => (entry.1, write entry.2)) (entries.reverse ++ state) := by
    induction entries generalizing state with
    | nil => exact .nil state
    | cons entry entries ih =>
        rw [List.reverse_cons, List.append_assoc, List.singleton_append]
        refine .cons ?_ (ih (entry :: state))
        intro rest hrest
        show (do
          let (value, rest) ← read (write entry.2 ++ rest)
          Except.ok ((entry.1, value) :: state, rest)) = _
        rw [h _ _ hrest]
        rfl
  have hread := read_object_object (hentries []) []
  rw [List.append_nil] at hread
  rw [readDocument, readEntriesOf, hread]
  show Except.ok (entries.reverse ++ []).reverse = _
  rw [List.append_nil, List.reverse_reverse]

end WindowJoin.Json

import WindowJoin.Checkpoint
import WindowJoin.Proofs.Json.Object
import WindowJoin.Proofs.Time.Reading

/-!
# Checkpoints read back

A map is the map of its own entries, since they ascend, so a checkpoint is read back from its document
if the values are. `billing_of_json_to_json` states this for the billing checkpoint, and
`join_of_json_to_json` for the join checkpoint, whose values are objects with fields that may be null.
-/

namespace WindowJoin

namespace OrderedMap

variable {α : Type}

/-- A key behind all others is inserted at the end. -/
theorem insert_entry_last {entries : List (String × α)} {key : String} (value : α)
    (h : ∀ entry ∈ entries, entry.1 < key) :
    insertEntry key value entries = entries ++ [(key, value)] := by
  induction entries with
  | nil => rfl
  | cons head rest ih =>
      have hlt : head.1 < key := h head List.mem_cons_self
      have hne : key ≠ head.1 := by
        rintro rfl
        exact String.lt_irrefl _ hlt
      have hrest := ih fun entry hentry => h entry (List.mem_cons_of_mem _ hentry)
      simp only [insertEntry, String.lt_asymm hlt, if_false, hne, hrest, List.cons_append]

/-- Ascending entries that are inserted in turn stand in the map in that order. -/
theorem foldl_insert_entries (entries : List (String × α)) (map : OrderedMap α)
    (h : (map.entries ++ entries).Pairwise fun first second => first.1 < second.1) :
    (entries.foldl (fun map entry => map.insert entry.1 entry.2) map).entries =
      map.entries ++ entries := by
  induction entries generalizing map with
  | nil => exact (List.append_nil _).symm
  | cons entry rest ih =>
      have hlast : (map.insert entry.1 entry.2).entries = map.entries ++ [entry] :=
        insert_entry_last entry.2 fun other hother =>
          (List.pairwise_append.mp h).2.2 other hother entry List.mem_cons_self
      -- What is still to be inserted lies behind the entries of the map that there is so far.
      have hsplit : map.entries ++ entry :: rest =
          (map.insert entry.1 entry.2).entries ++ rest := by
        rw [hlast, List.append_assoc, List.singleton_append]
      rw [hsplit] at h ⊢
      exact ih (map.insert entry.1 entry.2) h

/-- A map is made of its own entries. -/
theorem of_list_entries (map : OrderedMap α) : ofList map.entries = map := by
  have hentries : (ofList map.entries).entries = map.entries :=
    foldl_insert_entries map.entries empty map.sorted
  cases hlist : ofList map.entries
  cases map
  simp_all

end OrderedMap

namespace Json

/-- A signed number of 64 bits is read back. -/
theorem read_int64_decimal (value : Int64) {rest : List UInt8} (hrest : Delimited rest) :
    readInt64 (decimal value.toInt ++ rest) = .ok (value, rest) := by
  have hlow := value.minValue_le_toInt
  have hhigh := value.toInt_le
  have hmin : Int64.minValue.toInt = -0x8000000000000000 := rfl
  have hmax : Int64.maxValue.toInt = 0x7FFFFFFFFFFFFFFF := rfl
  have hread := read_integer_decimal hlow hhigh (by omega)
    (by simp only [significandLimit]; omega) hrest
  rw [readInt64, hread]
  show Except.ok (Int64.ofInt value.toInt, rest) = _
  rw [Int64.ofInt_toInt]

/-- A number starts with a digit or a sign. -/
theorem decimal_cons (value : Int) :
    ∃ byte rest, decimal value = byte :: rest ∧ isBlank byte = false ∧ byte ≠ byteOf 'n' := by
  rw [decimal]
  split
  next => exact ⟨_, _, rfl, by decide, by decide⟩
  next =>
    obtain ⟨c, chars, hchars, hfirst⟩ := to_digits_cons value.natAbs
    have hdigit := is_digit_byte_of hfirst
    refine ⟨_, _, congrArg _ hchars, (digit_plain hdigit).1, fun hnull => ?_⟩
    rw [hnull] at hdigit
    exact absurd hdigit (by decide)

/-- An instant starts with a quote. -/
theorem instant_cons (time : Instant) :
    ∃ byte rest, instant time = byte :: rest ∧ isBlank byte = false ∧ byte ≠ byteOf 'n' :=
  ⟨_, _, rfl, by decide, by decide⟩

/-- An instant is read back from its text. -/
theorem read_instant_instant (time : Instant) (rest : List UInt8) :
    readInstant (instant time ++ rest) = .ok (time, rest) := by
  have htext : readText (instant time ++ rest) = .ok (time.render .document, rest) :=
    read_text_quoted (time.render .document) rest
  rw [readInstant, htext]
  simp only [bind, Except.bind, Instant.read_render]

/-- A value that may be null is read back if the value is and does not look like the null. -/
theorem read_optional_optional {α : Type} {read : List UInt8 → Except Fault (α × List UInt8)}
    {write : α → List UInt8}
    (hstart : ∀ value, ∃ byte rest,
      write value = byte :: rest ∧ isBlank byte = false ∧ byte ≠ byteOf 'n')
    {value : Option α} {rest : List UInt8}
    (hread : ∀ present ∈ value, read (write present ++ rest) = .ok (present, rest)) :
    readOptional read (optional write value ++ rest) = .ok (value, rest) := by
  cases value with
  | none => rfl
  | some value =>
      obtain ⟨byte, later, hwrite, hblank, hnull⟩ := hstart value
      have hvalue := hread value rfl
      rw [optional]
      rw [hwrite, List.cons_append] at hvalue ⊢
      simp only [readOptional, skip_blanks_cons hblank, hnull, if_false, hvalue]
      rfl

end Json

/-- A billing checkpoint is read back from its document. -/
theorem billing_of_json_to_json (checkpoint : BillingCheckpoint) :
    BillingCheckpoint.ofJson checkpoint.toJson = .ok checkpoint := by
  have hentries := Json.read_document_entries (fun number : Int64 => Json.decimal number.toInt)
    (fun value rest hrest => Json.read_int64_decimal value hrest) checkpoint.entries
  rw [BillingCheckpoint.ofJson, BillingCheckpoint.toJson, hentries]
  exact congrArg Except.ok checkpoint.of_list_entries

/-- The progress of a partition is read back. -/
theorem Progress.read_write (progress : Progress) (rest : List UInt8) :
    read (progress.write ++ rest) = .ok (progress, rest) := by
  let offset := Json.optional (fun offset => Json.decimal offset.toInt) progress.offset
  let time := Json.optional Json.instant progress.enqueuedTime
  have hoffset (bytes : List UInt8) (hbytes : Json.Delimited bytes) :
      readEntry ⟨none, none⟩ "Offset" (Json.byteOf ':' :: offset ++ bytes) =
        .ok (⟨some progress.offset, none⟩, bytes) := by
    show (Json.readOptional Json.readInt64 (offset ++ bytes)).bind
      (fun read => .ok ((⟨some read.1, none⟩ : Fields), read.2)) = _
    rw [Json.read_optional_optional (fun offset => Json.decimal_cons offset.toInt)
      fun offset _ => Json.read_int64_decimal offset hbytes]
    rfl
  have htime (bytes : List UInt8) (_ : Json.Delimited bytes) :
      readEntry ⟨some progress.offset, none⟩ "EnqueuedTimeUtc" (Json.byteOf ':' :: time ++ bytes) =
        .ok (⟨some progress.offset, some progress.enqueuedTime⟩, bytes) := by
    show (Json.readOptional Json.readInstant (time ++ bytes)).bind
      (fun read => .ok ((⟨some progress.offset, some read.1⟩ : Fields), read.2)) = _
    rw [Json.read_optional_optional Json.instant_cons
      fun time _ => Json.read_instant_instant time bytes]
    rfl
  have hobject := Json.read_object_object (.cons hoffset (.cons htime (.nil _))) rest
  show (Json.readObject readEntry ⟨none, none⟩ (progress.write ++ rest)).bind
    (fun read => .ok ((⟨read.1.offset.join, read.1.enqueuedTime.join⟩ : Progress), read.2)) = _
  rw [write, hobject]
  rfl

/-- A join checkpoint is read back from its document. -/
theorem join_of_json_to_json (checkpoint : JoinCheckpoint) :
    JoinCheckpoint.ofJson checkpoint.toJson = .ok checkpoint := by
  have hentries := Json.read_document_entries Progress.write
    (fun progress rest _ => progress.read_write rest) checkpoint.entries
  rw [JoinCheckpoint.ofJson, JoinCheckpoint.toJson, hentries]
  exact congrArg Except.ok checkpoint.of_list_entries

end WindowJoin

/-!
# Maps in key order

A map from texts to values that lists its entries in the order of the keys' bytes, each key once.
Because the entries are sorted, two maps that answer every `get?` alike are equal (`ext_get`);
`get_insert` and `get_erase` say what an update changes.
-/

namespace WindowJoin

/-- Entries whose keys ascend. -/
structure OrderedMap (α : Type) where
  entries : List (String × α)
  sorted : entries.Pairwise fun first second => first.1 < second.1

namespace OrderedMap

variable {α : Type}

instance [DecidableEq α] : DecidableEq (OrderedMap α) := fun first second =>
  decidable_of_iff (first.entries = second.entries) (by cases first; cases second; simp)

/-- The map without entries. -/
def empty : OrderedMap α :=
  ⟨[], .nil⟩

instance : Inhabited (OrderedMap α) := ⟨empty⟩

/-- Whether the map has no entries. -/
def isEmpty (map : OrderedMap α) : Bool :=
  map.entries.isEmpty

/-- The value of the first entry with a key. -/
def lookup (key : String) : List (String × α) → Option α
  | [] => none
  | (other, value) :: rest => if key = other then some value else lookup key rest

/-- The value at a key. -/
def get? (map : OrderedMap α) (key : String) : Option α :=
  lookup key map.entries

/-- The entries with a key set to a value, in its place among the others. -/
def insertEntry (key : String) (value : α) : List (String × α) → List (String × α)
  | [] => [(key, value)]
  | (other, old) :: rest =>
    if key < other then (key, value) :: (other, old) :: rest
    else if key = other then (key, value) :: rest
    else (other, old) :: insertEntry key value rest

/-- Every key after an insertion is the inserted one or was there before. -/
theorem mem_insert_entry {key : String} {value : α} {entries : List (String × α)}
    {entry : String × α} (h : entry ∈ insertEntry key value entries) :
    entry = (key, value) ∨ entry ∈ entries := by
  induction entries with
  | nil => simpa [insertEntry] using h
  | cons head rest ih =>
    simp only [insertEntry] at h
    split at h
    · simpa using h
    · split at h
      · rcases List.mem_cons.1 h with h | h
        · exact .inl h
        · exact .inr (List.mem_cons_of_mem _ h)
      · rcases List.mem_cons.1 h with h | h
        · exact .inr (h ▸ List.mem_cons_self ..)
        · exact (ih h).imp id (List.mem_cons_of_mem _)

/-- Insertion keeps the keys ascending. -/
theorem pairwise_insert_entry {key : String} {value : α} {entries : List (String × α)}
    (h : entries.Pairwise fun first second => first.1 < second.1) :
    (insertEntry key value entries).Pairwise fun first second => first.1 < second.1 := by
  induction entries with
  | nil => simp [insertEntry]
  | cons head rest ih =>
    obtain ⟨hhead, hrest⟩ := List.pairwise_cons.1 h
    simp only [insertEntry]
    split
    next hlt =>
      refine List.pairwise_cons.2 ⟨fun entry hentry => ?_, h⟩
      rcases List.mem_cons.1 hentry with rfl | hentry
      · exact hlt
      · exact String.lt_trans hlt (hhead entry hentry)
    next hlt =>
      split
      next heq =>
        subst heq
        exact List.pairwise_cons.2 ⟨hhead, hrest⟩
      next hne =>
        refine List.pairwise_cons.2 ⟨fun entry hentry => ?_, ih hrest⟩
        rcases mem_insert_entry hentry with rfl | hentry
        · refine String.not_le.1 fun hle => hne (String.le_antisymm hle ?_)
          exact String.not_lt.1 hlt
        · exact hhead entry hentry

/-- The map with a key set to a value. -/
def insert (map : OrderedMap α) (key : String) (value : α) : OrderedMap α :=
  ⟨insertEntry key value map.entries, pairwise_insert_entry map.sorted⟩

/-- The map with these entries; of two entries with one key the later counts. -/
def ofList (entries : List (String × α)) : OrderedMap α :=
  entries.foldl (fun map entry => map.insert entry.1 entry.2) empty

/-- An insertion sets its key and leaves the other keys alone. -/
theorem get_insert (map : OrderedMap α) (key other : String) (value : α) :
    (map.insert key value).get? other = if other = key then some value else map.get? other := by
  obtain ⟨entries, sorted⟩ := map
  simp only [get?, insert]
  induction entries with
  | nil => by_cases h : other = key <;> simp [insertEntry, lookup, h]
  | cons head rest ih =>
    obtain ⟨hhead, hrest⟩ := List.pairwise_cons.1 sorted
    obtain ⟨first, old⟩ := head
    simp only [insertEntry]
    split
    next hlt => by_cases h : other = key <;> simp [lookup, h]
    next hlt =>
      split
      next heq =>
        subst heq
        by_cases h : other = key <;> simp [lookup, h]
      next hne =>
        by_cases h : other = first
        · subst h
          simp [lookup, Ne.symm hne]
        · simp [lookup, h, ih hrest]

/-- The entries without those of a key. -/
def eraseEntry (key : String) : List (String × α) → List (String × α)
  | [] => []
  | (other, value) :: rest =>
    if key = other then eraseEntry key rest else (other, value) :: eraseEntry key rest

/-- What is left after an erasure was there before. -/
theorem erase_entry_sublist (key : String) (entries : List (String × α)) :
    (eraseEntry key entries).Sublist entries := by
  induction entries with
  | nil => exact .slnil
  | cons head rest ih =>
    simp only [eraseEntry]
    split
    · exact ih.cons _
    · exact ih.cons_cons _

/-- The map without a key. -/
def erase (map : OrderedMap α) (key : String) : OrderedMap α :=
  ⟨eraseEntry key map.entries, map.sorted.sublist (erase_entry_sublist key map.entries)⟩

/-- An erasure takes its key away and leaves the other keys alone. -/
theorem get_erase (map : OrderedMap α) (key other : String) :
    (map.erase key).get? other = if other = key then none else map.get? other := by
  obtain ⟨entries, sorted⟩ := map
  simp only [get?, erase]
  clear sorted
  induction entries with
  | nil => simp [eraseEntry, lookup]
  | cons head rest ih =>
    simp only [eraseEntry]
    split
    next h =>
      subst h
      rw [ih]
      by_cases hother : other = head.1 <;> simp [lookup, hother]
    next h =>
      by_cases hother : other = head.1
      · subst hother
        simp [lookup, Ne.symm h]
      · simp [lookup, hother, ih]

/-- The map with a function applied to every value. -/
def map {β : Type} (change : α → β) (source : OrderedMap α) : OrderedMap β :=
  ⟨source.entries.map fun entry => (entry.1, change entry.2),
    List.pairwise_map.2 source.sorted⟩

/-- A key that precedes every key of the entries has no value in them. -/
theorem lookup_eq_none_of_lt {entries : List (String × α)} {key : String}
    (h : ∀ entry ∈ entries, key < entry.1) : lookup key entries = none := by
  induction entries with
  | nil => rfl
  | cons head rest ih =>
    have hne : key ≠ head.1 := by
      rintro rfl
      exact String.lt_irrefl _ (h head (List.mem_cons_self ..))
    simp only [lookup, hne, if_false]
    exact ih fun entry hentry => h entry (List.mem_cons_of_mem _ hentry)

/-- Sorted entries that answer every lookup alike are the same entries. -/
theorem entries_eq_of_lookup_eq {first second : List (String × α)}
    (hfirst : first.Pairwise fun left right => left.1 < right.1)
    (hsecond : second.Pairwise fun left right => left.1 < right.1)
    (h : ∀ key, lookup key first = lookup key second) : first = second := by
  induction first generalizing second with
  | nil =>
    cases second with
    | nil => rfl
    | cons head rest => simpa [lookup] using h head.1
  | cons head rest ih =>
    cases second with
    | nil => simpa [lookup] using h head.1
    | cons head' rest' =>
      obtain ⟨hhead, hrest⟩ := List.pairwise_cons.1 hfirst
      obtain ⟨hhead', hrest'⟩ := List.pairwise_cons.1 hsecond
      have hkey : head.1 = head'.1 := by
        refine String.le_antisymm ?_ ?_ <;> refine String.not_lt.1 fun hlt => ?_
        · have hnone : lookup head'.1 (head :: rest) = none := lookup_eq_none_of_lt (by
            intro entry hentry
            rcases List.mem_cons.1 hentry with rfl | hentry
            · exact hlt
            · exact String.lt_trans hlt (hhead entry hentry))
          rw [h head'.1] at hnone
          simp [lookup] at hnone
        · have hnone : lookup head.1 (head' :: rest') = none := lookup_eq_none_of_lt (by
            intro entry hentry
            rcases List.mem_cons.1 hentry with rfl | hentry
            · exact hlt
            · exact String.lt_trans hlt (hhead' entry hentry))
          rw [← h head.1] at hnone
          simp [lookup] at hnone
      have hvalue : head.2 = head'.2 := by
        simpa [lookup, hkey] using h head.1
      have hhead_eq : head = head' := Prod.ext hkey hvalue
      subst hhead_eq
      congr 1
      refine ih hrest hrest' fun key => ?_
      by_cases hkey' : key = head.1
      · subst hkey'
        rw [lookup_eq_none_of_lt hhead, lookup_eq_none_of_lt hhead']
      · simpa [lookup, hkey'] using h key

/-- Maps that answer every `get?` alike are equal. -/
theorem ext_get {first second : OrderedMap α} (h : ∀ key, first.get? key = second.get? key) :
    first = second := by
  obtain ⟨entries, sorted⟩ := first
  obtain ⟨entries', sorted'⟩ := second
  obtain rfl := entries_eq_of_lookup_eq sorted sorted' h
  rfl

end OrderedMap

end WindowJoin

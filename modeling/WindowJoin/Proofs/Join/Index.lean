import WindowJoin.Join.Scan
import WindowJoin.Proofs.Join.Carried

/-!
# What the index of a join holds

`openPlaces id pending` lists the groups of the open batches that start with an interaction of the
event id, oldest batch first. A coherent join numbers its open batches without gaps, and its index
holds exactly these lists and no empty one. Read `Coherent.place_found` first: every place in a
coherent index lies behind the oldest open batch, leads to an open batch, and names one of its
groups. `Lists.add_messages` and `Lists.remove_groups` keep an index coherent when a batch comes in
and when the oldest one goes.
-/

namespace WindowJoin

open ScanJoin (groupMatches)

namespace PlaceIndex

/-- The places of the groups, numbered from `group`, that start with an interaction of an event
id. -/
def openGroups (eventId : String) (serial : Nat) : Nat → List (List Message) → List Place
  | _, [] => []
  | group, messages :: rest =>
    if groupMatches eventId messages then
      ⟨serial, group⟩ :: openGroups eventId serial (group + 1) rest
    else openGroups eventId serial (group + 1) rest

/-- The places of all open interactions with an event id, oldest first. -/
def openPlaces (eventId : String) (pending : List PendingBatch) : List Place :=
  pending.flatMap fun entry => openGroups eventId entry.serial 0 entry.batch.groups

/-- The index holds the places of the open interactions and no empty list. -/
structure Lists (index : PlaceIndex) (pending : List PendingBatch) : Prop where
  places_eq (eventId : String) : index.places eventId = openPlaces eventId pending
  no_empty (eventId : String) : index.get? eventId ≠ some []

/-! ## Places of one batch -/

/-- A listed place is in the batch and at or behind the first number, and its group matches. -/
theorem open_groups_mem {eventId : String} {serial first : Nat} {groups : List (List Message)}
    {place : Place} (h : place ∈ openGroups eventId serial first groups) :
    place.serial = serial ∧ first ≤ place.group ∧
      ∃ messages, groups[place.group - first]? = some messages ∧
        groupMatches eventId messages = true := by
  induction groups generalizing first with
  | nil => simp [openGroups] at h
  | cons messages rest ih =>
      have hlater : place ∈ openGroups eventId serial (first + 1) rest →
          place.serial = serial ∧ first ≤ place.group ∧
            ∃ found, (messages :: rest)[place.group - first]? = some found ∧
              groupMatches eventId found = true := by
        intro hrest
        obtain ⟨hserial, hle, found, hfound, hmatch⟩ := ih hrest
        refine ⟨hserial, by omega, found, ?_, hmatch⟩
        rw [show place.group - first = place.group - (first + 1) + 1 by omega]
        exact hfound
      simp only [openGroups] at h
      split at h
      next hmatch =>
        rcases List.mem_cons.mp h with rfl | hrest
        · exact ⟨rfl, Nat.le_refl _, messages, by simp, hmatch⟩
        · exact hlater hrest
      next => exact hlater h

/-- The first listed place is the first group that matches. -/
theorem open_groups_head (eventId : String) (serial first : Nat) (groups : List (List Message)) :
    (openGroups eventId serial first groups).head? =
      (groups.findIdx? (groupMatches eventId)).map fun group => ⟨serial, first + group⟩ := by
  induction groups generalizing first with
  | nil => rfl
  | cons messages rest ih =>
      simp only [openGroups, List.findIdx?_cons]
      split
      · rfl
      · -- Both count the group that was passed over.
        rw [ih, Option.map_map]
        congr 1
        funext group
        simp only [Function.comp_apply, Place.mk.injEq, true_and]
        omega

/-- Only the first messages of the groups count. -/
theorem open_groups_congr {eventId : String} {serial first : Nat}
    {groups others : List (List Message)} (h : groups.map List.head? = others.map List.head?) :
    openGroups eventId serial first groups = openGroups eventId serial first others := by
  induction groups generalizing others first with
  | nil => simp [List.map_eq_nil_iff.mp h.symm, openGroups]
  | cons messages rest ih =>
      cases others with
      | nil => simp at h
      | cons other others =>
          obtain ⟨hhead, hrest⟩ := List.cons.inj h
          have hmatch : groupMatches eventId messages = groupMatches eventId other := by
            cases messages <;> cases other <;> simp_all [groupMatches]
          simp only [openGroups, hmatch, ih hrest]

/-- A group that matches is not empty. -/
theorem ne_nil_of_matches {eventId : String} {messages : List Message}
    (h : groupMatches eventId messages = true) : messages ≠ [] := by
  rintro rfl
  simp [groupMatches] at h

/-! ## Adding and removing -/

/-- Adding a place changes the list of its event id only. -/
theorem places_add (index : PlaceIndex) (eventId other : String) (place : Place) :
    (index.add eventId place).places other =
      index.places other ++ if other = eventId then [place] else [] := by
  rw [places, add, OrderedMap.get_insert]
  split
  next h => rw [h]; rfl
  next => simp [places]

/-- Removing a place changes the list of its event id only. -/
theorem places_remove (index : PlaceIndex) (eventId other : String) (place : Place) :
    (index.remove eventId place).places other =
      if other = eventId then (index.places eventId).filter (· ≠ place)
      else index.places other := by
  unfold remove
  split
  next h =>
    rw [h, places, OrderedMap.get_erase]
    split <;> rfl
  next rest h =>
    rw [places, OrderedMap.get_insert]
    split <;> rfl

/-- Adding a place leaves no empty list behind. -/
theorem add_no_empty {index : PlaceIndex} (h : ∀ eventId, index.get? eventId ≠ some [])
    (eventId : String) (place : Place) (other : String) :
    (index.add eventId place).get? other ≠ some [] := by
  rw [add, OrderedMap.get_insert]
  split
  · simp
  · exact h other

/-- Removing a place leaves no empty list behind. -/
theorem remove_no_empty {index : PlaceIndex} (h : ∀ eventId, index.get? eventId ≠ some [])
    (eventId : String) (place : Place) (other : String) :
    (index.remove eventId place).get? other ≠ some [] := by
  unfold remove
  split
  next =>
    rw [OrderedMap.get_erase]
    split
    · simp
    · exact h other
  next rest hne =>
    rw [OrderedMap.get_insert]
    split
    · simpa using hne
    · exact h other

/-- The messages of a batch are added behind what an event id has, as the groups that they are
to open. -/
theorem places_add_messages (serial first : Nat) (messages : List Message) (index : PlaceIndex)
    (eventId : String) :
    (index.addMessages serial first messages).places eventId =
      index.places eventId ++ openGroups eventId serial first (messages.map ([·])) := by
  induction messages generalizing first index with
  | nil => simp [addMessages, openGroups]
  | cons message rest ih =>
      rw [addMessages, ih]
      by_cases hdictionary : message.isDictionary = true
      · simp [openGroups, groupMatches, hdictionary]
      · simp only [hdictionary, Bool.false_eq_true, if_false, places_add, List.map_cons, openGroups,
          groupMatches, Bool.not_false, Bool.true_and, decide_eq_true_eq]
        by_cases heq : eventId = message.eventId
        · simp [heq]
        · simp [heq, Ne.symm heq]

theorem add_messages_no_empty {index : PlaceIndex} (h : ∀ eventId, index.get? eventId ≠ some [])
    (serial first : Nat) (messages : List Message) (eventId : String) :
    (index.addMessages serial first messages).get? eventId ≠ some [] := by
  induction messages generalizing first index with
  | nil => exact h eventId
  | cons message rest ih =>
      rw [addMessages]
      apply ih
      split
      · exact h
      · exact add_no_empty h _ _

/-- The places of the groups of a batch are removed, and those of other batches stay. -/
theorem places_remove_groups {serial first : Nat} {groups : List (List Message)}
    {index : PlaceIndex} (others : String → List Place)
    (hplaces : ∀ eventId,
      index.places eventId = openGroups eventId serial first groups ++ others eventId)
    (hothers : ∀ eventId, ∀ place ∈ others eventId, place.serial ≠ serial) (eventId : String) :
    (index.removeGroups serial first groups).places eventId = others eventId := by
  induction groups generalizing first index with
  | nil => simpa [removeGroups, openGroups] using hplaces eventId
  | cons messages rest ih =>
      apply ih
      intro other
      -- Later groups have greater numbers, so taking out this place takes out nothing else.
      have hkeep : ∀ place ∈ openGroups other serial (first + 1) rest ++ others other,
          place ≠ ⟨serial, first⟩ := by
        intro place hplace heq
        rcases List.mem_append.mp hplace with hplace | hplace
        · have := (open_groups_mem hplace).2.1
          simp only [heq] at this
          omega
        · exact hothers other place hplace (by rw [heq])
      have hfilter : (openGroups other serial (first + 1) rest ++ others other).filter
          (· ≠ ⟨serial, first⟩) = openGroups other serial (first + 1) rest ++ others other :=
        List.filter_eq_self.mpr fun place hplace => by simpa using hkeep place hplace
      have hother := hplaces other
      cases messages with
      | nil => simpa [openGroups, groupMatches] using hother
      | cons message later =>
          simp only [places_remove]
          split
          next heq =>
            subst heq
            rw [hother, openGroups]
            split
            · rw [List.cons_append, List.filter_cons_of_neg (by simp), hfilter]
            · exact hfilter
          next hne =>
            simpa [openGroups, groupMatches, Ne.symm hne] using hother

theorem remove_groups_no_empty {index : PlaceIndex} (h : ∀ eventId, index.get? eventId ≠ some [])
    (serial first : Nat) (groups : List (List Message)) (eventId : String) :
    (index.removeGroups serial first groups).get? eventId ≠ some [] := by
  induction groups generalizing first index with
  | nil => exact h eventId
  | cons messages rest ih =>
      apply ih
      cases messages with
      | nil => exact h
      | cons message later => exact remove_no_empty h _ _

end PlaceIndex

/-- What the numbering and the index see of a batch: its number and the first messages of its
groups. -/
def PendingBatch.outline (entry : PendingBatch) : Nat × List (Option Message) :=
  (entry.serial, entry.batch.groups.map List.head?)

/-- The batches have the serial numbers from the first one up to, but not including, the last. -/
def Serials : Nat → List PendingBatch → Nat → Prop
  | first, [], last => first = last
  | first, entry :: rest, last => entry.serial = first ∧ Serials (first + 1) rest last

namespace Serials

/-- A batch that takes the next number goes on with the numbers. -/
theorem concat {first last : Nat} {pending : List PendingBatch} {entry : PendingBatch}
    (h : Serials first pending last) (hentry : entry.serial = last) :
    Serials first (pending ++ [entry]) (last + 1) := by
  induction pending generalizing first with
  | nil => exact ⟨hentry.trans h.symm, congrArg (· + 1) h⟩
  | cons head rest ih => exact ⟨h.1, ih h.2⟩

theorem length_eq {first last : Nat} {pending : List PendingBatch}
    (h : Serials first pending last) : first + pending.length = last := by
  induction pending generalizing first with
  | nil => exact h
  | cons head rest ih =>
      have := ih h.2
      rw [List.length_cons]
      omega

/-- A serial number less the first one is a position. -/
theorem serial_at {first last position : Nat} {pending : List PendingBatch}
    {entry : PendingBatch} (h : Serials first pending last)
    (hentry : pending[position]? = some entry) : entry.serial = first + position := by
  induction pending generalizing first position with
  | nil => simp at hentry
  | cons head rest ih =>
      cases position with
      | zero =>
          cases hentry
          exact h.1
      | succ position =>
          have := ih h.2 hentry
          omega

/-- The first open batch has the first number. -/
theorem head_eq {first last : Nat} {pending : List PendingBatch} {entry : PendingBatch}
    (h : Serials first pending last) (hentry : pending.head? = some entry) :
    entry.serial = first := by
  rw [List.head?_eq_getElem?] at hentry
  exact h.serial_at hentry

/-- Batches of the same outlines have the same numbers. -/
theorem congr {first last : Nat} {pending others : List PendingBatch}
    (h : Serials first pending last)
    (hsame : others.map PendingBatch.outline = pending.map PendingBatch.outline) :
    Serials first others last := by
  induction pending generalizing first others with
  | nil => rwa [List.map_eq_nil_iff.mp hsame]
  | cons head rest ih =>
      cases others with
      | nil => simp at hsame
      | cons other others =>
          obtain ⟨hhead, hrest⟩ := List.cons.inj hsame
          exact ⟨(congrArg Prod.fst hhead).trans h.1, ih h.2 hrest⟩

/-- Batches behind the first one have greater numbers. -/
theorem lt_of_mem {first last : Nat} {head entry : PendingBatch} {rest : List PendingBatch}
    (h : Serials first (head :: rest) last) (hentry : entry ∈ rest) :
    head.serial < entry.serial := by
  obtain ⟨position, hposition⟩ := List.getElem?_of_mem hentry
  have := h.2.serial_at hposition
  have := h.1
  omega

end Serials

namespace PlaceIndex

/-- A batch that comes in opens its groups behind the others. -/
theorem Lists.add_messages {index : PlaceIndex} {pending : List PendingBatch}
    (h : index.Lists pending) (rules : JoinRules) (batch : MessageBatch) (serial : Nat) :
    (index.addMessages serial 0 batch.messages).Lists
      (pending ++ [⟨.ofInteractions rules batch, serial⟩]) where
  places_eq eventId := by
    rw [places_add_messages, h.places_eq, openPlaces, openPlaces, List.flatMap_append]
    simp [OpenBatch.ofInteractions, MessageBatch.toJoined]
  no_empty := add_messages_no_empty h.no_empty _ _ _

/-- The oldest batch that goes takes its places with it and no others. -/
theorem Lists.remove_groups {index : PlaceIndex} {entry : PendingBatch}
    {rest : List PendingBatch} {first last : Nat} (h : index.Lists (entry :: rest))
    (hserials : Serials first (entry :: rest) last) :
    (index.removeGroups entry.serial 0 entry.batch.groups).Lists rest where
  places_eq eventId := by
    refine places_remove_groups (fun eventId => openPlaces eventId rest) ?_ ?_ eventId
    · intro other
      rw [h.places_eq, openPlaces, openPlaces, List.flatMap_cons]
    · -- The places of later batches have greater serial numbers.
      intro other place hplace heq
      obtain ⟨later, hlater, hplace⟩ := List.mem_flatMap.mp hplace
      have := hserials.lt_of_mem hlater
      have := (open_groups_mem hplace).1
      omega
  no_empty := remove_groups_no_empty h.no_empty _ _ _

/-- Batches of the same outlines have the same index. -/
theorem Lists.congr {index : PlaceIndex} {pending others : List PendingBatch}
    (h : index.Lists pending)
    (hsame : others.map PendingBatch.outline = pending.map PendingBatch.outline) :
    index.Lists others where
  places_eq eventId := by
    rw [h.places_eq, openPlaces, openPlaces]
    clear h
    induction others generalizing pending with
    | nil => simp [List.map_eq_nil_iff.mp hsame.symm]
    | cons other others ih =>
        cases pending with
        | nil => simp at hsame
        | cons entry rest =>
            obtain ⟨hhead, hrest⟩ := List.cons.inj hsame
            obtain ⟨hserial, hheads⟩ := Prod.mk.inj hhead
            rw [List.flatMap_cons, List.flatMap_cons, hserial, open_groups_congr hheads, ih hrest]
  no_empty := h.no_empty

end PlaceIndex

/-- The open batches are numbered without gaps up to the next number, and the index holds their
open groups. -/
structure Join.Coherent (join : Join) : Prop where
  serials : ∃ first, Serials first join.pending join.nextSerial
  lists : join.index.Lists join.pending

namespace Join.Coherent

/-- A place of the index lies behind the oldest open batch, and the difference is the position of an
open batch that has the group. -/
theorem place_found {join : Join} (h : join.Coherent) {eventId : String} {place : Place}
    (hplace : place ∈ join.index.places eventId) :
    ∃ front entry messages, join.pending.head? = some front ∧ front.serial ≤ place.serial ∧
      join.pending[place.serial - front.serial]? = some entry ∧
      entry.batch.groups[place.group]? = some messages ∧
      groupMatches eventId messages = true := by
  obtain ⟨first, hserials⟩ := h.serials
  rw [h.lists.places_eq] at hplace
  obtain ⟨entry, hentry, hplace⟩ := List.mem_flatMap.mp hplace
  obtain ⟨hserial, -, messages, hmessages, hmatch⟩ := PlaceIndex.open_groups_mem hplace
  obtain ⟨position, hposition⟩ := List.getElem?_of_mem hentry
  have hentry_serial := hserials.serial_at hposition
  obtain ⟨front, hfront⟩ : ∃ front, join.pending.head? = some front := by
    cases hpending : join.pending with
    | nil => simp [hpending] at hentry
    | cons front rest => exact ⟨front, rfl⟩
  have hfront_serial := hserials.head_eq hfront
  refine ⟨front, entry, messages, hfront, by omega, ?_, hmessages, hmatch⟩
  rwa [show place.serial - front.serial = position by omega]

end Join.Coherent

end WindowJoin

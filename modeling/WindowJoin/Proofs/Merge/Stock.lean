import Mathlib.Data.List.Forall2
import WindowJoin.Proofs.Conservation
import WindowJoin.Proofs.Merge.Turn

/-!
# What the sources of a merge hold

The stock of a source are the batches at its head and in its channel. A merge fills its sources, which
moves batches from the channels to the heads, and takes batches away there; apart from that no part of
a turn changes what is in stock (`stocksOf`) or which writers are there (`writersOf`). Read
`PartitionSource.Filled` first: all that a merge does to its sources, other than taking batches and
leaving them at its end, is to fill some of them (`Merge.Refills`).
-/

namespace WindowJoin

/-- What a source holds for the merge, and whether there is still a merge to take it. -/
structure Stock where
  partition : String
  batches : List MessageBatch
  readable : Bool

namespace PartitionSource

/-- The batches at the head of a source and in its channel. -/
def stock (source : PartitionSource) : Stock :=
  ⟨source.partition, source.head.toList ++ source.channel.queue, source.channel.receiverOpen⟩

/-- What comes of filling a source. -/
inductive Filled (source : PartitionSource) : PartitionSource → Prop where
  /-- There is a batch at the head or the end has been met already, or nothing has come. -/
  | still : source.head.isSome = true ∨ source.exhausted = true ∨
      source.channel.queue = [] ∧ source.channel.senderOpen = true → Filled source source
  | taken {batch : MessageBatch} {rest : List MessageBatch} : source.head = none →
      source.exhausted = false → source.channel.queue = batch :: rest →
      Filled source
        { source with head := some batch, channel := { source.channel with queue := rest } }
  | ended : source.head = none → source.channel.queue = [] →
      (source.channel.senderOpen && source.channel.receiverOpen) = false →
      Filled source { source with exhausted := true }

theorem fill_filled (source : PartitionSource) : source.Filled source.fill := by
  unfold fill
  split
  next hdone =>
    rw [Bool.or_eq_true] at hdone
    exact .still (hdone.imp_right .inl)
  next hdone =>
    simp only [Bool.or_eq_true, not_or, Bool.not_eq_true, Option.isSome_eq_false_iff,
      Option.isNone_iff_eq_none] at hdone
    cases hqueue : source.channel.queue with
    | cons batch rest =>
        simp only [Channel.receive, hqueue]
        exact .taken hdone.1 hdone.2 hqueue
    | nil =>
        simp only [Channel.receive, hqueue]
        cases hopen : source.channel.senderOpen && source.channel.receiverOpen with
        | true => exact .still (.inr (.inr ⟨hqueue, by simp_all⟩))
        | false => exact .ended hdone.1 hqueue hopen

/-- A source is as it was or has been filled. -/
def Refills (source after : PartitionSource) : Prop :=
  after = source ∨ source.Filled after

/-- A source that still has its merge: the end of the channel is met when the writer has gone and
everything has been taken. -/
structure Sound (source : PartitionSource) : Prop where
  readable : source.channel.receiverOpen = true
  ended : source.exhausted = true → source.channel.senderOpen = false ∧ source.stock.batches = []

namespace Refills

variable {source after : PartitionSource}

theorem stock (h : source.Refills after) : after.stock = source.stock := by
  rcases h with rfl | h
  · rfl
  · cases h with
    | still => rfl
    | taken hhead _ hqueue => simp [PartitionSource.stock, hhead, hqueue]
    | ended => rfl

theorem writer (h : source.Refills after) :
    after.channel.senderOpen = source.channel.senderOpen := by
  rcases h with rfl | h
  · rfl
  · cases h <;> rfl

/-- A batch that is at the head stays there. -/
theorem head (h : source.Refills after) {batch : MessageBatch} (hhead : source.head = some batch) :
    after.head = some batch := by
  rcases h with rfl | h
  · exact hhead
  · cases h with
    | still => exact hhead
    | taken hnone | ended hnone => rw [hnone] at hhead; cases hhead

theorem head_none (h : source.Refills after) (hhead : after.head = none) : source.head = none := by
  cases hsource : source.head with
  | none => rfl
  | some batch =>
      rw [h.head hsource] at hhead
      cases hhead

theorem exhausted (h : source.Refills after) (hend : source.exhausted = true) :
    after.exhausted = true := by
  rcases h with rfl | h
  · exact hend
  · cases h with
    | still => exact hend
    | taken _ hopen => rw [hopen] at hend; cases hend
    | ended => rfl

theorem sound (h : source.Refills after) (hsound : source.Sound) : after.Sound where
  readable := by
    have hstock := congrArg Stock.readable h.stock
    exact hstock.trans hsound.readable
  ended hend := by
    rw [h.stock, h.writer]
    rcases h with rfl | h
    · exact hsound.ended hend
    · cases h with
      | still => exact hsound.ended hend
      | taken _ hopen =>
          rw [show source.exhausted = true from hend] at hopen
          cases hopen
      | ended hhead hqueue hopen =>
          rw [hsound.readable, Bool.and_true] at hopen
          exact ⟨hopen, by simp [PartitionSource.stock, hhead, hqueue]⟩

end Refills

/-- A source that has been filled and has nothing at its head holds nothing. -/
theorem Filled.stock_nil {source after : PartitionSource} (h : source.Filled after)
    (hsound : source.Sound) (hhead : after.head = none) : after.stock.batches = [] := by
  cases h with
  | still hstill =>
      rcases hstill with hsome | hend | ⟨hqueue, -⟩
      · rw [hhead] at hsome
        cases hsome
      · exact (hsound.ended hend).2
      · simp [stock, hhead, hqueue]
  | taken => cases hhead
  | ended hnone hqueue => simp [stock, hnone, hqueue]

theorem Refills.fill (source : PartitionSource) : source.Refills source.fill :=
  .inr source.fill_filled

@[simp] theorem fill_stock (source : PartitionSource) : source.fill.stock = source.stock :=
  (Refills.fill source).stock

theorem begin_wait_refills (source : PartitionSource) : source.Refills source.beginWait.2 := by
  unfold beginWait
  dsimp only
  split
  · exact .fill source
  · split <;> exact .fill source

theorem continue_wait_refills (source : PartitionSource) (cancelled : Bool) (now deadline : Nat) :
    source.Refills (source.continueWait cancelled now deadline).2 := by
  have hbegin := source.begin_wait_refills
  unfold continueWait
  split
  · exact .inl rfl
  · split
    next ready filled hwait =>
      rw [hwait] at hbegin
      exact hbegin
    next filled hwait =>
      rw [hwait] at hbegin
      exact hbegin

theorem continue_wait_stock (source : PartitionSource) (cancelled : Bool) (now deadline : Nat) :
    (source.continueWait cancelled now deadline).2.stock = source.stock :=
  (source.continue_wait_refills cancelled now deadline).stock

end PartitionSource

namespace MergeSlot

theorem fill_refills (slot : MergeSlot) : slot.source.Refills slot.fill.source := by
  unfold fill
  split
  · exact .inl rfl
  · exact .fill slot.source

@[simp] theorem fill_closed (slot : MergeSlot) : slot.fill.closed = slot.closed := by
  unfold fill
  split <;> rfl

@[simp] theorem fill_liveness (slot : MergeSlot) : slot.fill.liveness = slot.liveness := by
  unfold fill
  split <;> rfl

theorem Updated.refills {slot : MergeSlot} {question : Question}
    {next : MergeSlot × Option Question} (h : slot.Updated question next) :
    slot.source.Refills next.1.source := by
  cases h with
  | closed | silent => exact .inl rfl
  | lively | empty | drained | undrained => exact .fill slot.source

theorem fill_stock (slot : MergeSlot) : slot.fill.source.stock = slot.source.stock :=
  slot.fill_refills.stock

end MergeSlot

/-- What the sources of a merge hold. -/
def stocksOf (slots : List MergeSlot) : List Stock :=
  slots.map (·.source.stock)

theorem stocks_of_slot {slots : List MergeSlot} {index : Nat} {slot : MergeSlot}
    (h : slots[index]? = some slot) : (stocksOf slots)[index]? = some slot.source.stock := by
  rw [stocksOf, List.getElem?_map, h]
  rfl

/-- Which sources of a merge have their writers. -/
def writersOf (slots : List MergeSlot) : List Bool :=
  slots.map (·.source.channel.senderOpen)

theorem stocks_of_map (slots : List MergeSlot) {change : MergeSlot → MergeSlot}
    (h : ∀ slot, (change slot).source.stock = slot.source.stock) :
    stocksOf (slots.map change) = stocksOf slots := by
  rw [stocksOf, List.map_map]
  exact List.map_congr_left fun slot _ => h slot

/-- An item is replaced by one that looks the same. -/
theorem map_set_same {α β : Type} (look : α → β) {items : List α} {index : Nat} {item : α}
    (hitem : items[index]? = some item) (next : α) (h : look next = look item) :
    (items.set index next).map look = items.map look := by
  obtain ⟨hindex, rfl⟩ := List.getElem?_eq_some_iff.mp hitem
  have hindex' : index < (items.map look).length := by rwa [List.length_map]
  have hlook : look items[index] = (items.map look)[index] := (List.getElem_map look).symm
  rw [List.map_set, h, hlook, List.set_getElem_self]

/-- A slot is replaced by one that holds the same. -/
theorem stocks_of_set {slots : List MergeSlot} {index : Nat} {slot : MergeSlot}
    (hslot : slots[index]? = some slot) (next : MergeSlot)
    (h : next.source.stock = slot.source.stock) :
    stocksOf (slots.set index next) = stocksOf slots :=
  map_set_same (fun slot : MergeSlot => slot.source.stock) hslot next h

namespace Merge

variable {rules : MergeRules} {view : View} {before after : List MergeSlot}

/-- The sources of the slots are as they were or have been filled. -/
def Refills (before after : List MergeSlot) : Prop :=
  List.Forall₂ (fun (slot next : MergeSlot) => slot.source.Refills next.source) before after

namespace Refills

theorem refl (slots : List MergeSlot) : Refills slots slots :=
  List.forall₂_same.mpr fun _ _ => .inl rfl

theorem map (slots : List MergeSlot) {change : MergeSlot → MergeSlot}
    (h : ∀ slot : MergeSlot, slot.source.Refills (change slot).source) :
    Refills slots (slots.map change) :=
  List.forall₂_map_right_iff.mpr (List.forall₂_same.mpr fun slot _ => h slot)

theorem set {slots : List MergeSlot} {index : Nat} {slot next : MergeSlot}
    (hslot : slots[index]? = some slot) (h : slot.source.Refills next.source) :
    Refills slots (slots.set index next) := by
  induction slots generalizing index with
  | nil => cases hslot
  | cons first rest ih =>
      cases index with
      | zero =>
          obtain rfl := Option.some.inj hslot
          exact .cons h (refl rest)
      | succ index => exact .cons (.inl rfl) (ih hslot)

theorem stocks (h : Refills before after) : stocksOf after = stocksOf before := by
  induction h with
  | nil => rfl
  | cons hfirst _ ih => exact congrArg₂ List.cons hfirst.stock ih

theorem writers (h : Refills before after) : writersOf after = writersOf before := by
  induction h with
  | nil => rfl
  | cons hfirst _ ih => exact congrArg₂ List.cons hfirst.writer ih

/-- Every slot comes from the one that was in its place. -/
theorem origin (h : Refills before after) {index : Nat} {slot : MergeSlot}
    (hslot : after[index]? = some slot) :
    ∃ first, before[index]? = some first ∧ first.source.Refills slot.source := by
  induction h generalizing index with
  | nil => cases hslot
  | cons hfirst _ ih =>
      cases index with
      | zero =>
          obtain rfl := Option.some.inj hslot
          exact ⟨_, rfl, hfirst⟩
      | succ index => exact ih hslot

end Refills

/-- A look at a partition. -/
theorem look_refills {index : Nat} {slot : MergeSlot} (hslot : view.slots[index]? = some slot) :
    Refills view.slots (view.set index slot.fill).slots :=
  .set hslot slot.fill_refills

theorem update_refills (rules : MergeRules) (wall : Instant) (question : MergeSlot.Question)
    {index : Nat} {slot : MergeSlot} (hslot : view.slots[index]? = some slot) :
    Refills view.slots (view.set index (slot.update rules wall question).1).slots :=
  .set hslot (slot.update_updated rules wall question).refills

theorem poll_slot_refills {wait : Wait} {slots : List MergeSlot}
    (h : pollSlot? view wait = some slots) : Refills view.slots slots := by
  rcases poll_slot_cases h with ⟨-, rfl⟩ | ⟨slot, ready, source, hslot, hwait, rfl⟩
  · exact .refl view.slots
  · have hrefills := slot.source.continue_wait_refills view.cancelled view.now wait.deadline
    rw [hwait] at hrefills
    exact .set hslot hrefills

/-- Of the slots with another one in a place, that one is the next, and the others are as they
were. -/
theorem set_cases {index place : Nat} {next slot : MergeSlot}
    (h : (view.set index next).slots[place]? = some slot) :
    place = index ∧ slot = next ∨ place ≠ index ∧ view.slots[place]? = some slot := by
  rw [View.set, List.getElem?_set] at h
  split at h
  next heq =>
    split at h
    · exact .inl ⟨heq.symm, (Option.some.inj h).symm⟩
    · cases h
  next hne => exact .inr ⟨Ne.symm hne, h⟩

/-- A wait that is over changes nothing of a slot but its source. -/
theorem poll_slot_origin {wait : Wait} {slots : List MergeSlot}
    (h : pollSlot? view wait = some slots) {index : Nat} {slot : MergeSlot}
    (hslot : slots[index]? = some slot) : ∃ first source, view.slots[index]? = some first ∧
      first.source.Refills source ∧ slot = { first with source } := by
  obtain ⟨first, hfirst, hrefills⟩ := (poll_slot_refills h).origin hslot
  refine ⟨first, slot.source, hfirst, hrefills, ?_⟩
  rcases poll_slot_cases h with ⟨-, rfl⟩ | ⟨other, ready, source, hother, -, rfl⟩
  · rw [hfirst, Option.some.injEq] at hslot
    rw [hslot]
  · rcases set_cases hslot with ⟨rfl, rfl⟩ | ⟨-, hslot⟩
    · rw [hfirst, Option.some.injEq] at hother
      rw [hother]
    · rw [hfirst, Option.some.injEq] at hslot
      rw [hslot]

/-- The batch that is taken is the first of its source. -/
theorem pop_stocks {index : Nat} {slot : MergeSlot} {batch : MessageBatch}
    (hslot : view.slots[index]? = some slot) (hhead : slot.source.head = some batch) :
    slot.source.stock.batches = batch :: slot.source.channel.queue ∧
      stocksOf (view.pop index).slots = (stocksOf view.slots).set index
        { slot.source.stock with batches := slot.source.channel.queue } := by
  refine ⟨by rw [PartitionSource.stock, hhead]; rfl, ?_⟩
  -- The head is taken out of the slot; the channel and the other slots stay as they are.
  apply List.ext_getElem?
  intro other
  rw [View.pop, stocksOf, stocksOf, List.getElem?_map, List.getElem?_modify, List.getElem?_set,
    List.getElem?_map, List.length_map]
  split
  next heq =>
    subst heq
    rw [hslot, if_pos (List.getElem?_eq_some_iff.mp hslot).1]
    rfl
  next => simp

theorem pop_writers (view : View) (index : Nat) :
    writersOf (view.pop index).slots = writersOf view.slots := by
  apply List.ext_getElem?
  intro other
  rw [View.pop, writersOf, writersOf, List.getElem?_map, List.getElem?_modify, List.getElem?_map]
  cases view.slots[other]? with
  | none => simp
  | some slot => by_cases h : index = other <;> simp [h]

end Merge

end WindowJoin

import Mathlib.Logic.Relation
import WindowJoin.Proofs.Merge.Stock

/-!
# A source in use

A `PartitionSource.Usage` is a source whose writer pushes and goes away while its reader peeks,
pops, asks whether it is drained and waits, in any order. A wait looks as often as it is woken, and
may be left before it ends. Read `Usage.Intact` first: the head, the channel and the mark of its end
together hold what was pushed and not popped. Main statement:
`PartitionSource.Usage.first_in_first_out`.
-/

namespace WindowJoin

/-- A channel that takes an item had room for it. -/
theorem Channel.send_room {α : Type} {channel next : Channel α} {value : α}
    (h : channel.send value = .sent next) : channel.queue.length < channel.capacity := by
  unfold send at h
  split at h
  · cases h
  · split at h
    next hroom => exact hroom
    next => cases h

namespace PartitionSource

/-- Filling a source takes nothing into its channel. -/
theorem Refills.room {source after : PartitionSource} (h : source.Refills after) :
    after.channel.capacity = source.channel.capacity ∧
      after.channel.queue.length ≤ source.channel.queue.length := by
  rcases h with rfl | h
  · exact ⟨rfl, Nat.le_refl _⟩
  · cases h with
    | still | ended => exact ⟨rfl, Nat.le_refl _⟩
    | @taken batch rest _ _ hqueue =>
        rw [hqueue]
        exact ⟨rfl, Nat.le_succ rest.length⟩

/-- A wait begins with success only if there is a batch at the head by then. -/
theorem begin_wait_ready {source : PartitionSource} (h : source.beginWait.1 = some true) :
    source.beginWait.2.head.isSome = true := by
  unfold beginWait at h ⊢
  dsimp only at h ⊢
  split at h
  next hhead => rwa [if_pos hhead]
  next => split at h <;> cases h

theorem continue_wait_ready {source : PartitionSource} {cancelled : Bool} {now deadline : Nat}
    (h : (source.continueWait cancelled now deadline).1 = some true) :
    (source.continueWait cancelled now deadline).2.head.isSome = true := by
  unfold continueWait at h ⊢
  split at h
  · cases h
  next hgoing =>
    rw [if_neg hgoing]
    have hready := source.begin_wait_ready
    split at h
    next ready filled hbegin =>
      rw [hbegin] at hready
      exact hready h
    next => split at h <;> cases h

/-- What is at the head is popped next. -/
theorem pop_of_head {source : PartitionSource} (h : source.head.isSome = true) :
    source.pop.1.isSome = true := by
  obtain ⟨batch, hhead⟩ := Option.isSome_iff_exists.mp h
  rw [pop, (Refills.fill source).head hhead]
  rfl

/-- The next batch is the first one in stock. -/
theorem Sound.fill_head {source : PartitionSource} (h : source.Sound) :
    source.fill.head = source.stock.batches.head? := by
  rw [← source.fill_stock]
  cases hhead : source.fill.head with
  | none => rw [source.fill_filled.stock_nil h hhead]; rfl
  | some batch => rw [stock, hhead]; rfl

/-- A source is drained when its writer has gone and nothing is in stock. -/
theorem Sound.is_drained_iff {source : PartitionSource} (h : source.Sound) :
    source.isDrained = true ↔ source.channel.senderOpen = false ∧ source.stock.batches = [] := by
  have hsound := (Refills.fill source).sound h
  have hwriter := (Refills.fill source).writer
  rw [isDrained, Bool.and_eq_true]
  constructor
  · rintro ⟨-, hend⟩
    rw [← hwriter, ← source.fill_stock]
    exact hsound.ended hend
  · rintro ⟨hgone, hempty⟩
    have hhead : source.fill.head = none := by
      rw [h.fill_head, hempty]
      rfl
    refine ⟨by rw [hhead]; rfl, ?_⟩
    -- The look at an empty channel without a writer meets the end.
    have hfilled := source.fill_filled
    generalize source.fill = filled at hfilled hhead
    cases hfilled with
    | still hstill =>
        rcases hstill with hsome | hend | ⟨-, hopen⟩
        · rw [hhead] at hsome
          cases hsome
        · exact hend
        · rw [hgone] at hopen
          cases hopen
    | taken => cases hhead
    | ended => rfl

/-! ## Pushing and popping in any order -/

/-- A source, with what was pushed into it and popped off it. -/
structure Usage where
  source : PartitionSource
  /-- The deadline of a wait that has begun. -/
  waiting : Option Nat
  pushed : List MessageBatch
  popped : List MessageBatch

namespace Usage

/-- A source that has not been used. -/
def start (partition : String) (capacity : Nat) : Usage :=
  ⟨.new partition capacity, none, [], []⟩

/-- The usage after a look for a batch, which may end the wait. -/
def look (usage : Usage) (deadline : Nat) (result : Option Bool × PartitionSource) : Usage :=
  { usage with source := result.2, waiting := if result.1.isNone then some deadline else none }

/-- What may happen next. -/
inductive Step (usage : Usage) : Usage → Prop where
  /-- A push is completed. One that waits for room has done nothing yet. -/
  | push (batch : MessageBatch) {channel : Channel MessageBatch} :
      usage.source.channel.senderOpen = true → usage.source.push batch = .sent channel →
      Step usage { usage with
        source := { usage.source with channel }, pushed := usage.pushed ++ [batch] }
  | status (status : ReceiverStatus) : usage.source.channel.senderOpen = true →
      Step usage { usage with source := { usage.source with status } }
  | dropWriter : usage.source.channel.senderOpen = true →
      Step usage { usage with source := usage.source.dropWriter }
  | peek : usage.waiting = none → Step usage { usage with source := usage.source.peek.2 }
  | pop : usage.waiting = none → Step usage { usage with
      source := usage.source.pop.2, popped := usage.popped ++ usage.source.pop.1.toList }
  /-- The question whether the source is drained fills it, as a peek does. -/
  | isDrained : usage.waiting = none → Step usage { usage with source := usage.source.fill }
  | beginWait (deadline : Nat) : usage.waiting = none →
      Step usage (usage.look deadline usage.source.beginWait)
  /-- A wait is woken, by a batch, by its deadline, by a cancellation or by nothing. -/
  | continueWait (cancelled : Bool) (now deadline : Nat) : usage.waiting = some deadline →
      Step usage (usage.look deadline (usage.source.continueWait cancelled now deadline))
  /-- A wait is dropped half way. -/
  | leaveWait {deadline : Nat} : usage.waiting = some deadline →
      Step usage { usage with waiting := none }

/-- A usage comes to another step by step. -/
def Reaches : Usage → Usage → Prop :=
  Relation.ReflTransGen Step

/-- What was pushed has been popped or is in stock, and the channel keeps to its capacity. -/
structure Intact (capacity : Nat) (usage : Usage) : Prop where
  sound : usage.source.Sound
  conserved : usage.pushed = usage.popped ++ usage.source.stock.batches
  limited : usage.source.channel.capacity = max capacity 1
  room : usage.source.channel.queue.length ≤ max capacity 1

variable {capacity : Nat} {usage next : Usage}

theorem start_intact (partition : String) (capacity : Nat) :
    (start partition capacity).Intact capacity where
  sound := ⟨rfl, fun hend => by cases hend⟩
  conserved := rfl
  limited := rfl
  room := Nat.zero_le _

/-- Filling the source keeps everything, whatever becomes of a wait. -/
theorem Intact.refill (h : usage.Intact capacity) {source : PartitionSource}
    (hrefills : usage.source.Refills source) (waiting : Option Nat) :
    Intact capacity { usage with source, waiting } where
  sound := hrefills.sound h.sound
  conserved := by
    rw [hrefills.stock]
    exact h.conserved
  limited := hrefills.room.1.trans h.limited
  room := Nat.le_trans hrefills.room.2 h.room

theorem Intact.push (h : usage.Intact capacity) {batch : MessageBatch}
    {channel : Channel MessageBatch} (hopen : usage.source.channel.senderOpen = true)
    (hpush : usage.source.push batch = .sent channel) : Intact capacity { usage with
      source := { usage.source with channel }, pushed := usage.pushed ++ [batch] } := by
  have hroom := Channel.send_room hpush
  obtain ⟨hreadable, rfl⟩ := Channel.send_eq hpush
  refine ⟨⟨hreadable, fun hend => ?_⟩, ?_, h.limited, ?_⟩
  · -- The end of the channel is not met while there is a writer.
    have hgone := (h.sound.ended hend).1
    rw [hopen] at hgone
    cases hgone
  · rw [h.conserved, List.append_assoc, stock, stock, List.append_assoc]
  · rw [h.limited] at hroom
    rw [List.length_append]
    exact hroom

theorem Intact.drop_writer (h : usage.Intact capacity) :
    Intact capacity { usage with source := usage.source.dropWriter } where
  sound := ⟨h.sound.readable, fun hend => ⟨rfl, (h.sound.ended hend).2⟩⟩
  conserved := h.conserved
  limited := h.limited
  room := h.room

/-- A pop takes the first batch of the stock. -/
theorem Intact.pop (h : usage.Intact capacity) : Intact capacity { usage with
    source := usage.source.pop.2, popped := usage.popped ++ usage.source.pop.1.toList } := by
  have hfilled := h.refill (.fill usage.source) usage.waiting
  refine ⟨⟨hfilled.sound.readable, fun hend => ?_⟩, ?_, hfilled.limited, hfilled.room⟩
  · obtain ⟨hgone, hempty⟩ := hfilled.sound.ended hend
    exact ⟨hgone, (List.append_eq_nil_iff.mp hempty).2⟩
  · rw [List.append_assoc]
    exact hfilled.conserved

/-- Every step keeps the batches. -/
theorem Intact.step (h : usage.Intact capacity) (hstep : usage.Step next) :
    next.Intact capacity := by
  cases hstep with
  | push batch hopen hpush => exact h.push hopen hpush
  | status status _ => exact ⟨⟨h.sound.readable, h.sound.ended⟩, h.conserved, h.limited, h.room⟩
  | dropWriter _ => exact h.drop_writer
  | peek _ => exact h.refill (.fill usage.source) usage.waiting
  | pop _ => exact h.pop
  | isDrained _ => exact h.refill (.fill usage.source) usage.waiting
  | beginWait deadline _ => exact h.refill usage.source.begin_wait_refills _
  | continueWait cancelled now deadline _ =>
      exact h.refill (usage.source.continue_wait_refills cancelled now deadline) _
  | leaveWait _ => exact ⟨h.sound, h.conserved, h.limited, h.room⟩

theorem Intact.reaches (h : usage.Intact capacity) (hreaches : usage.Reaches next) :
    next.Intact capacity := by
  induction hreaches with
  | refl => exact h
  | tail _ hstep ih => exact ih.step hstep

/-- What was pushed stays pushed. -/
theorem Reaches.pushed (h : usage.Reaches next) : usage.pushed <+: next.pushed := by
  induction h with
  | refl => exact List.prefix_rfl
  | tail _ hstep ih =>
      cases hstep with
      | push => exact ih.trans (List.prefix_append ..)
      | _ => exact ih

/-- The batch behind those that were popped is the next one. -/
theorem Intact.next_batch (h : usage.Intact capacity) :
    usage.source.fill.head = usage.pushed[usage.popped.length]? := by
  rw [h.sound.fill_head, h.conserved, List.getElem?_append_right (Nat.le_refl _), Nat.sub_self,
    List.head?_eq_getElem?]

/-- What a usage shows of a queue of limited length. -/
structure IsQueue (capacity : Nat) (usage : Usage) : Prop where
  in_order : usage.popped <+: usage.pushed
  pops_next : usage.source.pop.1 = usage.pushed[usage.popped.length]?
  peeks_next : usage.source.peek.1 = usage.pushed[usage.popped.length]?
  /-- A batch that was seen is the one that comes out next, whatever happens until then. -/
  stays {later : Usage} {batch : MessageBatch} : usage.Reaches later →
    later.popped = usage.popped → usage.source.peek.1 = some batch →
      later.source.pop.1 = some batch
  begin_ready : usage.source.beginWait.1 = some true →
    usage.source.beginWait.2.pop.1 = usage.pushed[usage.popped.length]? ∧
      usage.source.beginWait.2.pop.1.isSome = true
  continue_ready (cancelled : Bool) (now deadline : Nat) :
    (usage.source.continueWait cancelled now deadline).1 = some true →
      (usage.source.continueWait cancelled now deadline).2.pop.1 =
          usage.pushed[usage.popped.length]? ∧
        (usage.source.continueWait cancelled now deadline).2.pop.1.isSome = true
  drained : usage.source.isDrained = true ↔
    usage.source.channel.senderOpen = false ∧ usage.popped = usage.pushed
  bounded : usage.pushed.length ≤ usage.popped.length + (max capacity 1 + 1)

theorem Intact.is_queue (h : usage.Intact capacity) : usage.IsQueue capacity where
  in_order := by
    rw [h.conserved]
    exact List.prefix_append ..
  pops_next := h.next_batch
  peeks_next := h.next_batch
  stays {later batch} hreaches hpopped hseen := by
    have hnext : usage.pushed[usage.popped.length]? = some batch := h.next_batch.symm.trans hseen
    have hlater := (h.reaches hreaches).next_batch
    obtain ⟨more, hmore⟩ := hreaches.pushed
    rw [hpopped, ← hmore, List.getElem?_append_left (List.getElem?_eq_some_iff.mp hnext).1,
      hnext] at hlater
    exact hlater
  begin_ready hready :=
    ⟨(h.refill usage.source.begin_wait_refills none).next_batch,
      pop_of_head (begin_wait_ready hready)⟩
  continue_ready cancelled now deadline hready :=
    ⟨(h.refill (usage.source.continue_wait_refills cancelled now deadline) none).next_batch,
      pop_of_head (continue_wait_ready hready)⟩
  drained := by
    rw [h.sound.is_drained_iff, h.conserved, List.self_eq_append_right]
  bounded := by
    have hhead : usage.source.head.toList.length ≤ 1 := Option.length_toList_le
    have hroom := h.room
    rw [h.conserved, List.length_append, stock, List.length_append]
    omega

/-- However a source is used, its batches come out in the order in which they were pushed, and none
is lost: the next one is the one behind those that were popped. A wait that succeeds leaves a batch
to be popped, a source is drained when its writer has gone and all batches were popped, and at most
one more batch than its channel holds is under way. -/
theorem first_in_first_out (partition : String) (capacity : Nat)
    (h : (start partition capacity).Reaches usage) : usage.IsQueue capacity :=
  ((start_intact partition capacity).reaches h).is_queue

theorem first_in_first_out_sample :
    let first : MessageBatch := ⟨1, 1, "0", .epoch, 0, []⟩
    let second : MessageBatch := ⟨2, 2, "0", .epoch, 0, []⟩
    let used : Usage := ⟨⟨"0", ⟨1, [second], false, true⟩, none, false, .receiving⟩, none,
      [first, second], [first]⟩
    (start "0" 0).Reaches used ∧ used.IsQueue 0 := by
  intro first second used
  have hwaited : (start "0" 0).Reaches
      ⟨⟨"0", ⟨1, [], true, true⟩, some first, false, .receiving⟩, none, [first], []⟩ := by
    refine .tail (.tail (.tail .refl (.beginWait 10 rfl)) (.push first rfl rfl)) ?_
    exact .continueWait false 3 10 rfl
  have hreaches : (start "0" 0).Reaches used := by
    refine .tail (.tail (.tail hwaited (.push second rfl rfl)) (.dropWriter rfl)) ?_
    exact .pop rfl
  exact ⟨hreaches, first_in_first_out "0" 0 hreaches⟩

end Usage

end PartitionSource

end WindowJoin

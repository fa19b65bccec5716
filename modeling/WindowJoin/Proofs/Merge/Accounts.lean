import WindowJoin.Proofs.Merge.History

/-!
# The accounts of a merge

Every batch that has been pushed to a partition is sent, held by the merge, or in stock, in this
order (`Merge.Run.Accounted`, kept by `Merge.Run.Accounted.step`). What has been pushed only grows,
and stays as it is once the writer has gone (`Merge.Run.step_precedes`).
-/

namespace WindowJoin

namespace PartitionSource.Written

variable {source after : PartitionSource} {batches : List MessageBatch}

theorem stock (h : source.Written batches after) :
    after.stock.batches = source.stock.batches ++ batches := by
  cases h with
  | push _ hsend =>
      obtain ⟨-, rfl⟩ := Channel.send_eq hsend
      exact (List.append_assoc ..).symm
  | leave | signal => exact (List.append_nil _).symm

/-- A writer that has gone pushes nothing and does not come back. -/
theorem gone (h : source.Written batches after) (hgone : source.channel.senderOpen = false) :
    batches = [] ∧ after.channel.senderOpen = false := by
  cases h with
  | push hopen => simp [hopen] at hgone
  | leave => exact ⟨rfl, rfl⟩
  | signal => exact ⟨rfl, hgone⟩

theorem head (h : source.Written batches after) : after.head = source.head := by
  cases h <;> rfl

theorem exhausted (h : source.Written batches after) : after.exhausted = source.exhausted := by
  cases h <;> rfl

theorem sound (h : source.Written batches after) (hsound : source.Sound) : after.Sound where
  readable := by
    cases h with
    | push _ hsend =>
        obtain ⟨-, rfl⟩ := Channel.send_eq hsend
        exact hsound.readable
    | leave | signal => exact hsound.readable
  ended hend := by
    obtain ⟨hgone, hstock⟩ := hsound.ended (h.exhausted ▸ hend)
    obtain ⟨hbatches, hgone⟩ := h.gone hgone
    rw [h.stock, hstock, hbatches]
    exact ⟨hgone, rfl⟩

end PartitionSource.Written

/-- A slot whose merge is at work: one that is closed has met the end of its channel. -/
structure MergeSlot.Sound (slot : MergeSlot) : Prop where
  source : slot.source.Sound
  closed : slot.closed = true → slot.source.exhausted = true

theorem MergeSlot.Sound.refill {slot next : MergeSlot} (h : slot.Sound)
    (hrefills : slot.source.Refills next.source)
    (hclosed : next.closed = true → slot.closed = true ∨ next.source.exhausted = true) :
    next.Sound where
  source := hrefills.sound h.source
  closed hnext := by
    rcases hclosed hnext with hslot | hend
    · exact hrefills.exhausted (h.closed hslot)
    · exact hend

namespace Merge

/-- All slots of a merge that is at work are sound. -/
def View.Sound (view : View) : Prop :=
  ∀ slot ∈ view.slots, slot.Sound

namespace View.Sound

variable {view : View}

/-- A slot is replaced by one that is sound. -/
theorem set (h : view.Sound) (index : Nat) {next : MergeSlot} (hnext : next.Sound) :
    (view.set index next).Sound := by
  intro slot hslot
  rcases List.mem_or_eq_of_mem_set hslot with hslot | rfl
  · exact h slot hslot
  · exact hnext

/-- A partition is looked at. -/
theorem look (h : view.Sound) {index : Nat} {slot : MergeSlot}
    (hslot : view.slots[index]? = some slot) : (view.set index slot.fill).Sound :=
  h.set index ((h slot (List.mem_of_getElem? hslot)).refill slot.fill_refills fun hclosed =>
    .inl (slot.fill_closed ▸ hclosed))

theorem update (h : view.Sound) (rules : MergeRules) (wall : Instant)
    (question : MergeSlot.Question) {index : Nat} {slot : MergeSlot}
    (hslot : view.slots[index]? = some slot) :
    (view.set index (slot.update rules wall question).1).Sound := by
  have hupdated := slot.update_updated rules wall question
  refine h.set index ((h slot (List.mem_of_getElem? hslot)).refill hupdated.refills ?_)
  intro hclosed
  generalize slot.update rules wall question = next at *
  cases hupdated with
  | drained _ hend => exact .inr hend
  | closed | lively | empty | undrained | silent => exact .inl hclosed

theorem poll (h : view.Sound) {wait : Wait} {slots : List MergeSlot}
    (hpoll : pollSlot? view wait = some slots) : View.Sound { view with slots } := by
  rcases poll_slot_cases hpoll with ⟨-, rfl⟩ | ⟨first, ready, source, hfirst, hwait, rfl⟩
  · exact h
  · have hrefills := first.source.continue_wait_refills view.cancelled view.now wait.deadline
    rw [hwait] at hrefills
    exact h.set wait.slot ((h first (List.mem_of_getElem? hfirst)).refill hrefills .inl)

theorem pop (h : view.Sound) (index : Nat) : (view.pop index).Sound := by
  intro slot hslot
  obtain ⟨place, hplace⟩ := List.getElem?_of_mem hslot
  rw [View.pop, List.getElem?_modify] at hplace
  obtain ⟨first, hfirst, rfl⟩ := Option.map_eq_some_iff.mp hplace
  have hsound := h first (List.mem_of_getElem? hfirst)
  split
  · refine ⟨⟨hsound.source.readable, fun hend => ?_⟩, hsound.closed⟩
    obtain ⟨hgone, hstock⟩ := hsound.source.ended hend
    exact ⟨hgone, (List.append_eq_nil_iff.mp hstock).2⟩
  · exact hsound

end View.Sound

/-! ## What is pushed only grows -/

namespace Moment

/-- What a partition holds for the merge. -/
def stock (moment : Moment) (index : Nat) : List MessageBatch :=
  (moment.view.slots[index]?).elim [] (·.source.stock.batches)

/-- Whether a partition has its writer. -/
def writing (moment : Moment) (index : Nat) : Bool :=
  (moment.view.slots[index]?).any (·.source.channel.senderOpen)

variable {before between after : Moment}

theorem stock_of_slot {moment : Moment} {index : Nat} {slot : MergeSlot}
    (h : moment.view.slots[index]? = some slot) :
    moment.stock index = slot.source.stock.batches := by
  rw [stock, h]
  rfl

theorem stock_eq (moment : Moment) (index : Nat) :
    moment.stock index = ((stocksOf moment.view.slots)[index]?).elim [] Stock.batches := by
  rw [stock, stocksOf, List.getElem?_map]
  cases moment.view.slots[index]? <;> rfl

theorem stock_congr (h : stocksOf after.view.slots = stocksOf before.view.slots) (index : Nat) :
    after.stock index = before.stock index := by
  rw [stock_eq, stock_eq, h]

theorem writing_congr (h : writersOf after.view.slots = writersOf before.view.slots)
    (index : Nat) : after.writing index = before.writing index := by
  have hwriting (moment : Moment) : moment.writing index =
      ((writersOf moment.view.slots)[index]?).any id := by
    rw [writing, writersOf, List.getElem?_map]
    cases moment.view.slots[index]? <;> rfl
  rw [hwriting, hwriting, h]

/-- Since one moment, only writers that were there have pushed. -/
structure Precedes (before after : Moment) : Prop where
  grows : ∀ index, before.pushed index <+: after.pushed index
  gone : ∀ index, before.writing index = false →
    after.writing index = false ∧ after.pushed index = before.pushed index

namespace Precedes

theorem of_writers (hpushed : after.pushed = before.pushed)
    (hwriters : writersOf after.view.slots = writersOf before.view.slots) :
    before.Precedes after where
  grows _ := hpushed ▸ List.prefix_rfl
  gone index hgone := by
    rw [hpushed, writing_congr hwriters]
    exact ⟨hgone, rfl⟩

theorem trans (h : before.Precedes between) (h' : between.Precedes after) :
    before.Precedes after where
  grows index := (h.grows index).trans (h'.grows index)
  gone index hgone := by
    obtain ⟨hbetween, hpushed⟩ := h.gone index hgone
    obtain ⟨hafter, hpushed'⟩ := h'.gone index hbetween
    exact ⟨hafter, hpushed'.trans hpushed⟩

theorem look {moment : Moment} {index : Nat} {slot : MergeSlot}
    (hslot : moment.view.slots[index]? = some slot) : moment.Precedes (moment.look index slot) :=
  .of_writers rfl (look_refills hslot).writers

/-- A writer only adds, and only if it is there. -/
theorem write {moment : Moment} {index : Nat} {slot : MergeSlot} {batches : List MessageBatch}
    {source : PartitionSource} (hslot : moment.view.slots[index]? = some slot)
    (hwritten : slot.source.Written batches source) :
    moment.Precedes (moment.write index { slot with source } batches) where
  grows other := by
    by_cases hother : other = index
    · subst hother
      simp [Moment.write]
    · simp [Moment.write, Function.update_of_ne hother]
  gone other hgone := by
    by_cases hother : other = index
    · subst hother
      rw [Moment.writing, hslot] at hgone
      obtain ⟨rfl, hafter⟩ := hwritten.gone hgone
      have hlt := (List.getElem?_eq_some_iff.mp hslot).1
      simp [Moment.writing, Moment.write, hlt, hafter]
    · simpa [Moment.writing, Moment.write, Function.update_of_ne hother,
        List.getElem?_set_ne (Ne.symm hother)] using hgone

end Precedes

end Moment

theorem finish_writers (view : View) : writersOf (finish view).2.slots = writersOf view.slots := by
  show writersOf (view.slots.map _) = _
  rw [writersOf, List.map_map]
  rfl

namespace Run

variable {rules : MergeRules} {sources : List PartitionSource} {run next : Run}

theorem Turned.writers (h : run.Turned rules next) :
    writersOf next.here.view.slots = writersOf run.here.view.slots := by
  cases h with
  | begin | await | review | resume | idle | send => rfl
  | survey _ hslot | look _ hslot => exact (look_refills hslot).writers
  | settle _ _ hpoll | wake _ hpoll => exact (poll_slot_refills hpoll).writers
  | update _ hslot => exact (update_refills rules _ _ hslot).writers
  | choose => exact pop_writers _ _
  | drain | stop => exact finish_writers _

theorem Turned.pushed (h : run.Turned rules next) : next.here.pushed = run.here.pushed := by
  cases h <;> rfl

theorem step_precedes (h : run.Step rules next) : run.here.Precedes next.here := by
  cases h with
  | turn hturn =>
      have hturned := after_turned hturn
      exact .of_writers hturned.pushed hturned.writers
  | write hslot hwritten => exact .write hslot hwritten
  | receive | refuse | leave | cancel | elapse => exact .of_writers rfl rfl

end Run

/-! ## Nothing is lost -/

/-- The batches of one partition among those that were chosen. -/
def ofPlace (index : Nat) (choices : List Choice) : List MessageBatch :=
  (choices.filter (·.index = index)).map (·.batch)

@[simp] theorem of_place_append (index : Nat) (first second : List Choice) :
    ofPlace index (first ++ second) = ofPlace index first ++ ofPlace index second := by
  simp [ofPlace]

/-- What has been pushed to a partition has been chosen or is in stock, in this order. -/
def Moment.Balanced (moment : Moment) (choices : List Choice) : Prop :=
  ∀ index, moment.pushed index = ofPlace index choices ++ moment.stock index

theorem Moment.Balanced.congr {before after : Moment} {choices : List Choice}
    (h : before.Balanced choices) (hpushed : after.pushed = before.pushed)
    (hstocks : stocksOf after.view.slots = stocksOf before.view.slots) : after.Balanced choices := by
  intro index
  rw [hpushed, stock_congr hstocks]
  exact h index

theorem Moment.Balanced.look {moment : Moment} {choices : List Choice} (h : moment.Balanced choices)
    {index : Nat} {slot : MergeSlot} (hslot : moment.view.slots[index]? = some slot) :
    (moment.look index slot).Balanced choices :=
  h.congr rfl (look_refills hslot).stocks

/-- A merge whose slots are all closed has lost all writers, and nothing is in stock. -/
theorem closed_empty {view : View} (hsound : view.Sound)
    (hclosed : ∀ slot ∈ view.slots, slot.closed = true) (pushed : Nat → List MessageBatch)
    (index : Nat) :
    Moment.writing ⟨view, pushed⟩ index = false ∧ Moment.stock ⟨view, pushed⟩ index = [] := by
  rw [Moment.writing, Moment.stock]
  cases hslot : view.slots[index]? with
  | none => exact ⟨rfl, rfl⟩
  | some slot =>
      have hmem := List.mem_of_getElem? hslot
      exact (hsound slot hmem).source.ended ((hsound slot hmem).closed (hclosed slot hmem))

/-- A batch that is chosen is taken out of stock. -/
theorem Moment.Balanced.choose {moment : Moment} {choices : List Choice}
    (h : moment.Balanced choices) {index : Nat} {slot : MergeSlot} {batch : MessageBatch}
    (hslot : moment.view.slots[index]? = some slot) (hhead : slot.source.head = some batch)
    (round : Round) (looks : Nat → Moment) : Balanced ⟨moment.view.pop index, moment.pushed⟩
      (choices ++ [⟨index, batch, round, looks, moment⟩]) := by
  obtain ⟨hbatches, hstocks⟩ := pop_stocks hslot hhead
  have hlt : index < (stocksOf moment.view.slots).length := by
    rw [stocksOf, List.length_map]
    exact (List.getElem?_eq_some_iff.mp hslot).1
  intro other
  show moment.pushed other = _
  rw [h other, of_place_append, stock_eq ⟨moment.view.pop index, _⟩, hstocks, List.append_assoc]
  by_cases hother : index = other
  · subst hother
    rw [List.getElem?_set_self hlt, stock_of_slot hslot, hbatches]
    simp [ofPlace]
  · rw [List.getElem?_set_ne hother, ← stock_eq]
    simp [ofPlace, hother]

/-- What a writer pushes is in stock. -/
theorem Moment.Balanced.write {moment : Moment} {choices : List Choice}
    (h : moment.Balanced choices) {index : Nat} {slot : MergeSlot} {batches : List MessageBatch}
    {source : PartitionSource} (hslot : moment.view.slots[index]? = some slot)
    (hwritten : slot.source.Written batches source) :
    (moment.write index { slot with source } batches).Balanced choices := by
  intro other
  have hother := h other
  by_cases hindex : index = other
  · subst hindex
    have hlt := (List.getElem?_eq_some_iff.mp hslot).1
    have hstock : (moment.write index { slot with source } batches).stock index =
        source.stock.batches := by
      simp [stock, Moment.write, hlt]
    rw [stock_of_slot hslot] at hother
    rw [hstock, hwritten.stock, ← List.append_assoc, ← hother]
    exact Function.update_self ..
  · have hstock : (moment.write index { slot with source } batches).stock other =
        moment.stock other := by
      simp [stock, Moment.write, List.getElem?_set_ne hindex]
    rw [hstock, ← hother]
    exact Function.update_of_ne (Ne.symm hindex) ..

/-- The batch that a merge holds. -/
def Control.held? : Control → Option MessageBatch
  | .sending batch => some batch
  | _ => none

theorem go_on_held (index : Nat) (wall : Instant) (next : Option MergeSlot.Question) :
    (goOn index wall next).held? = none := by
  cases next <;> rfl

theorem go_on_working (index : Nat) (wall : Instant) (next : Option MergeSlot.Question) :
    goOn index wall next ≠ .finished := by
  cases next <;> exact nofun

namespace Run

/-- What has been chosen, whether it has been sent or not. -/
def choices (run : Run) : List Choice :=
  run.sent ++ run.held.toList

/-- What was pushed has been sent, is held, or is in stock, and a merge that has ended because all
partitions are drained has sent it. -/
structure Accounted (run : Run) : Prop where
  passes : run.here.view.output.Passes (run.sent.map (·.batch)) run.received
  holds : run.held.map (·.batch) = run.control.held?
  sound : run.control ≠ .finished → run.here.view.Sound
  balanced : run.control ≠ .finished → run.here.Balanced run.choices
  begins : ∀ index, ofPlace index run.sent <+: run.here.pushed index
  drained : run.drained = true → ∀ index,
    run.here.writing index = false ∧ ofPlace index run.sent = run.here.pushed index
  ended : run.control = .finished → run.drained = true ∨ run.here.view.cancelled = true ∨
    run.here.view.output.receiverOpen = false
  finished : run.drained = true → run.control = .finished

variable {rules : MergeRules} {sources : List PartitionSource} {run next : Run}

namespace Accounted

/-- A merge that holds no batch goes on to fill its sources. -/
theorem refill (h : run.Accounted) (hworking : run.control ≠ .finished)
    (hheld : run.control.held? = none) {control : Control} (hnext : control ≠ .finished)
    (hnone : control.held? = none) {slots : List MergeSlot}
    (hrefills : Refills run.here.view.slots slots)
    (hsound : View.Sound { run.here.view with slots }) (round : Round) (earlier : List Round)
    (looks : Nat → Moment) :
    Accounted { run.see { run.here.view with slots } with control, round, earlier, looks } where
  passes := h.passes
  holds := by
    rw [hnone, ← hheld]
    exact h.holds
  sound _ := hsound
  balanced _ := (h.balanced hworking).congr rfl hrefills.stocks
  begins := h.begins
  drained hdrained := absurd (h.finished hdrained) hworking
  ended hfinished := absurd hfinished hnext
  finished hdrained := absurd (h.finished hdrained) hworking

theorem held_none (h : run.Accounted) (hcontrol : run.control.held? = none) : run.held = none := by
  rw [← Option.map_eq_none_iff, h.holds, hcontrol]

theorem not_held (h : run.Accounted) (hcontrol : run.control.held? = none) {choice : Choice} :
    run.held ≠ some choice := by
  rw [h.held_none hcontrol]
  nofun

theorem held_some (h : run.Accounted) {batch : MessageBatch}
    (hcontrol : run.control.held? = some batch) :
    ∃ choice, run.held = some choice ∧ choice.batch = batch := by
  rw [← Option.map_eq_some_iff, h.holds, hcontrol]

/-- With nothing held, what was sent balances what was pushed. -/
theorem balanced_sent (h : run.Accounted) (hworking : run.control ≠ .finished)
    (hheld : run.control.held? = none) : run.here.Balanced run.sent := by
  have hbalanced := h.balanced hworking
  rwa [choices, h.held_none hheld, Option.toList_none, List.append_nil] at hbalanced

/-- A merge that holds no batch goes on without touching its sources. -/
theorem proceed (h : run.Accounted) (hworking : run.control ≠ .finished)
    (hheld : run.control.held? = none) {control : Control} (hnext : control ≠ .finished)
    (hnone : control.held? = none) (round : Round) (earlier : List Round) (looks : Nat → Moment) :
    Accounted { run with control, round, earlier, looks } :=
  h.refill hworking hheld hnext hnone (.refl _) (h.sound hworking) round earlier looks

theorem turned (h : run.Accounted) (hturned : run.Turned rules next) : next.Accounted := by
  cases hturned with
  | begin hcontrol | await hcontrol | review hcontrol | resume hcontrol | idle hcontrol =>
      exact h.proceed (hcontrol ▸ nofun) (hcontrol ▸ rfl) (by simp) (by rfl) _ _ _
  | survey hcontrol hslot | look hcontrol hslot =>
      have hworking : run.control ≠ .finished := hcontrol ▸ nofun
      exact h.refill hworking (hcontrol ▸ rfl) (by simp) (by rfl) (look_refills hslot)
        ((h.sound hworking).look hslot) _ _ _
  | settle hcontrol _ hpoll | wake hcontrol hpoll =>
      have hworking : run.control ≠ .finished := hcontrol ▸ nofun
      exact h.refill hworking (hcontrol ▸ rfl) (by simp) (by rfl) (poll_slot_refills hpoll)
        ((h.sound hworking).poll hpoll) _ _ _
  | update hcontrol hslot =>
      have hworking : run.control ≠ .finished := hcontrol ▸ nofun
      exact h.refill hworking (hcontrol ▸ rfl) (go_on_working _ _ _) (go_on_held _ _ _)
        (update_refills rules _ _ hslot) ((h.sound hworking).update rules _ _ hslot) _ _ _
  | choose hcontrol _ _ hslot hhead =>
      have hworking : run.control ≠ .finished := hcontrol ▸ nofun
      have hsent := h.balanced_sent hworking (hcontrol ▸ rfl)
      exact {
        passes := h.passes
        holds := rfl
        sound := fun _ => (h.sound hworking).pop _
        balanced := fun _ => hsent.choose hslot (MergeSlot.source_head hhead) run.round run.looks
        begins := h.begins
        drained := fun hdrained => absurd (h.finished hdrained) hworking
        ended := nofun
        finished := fun hdrained => absurd (h.finished hdrained) hworking }
  | @send batch output hcontrol _ hsend =>
      have hworking : run.control ≠ .finished := hcontrol ▸ nofun
      obtain ⟨choice, hheld, hbatch⟩ := h.held_some
        (show run.control.held? = some batch by rw [hcontrol]; rfl)
      have hbalanced := h.balanced hworking
      exact {
        passes := by
          have hpasses := h.passes.send hsend
          rw [← hbatch] at hpasses
          show output.Passes ((run.sent ++ run.held.toList).map (·.batch)) run.received
          simpa [hheld] using hpasses
        holds := rfl
        sound := fun _ => h.sound hworking
        balanced := fun _ => by
          show Moment.Balanced _ (run.choices ++ [])
          rw [List.append_nil]
          exact hbalanced
        begins := fun index => by
          show _ <+: run.here.pushed index
          rw [hbalanced index]
          exact List.prefix_append ..
        drained := fun hdrained => absurd (h.finished hdrained) hworking
        ended := nofun
        finished := fun hdrained => absurd (h.finished hdrained) hworking }
  | drain hcontrol hclosed =>
      have hworking : run.control ≠ .finished := hcontrol ▸ nofun
      have hnone := h.held_none (hcontrol ▸ rfl)
      have hsent := h.balanced_sent hworking (hcontrol ▸ rfl)
      have hempty := closed_empty (h.sound hworking) hclosed run.here.pushed
      exact {
        passes := h.passes.drop_sender
        holds := by rw [see, hnone]; rfl
        sound := fun hfinished => absurd rfl hfinished
        balanced := fun hfinished => absurd rfl hfinished
        begins := h.begins
        drained := fun _ index => by
          have hpushed := hsent index
          rw [(hempty index).2, List.append_nil] at hpushed
          exact ⟨(Moment.writing_congr (finish_writers _) index).trans (hempty index).1,
            hpushed.symm⟩
        ended := fun _ => .inl rfl
        finished := fun _ => rfl }
  | stop hcontrol hend =>
      have hworking : run.control ≠ .finished := by
        rcases hcontrol with hcontrol | ⟨batch, hcontrol⟩ <;> exact hcontrol ▸ nofun
      exact {
        passes := h.passes.drop_sender
        holds := rfl
        sound := fun hfinished => absurd rfl hfinished
        balanced := fun hfinished => absurd rfl hfinished
        begins := h.begins
        drained := fun hdrained => absurd (h.finished hdrained) hworking
        ended := fun _ => .inr hend
        finished := fun _ => rfl }

theorem write (h : run.Accounted) {index : Nat} {slot : MergeSlot} {batches : List MessageBatch}
    {source : PartitionSource} (hslot : run.here.view.slots[index]? = some slot)
    (hwritten : slot.source.Written batches source) :
    Accounted { run with here := run.here.write index { slot with source } batches } where
  passes := h.passes
  holds := h.holds
  sound hworking := by
    have hsound := h.sound hworking
    intro next hnext
    rcases List.mem_or_eq_of_mem_set hnext with hnext | rfl
    · exact hsound next hnext
    · have hslot_sound := hsound slot (List.mem_of_getElem? hslot)
      refine ⟨hwritten.sound hslot_sound.source, fun hclosed => ?_⟩
      exact hwritten.exhausted.trans (hslot_sound.closed hclosed)
  balanced hworking := (h.balanced hworking).write hslot hwritten
  begins other := (h.begins other).trans ((Moment.Precedes.write hslot hwritten).grows other)
  drained hdrained other := by
    obtain ⟨hgone, hsent⟩ := h.drained hdrained other
    obtain ⟨hstill, hpushed⟩ := (Moment.Precedes.write hslot hwritten).gone other hgone
    exact ⟨hstill, hsent.trans hpushed.symm⟩
  ended := h.ended
  finished := h.finished

/-- Nothing changes about the sources. -/
theorem outside (h : run.Accounted) (view : View) (received : List MessageBatch)
    (hslots : view.slots = run.here.view.slots)
    (hpasses : view.output.Passes (run.sent.map (·.batch)) received)
    (hended : run.here.view.cancelled = true ∨ run.here.view.output.receiverOpen = false →
      view.cancelled = true ∨ view.output.receiverOpen = false) :
    Accounted { run.see view with received } where
  passes := hpasses
  holds := h.holds
  sound hworking := by
    show ∀ slot ∈ view.slots, slot.Sound
    rw [hslots]
    exact h.sound hworking
  balanced hworking := (h.balanced hworking).congr rfl (congrArg stocksOf hslots)
  begins := h.begins
  drained hdrained index := by
    have hwriting : Moment.writing ⟨view, run.here.pushed⟩ index = run.here.writing index :=
      Moment.writing_congr (congrArg writersOf hslots) index
    exact ⟨hwriting.trans (h.drained hdrained index).1, (h.drained hdrained index).2⟩
  ended hfinished := (h.ended hfinished).imp_right hended
  finished := h.finished

theorem step (h : run.Accounted) (hstep : run.Step rules next) : next.Accounted := by
  cases hstep with
  | turn hturn => exact h.turned (after_turned hturn)
  | write hslot hwritten => exact h.write hslot hwritten
  | receive hreceive =>
      have hopen := congrArg Channel.receiverOpen (Channel.receive_eq hreceive).2
      exact h.outside _ _ rfl (h.passes.receive hreceive) (Or.imp_right hopen.trans)
  | refuse =>
      exact h.outside { run.here.view with output := run.here.view.output.refuse } _ rfl
        h.passes.refuse fun _ => .inr rfl
  | leave =>
      exact h.outside { run.here.view with output := run.here.view.output.dropReceiver } _ rfl
        h.passes.drop_receiver fun _ => .inr rfl
  | cancel =>
      exact h.outside { run.here.view with cancelled := true } _ rfl h.passes fun _ => .inl rfl
  | @elapse now wall => exact h.outside { run.here.view with now, wall } _ rfl h.passes id

end Accounted

theorem start_accounted (hsound : ∀ source ∈ sources, source.Sound) (capacity : Nat)
    (cancelled : Bool) (now : Nat) (wall : Instant) :
    (start sources capacity cancelled now wall).Accounted where
  passes := Channel.passes_new capacity
  holds := rfl
  sound _ := by
    intro slot hslot
    obtain ⟨source, hsource, rfl⟩ := List.mem_map.mp hslot
    exact ⟨hsound source hsource, nofun⟩
  balanced _ index := by
    show (sources[index]?).elim [] _ = _
    simp only [start, Moment.stock, List.getElem?_map]
    cases sources[index]? <;> rfl
  begins _ := List.nil_prefix
  drained := nofun
  ended := nofun
  finished := nofun

/-- The accounts of every run are in order. -/
theorem reachable_accounted (h : Reachable rules sources run) : run.Accounted := by
  induction h with
  | start hsound capacity cancelled now wall =>
      exact start_accounted hsound capacity cancelled now wall
  | step _ hstep ih => exact ih.step hstep

end Run

end Merge

end WindowJoin

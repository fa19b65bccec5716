import WindowJoin.Merge.Machine

/-!
# The turns of a merge

`Merge.Turn` lists what a merge can do in one transition, and under which condition;
`Merge.transitions_turn` says that it does nothing else. The parts of a turn have their own laws: what
ends a wait (`Merge.poll_slot_cases`), when a partition is waited for (`Merge.wait_for_some`), what a
look tells of a partition (`MergeSlot.update_updated`), and which head is chosen (`Merge.chosen_least`).
-/

namespace WindowJoin

/-- A wait that is over was cancelled, or its source has been filled, and it has a batch at its head,
has met the end of its channel, or was waited for until the deadline. -/
theorem PartitionSource.continue_wait_cases {source after : PartitionSource} {cancelled ready : Bool}
    {now deadline : Nat} (h : source.continueWait cancelled now deadline = (some ready, after)) :
    cancelled = true ∧ after = source ∨
      cancelled = false ∧ after = source.fill ∧
        (after.head.isSome = true ∨ after.exhausted = true ∨ deadline ≤ now) := by
  unfold continueWait at h
  split at h
  next hcancelled =>
    cases h
    exact .inl ⟨hcancelled, rfl⟩
  next hcancelled =>
    refine .inr ⟨by simpa using hcancelled, ?_⟩
    unfold beginWait at h
    dsimp only at h
    by_cases hhead : source.fill.head.isSome = true
    · simp only [if_pos hhead, Prod.mk.injEq] at h
      exact ⟨h.2.symm, .inl (h.2 ▸ hhead)⟩
    · by_cases hend : source.fill.exhausted = true
      · simp only [if_neg hhead, if_pos hend, Prod.mk.injEq] at h
        exact ⟨h.2.symm, .inr (.inl (h.2 ▸ hend))⟩
      · simp only [if_neg hhead, if_neg hend, Prod.mk.injEq] at h
        obtain ⟨hready, hafter⟩ := h
        split at hready
        next hdue => exact ⟨hafter.symm, .inr (.inr hdue)⟩
        next => cases hready

/-- The head that counts for the choice is at the head of the source. -/
theorem MergeSlot.source_head {slot : MergeSlot} {batch : MessageBatch}
    (h : slot.head? = some batch) : slot.source.head = some batch := by
  unfold head? at h
  split at h
  · cases h
  · exact h

/-- What comes of one look at a partition to bring what is known of it up to date. -/
inductive MergeSlot.Updated (slot : MergeSlot) :
    MergeSlot.Question → MergeSlot × Option MergeSlot.Question → Prop where
  | closed : slot.closed = true → Updated slot .head (slot, none)
  | lively {batch : MessageBatch} {liveness : Liveness} : slot.closed = false →
      slot.source.fill.head = some batch → liveness = .historical ∨ liveness = .active →
      Updated slot .head ({ slot with source := slot.source.fill, liveness }, none)
  | empty : slot.closed = false → slot.source.fill.head = none →
      Updated slot .head ({ slot with source := slot.source.fill }, some .drained)
  | drained : slot.source.fill.head = none → slot.source.fill.exhausted = true →
      Updated slot .drained ({ slot with source := slot.source.fill, closed := true }, none)
  | undrained : slot.source.fill.head.isSome = true ∨ slot.source.fill.exhausted = false →
      Updated slot .drained ({ slot with source := slot.source.fill }, some .status)
  | silent {liveness : Liveness} : liveness = .paused ∨ liveness = .inactive →
      Updated slot .status ({ slot with liveness }, none)

theorem MergeSlot.update_updated (rules : MergeRules) (wall : Instant) (slot : MergeSlot)
    (question : Question) : slot.Updated question (slot.update rules wall question) := by
  unfold update
  cases question with
  | head =>
      dsimp only
      split
      next hclosed => exact .closed hclosed
      next hopen =>
        rw [Bool.not_eq_true] at hopen
        split
        next batch hhead =>
          refine .lively hopen hhead ?_
          split
          · exact .inl rfl
          · exact .inr rfl
        next hhead => exact .empty hopen hhead
  | drained =>
      dsimp only
      split
      next hdrained =>
        simp only [PartitionSource.isDrained, Bool.and_eq_true, Option.isNone_iff_eq_none] at hdrained
        exact .drained hdrained.1 hdrained.2
      next hdrained =>
        rcases Bool.and_eq_false_iff.mp (Bool.eq_false_iff.mpr hdrained) with hhead | hend
        · exact .undrained (.inl (by simpa using hhead))
        · exact .undrained (.inr hend)
  | status =>
      refine .silent ?_
      split
      · exact .inl rfl
      · exact .inr rfl

namespace Merge

variable {rules : MergeRules} {control : Control} {view : View} {next : Control × View}

/-! ## Which head is chosen -/

/-- A head that is not before another has a later time, or the same time and no earlier place. -/
theorem head_before_eq_false {other head : Instant × Nat} : headBefore other head = false ↔
    head.1 < other.1 ∨ head.1 = other.1 ∧ head.2 ≤ other.2 := by
  simp only [headBefore, Bool.or_eq_false_iff, decide_eq_false_iff_not, Bool.and_eq_false_iff,
    Instant.not_lt, Nat.not_lt]
  constructor
  · rintro ⟨hle, hplace⟩
    rcases Instant.lt_or_eq_of_le hle with hlt | heq
    · exact .inl hlt
    · exact .inr ⟨heq, hplace.resolve_left fun hne => hne heq.symm⟩
  · rintro (hlt | ⟨heq, hplace⟩)
    · refine ⟨Instant.le_of_lt hlt, .inl fun heq => ?_⟩
      rw [heq] at hlt
      exact Instant.lt_irrefl _ hlt
    · exact ⟨heq ▸ Instant.le_refl _, .inr hplace⟩

theorem head_before_trans {first second third : Instant × Nat}
    (h : headBefore second first = false) (h' : headBefore third second = false) :
    headBefore third first = false := by
  rw [head_before_eq_false] at *
  rcases h with h | ⟨h, hplace⟩ <;> rcases h' with h' | ⟨h', hplace'⟩
  · rw [Instant.lt_def] at *
    exact .inl (by omega)
  · exact .inl (h' ▸ h)
  · exact .inl (h ▸ h')
  · exact .inr ⟨h.trans h', Nat.le_trans hplace hplace'⟩

theorem first_head_eq_none {heads : List (Instant × Nat)} : firstHead? heads = none ↔ heads = [] := by
  constructor
  · intro h
    cases heads with
    | nil => rfl
    | cons head rest =>
        rw [firstHead?] at h
        split at h
        · cases h
        · split at h <;> cases h
  · rintro rfl
    rfl

/-- No head of a list is before the first one. -/
theorem first_head_least {heads : List (Instant × Nat)} {head : Instant × Nat}
    (h : firstHead? heads = some head) :
    head ∈ heads ∧ ∀ other ∈ heads, headBefore other head = false := by
  have hself (head : Instant × Nat) : headBefore head head = false :=
    head_before_eq_false.mpr (.inr ⟨rfl, Nat.le_refl _⟩)
  induction heads generalizing head with
  | nil => cases h
  | cons front rest ih =>
      rw [firstHead?] at h
      split at h
      next hnone =>
        obtain rfl := Option.some.inj h
        obtain rfl := first_head_eq_none.mp hnone
        exact ⟨List.mem_cons_self, by simpa using hself front⟩
      next other hother =>
        obtain ⟨hmem, hleast⟩ := ih hother
        split at h
        next hbefore =>
          obtain rfl := Option.some.inj h
          refine ⟨List.mem_cons_of_mem _ hmem, List.forall_mem_cons.mpr ⟨?_, hleast⟩⟩
          -- Of two heads at most one is before the other.
          simp only [headBefore, Bool.or_eq_true, Bool.and_eq_true, decide_eq_true_eq] at hbefore
          refine head_before_eq_false.mpr (hbefore.imp_right fun hplace => ?_)
          exact ⟨hplace.1, Nat.le_of_lt hplace.2⟩
        next hbefore =>
          obtain rfl := Option.some.inj h
          rw [Bool.not_eq_true] at hbefore
          exact ⟨List.mem_cons_self, List.forall_mem_cons.mpr ⟨hself front, fun later hlater =>
            head_before_trans hbefore (hleast later hlater)⟩⟩

theorem mem_heads {slots : List MergeSlot} {time : Instant} {index : Nat} :
    (time, index) ∈ slots.zipIdx.filterMap (fun (slot, index) =>
      slot.head?.map fun batch => (batch.enqueuedTime, index)) ↔
    ∃ slot batch, slots[index]? = some slot ∧ slot.head? = some batch ∧ batch.enqueuedTime = time := by
  simp only [List.mem_filterMap, Prod.exists, List.mk_mem_zipIdx_iff_getElem?, Option.map_eq_some_iff,
    Prod.mk.injEq]
  constructor
  · rintro ⟨slot, place, hslot, batch, hbatch, htime, rfl⟩
    exact ⟨slot, batch, hslot, hbatch, htime⟩
  · rintro ⟨slot, batch, hslot, hbatch, htime⟩
    exact ⟨slot, index, hslot, batch, hbatch, htime, rfl⟩

/-- The chosen partition has a head, and no other head has an earlier time, or the same time and an
earlier place. -/
theorem chosen_least {slots : List MergeSlot} {index : Nat} (h : chosen? slots = some index) :
    ∃ slot batch, slots[index]? = some slot ∧ slot.head? = some batch ∧
      ∀ other otherSlot otherBatch, slots[other]? = some otherSlot →
        otherSlot.head? = some otherBatch →
        batch.enqueuedTime < otherBatch.enqueuedTime ∨
          batch.enqueuedTime = otherBatch.enqueuedTime ∧ index ≤ other := by
  obtain ⟨⟨time, place⟩, hfirst, rfl⟩ := Option.map_eq_some_iff.mp h
  obtain ⟨hmem, hleast⟩ := first_head_least hfirst
  obtain ⟨slot, batch, hslot, hbatch, rfl⟩ := mem_heads.mp hmem
  refine ⟨slot, batch, hslot, hbatch, fun other otherSlot otherBatch hother hhead => ?_⟩
  exact head_before_eq_false.mp (hleast _ (mem_heads.mpr ⟨otherSlot, otherBatch, hother, hhead, rfl⟩))

/-- If no partition is chosen, none has a head. -/
theorem head_none_of_chosen_none {slots : List MergeSlot} (h : chosen? slots = none) {index : Nat}
    {slot : MergeSlot} (hslot : slots[index]? = some slot) : slot.head? = none := by
  rw [Option.eq_none_iff_forall_not_mem]
  intro batch hbatch
  have hmem := mem_heads.mpr ⟨slot, batch, hslot, hbatch, rfl⟩
  rw [chosen?, Option.map_eq_none_iff, first_head_eq_none] at h
  rw [h] at hmem
  cases hmem

/-! ## Waits -/

theorem wait_for_some {now index : Nat} {slot : MergeSlot} {wait : Wait} :
    waitFor? rules now index slot = some wait ↔ ∃ timeout, slot.closed = false ∧
      slot.source.head = none ∧ slot.source.exhausted = false ∧ slot.timeout? rules = some timeout ∧
      wait = ⟨index, pauseEnd now timeout⟩ := by
  simp only [waitFor?, Option.ite_none_left_eq_some, Bool.or_eq_true, not_or, Bool.not_eq_true,
    Option.map_eq_some_iff, Option.isSome_eq_false_iff, Option.isNone_iff_eq_none]
  constructor
  · rintro ⟨⟨⟨hclosed, hhead⟩, hend⟩, timeout, htimeout, rfl⟩
    exact ⟨timeout, hclosed, hhead, hend, htimeout, rfl⟩
  · rintro ⟨timeout, hclosed, hhead, hend, htimeout, rfl⟩
    exact ⟨⟨⟨hclosed, hhead⟩, hend⟩, timeout, htimeout, rfl⟩

/-- A wait that is over concerns the source of its partition only. -/
theorem poll_slot_cases {wait : Wait} {slots : List MergeSlot}
    (h : pollSlot? view wait = some slots) :
    view.slots[wait.slot]? = none ∧ slots = view.slots ∨
      ∃ slot ready source, view.slots[wait.slot]? = some slot ∧
        slot.source.continueWait view.cancelled view.now wait.deadline = (some ready, source) ∧
        slots = view.slots.set wait.slot { slot with source } := by
  unfold pollSlot? at h
  split at h
  next hnone => exact .inl ⟨hnone, (Option.some.inj h).symm⟩
  next slot hslot =>
    split at h
    next ready source hwait =>
      exact .inr ⟨slot, ready, source, hslot, hwait, (Option.some.inj h).symm⟩
    next => cases h

/-! ## Turns -/

/-- What a merge does in one transition. -/
inductive Turn (rules : MergeRules) (control : Control) (view : View) : Control × View → Prop where
  /-- A round begins. -/
  | begin : control = .top → view.cancelled = false →
      Turn rules control view (.surveying 0 [], view)
  /-- A partition is looked at, and its wait is noted. -/
  | survey {index : Nat} {waits : List Wait} {slot : MergeSlot} : control = .surveying index waits →
      view.slots[index]? = some slot →
      Turn rules control view
        (.surveying (index + 1) (waits ++ (waitFor? rules view.now index slot.fill).toList),
          view.set index slot.fill)
  | await {index : Nat} {waits : List Wait} : control = .surveying index waits →
      view.slots[index]? = none → Turn rules control view (.filling waits, view)
  /-- The wait for a partition is over. -/
  | settle {waits : List Wait} {wait : Wait} {slots : List MergeSlot} : control = .filling waits →
      wait ∈ waits → pollSlot? view wait = some slots →
      Turn rules control view (.filling (waits.erase wait), { view with slots })
  | review : control = .filling [] → Turn rules control view (.updating 0 .head view.wall, view)
  /-- A partition is looked at to bring what is known of it up to date. -/
  | update {index : Nat} {question : MergeSlot.Question} {wall : Instant} {slot : MergeSlot} :
      control = .updating index question wall → view.slots[index]? = some slot →
      Turn rules control view (goOn index wall (slot.update rules wall question).2,
        view.set index (slot.update rules wall question).1)
  | resume {index : Nat} {question : MergeSlot.Question} {wall : Instant} {slot : MergeSlot} :
      control = .updating index question wall → view.slots[index]? = none → slot ∈ view.slots →
      slot.closed = false → Turn rules control view (.choosing 0, view)
  /-- The head of a partition is looked at. -/
  | look {index : Nat} {slot : MergeSlot} : control = .choosing index →
      view.slots[index]? = some slot →
      Turn rules control view (.choosing (index + 1), view.set index slot.fill)
  | choose {count index : Nat} {slot : MergeSlot} {batch : MessageBatch} :
      control = .choosing count → view.slots[count]? = none → chosen? view.slots = some index →
      view.slots[index]? = some slot → slot.head? = some batch →
      Turn rules control view (.sending batch, view.pop index)
  | idle {count : Nat} : control = .choosing count → view.slots[count]? = none →
      chosen? view.slots = none →
      Turn rules control view (.idling (pauseEnd view.now rules.activeTimeout), view)
  | send {batch : MessageBatch} {output : Channel MessageBatch} : control = .sending batch →
      view.cancelled = false → view.output.send batch = .sent output →
      Turn rules control view (.top, { view with output })
  /-- The wait for any partition is over. -/
  | wake {deadline index : Nat} {slots : List MergeSlot} : control = .idling deadline →
      pollSlot? view ⟨index, deadline⟩ = some slots →
      Turn rules control view (.top, { view with slots })
  | drain {index : Nat} {question : MergeSlot.Question} {wall : Instant} :
      control = .updating index question wall → view.slots[index]? = none →
      (∀ slot ∈ view.slots, slot.closed = true) → Turn rules control view (finish view)
  /-- The merge ends because it is cancelled or its output is refused. -/
  | stop : control = .top ∨ (∃ batch, control = .sending batch) →
      view.cancelled = true ∨ view.output.receiverOpen = false → Turn rules control view (finish view)

theorem survey_turn (rules : MergeRules) (view : View) (index : Nat) (waits : List Wait) :
    Turn rules (.surveying index waits) view (survey rules view index waits) := by
  unfold survey
  split
  next hnone => exact .await rfl hnone
  next slot hslot => exact .survey rfl hslot

theorem refresh_turn (rules : MergeRules) (view : View) (index : Nat)
    (question : MergeSlot.Question) (wall : Instant) :
    Turn rules (.updating index question wall) view (refresh rules view index question wall) := by
  unfold refresh
  split
  next hnone =>
    split
    next hall => exact .drain rfl hnone (by simpa using hall)
    next hall =>
      obtain ⟨slot, hslot, hopen⟩ : ∃ slot ∈ view.slots, slot.closed = false := by
        simpa using hall
      exact .resume rfl hnone hslot hopen
  next slot hslot => exact .update rfl hslot

theorem choose_turn (rules : MergeRules) (view : View) (index : Nat) :
    Turn rules (.choosing index) view (choose rules view index) := by
  unfold choose
  split
  next slot hslot => exact .look rfl hslot
  next hnone =>
    split
    next hsilent => exact .idle rfl hnone hsilent
    next place hchosen =>
      obtain ⟨slot, batch, hslot, hhead, -⟩ := chosen_least hchosen
      rw [hslot, Option.bind_some, hhead]
      exact .choose rfl hnone hchosen hslot hhead

/-- Every transition of a merge is a turn. -/
theorem transitions_turn (h : next ∈ transitions rules control view) :
    Turn rules control view next := by
  unfold transitions at h
  split at h
  next =>
    split at h
    next hcancelled =>
      obtain rfl := List.mem_singleton.mp h
      exact .stop (.inl rfl) (.inl hcancelled)
    next hcancelled =>
      obtain rfl := List.mem_singleton.mp h
      exact .begin rfl (by simpa using hcancelled)
  next index waits =>
    obtain rfl := List.mem_singleton.mp h
    exact survey_turn rules view index waits
  next =>
    obtain rfl := List.mem_singleton.mp h
    exact .review rfl
  next first rest =>
    obtain ⟨wait, hwait, hpolled⟩ := List.mem_filterMap.mp h
    obtain ⟨slots, hslots, rfl⟩ := Option.map_eq_some_iff.mp hpolled
    exact .settle rfl hwait hslots
  next index question wall =>
    obtain rfl := List.mem_singleton.mp h
    exact refresh_turn rules view index question wall
  next index =>
    obtain rfl := List.mem_singleton.mp h
    exact choose_turn rules view index
  next batch =>
    split at h
    next hcancelled =>
      obtain rfl := List.mem_singleton.mp h
      exact .stop (.inr ⟨batch, rfl⟩) (.inl hcancelled)
    next hcancelled =>
      split at h
      next output hsend =>
        obtain rfl := List.mem_singleton.mp h
        exact .send rfl (by simpa using hcancelled) hsend
      next hsend =>
        obtain rfl := List.mem_singleton.mp h
        refine .stop (.inr ⟨batch, rfl⟩) (.inr ?_)
        unfold Channel.send at hsend
        split at hsend
        next hclosed => simpa using hclosed
        next => split at hsend <;> cases hsend
      next => cases h
  next deadline =>
    obtain ⟨⟨slot, index⟩, -, hpolled⟩ := List.mem_filterMap.mp h
    dsimp only at hpolled
    split at hpolled
    · cases hpolled
    · obtain ⟨slots, hslots, rfl⟩ := Option.map_eq_some_iff.mp hpolled
      exact .wake rfl hslots
  next => cases h

end Merge

end WindowJoin

import WindowJoin.Proofs.Merge.Choices

/-!
# A merge sorts

As long as no wait of a round ends in vain, no partition is passed over, and what a merge sends is in
order of time and, within a time, of place (`Run.sent_sorted`). A list that is sorted by time is
determined by what it has of each time (`eq_of_classes`), so when all partitions are drained the merge
has sent the stable sort of what was pushed. Main statement: `Run.sends_sorted`.
-/

namespace WindowJoin

namespace Merge

variable {rules : MergeRules} {sources : List PartitionSource} {run next : Run}

/-! ## Sorted lists -/

/-- Two lists in order of time are equal if they have the same batches of each time in the same
order. -/
theorem eq_of_classes {first second : List MessageBatch} (hfirst : Ordered first)
    (hsecond : Ordered second) (hclasses : ∀ time, first.filter (·.enqueuedTime = time) =
      second.filter (·.enqueuedTime = time)) : first = second := by
  induction first generalizing second with
  | nil =>
      cases second with
      | nil => rfl
      | cons batch rest =>
          have hclass := hclasses batch.enqueuedTime
          simp at hclass
  | cons batch rest ih =>
      cases second with
      | nil =>
          have hclass := hclasses batch.enqueuedTime
          simp at hclass
      | cons other others =>
          obtain ⟨hbatch, hrest⟩ := List.pairwise_cons.mp hfirst
          obtain ⟨hother, hothers⟩ := List.pairwise_cons.mp hsecond
          -- Each of the two first batches is somewhere in the other list, so their times agree.
          have hle : other.enqueuedTime ≤ batch.enqueuedTime := by
            have hmem : batch ∈ (other :: others).filter (·.enqueuedTime = batch.enqueuedTime) := by
              rw [← hclasses]
              simp
            rcases List.mem_cons.mp (List.mem_filter.mp hmem).1 with rfl | hmem
            · exact Instant.le_refl _
            · exact hother batch hmem
          have hge : batch.enqueuedTime ≤ other.enqueuedTime := by
            have hmem : other ∈ (batch :: rest).filter (·.enqueuedTime = other.enqueuedTime) := by
              rw [hclasses]
              simp
            rcases List.mem_cons.mp (List.mem_filter.mp hmem).1 with rfl | hmem
            · exact Instant.le_refl _
            · exact hbatch other hmem
          have htime := Instant.le_antisymm hge hle
          have hsame : batch = other := by
            have hclass := hclasses batch.enqueuedTime
            simp only [List.filter_cons, htime, decide_true, if_true] at hclass
            exact (List.cons.inj hclass).1
          subst hsame
          rw [ih hrest hothers]
          intro time
          have hclass := hclasses time
          simp only [List.filter_cons] at hclass
          split at hclass
          · exact (List.cons.inj hclass).2
          · exact hclass

/-- The order of batches by time. -/
def timeLe (first second : MessageBatch) : Bool :=
  first.enqueuedTime ≤ second.enqueuedTime

theorem time_le_trans (first second third : MessageBatch) (h : timeLe first second = true)
    (h' : timeLe second third = true) : timeLe first third = true := by
  simp only [timeLe, decide_eq_true_eq] at *
  exact Instant.le_trans h h'

theorem time_le_total (first second : MessageBatch) :
    (timeLe first second || timeLe second first) = true := by
  simp only [timeLe, Bool.or_eq_true, decide_eq_true_eq]
  exact Instant.le_total _ _

theorem ordered_merge_sort (batches : List MessageBatch) : Ordered (batches.mergeSort timeLe) :=
  (List.pairwise_mergeSort time_le_trans time_le_total batches).imp fun h => of_decide_eq_true h

/-- A stable sort leaves the batches of one time in their order. -/
theorem class_merge_sort (batches : List MessageBatch) (time : Instant) :
    (batches.mergeSort timeLe).filter (·.enqueuedTime = time) =
      batches.filter (·.enqueuedTime = time) := by
  have hclass : (batches.filter (·.enqueuedTime = time)).Pairwise
      fun first second => timeLe first second = true := by
    refine List.pairwise_of_forall_mem_list ?_
    intro first hfirst second hsecond
    have htime := of_decide_eq_true (List.mem_filter.mp hfirst).2
    have htime' := of_decide_eq_true (List.mem_filter.mp hsecond).2
    rw [timeLe, htime, htime']
    exact decide_eq_true (Instant.le_refl time)
  have hsublist := List.sublist_mergeSort time_le_trans time_le_total hclass List.filter_sublist
  have hfiltered := hsublist.filter (·.enqueuedTime = time)
  rw [List.filter_filter] at hfiltered
  simp only [Bool.and_self] at hfiltered
  refine (hfiltered.eq_of_length ?_).symm
  exact ((List.mergeSort_perm batches timeLe).filter _).length_eq.symm

/-- Choices in order of place are those of the first place, then those of the second, and so on. -/
theorem by_place {choices : List Choice} (hsorted : choices.Pairwise (·.index ≤ ·.index))
    {count : Nat} (hplaces : ∀ choice ∈ choices, choice.index < count) :
    (List.range count).flatMap (fun index => choices.filter (·.index = index)) = choices := by
  induction count generalizing choices with
  | zero =>
      cases choices with
      | nil => rfl
      | cons choice rest => exact absurd (hplaces choice List.mem_cons_self) (Nat.not_lt_zero _)
  | succ count ih =>
      have hsplit : choices.filter (·.index < count) ++ choices.filter (·.index = count) =
          choices := by
        clear ih
        induction choices with
        | nil => rfl
        | cons choice rest ih =>
            obtain ⟨hchoice, hrest⟩ := List.pairwise_cons.mp hsorted
            obtain ⟨hlt, hplaces⟩ := List.forall_mem_cons.mp hplaces
            by_cases hindex : choice.index < count
            · have hne : choice.index ≠ count := by omega
              simp [hindex, hne, ih hrest hplaces]
            · have heq : choice.index = count := by omega
              have hnone : rest.filter (·.index < count) = [] := by
                rw [List.filter_eq_nil_iff]
                intro other hother
                have hle := hchoice other hother
                simp only [decide_eq_true_eq]
                omega
              have hrest_eq := ih hrest hplaces
              rw [hnone, List.nil_append] at hrest_eq
              simp [heq, hnone, hrest_eq]
      have hbefore := ih (hsorted.filter (·.index < count)) fun choice hchoice =>
        of_decide_eq_true (List.mem_filter.mp hchoice).2
      rw [List.range_succ, List.flatMap_append, List.flatMap_singleton]
      conv_rhs => rw [← hsplit, ← hbefore]
      congr 1
      refine List.flatMap_congr fun index hindex => ?_
      rw [List.filter_filter]
      refine List.filter_congr fun choice _ => ?_
      have hlt := List.mem_range.mp hindex
      simp only [← Bool.decide_and]
      congr 1
      simp only [eq_iff_iff]
      omega

/-- Choices in order of time and place are the stable sort of their partitions one after the other. -/
theorem sorted_of_order {choices : List Choice} (horder : choices.Pairwise Choice.AtOrBefore)
    {count : Nat} (hplaces : ∀ choice ∈ choices, choice.index < count)
    {pushed : Nat → List MessageBatch} (hpushed : ∀ index, ofPlace index choices = pushed index) :
    choices.map (·.batch) = ((List.range count).flatMap pushed).mergeSort timeLe := by
  refine eq_of_classes ?_ (ordered_merge_sort _) fun time => ?_
  · refine List.pairwise_map.mpr (horder.imp ?_)
    rintro first later (hlt | ⟨heq, -⟩)
    · exact Instant.le_of_lt hlt
    · rw [heq]
      exact Instant.le_refl _
  -- Within a time, the choices are in order of place.
  have hclass : (choices.filter (·.batch.enqueuedTime = time)).Pairwise (·.index ≤ ·.index) := by
    refine List.Pairwise.imp_of_mem ?_ (horder.filter _)
    intro first later hfirst hlater horder
    have htime := of_decide_eq_true (List.mem_filter.mp hfirst).2
    have htime' := of_decide_eq_true (List.mem_filter.mp hlater).2
    rcases horder with hlt | ⟨-, hindex⟩
    · rw [htime, htime'] at hlt
      exact absurd hlt (Instant.lt_irrefl time)
    · exact hindex
  have hby_place := by_place hclass fun choice hchoice =>
    hplaces choice (List.mem_filter.mp hchoice).1
  rw [class_merge_sort, List.filter_flatMap]
  calc (choices.map (·.batch)).filter (·.enqueuedTime = time)
      = (choices.filter (·.batch.enqueuedTime = time)).map (·.batch) := List.filter_map
    _ = (List.range count).flatMap fun index => ((choices.filter
          (·.batch.enqueuedTime = time)).filter (·.index = index)).map (·.batch) := by
        conv_lhs => rw [← hby_place]
        exact List.map_flatMap
    _ = (List.range count).flatMap fun index =>
          (pushed index).filter (·.enqueuedTime = time) := by
        refine List.flatMap_congr fun index _ => ?_
        rw [← hpushed, ofPlace, List.filter_map, List.filter_filter, List.filter_filter]
        simp only [Bool.and_comm, Function.comp_def]

/-! ## No partition is passed over -/

/-- Every partition is waited for when it has nothing at hand. -/
def View.Lively (rules : MergeRules) (view : View) : Prop :=
  ∀ slot ∈ view.slots, slot.timeout? rules ≠ none

namespace View.Lively

variable {view : View}

/-- A slot is replaced by one that is waited for. -/
theorem set (h : view.Lively rules) (index : Nat) {next : MergeSlot}
    (hnext : next.timeout? rules ≠ none) : (view.set index next).Lively rules := by
  intro slot hslot
  rcases List.mem_or_eq_of_mem_set hslot with hslot | rfl
  · exact h slot hslot
  · exact hnext

theorem look (h : view.Lively rules) {index : Nat} {slot : MergeSlot}
    (hslot : view.slots[index]? = some slot) : (view.set index slot.fill).Lively rules := by
  refine h.set index ?_
  rw [MergeSlot.timeout?, slot.fill_liveness]
  exact h slot (List.mem_of_getElem? hslot)

theorem poll (h : view.Lively rules) {wait : Wait} {slots : List MergeSlot}
    (hpoll : pollSlot? view wait = some slots) : Lively rules { view with slots } := by
  intro slot hslot
  obtain ⟨index, hindex⟩ := List.getElem?_of_mem hslot
  obtain ⟨first, source, hfirst, -, rfl⟩ := poll_slot_origin hpoll hindex
  exact h first (List.mem_of_getElem? hfirst)

theorem pop (h : view.Lively rules) (index : Nat) : (view.pop index).Lively rules := by
  intro slot hslot
  obtain ⟨place, hplace⟩ := List.getElem?_of_mem hslot
  rw [View.pop, List.getElem?_modify] at hplace
  obtain ⟨first, hfirst, rfl⟩ := Option.map_eq_some_iff.mp hplace
  have hfirst_lively := h first (List.mem_of_getElem? hfirst)
  split <;> exact hfirst_lively

/-- A partition only falls silent when it is asked what its receiver does. -/
theorem update (h : view.Lively rules) {index : Nat} {question : MergeSlot.Question}
    {slot : MergeSlot} {next : MergeSlot × Option MergeSlot.Question}
    (hslot : view.slots[index]? = some slot) (hupdated : slot.Updated question next)
    (hquestion : question ≠ .status) : (view.set index next.1).Lively rules := by
  refine h.set index ?_
  have hfirst := h slot (List.mem_of_getElem? hslot)
  cases hupdated with
  | closed | empty | drained | undrained => exact hfirst
  | lively _ _ hliveness =>
      rw [Ne, timeout_eq_none]
      rcases hliveness with rfl | rfl <;> simp
  | silent => exact absurd rfl hquestion

end View.Lively

/-! ## The length of a round -/

/-- A bound for the turns that a merge of a number of partitions still takes until it begins the next
round. -/
def Control.turns (count : Nat) : Control → Nat
  | .top => 5 * count + 7
  | .surveying index _ => count - index + 4 * count + 6
  | .filling _ => 4 * count + 5
  | .updating index .head _ => 3 * (count - index) + count + 4
  | .updating index .drained _ => 3 * (count - index) + count + 3
  | .updating index .status _ => 3 * (count - index) + count + 2
  | .choosing index => count - index + 1
  | .sending _ => 5 * count + 8
  | .idling _ | .finished => 0

/-- A look at a partition to bring what is known of it up to date is one turn less. -/
theorem update_turns {count index : Nat} {question : MergeSlot.Question} {slot : MergeSlot}
    {next : MergeSlot × Option MergeSlot.Question} (h : slot.Updated question next)
    (hindex : index < count) (wall : Instant) :
    (goOn index wall next.2).turns count < (Control.updating index question wall).turns count := by
  cases h <;> simp only [goOn, Control.turns] <;> omega

namespace Run

/-! ## Waits that are answered -/

/-- No wait of a round has ended in vain. -/
def Answered (run : Run) : Prop :=
  ∀ round ∈ run.round :: run.earlier, round.silences = []

/-- Every partition is waited for, and none was passed over when a batch was chosen. -/
structure Lively (rules : MergeRules) (run : Run) : Prop where
  slots : run.control ≠ .finished → run.here.view.Lively rules
  start : ∀ index, (run.round.start index).view.Lively rules
  choices : ∀ choice ∈ run.choices, ∀ index, ¬ choice.round.Excuses rules index

theorem Turned.answered (h : run.Turned rules next) (hnext : next.Answered) : run.Answered := by
  cases h with
  | begin =>
      intro round hround
      refine hnext round (List.mem_cons_of_mem _ ?_)
      rcases List.mem_cons.mp hround with rfl | hround
      · simp
      · exact List.mem_append_left _ hround
  | settle =>
      intro round hround
      rcases List.mem_cons.mp hround with rfl | hround
      · exact (List.append_eq_nil_iff.mp (hnext _ List.mem_cons_self)).1
      · exact hnext round (List.mem_cons_of_mem _ hround)
  | survey => exact List.forall_mem_cons.mpr (List.forall_mem_cons.mp hnext)
  | await | review | update | resume | look | choose | idle | send | wake | drain | stop =>
      exact hnext

theorem step_answered (h : run.Step rules next) (hnext : next.Answered) : run.Answered := by
  cases h with
  | turn hturn => exact (after_turned hturn).answered hnext
  | write | receive | refuse | leave | cancel | elapse => exact hnext

namespace Lively

/-- A round without silences in which every partition is waited for excuses none. -/
theorem not_excuses (h : run.Lively rules) (hanswered : run.Answered) (index : Nat) :
    ¬ run.round.Excuses rules index := by
  rintro (⟨slot, hslot, htimeout⟩ | ⟨silence, hsilence, -⟩)
  · exact h.start index slot (List.mem_of_getElem? hslot) htimeout
  · rw [hanswered run.round List.mem_cons_self] at hsilence
    cases hsilence

theorem turned (h : run.Lively rules) (hwatched : run.Watched rules) (hanswered : run.Answered)
    (hturned : run.Turned rules next) : next.Lively rules := by
  cases hturned with
  | begin hcontrol =>
      have hslots := h.slots (hcontrol ▸ nofun)
      exact ⟨fun _ => hslots, fun _ => hslots, h.choices⟩
  | @survey index _ slot hcontrol hslot =>
      have hslots := (h.slots (hcontrol ▸ nofun)).look hslot
      exact { h with
        slots := fun _ => hslots
        start := Round.come_start_all (·.view.Lively rules) h.start hslots }
  | await hcontrol | review hcontrol | resume hcontrol | idle hcontrol =>
      exact { h with slots := fun _ => h.slots (hcontrol ▸ nofun) }
  | settle hcontrol _ hpoll | wake hcontrol hpoll =>
      exact { h with slots := fun _ => (h.slots (hcontrol ▸ nofun)).poll hpoll }
  | @update index question wall slot hcontrol hslot =>
      have hupdated := slot.update_updated rules wall question
      refine { h with slots := fun _ => (h.slots (hcontrol ▸ nofun)).update hslot hupdated ?_ }
      rintro rfl
      -- Only a partition that is excused is asked for its status.
      have hasks := hwatched.scanned.asks
      rw [hcontrol] at hasks
      exact h.not_excuses hanswered index hasks
  | look hcontrol hslot =>
      exact { h with slots := fun _ => (h.slots (hcontrol ▸ nofun)).look hslot }
  | choose hcontrol =>
      refine { h with slots := fun _ => (h.slots (hcontrol ▸ nofun)).pop _, choices := ?_ }
      intro choice hchoice
      rcases List.mem_append.mp hchoice with hchoice | hchoice
      · exact h.choices choice (List.mem_append_left _ hchoice)
      · obtain rfl := List.mem_singleton.mp hchoice
        exact h.not_excuses hanswered
  | send hcontrol =>
      refine { h with slots := fun _ => h.slots (hcontrol ▸ nofun), choices := ?_ }
      intro choice hchoice
      exact h.choices choice ((List.append_nil _).subst hchoice)
  | drain => exact { h with slots := fun hworking => absurd rfl hworking }
  | stop =>
      refine { h with slots := fun hworking => absurd rfl hworking, choices := ?_ }
      intro choice hchoice
      exact h.choices choice (List.mem_append_left _ ((List.append_nil _).subst hchoice))

theorem step (h : run.Lively rules) (hwatched : run.Watched rules) (hanswered : run.Answered)
    (hstep : run.Step rules next) : next.Lively rules := by
  cases hstep with
  | turn hturn => exact h.turned hwatched hanswered (after_turned hturn)
  | @write index first batches source hfirst =>
      refine { h with slots := fun hworking slot hslot => ?_ }
      have hslots := h.slots hworking
      rcases List.mem_or_eq_of_mem_set hslot with hslot | rfl
      · exact hslots slot hslot
      · exact hslots first (List.mem_of_getElem? hfirst)
  | receive | refuse | leave | cancel | elapse => exact { h with }

end Lively

theorem start_lively (capacity : Nat) (cancelled : Bool) (now : Nat) (wall : Instant) :
    (start sources capacity cancelled now wall).Lively rules := by
  have hslots : (start sources capacity cancelled now wall).here.view.Lively rules := by
    intro slot hslot
    obtain ⟨source, -, rfl⟩ := List.mem_map.mp hslot
    exact nofun
  exact ⟨fun _ => hslots, fun _ => hslots, fun choice hchoice => by cases hchoice⟩

/-- As long as every wait is answered, no partition is passed over. -/
theorem reachable_lively (h : Reachable rules sources run) (hanswered : run.Answered) :
    run.Lively rules := by
  induction h with
  | start _ capacity cancelled now wall => exact start_lively capacity cancelled now wall
  | step hreachable hstep ih =>
      have hbefore := step_answered hstep hanswered
      exact (ih hbefore).step (reachable_watched hreachable) hbefore hstep

/-- What a merge sends is in order of time and place. -/
theorem sent_sorted (h : Reachable rules sources run) (hanswered : run.Answered)
    (hordered : ∀ index, Ordered (run.here.pushed index)) :
    run.sent.Pairwise Choice.AtOrBefore := by
  have hlively := reachable_lively h hanswered
  rw [List.pairwise_iff_getElem]
  intro position position' hbound hbound' hlt
  have hfirst := List.getElem?_eq_getElem hbound
  rcases sent_order h hfirst (List.getElem?_eq_getElem hbound') hlt (hordered _) with
    horder | ⟨-, hexcuses⟩
  · exact horder
  · have hmem := List.mem_append_left run.held.toList (List.mem_of_getElem? hfirst)
    exact absurd hexcuses (hlively.choices _ hmem _)

/-! ## The places of the partitions -/

/-- A run goes on with the partitions that it began with, and nothing is pushed elsewhere. -/
theorem reachable_places (h : Reachable rules sources run) :
    run.here.view.slots.length = sources.length ∧
      ∀ index, sources.length ≤ index → run.here.pushed index = [] := by
  induction h with
  | start _ capacity cancelled now wall =>
      refine ⟨List.length_map _, fun index hindex => ?_⟩
      simp [start, List.getElem?_eq_none hindex]
  | step hreachable hstep ih =>
      cases hstep with
      | turn hturn =>
          have hwriters := congrArg List.length (after_turned hturn).writers
          simp only [writersOf, List.length_map] at hwriters
          refine ⟨hwriters.trans ih.1, fun index hindex => ?_⟩
          rw [(after_turned hturn).pushed, ih.2 index hindex]
      | @write place slot batches source hslot =>
          refine ⟨(List.length_set ..).trans ih.1, fun index hindex => ?_⟩
          have hlt := (List.getElem?_eq_some_iff.mp hslot).1
          rw [ih.1] at hlt
          have hne : index ≠ place := by omega
          exact (Function.update_of_ne hne ..).trans (ih.2 index hindex)
      | receive | refuse | leave | cancel | elapse => exact ih

/-! ## Sources whose writers have gone -/

/-- All writers have gone, so the merge waits for nothing. -/
structure Left (run : Run) : Prop where
  writers : ∀ index, run.here.writing index = false
  waits : ∀ waits, run.control.waits? = some waits → waits = []
  busy : ∀ deadline, run.control ≠ .idling deadline
  opened : ∀ count, run.control = .choosing count → false ∈ run.here.view.slots.map (·.closed)
  answered : run.Answered

/-- The number of batches in stock. -/
def countOf (stocks : List Stock) : Nat :=
  (stocks.map (·.batches)).flatten.length

theorem count_of_set {stocks : List Stock} {index : Nat} {stock : Stock} {batch : MessageBatch}
    {rest : List MessageBatch} (hstock : stocks[index]? = some stock)
    (hbatches : stock.batches = batch :: rest) :
    countOf (stocks.set index { stock with batches := rest }) + 1 = countOf stocks := by
  induction stocks generalizing index with
  | nil => cases hstock
  | cons first others ih =>
      cases index with
      | zero =>
          obtain rfl := Option.some.inj hstock
          simp only [countOf, List.set_cons_zero, List.map_cons, List.flatten_cons,
            List.length_append, hbatches, List.length_cons]
          omega
      | succ index =>
          have hothers := ih hstock
          simp only [countOf, List.set_cons_succ, List.map_cons, List.flatten_cons,
            List.length_append] at hothers ⊢
          omega

/-- A bound for the turns that a merge still takes when all writers have gone. -/
def work (run : Run) : Nat :=
  if run.control = .finished then 0
  else
    (5 * run.here.view.slots.length + 8) * countOf (stocksOf run.here.view.slots) +
      run.control.turns run.here.view.slots.length

namespace Left

/-- A source whose writer has gone has a head or has met the end of its channel once it was filled. -/
theorem no_wait (h : run.Left) {index : Nat} {slot : MergeSlot}
    (hslot : run.here.view.slots[index]? = some slot) (now : Nat) :
    waitFor? rules now index slot.fill = none := by
  rw [Option.eq_none_iff_forall_not_mem]
  intro wait hwait
  obtain ⟨timeout, hopen, hhead, hend, -, -⟩ := wait_for_some.mp hwait
  have hgone := h.writers index
  rw [Moment.writing, hslot, Option.any_some] at hgone
  rw [slot.fill_closed] at hopen
  rw [MergeSlot.fill, if_neg (by simp [hopen])] at hhead hend
  have hfilled := slot.source.fill_filled
  generalize slot.source.fill = source at hfilled hhead hend
  cases hfilled with
  | still hstill =>
      rcases hstill with hsome | hmet | ⟨-, hwriter⟩
      · simp [show slot.source.head = none from hhead] at hsome
      · simp [show slot.source.exhausted = false from hend] at hmet
      · simp [hgone] at hwriter
  | taken => cases hhead
  | ended => cases hend

/-- A merge that has looked at all partitions finds a head. -/
theorem chosen (h : run.Left) (hwatched : run.Watched rules) (hlively : run.Lively rules)
    {count : Nat} (hcontrol : run.control = .choosing count) :
    chosen? run.here.view.slots ≠ none := by
  intro hnone
  obtain ⟨slot, hslot, hopen⟩ := List.mem_map.mp (h.opened count hcontrol)
  obtain ⟨index, hindex⟩ := List.getElem?_of_mem hslot
  have hcovers := hwatched.scanned.covers index slot hindex
  rw [hcontrol] at hcovers
  rcases hcovers with (hclosed | hsome) | hexcuses
  · simp [hopen] at hclosed
  · have hhead := head_none_of_chosen_none hnone hindex
    rw [MergeSlot.head?, if_neg (by simp [hopen])] at hhead
    simp [hhead] at hsome
  · exact hlively.not_excuses h.answered index hexcuses

/-- A slot is replaced by one that is closed exactly if it is. -/
theorem opened_set (h : run.Left) {count index : Nat} (hcontrol : run.control = .choosing count)
    {slot next : MergeSlot} (hslot : run.here.view.slots[index]? = some slot)
    (hclosed : next.closed = slot.closed) :
    false ∈ (run.here.view.set index next).slots.map (·.closed) := by
  rw [View.set, map_set_same (fun slot : MergeSlot => slot.closed) hslot next hclosed]
  exact h.opened count hcontrol

theorem turned (h : run.Left) (hwatched : run.Watched rules) (hlively : run.Lively rules)
    (hturned : run.Turned rules next) : next.Left := by
  have hwriters (index : Nat) : next.here.writing index = false :=
    (Moment.writing_congr hturned.writers index).trans (h.writers index)
  cases hturned with
  | begin =>
      refine ⟨hwriters, ?_, nofun, nofun, ?_⟩
      · intro waits hwaits
        exact (Option.some.inj hwaits).symm
      · intro round hround
        rcases List.mem_cons.mp hround with rfl | hround
        · rfl
        · refine h.answered round ?_
          rw [List.mem_append, List.mem_singleton] at hround
          exact List.mem_cons.mpr hround.symm
  | @survey index waits slot hcontrol hslot =>
      refine ⟨hwriters, ?_, nofun, nofun,
        List.forall_mem_cons.mpr (List.forall_mem_cons.mp h.answered)⟩
      intro noted hnoted
      obtain rfl := Option.some.inj hnoted
      rw [h.no_wait hslot, h.waits waits (by rw [hcontrol]; rfl)]
      rfl
  | await hcontrol =>
      refine ⟨hwriters, ?_, nofun, nofun, h.answered⟩
      exact fun waits hwaits => h.waits waits (by rw [hcontrol]; exact hwaits)
  | @settle waits _ _ hcontrol hwait =>
      rw [h.waits waits (by rw [hcontrol]; rfl)] at hwait
      cases hwait
  | @update index question wall slot =>
      generalize slot.update rules wall question = updated at *
      obtain ⟨updated, _ | question⟩ := updated <;>
        exact ⟨hwriters, nofun, nofun, nofun, h.answered⟩
  | resume _ _ hslot hopen =>
      exact ⟨hwriters, nofun, nofun, fun _ _ => List.mem_map.mpr ⟨_, hslot, hopen⟩, h.answered⟩
  | @look index slot hcontrol hslot =>
      exact ⟨hwriters, nofun, nofun, fun _ _ => h.opened_set hcontrol hslot slot.fill_closed,
        h.answered⟩
  | review | choose | send | drain | stop => exact ⟨hwriters, nofun, nofun, nofun, h.answered⟩
  | idle hcontrol _ hnone => exact absurd hnone (h.chosen hwatched hlively hcontrol)
  | wake hcontrol => exact absurd hcontrol (h.busy _)

theorem write (h : run.Left) {index : Nat} {slot : MergeSlot} {batches : List MessageBatch}
    {source : PartitionSource} (hslot : run.here.view.slots[index]? = some slot)
    (hwritten : slot.source.Written batches source) :
    Left { run with here := run.here.write index { slot with source } batches } where
  writers other := ((Moment.Precedes.write hslot hwritten).gone other (h.writers other)).1
  waits := h.waits
  busy := h.busy
  opened _ hcontrol := h.opened_set hcontrol hslot rfl
  answered := h.answered

theorem step (h : run.Left) (hwatched : run.Watched rules) (hlively : run.Lively rules)
    (hstep : run.Step rules next) : next.Left := by
  cases hstep with
  | turn hturn => exact h.turned hwatched hlively (after_turned hturn)
  | write hslot hwritten => exact h.write hslot hwritten
  | receive | refuse | leave | cancel | elapse => exact { h with }

/-- The merge goes on within a round, and its sources hold what they held. -/
theorem work_lt (hlength : next.here.view.slots.length = run.here.view.slots.length)
    (hstocks : stocksOf next.here.view.slots = stocksOf run.here.view.slots)
    (hturns : next.control.turns run.here.view.slots.length <
      run.control.turns run.here.view.slots.length) : next.work < run.work := by
  have hworking : run.control ≠ .finished := by
    intro hfinished
    rw [hfinished] at hturns
    exact Nat.not_lt_zero _ hturns
  rw [work, work, if_neg hworking, hlength, hstocks]
  split <;> omega

/-- Every turn lowers the bound for those that are left. -/
theorem work_turned (h : run.Left) (hwatched : run.Watched rules) (hlively : run.Lively rules)
    (hturned : run.Turned rules next) : next.work < run.work := by
  have hlength : next.here.view.slots.length = run.here.view.slots.length := by
    simpa only [writersOf, List.length_map] using congrArg List.length hturned.writers
  cases hturned with
  | begin hcontrol =>
      refine work_lt hlength rfl ?_
      simp only [hcontrol, Control.turns]
      omega
  | survey hcontrol hslot =>
      refine work_lt hlength (look_refills hslot).stocks ?_
      have hlt := (List.getElem?_eq_some_iff.mp hslot).1
      simp only [hcontrol, Control.turns]
      omega
  | await hcontrol =>
      refine work_lt hlength rfl ?_
      simp only [hcontrol, Control.turns]
      omega
  | @settle waits _ _ hcontrol hwait =>
      rw [h.waits waits (by rw [hcontrol]; rfl)] at hwait
      cases hwait
  | review hcontrol =>
      refine work_lt hlength rfl ?_
      simp only [hcontrol, Control.turns]
      omega
  | @update _ question wall slot hcontrol hslot =>
      refine work_lt hlength (update_refills rules _ _ hslot).stocks ?_
      rw [hcontrol]
      exact update_turns (slot.update_updated rules wall question)
        (List.getElem?_eq_some_iff.mp hslot).1 wall
  | @resume _ question _ _ hcontrol =>
      refine work_lt hlength rfl ?_
      rw [hcontrol]
      cases question <;> simp only [Control.turns] <;> omega
  | look hcontrol hslot =>
      refine work_lt hlength (look_refills hslot).stocks ?_
      have hlt := (List.getElem?_eq_some_iff.mp hslot).1
      simp only [hcontrol, Control.turns]
      omega
  | @choose _ index _ _ hcontrol _ _ hslot hhead =>
      -- A batch less is in stock, which pays for the rest of this round and for the next one.
      obtain ⟨hbatches, hpop⟩ := pop_stocks hslot (MergeSlot.source_head hhead)
      have hcount := count_of_set (stocks_of_slot hslot) hbatches
      change (run.here.view.pop index).slots.length = run.here.view.slots.length at hlength
      simp only [work, hcontrol, see, hlength, hpop, reduceCtorEq, if_false, Control.turns, ← hcount,
        Nat.mul_add_one]
      omega
  | idle hcontrol _ hnone => exact absurd hnone (h.chosen hwatched hlively hcontrol)
  | send hcontrol =>
      refine work_lt hlength rfl ?_
      simp only [hcontrol, Control.turns]
      omega
  | wake hcontrol => exact absurd hcontrol (h.busy _)
  | @drain _ question _ hcontrol =>
      cases question <;> simp only [work, hcontrol, Control.turns, reduceCtorEq, if_true, if_false] <;>
        omega
  | stop hcontrol =>
      rcases hcontrol with hcontrol | ⟨batch, hcontrol⟩ <;>
      · simp only [work, hcontrol, Control.turns, reduceCtorEq, if_true, if_false]
        omega

/-- Nothing raises the bound. -/
theorem work_step (h : run.Left) (hwatched : run.Watched rules) (hlively : run.Lively rules)
    (hstep : run.Step rules next) : next.work ≤ run.work := by
  cases hstep with
  | turn hturn => exact Nat.le_of_lt (h.work_turned hwatched hlively (after_turned hturn))
  | @write index slot batches source hslot hwritten =>
      have hgone := h.writers index
      rw [Moment.writing, hslot, Option.any_some] at hgone
      have hsame : source.stock.batches = slot.source.stock.batches := by
        rw [hwritten.stock, (hwritten.gone hgone).1, List.append_nil]
      have hcount : countOf (stocksOf (run.here.view.slots.set index { slot with source })) =
          countOf (stocksOf run.here.view.slots) := by
        simp only [countOf, stocksOf, List.map_map]
        rw [map_set_same _ hslot { slot with source } hsame]
      refine Nat.le_of_eq ?_
      simp only [work, Moment.write, hcount, List.length_set]
  | receive | refuse | leave | cancel | elapse => exact Nat.le_refl _

/-- A merge that has not ended can take a turn, unless its output is full. -/
theorem can_turn (h : run.Left) (hworking : run.control ≠ .finished) :
    (∃ next, next ∈ transitions rules run.control run.here.view) ∨
      run.here.view.output.capacity ≤ run.here.view.output.queue.length := by
  cases hcontrol : run.control with
  | top =>
      refine .inl ?_
      unfold transitions
      dsimp only
      split <;> exact ⟨_, List.mem_singleton_self _⟩
  | filling waits =>
      rw [h.waits waits (by rw [hcontrol]; rfl)]
      exact .inl ⟨_, List.mem_singleton_self _⟩
  | surveying | updating | choosing => exact .inl ⟨_, List.mem_singleton_self _⟩
  | sending batch =>
      unfold transitions
      dsimp only
      split
      · exact .inl ⟨_, List.mem_singleton_self _⟩
      · cases hsend : run.here.view.output.send batch with
        | sent output => exact .inl ⟨_, List.mem_singleton_self _⟩
        | refused => exact .inl ⟨_, List.mem_singleton_self _⟩
        | full =>
            unfold Channel.send at hsend
            split at hsend
            · cases hsend
            · split at hsend
              · cases hsend
              next hlength => exact .inr (Nat.le_of_not_lt hlength)
  | idling deadline => exact absurd hcontrol (h.busy deadline)
  | finished => exact absurd hcontrol hworking

end Left

theorem start_left (hgone : ∀ source ∈ sources, source.channel.senderOpen = false) (capacity : Nat)
    (cancelled : Bool) (now : Nat) (wall : Instant) :
    (start sources capacity cancelled now wall).Left where
  writers index := by
    simp only [start, Moment.writing, List.getElem?_map]
    cases hsource : sources[index]? with
    | none => rfl
    | some source => exact hgone source (List.mem_of_getElem? hsource)
  waits := nofun
  busy := nofun
  opened := nofun
  answered round hround := by
    obtain rfl := List.mem_singleton.mp hround
    rfl

/-- If the writers have gone beforehand, the merge waits for nothing. -/
theorem reachable_left (h : Reachable rules sources run)
    (hgone : ∀ source ∈ sources, source.channel.senderOpen = false) : run.Left := by
  induction h with
  | start _ capacity cancelled now wall => exact start_left hgone capacity cancelled now wall
  | step hreachable hstep ih =>
      exact ih.step (reachable_watched hreachable) (reachable_lively hreachable ih.answered) hstep

/-- Consider a merge of partitions whose times do not decrease, and an order in which every wait of a
round ends with a batch or the end of its partition, such as any order if the writers have gone
beforehand. When the merge has ended and was not cancelled and its output was not refused, its output is
the stable sort by time of what was pushed to the partitions, one partition after the other. If the
writers have gone beforehand the merge does come to its end: as long as it has not ended it can take a
turn, unless its output is full, and every turn lowers a bound that nothing raises. -/
theorem sends_sorted (h : Reachable rules sources run)
    (hordered : ∀ index, Ordered (run.here.pushed index))
    (hquiet : run.Answered ∨ ∀ source ∈ sources, source.channel.senderOpen = false) :
    (run.control = .finished → run.here.view.cancelled = false →
      run.here.view.output.receiverOpen = true →
      run.received ++ run.here.view.output.queue =
        ((List.range sources.length).flatMap run.here.pushed).mergeSort timeLe) ∧
    ((∀ source ∈ sources, source.channel.senderOpen = false) →
      (run.control ≠ .finished → (∃ next, next ∈ transitions rules run.control run.here.view) ∨
        run.here.view.output.capacity ≤ run.here.view.output.queue.length) ∧
      (∀ next ∈ transitions rules run.control run.here.view, (run.after next).work < run.work) ∧
      ∀ next, run.Step rules next → next.work ≤ run.work) := by
  have haccounted := reachable_accounted h
  have hanswered : run.Answered := hquiet.elim id fun hgone => (reachable_left h hgone).answered
  constructor
  · intro hfinished hcancelled hopen
    have hdrained : run.drained = true := by
      rcases haccounted.ended hfinished with hdrained | hyes | hclosed
      · exact hdrained
      · simp [hcancelled] at hyes
      · simp [hopen] at hclosed
    have hall (index : Nat) := (haccounted.drained hdrained index).2
    have hplaces : ∀ choice ∈ run.sent, choice.index < sources.length := by
      intro choice hchoice
      by_contra hindex
      have hnone := (reachable_places h).2 choice.index (Nat.le_of_not_lt hindex)
      have hmem := mem_of_place hchoice
      rw [hall, hnone] at hmem
      cases hmem
    obtain ⟨lost, hsent, hlost⟩ := haccounted.passes
    rw [hlost hopen, List.append_nil] at hsent
    rw [← hsent]
    exact sorted_of_order (sent_sorted h hanswered hordered) hplaces hall
  · intro hgone
    have hleft := reachable_left h hgone
    have hwatched := reachable_watched h
    have hlively := reachable_lively h hanswered
    refine ⟨hleft.can_turn, fun next hnext => ?_, fun next hstep => ?_⟩
    · exact hleft.work_turned hwatched hlively (after_turned hnext)
    · exact hleft.work_step hwatched hlively hstep

/-- A partition with two batches, and one without. -/
def timelySources : List PartitionSource :=
  [⟨"0", ⟨4, [batchAt "0" 2, batchAt "0" 3], true, true⟩, none, false, .receiving⟩, .new "1" 4]

/-- Whenever the merge waits, a batch comes or the partition ends. -/
def timelyRun? : Option Run :=
  (start timelySources 4 false 0 .epoch).play? sampleRules
    (turns 4 ++ .push 1 (batchAt "1" 2) :: turns 25 ++ .leave 1 :: turns 14 ++ .leave 0 :: turns 6)

theorem timely_sound : ∀ source ∈ timelySources, source.Sound := by
  intro source hsource
  simp only [timelySources, List.mem_cons, List.not_mem_nil, or_false] at hsource
  rcases hsource with rfl | rfl <;> exact ⟨rfl, nofun⟩

/-- Of two batches with the same time, that of the first partition comes first. -/
theorem sends_sorted_sample :
    ∃ run, Reachable sampleRules timelySources run ∧ run.control = .finished ∧ run.Answered ∧
      run.received ++ run.here.view.output.queue =
        [batchAt "0" 2, batchAt "1" 2, batchAt "0" 3] ∧
      run.received ++ run.here.view.output.queue =
        ((List.range 2).flatMap run.here.pushed).mergeSort timeLe := by
  have hsome : timelyRun?.isSome = true := by decide +kernel
  obtain ⟨run, hrun⟩ := Option.isSome_iff_exists.mp hsome
  have hview : timelyRun?.map (fun run => (run.control, run.here.view.cancelled,
      run.here.view.output.receiverOpen)) = some (.finished, false, true) := by decide +kernel
  have houtput : timelyRun?.map (fun run => run.received ++ run.here.view.output.queue) =
      some [batchAt "0" 2, batchAt "1" 2, batchAt "0" 3] := by decide +kernel
  have hpushed : timelyRun?.map (fun run => (run.here.pushed 0, run.here.pushed 1)) =
      some ([batchAt "0" 2, batchAt "0" 3], [batchAt "1" 2]) := by decide +kernel
  have hsilences : timelyRun?.map (fun run =>
      (run.round :: run.earlier).all (·.silences.isEmpty)) = some true := by decide +kernel
  rw [hrun, Option.map_some, Option.some.injEq] at hview houtput hpushed hsilences
  simp only [Prod.mk.injEq] at hview hpushed
  have hreachable : Reachable sampleRules timelySources run :=
    reachable_of_play (.start timely_sound 4 false 0 .epoch) hrun
  have hanswered : run.Answered := by
    intro round hround
    exact List.isEmpty_iff.mp (List.all_eq_true.mp hsilences round hround)
  have hordered (index : Nat) : Ordered (run.here.pushed index) := by
    match index with
    | 0 =>
        rw [hpushed.1]
        unfold Ordered
        decide +kernel
    | 1 =>
        rw [hpushed.2]
        exact List.pairwise_singleton ..
    | later + 2 =>
        rw [(reachable_places hreachable).2 (later + 2) (Nat.le_add_left ..)]
        exact List.Pairwise.nil
  refine ⟨run, hreachable, hview.1, hanswered, houtput, ?_⟩
  exact (sends_sorted hreachable hordered (.inl hanswered)).1 hview.1 hview.2.1 hview.2.2

end Run

end Merge

end WindowJoin

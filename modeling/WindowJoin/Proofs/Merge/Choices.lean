import WindowJoin.Proofs.Merge.Rounds

/-!
# Why a merge chooses what it chooses

A merge looks at its partitions one after the other and sends the earliest batch that it has found
(`Choice.Least`). It can miss an earlier one only if nothing of that partition was there when it looked,
and then the partition was passed over in this round: it was inactive or paused when the round began, or
was waited for in vain for the whole time that it is given (`Round.PassesOver`). Main statement:
`Run.choices_justified`. Its invariant is `Run.Watched`.

A batch can be pushed behind the back of the merge: to a partition that it has looked at, while it looks
at the others. Such a batch may be earlier than the one that is chosen then (`overtaken`).
-/

namespace WindowJoin

namespace Merge

variable {rules : MergeRules} {sources : List PartitionSource} {run next : Run}

/-! ## Partitions that are passed over -/

/-- A partition is not waited for exactly when it is inactive or paused. -/
theorem timeout_eq_none {slot : MergeSlot} :
    slot.timeout? rules = none ↔ slot.liveness = .inactive ∨ slot.liveness = .paused := by
  unfold MergeSlot.timeout?
  cases slot.liveness <;> simp

/-- The batch at the head of a partition. -/
def Moment.head? (moment : Moment) (index : Nat) : Option MessageBatch :=
  (moment.view.slots[index]?).bind (·.head?)

namespace Choice

/-- The choice has an earlier time than a batch of a partition, or the same time and no later place. -/
def Leads (choice : Choice) (index : Nat) (batch : MessageBatch) : Prop :=
  choice.batch.enqueuedTime < batch.enqueuedTime ∨
    choice.batch.enqueuedTime = batch.enqueuedTime ∧ choice.index ≤ index

/-- The batch was at the head of its partition, and no head had an earlier time, or the same time and an
earlier place. This goes for all heads when it was chosen, and for what each partition had in stock when
it was looked at for the choice. -/
structure Least (choice : Choice) : Prop where
  head : choice.moment.head? choice.index = some choice.batch
  least : ∀ index head, choice.moment.head? index = some head → choice.Leads index head
  found : ∀ index head rest, (choice.looks index).stock index = head :: rest →
    choice.Leads index head
  before : ∀ index, (choice.looks index).Precedes choice.moment

end Choice

/-- A look at a partition behind the choices so far: one with nothing at its head was closed or had been
waited for. -/
structure Looked (rules : MergeRules) (sent : List Choice) (round : Round) (index : Nat)
    (look : Moment) : Prop where
  sound : look.view.Sound
  balanced : look.Balanced sent
  excused : ∀ slot, look.view.slots[index]? = some slot →
    slot.Settled ∨ round.Excuses rules index

/-- The choice was right after those before it: the merge had looked at every partition and took the
least head that it found. -/
structure Choice.Justified (rules : MergeRules) (before : List Choice) (choice : Choice) : Prop where
  least : choice.Least
  looked : ∀ index, Looked rules before choice.round index (choice.looks index)

/-- Every choice was right after those before it. -/
def Justified (rules : MergeRules) (choices : List Choice) : Prop :=
  ∀ (position : Nat) (choice : Choice), choices[position]? = some choice →
    choice.Justified rules (choices.take position)

namespace Justified

variable {choices added : List Choice}

theorem nil (rules : MergeRules) : Justified rules [] := by
  intro position choice h
  cases h

theorem add (h : Justified rules choices) {choice : Choice}
    (hchoice : choice.Justified rules choices) : Justified rules (choices ++ [choice]) := by
  intro position found hfound
  by_cases hlt : position < choices.length
  · rw [List.getElem?_append_left hlt] at hfound
    rw [List.take_append_of_le_length (Nat.le_of_lt hlt)]
    exact h position found hfound
  · have hposition : position = choices.length := by
      have hbound := (List.getElem?_eq_some_iff.mp hfound).1
      rw [List.length_append, List.length_singleton] at hbound
      omega
    subst hposition
    rw [List.getElem?_concat_length, Option.some.injEq] at hfound
    subst hfound
    rw [List.take_left]
    exact hchoice

theorem of_append (h : Justified rules (choices ++ added)) : Justified rules choices := by
  intro position choice hchoice
  have hlt := (List.getElem?_eq_some_iff.mp hchoice).1
  have hjustified := h position choice (by rw [List.getElem?_append_left hlt, hchoice])
  rwa [List.take_append_of_le_length (Nat.le_of_lt hlt)] at hjustified

end Justified

namespace Run

/-- The chosen head is the least of those that were found. -/
theorem Scanned.chosen_choice (h : run.Scanned rules) {count index : Nat} {slot : MergeSlot}
    {batch : MessageBatch} (hcontrol : run.control = .choosing count)
    (hnone : run.here.view.slots[count]? = none)
    (hchosen : chosen? run.here.view.slots = some index)
    (hslot : run.here.view.slots[index]? = some slot) (hhead : slot.head? = some batch) :
    Choice.Least ⟨index, batch, run.round, run.looks, run.here⟩ := by
  obtain ⟨first, least, hfirst, hleast, hall⟩ := chosen_least hchosen
  obtain rfl : first = slot := Option.some.inj (hfirst.symm.trans hslot)
  obtain rfl : least = batch := Option.some.inj (hleast.symm.trans hhead)
  refine {
    head := by
      rw [Moment.head?, hslot]
      exact hhead
    least := ?_
    found := ?_
    before := fun other => (h.stands count hcontrol other).precedes }
  · intro other head hother
    obtain ⟨otherSlot, hother, hfound⟩ := Option.bind_eq_some_iff.mp hother
    exact hall other otherSlot head hother hfound
  · intro other head rest hstock
    change (run.looks other).stock other = head :: rest at hstock
    cases hseen : (run.looks other).view.slots[other]? with
    | none =>
        rw [Moment.stock, hseen] at hstock
        cases hstock
    | some seen =>
        rw [Moment.stock_of_slot hseen] at hstock
        obtain ⟨otherSlot, hother, hclosed, hsame, hempty⟩ := h.looked_head hcontrol hnone hseen
        have hsound := (h.stands count hcontrol other).sound seen (List.mem_of_getElem? hseen)
        have hsource : seen.source.head = some head := by
          cases hfound : seen.source.head with
          | none =>
              rw [hempty hfound] at hstock
              cases hstock
          | some found =>
              rw [PartitionSource.stock, hfound] at hstock
              rw [(List.cons.inj hstock).1]
        refine hall other otherSlot head hother ?_
        rw [MergeSlot.head?, if_neg, ← hsame]
        · exact hsource
        · -- A closed slot has nothing in stock.
          rw [← hclosed]
          intro hclosed
          rw [(hsound.source.ended (hsound.closed hclosed)).2] at hstock
          cases hstock

/-- The choice is right after what has been sent. -/
theorem Scanned.chosen_justified (h : run.Scanned rules) {count index : Nat} {slot : MergeSlot}
    {batch : MessageBatch} (hcontrol : run.control = .choosing count)
    (hnone : run.here.view.slots[count]? = none)
    (hchosen : chosen? run.here.view.slots = some index)
    (hslot : run.here.view.slots[index]? = some slot) (hhead : slot.head? = some batch) :
    Choice.Justified rules run.sent ⟨index, batch, run.round, run.looks, run.here⟩ where
  least := h.chosen_choice hcontrol hnone hchosen hslot hhead
  looked other := by
    have hstands := h.stands count hcontrol other
    refine ⟨hstands.sound, hstands.balanced, fun seen hseen => ?_⟩
    obtain ⟨found, hfound, hclosed, hsame, -⟩ := h.looked_head hcontrol hnone hseen
    have hcovers := h.covers other found hfound
    rw [hcontrol] at hcovers
    exact hcovers.imp_left fun hsettled => by rwa [MergeSlot.Settled, hclosed, hsame]

/-- What a merge has kept to so far. -/
structure Watched (rules : MergeRules) (run : Run) : Prop where
  scanned : run.Scanned rules
  /-- A wait that was not cancelled was kept up. -/
  kept : run.here.view.cancelled = false →
    ∀ silence ∈ run.round.silences, run.round.Kept rules silence
  held : ∀ choice, run.held = some choice → choice.round = run.round
  sent : ∀ choice ∈ run.sent, ∀ silence ∈ choice.round.silences, choice.round.Kept rules silence
  justified : Justified rules run.choices
  past : ∀ choice ∈ run.choices, choice.moment.Precedes run.here

namespace Watched

/-- The merge goes on within its round, and chooses and sends nothing. -/
theorem advance (h : run.Watched rules) {control : Control} {here : Moment} {looks : Nat → Moment}
    {drained : Bool} (hprecedes : run.here.Precedes here)
    (hcancelled : here.view.cancelled = false → run.here.view.cancelled = false)
    (hscanned : Scanned rules { run with control, here, looks, drained }) :
    Watched rules { run with control, here, looks, drained } :=
  { h with
    scanned := hscanned
    kept := fun hnot => h.kept (hcancelled hnot)
    past := fun choice hchoice => (h.past choice hchoice).trans hprecedes }

theorem begin (h : run.Watched rules) (haccounted : run.Accounted) (hcontrol : run.control = .top) :
    Watched rules { run with
      control := .surveying 0 []
      round := ⟨fun _ => run.here, []⟩
      earlier := run.earlier ++ [run.round] } :=
  { h with
    scanned := Scanned.begin haccounted hcontrol
    kept := fun _ silence hsilence => by cases hsilence
    held := fun choice hchoice => absurd hchoice (haccounted.not_held (hcontrol ▸ rfl)) }

theorem survey (h : run.Watched rules) (haccounted : run.Accounted) {index : Nat}
    {waits : List Wait} {slot : MergeSlot} (hcontrol : run.control = .surveying index waits)
    (hslot : run.here.view.slots[index]? = some slot) :
    Watched rules { run.see (run.here.view.set index slot.fill) with
      control := .surveying (index + 1)
        (waits ++ (waitFor? rules run.here.view.now index slot.fill).toList)
      round := run.round.come index (run.here.look index slot) } :=
  { h with
    scanned := h.scanned.survey haccounted hcontrol hslot
    kept := fun _ silence hsilence => by
      change silence ∈ run.round.silences at hsilence
      rw [(h.scanned.surveyed index waits hcontrol).1] at hsilence
      cases hsilence
    held := fun choice hchoice => absurd hchoice (haccounted.not_held (hcontrol ▸ rfl))
    past := fun choice hchoice =>
      (h.past choice hchoice).trans (.look hslot) }

theorem settle (h : run.Watched rules) (haccounted : run.Accounted) {waits : List Wait}
    {wait : Wait} {slots : List MergeSlot} (hcontrol : run.control = .filling waits)
    (hwait : wait ∈ waits) (hpoll : pollSlot? run.here.view wait = some slots) :
    Watched rules { run.see { run.here.view with slots } with
      control := .filling (waits.erase wait)
      round := { run.round with
        silences := run.round.silences ++
          Moment.silences ⟨{ run.here.view with slots }, run.here.pushed⟩ waits
            (waits.erase wait) } } := by
  refine { h with
    scanned := h.scanned.settle hcontrol hpoll
    kept := ?_
    held := fun choice hchoice => absurd hchoice (haccounted.not_held (hcontrol ▸ rfl))
    past := fun choice hchoice =>
      (h.past choice hchoice).trans (.of_writers rfl (poll_slot_refills hpoll).writers) }
  intro hcancelled silence hsilence
  rcases List.mem_append.mp hsilence with hsilence | hsilence
  · exact h.kept hcancelled silence hsilence
  · obtain ⟨other, slot, hother, hover, hslot, hhead, hend, rfl⟩ := mem_silences.mp hsilence
    have hsame : other = wait := by
      by_contra hne
      exact hover ((List.mem_erase_of_ne hne).mpr hother)
    subst hsame
    exact h.scanned.settle_kept haccounted hcontrol hwait hpoll hslot hhead hend hcancelled

theorem choose (h : run.Watched rules) (haccounted : run.Accounted) {count index : Nat}
    {slot : MergeSlot} {batch : MessageBatch} (hcontrol : run.control = .choosing count)
    (hnone : run.here.view.slots[count]? = none)
    (hchosen : chosen? run.here.view.slots = some index)
    (hslot : run.here.view.slots[index]? = some slot) (hhead : slot.head? = some batch) :
    Watched rules { run.see (run.here.view.pop index) with
      control := .sending batch
      held := some ⟨index, batch, run.round, run.looks, run.here⟩ } := by
  have hchoices : run.choices = run.sent := by
    rw [choices, haccounted.held_none (hcontrol ▸ rfl), Option.toList_none, List.append_nil]
  have hpop : run.here.Precedes ⟨run.here.view.pop index, run.here.pushed⟩ :=
    .of_writers rfl (pop_writers _ index)
  exact { h with
    scanned := .free (.inr (.inl ⟨batch, rfl⟩))
    held := fun choice hchoice => by
      obtain rfl := Option.some.inj hchoice
      rfl
    justified := by
      have hbefore := h.justified
      rw [hchoices] at hbefore
      exact hbefore.add (h.scanned.chosen_justified hcontrol hnone hchosen hslot hhead)
    past := by
      intro choice hchoice
      rcases List.mem_append.mp hchoice with hchoice | hchoice
      · exact (h.past choice (hchoices ▸ hchoice)).trans hpop
      · obtain rfl := List.mem_singleton.mp hchoice
        exact hpop }

theorem send (h : run.Watched rules) (hcancelled : run.here.view.cancelled = false)
    (output : Channel MessageBatch) :
    Watched rules { run.see { run.here.view with output } with
      control := .top, sent := run.sent ++ run.held.toList, held := none } := by
  have hchoices : (run.sent ++ run.held.toList) ++ [] = run.choices := List.append_nil _
  refine { h with
    scanned := .free (.inl rfl)
    held := fun choice hchoice => by cases hchoice
    sent := ?_
    justified := by
      show Justified rules ((run.sent ++ run.held.toList) ++ [])
      rw [hchoices]
      exact h.justified
    past := fun choice hchoice =>
      (h.past choice (hchoices ▸ hchoice)).trans (.of_writers rfl rfl) }
  intro choice hchoice
  rcases List.mem_append.mp hchoice with hchoice | hchoice
  · exact h.sent choice hchoice
  · -- The batch was chosen in this round, and the merge has not been cancelled since.
    rw [h.held choice (Option.mem_toList.mp hchoice)]
    exact h.kept hcancelled

theorem stop (h : run.Watched rules) :
    Watched rules { run.see (finish run.here.view).2 with control := .finished, held := none } where
  scanned := .free (.inr (.inr (.inr rfl)))
  kept := h.kept
  held choice hchoice := by cases hchoice
  sent := h.sent
  justified := by
    show Justified rules (run.sent ++ [])
    rw [List.append_nil]
    exact h.justified.of_append
  past choice hchoice := by
    have hsent : choice ∈ run.sent := by simpa [choices, see] using hchoice
    exact (h.past choice (List.mem_append_left _ hsent)).trans (.of_writers rfl (finish_writers _))

theorem turned (h : run.Watched rules) (haccounted : run.Accounted)
    (hturned : run.Turned rules next) : next.Watched rules := by
  have hprecedes : run.here.Precedes next.here := .of_writers hturned.pushed hturned.writers
  cases hturned with
  | begin hcontrol => exact h.begin haccounted hcontrol
  | survey hcontrol hslot => exact h.survey haccounted hcontrol hslot
  | await hcontrol hnone => exact h.advance hprecedes id (h.scanned.await hcontrol hnone)
  | settle hcontrol hwait hpoll => exact h.settle haccounted hcontrol hwait hpoll
  | review hcontrol => exact h.advance hprecedes id (h.scanned.review hcontrol _)
  | @update _ question wall slot hcontrol hslot =>
      have hupdated := slot.update_updated rules wall question
      exact h.advance hprecedes id (h.scanned.update hcontrol hslot hupdated)
  | resume hcontrol hnone => exact h.advance hprecedes id (h.scanned.resume haccounted hcontrol hnone)
  | look hcontrol hslot => exact h.advance hprecedes id (h.scanned.look haccounted hcontrol hslot)
  | choose hcontrol hnone hchosen hslot hhead =>
      exact h.choose haccounted hcontrol hnone hchosen hslot hhead
  | idle => exact h.advance hprecedes id (.free (.inr (.inr (.inl ⟨_, rfl⟩))))
  | send _ hcancelled => exact h.send hcancelled _
  | wake => exact h.advance hprecedes id (.free (.inl rfl))
  | drain => exact h.advance hprecedes id (.free (.inr (.inr (.inr rfl))))
  | stop => exact h.stop

/-- Something happens that the merge does not do. -/
theorem outside (h : run.Watched rules) {here : Moment} (received : List MessageBatch)
    (hprecedes : run.here.Precedes here)
    (hcancelled : here.view.cancelled = false → run.here.view.cancelled = false)
    (hscanned : Scanned rules { run with here, received }) :
    Watched rules { run with here, received } :=
  { h with
    scanned := hscanned
    kept := fun hnot => h.kept (hcancelled hnot)
    past := fun choice hchoice => (h.past choice hchoice).trans hprecedes }

theorem step (h : run.Watched rules) (haccounted : run.Accounted) (hstep : run.Step rules next) :
    next.Watched rules := by
  have hprecedes := step_precedes hstep
  cases hstep with
  | turn hturn => exact h.turned haccounted (after_turned hturn)
  | @write index first batches source hfirst hwritten =>
      refine h.outside run.received hprecedes id ?_
      refine h.scanned.outside run.received hprecedes (List.length_set ..) fun other slot hslot => ?_
      rcases set_cases hslot with ⟨rfl, rfl⟩ | ⟨-, hslot⟩
      · exact ⟨first, hfirst, rfl, hwritten.head, hwritten.exhausted⟩
      · exact ⟨slot, hslot, rfl, rfl, rfl⟩
  | receive | refuse | leave | elapse =>
      refine h.outside _ hprecedes id (h.scanned.outside _ hprecedes rfl ?_)
      exact fun index slot hslot => ⟨slot, hslot, rfl, rfl, rfl⟩
  | cancel =>
      refine h.outside run.received hprecedes (by simp) (h.scanned.outside _ hprecedes rfl ?_)
      exact fun index slot hslot => ⟨slot, hslot, rfl, rfl, rfl⟩

end Watched

theorem start_watched (sources : List PartitionSource) (capacity : Nat) (cancelled : Bool)
    (now : Nat) (wall : Instant) : (start sources capacity cancelled now wall).Watched rules where
  scanned := .free (.inl rfl)
  kept _ silence hsilence := by cases hsilence
  held choice hchoice := by cases hchoice
  sent choice hchoice := by cases hchoice
  justified := .nil rules
  past choice hchoice := by cases hchoice

/-- Every run has been watched. -/
theorem reachable_watched (h : Reachable rules sources run) : run.Watched rules := by
  induction h with
  | start hsound capacity cancelled now wall => exact start_watched sources capacity cancelled now wall
  | step hreachable hstep ih => exact ih.step (reachable_accounted hreachable) hstep

end Run

/-! ## What was sent before an earlier batch -/

theorem mem_of_place {choice : Choice} {choices : List Choice} (h : choice ∈ choices) :
    choice.batch ∈ ofPlace choice.index choices := by
  refine List.mem_map_of_mem (List.mem_filter.mpr ⟨h, ?_⟩)
  exact decide_eq_true rfl

/-- The times of the batches do not decrease. -/
def Ordered (batches : List MessageBatch) : Prop :=
  batches.Pairwise (·.enqueuedTime ≤ ·.enqueuedTime)

/-- Of two beginnings of an ordered list, the first batch of one after a common part is no later than
any batch of the other after it. -/
theorem head_le_of_prefixes {common rest after all : List MessageBatch} {head batch : MessageBatch}
    (hordered : Ordered all) (hrest : common ++ head :: rest <+: all) (hafter : common ++ after <+: all)
    (hbatch : batch ∈ after) : head.enqueuedTime ≤ batch.enqueuedTime := by
  obtain ⟨tail, rfl⟩ := hrest
  rw [List.append_assoc] at hafter hordered
  have hmem := ((List.prefix_append_right_inj common).mp hafter).subset hbatch
  have htail := List.pairwise_cons.mp (List.pairwise_append.mp hordered).2.1
  rcases List.mem_cons.mp hmem with rfl | hmem
  · exact Instant.le_refl _
  · exact htail.1 batch hmem

/-- A choice has an earlier time than another, or the same time and no later place. -/
def Choice.AtOrBefore (first later : Choice) : Prop :=
  first.Leads later.index later.batch

/-- What comes of a partition behind what was sent before a look is not before the head that the look
found. If it found none, nothing was in stock, and the partition was excused. -/
theorem Looked.order {sent : List Choice} {round : Round} {index : Nat} {look here : Moment}
    {after : List MessageBatch} {batch : MessageBatch} (h : Looked rules sent round index look)
    (hprecedes : look.Precedes here) (hbegins : ofPlace index sent ++ after <+: here.pushed index)
    (hbatch : batch ∈ after) (hordered : Ordered (here.pushed index)) :
    (∃ head rest, look.stock index = head :: rest ∧ head.enqueuedTime ≤ batch.enqueuedTime) ∨
      look.stock index = [] ∧ round.Excuses rules index := by
  have hpushed := h.balanced index
  cases hstock : look.stock index with
  | cons head rest =>
      have hgrows := hprecedes.grows index
      rw [hpushed, hstock] at hgrows
      exact .inl ⟨head, rest, rfl, head_le_of_prefixes hordered hgrows hbegins hbatch⟩
  | nil =>
      -- Without a writer nothing would come any more.
      have hwriting : look.writing index ≠ false := by
        intro hgone
        rw [(hprecedes.gone index hgone).2, hpushed, hstock] at hbegins
        have hnil := List.prefix_nil.mp ((List.prefix_append_right_inj _).mp hbegins)
        rw [hnil] at hbatch
        cases hbatch
      refine .inr ⟨rfl, ?_⟩
      cases hslot : look.view.slots[index]? with
      | none =>
          rw [Moment.writing, hslot] at hwriting
          exact absurd rfl hwriting
      | some slot =>
          have hsound := h.sound slot (List.mem_of_getElem? hslot)
          rw [Moment.writing, hslot, Option.any_some] at hwriting
          rw [Moment.stock_of_slot hslot] at hstock
          refine (h.excused slot hslot).resolve_left ?_
          rintro (hclosed | hsome)
          · exact hwriting (hsound.source.ended (hsound.closed hclosed)).1
          · obtain ⟨head, hhead⟩ := Option.isSome_iff_exists.mp hsome
            rw [PartitionSource.stock, hhead] at hstock
            cases hstock

/-- A choice is at or before each one that is sent after it, unless nothing of the partition of that one
was in stock when it was looked at and the partition was excused. -/
theorem Choice.Justified.order {first later : Choice} {before after : List Choice}
    {here : Moment} (h : first.Justified rules before) (hpast : first.moment.Precedes here)
    (hbegins : ofPlace later.index (before ++ first :: after) <+: here.pushed later.index)
    (hlater : later ∈ after) (hordered : Ordered (here.pushed later.index)) :
    first.AtOrBefore later ∨
      (first.looks later.index).stock later.index = [] ∧
        first.round.Excuses rules later.index := by
  have hmem := mem_of_place hlater
  by_cases hplace : first.index = later.index
  · have hsplit : ofPlace later.index (before ++ first :: after) =
        ofPlace later.index before ++ first.batch :: ofPlace later.index after := by
      simp [ofPlace, hplace]
    rw [hsplit] at hbegins
    have hle := head_le_of_prefixes hordered hbegins hbegins (List.mem_cons_of_mem _ hmem)
    exact .inl ((Instant.lt_or_eq_of_le hle).imp_right (⟨·, Nat.le_of_eq hplace⟩))
  have hsplit : ofPlace later.index (before ++ first :: after) =
      ofPlace later.index before ++ ofPlace later.index after := by
    simp [ofPlace, hplace]
  rw [hsplit] at hbegins
  have hprecedes := (h.least.before later.index).trans hpast
  refine ((h.looked later.index).order hprecedes hbegins hmem hordered).imp_left ?_
  rintro ⟨head, rest, hstock, hle⟩
  rcases h.least.found later.index head rest hstock with hlt | ⟨heq, hindex⟩
  · exact .inl (Instant.lt_of_lt_of_le hlt hle)
  · rw [← heq] at hle
    exact (Instant.lt_or_eq_of_le hle).imp_right (⟨·, hindex⟩)

/-- Of two batches that were sent, the first one is at or before the later one, or the partition of the
later one had nothing in stock when it was looked at for the first one, and was excused. -/
theorem Run.sent_order (h : Reachable rules sources run) {position position' : Nat}
    {first later : Choice} (hfirst : run.sent[position]? = some first)
    (hlater : run.sent[position']? = some later) (hlt : position < position')
    (hordered : Ordered (run.here.pushed later.index)) :
    first.AtOrBefore later ∨
      (first.looks later.index).stock later.index = [] ∧
        first.round.Excuses rules later.index := by
  have hwatched := reachable_watched h
  have hsplit : run.sent = run.sent.take position ++ first :: run.sent.drop (position + 1) := by
    obtain ⟨hbound, rfl⟩ := List.getElem?_eq_some_iff.mp hfirst
    rw [List.getElem_cons_drop, List.take_append_drop]
  have hafter : later ∈ run.sent.drop (position + 1) := by
    refine List.mem_of_getElem? (i := position' - (position + 1)) ?_
    rw [List.getElem?_drop, ← hlater]
    congr 1
    omega
  have hfirst_mem : first ∈ run.choices := List.mem_append_left _ (List.mem_of_getElem? hfirst)
  refine (hwatched.justified.of_append position first hfirst).order (hwatched.past first hfirst_mem)
    ?_ hafter hordered
  rw [← hsplit]
  exact (reachable_accounted h).begins later.index

/-- A batch without messages. -/
def batchAt (partition : String) (millis : Int) : MessageBatch :=
  ⟨0, 0, partition, Instant.epoch.addSaturating (spanOfMillis millis), 0, []⟩

def sampleRules : MergeRules := ⟨10, 20, spanOfMillis 300000⟩

/-- A partition with a batch, and one without. -/
def sampleSources : List PartitionSource :=
  [⟨"0", ⟨4, [batchAt "0" 5], true, true⟩, none, false, .receiving⟩, .new "1" 4]

/-- A number of turns of the merge. -/
def turns (number : Nat) : List Run.Act :=
  List.replicate number (.turn 0)

/-- The second partition stays empty for the whole time that it is waited for. When the batch of the
first one has been chosen, an earlier one comes. -/
def sampleRun? : Option Run :=
  (Run.start sampleSources 4 false 0 .epoch).play? sampleRules
    (turns 4 ++ .elapse 10 :: turns 10 ++ .push 1 (batchAt "1" 3) :: .turn 0 :: .leave 0 ::
      .leave 1 :: turns 22)

/-- The rules with waits of more than a hundred years. -/
def patientRules : MergeRules := ⟨4398046511104, 4398046511104, spanOfMillis 300000⟩

end Merge

end WindowJoin
